import BoxEngine.Lib.Tickets
import Mathlib.Data.Rat.Defs

/-!
# The reservation authority

One document is one lease: a complete key set held by one owner. Each call of the port is one atomic action. No call
reads the `log` of what was drawn and inserted.
-/

namespace BoxEngine

structure DurableReservationDoc where
  owner : String
  deployment : String
  broker : String
  generation : ℤ
  mode : String
  keys : List String
  sides : List (String × String)
  fence : ℕ
  ownerPrefix : String
  createdAt : ℚ
  expiresAt : ℚ
  renewedAt : ℚ
  deriving DecidableEq

namespace DurableReservationDoc

def overlaps (doc : DurableReservationDoc) (deployment : String) (keys : List String) : Bool :=
  doc.deployment == deployment && doc.keys.any fun key => keys.contains key

def Clash (doc doc' : DurableReservationDoc) : Prop :=
  doc.deployment = doc'.deployment ∧ ∃ key ∈ doc.keys, key ∈ doc'.keys

instance (doc doc' : DurableReservationDoc) : Decidable (doc.Clash doc') :=
  inferInstanceAs (Decidable (_ ∧ _))

theorem overlaps_iff_clash (doc doc' : DurableReservationDoc) :
    doc.overlaps doc'.deployment doc'.keys = true ↔ doc.Clash doc' := by
  simp [overlaps, Clash]

theorem Clash.symm {doc doc' : DurableReservationDoc} (h : doc.Clash doc') : doc'.Clash doc := by
  obtain ⟨hdep, key, hkey, hkey'⟩ := h
  exact ⟨hdep.symm, key, hkey', hkey⟩

end DurableReservationDoc

inductive InsertReservationResult where
  | inserted
  | keyConflict
  | ownerExists
  deriving DecidableEq

structure Authority where
  docs : List DurableReservationDoc
  fences : ℕ
  log : List (Tickets.Entry DurableReservationDoc)

namespace Authority

def empty : Authority := ⟨[], 0, []⟩

variable (db : Authority)

def nextFence (_deployment : String) : ℕ × Authority :=
  (db.fences + 1, { db with fences := db.fences + 1, log := .drew (db.fences + 1) :: db.log })

/-- What an insert finds: the owner's own document, another one on one of the keys, or room. -/
def admission (doc : DurableReservationDoc) : InsertReservationResult :=
  if db.docs.any fun d => d.owner == doc.owner then .ownerExists
  else if db.docs.any fun d => d.overlaps doc.deployment doc.keys then .keyConflict
  else .inserted

def insert (doc : DurableReservationDoc) : InsertReservationResult × Authority :=
  match db.admission doc with
  | .inserted => (.inserted, { db with docs := db.docs ++ [doc], log := .granted doc :: db.log })
  | refused => (refused, db)

def delete (gone : DurableReservationDoc → Bool) : ℕ × Authority :=
  (db.docs.countP gone, { db with docs := db.docs.filter fun doc => !gone doc })

def deleteExpired (deployment : String) (keys : Option (List String)) (notAfter : ℚ) : ℕ × Authority :=
  db.delete fun doc => doc.deployment == deployment && decide (doc.expiresAt ≤ notAfter) &&
    keys.all fun keys => doc.overlaps deployment keys

def deleteOwned (owner : String) (fence : Option ℕ) : ℕ × Authority :=
  db.delete fun doc => doc.owner == owner && fence.all fun fence => doc.fence == fence

def deleteByOwnerPrefix (ownerPrefix : String) : ℕ × Authority :=
  db.delete fun doc => doc.owner.startsWith ownerPrefix

def findLiveByKeys (deployment : String) (keys : List String) (now : ℚ) : List DurableReservationDoc :=
  db.docs.filter fun doc => doc.overlaps deployment keys && decide (now < doc.expiresAt)

def findByOwner (owner : String) : Option DurableReservationDoc :=
  db.docs.find? fun doc => doc.owner == owner

structure RenewFilter where
  owner : String
  fence : Option ℕ
  broker : String
  generation : ℤ
  now : ℚ

def RenewFilter.accepts (args : RenewFilter) (doc : DurableReservationDoc) : Bool :=
  doc.owner == args.owner && (args.fence.all fun fence => doc.fence == fence) &&
    doc.broker == args.broker && doc.generation == args.generation && decide (args.now < doc.expiresAt)

/-- Extends the lease the filter still matches; a lease past its expiry is not renewable. -/
def renewOwned (args : RenewFilter) (expiresAt : ℚ) : Option DurableReservationDoc × Authority :=
  let renewed (doc : DurableReservationDoc) := { doc with expiresAt, renewedAt := args.now }
  ((db.docs.find? args.accepts).map renewed,
    { db with docs := db.docs.map fun doc => if args.accepts doc then renewed doc else doc })

end Authority

end BoxEngine
