import BoxEngine.Lib.Number
import BoxEngine.ReservationPort

/-!
# One worker of the durable tier

An operation runs from one call of the port to the next. A phase names the call it waits on and carries the answer on
its way back; an answer that is an error was thrown.
-/

namespace BoxEngine

open Js

/-! ## Arguments and outcomes -/

structure ReservationContext where
  deployment : String
  broker : String
  generation : ℤ
  mode : String

structure AcquireArgs where
  owner : String
  keys : List String
  ttlMs : Number
  now : ℚ
  sideByKey : String → Option String
  context : Option ReservationContext

structure ReleaseArgs where
  owner : String
  fence : Option ℕ

structure RenewArgs where
  owner : String
  ttlMs : Number
  now : ℚ
  fence : Option ℕ
  context : Option ReservationContext

structure VerifyArgs where
  owner : String
  keys : List String
  now : ℚ
  fence : Option ℕ
  context : Option ReservationContext

structure ReservationLease where
  owner : String
  keys : List String
  expiresAt : ℚ
  fence : ℕ
  deriving DecidableEq

structure ReservationConflictDetail where
  key : String
  heldBy : String
  heldSide : Option String
  tier : String
  deriving DecidableEq

inductive ReservationOutcome where
  | ok (lease : ReservationLease)
  | conflict (conflicts : List ReservationConflictDetail)
  | unavailable (tier detail : String)
  deriving DecidableEq

inductive RenewOutcome where
  | ok (expiresAt : ℚ) (fence : ℕ)
  | lost (detail : String)
  | expired (detail : String)
  | unavailable (detail : String)

inductive OwnershipVerdict where
  | owned (expiresAt : ℚ) (fence : ℕ)
  | expired (detail : String)
  | lost (detail : String)
  | superseded (detail : String)
  | unavailable (detail : String)
  deriving DecidableEq

def dedupeFrom (seen : List String) : List String → List String
  | [] => []
  | key :: keys => if key ∈ seen then dedupeFrom seen keys else key :: dedupeFrom (key :: seen) keys

def dedupeKeys (keys : List String) : List String := dedupeFrom [] keys

theorem mem_dedupeFrom {key : String} {keys seen : List String} : key ∈ dedupeFrom seen keys ↔ key ∈ keys ∧ key ∉ seen := by
  induction keys generalizing seen with
  | nil => simp [dedupeFrom]
  | cons first keys ih =>
    rw [dedupeFrom]
    by_cases hfirst : first ∈ seen
    · rw [if_pos hfirst, ih]
      grind
    · rw [if_neg hfirst, List.mem_cons, ih]
      grind

@[simp] theorem mem_dedupeKeys {key : String} {keys : List String} : key ∈ dedupeKeys keys ↔ key ∈ keys := by
  simp [dedupeKeys, mem_dedupeFrom]

def normaliseTtl : Number → ℚ
  | .fin ttlMs => if 0 < ttlMs then ⌊ttlMs⌋ else 1000
  | _ => 1000

/-! ## The worker -/

structure DurableReservationsDeps where
  name : String
  ownerPrefix : String
  skewGraceMs : Option ℚ

structure HeldLease where
  keys : List String
  expiresAt : ℚ
  fence : ℕ

inductive Readiness where
  | usable (initialised : Bool)
  | notReady (error : Option String)
  | clockFailed (error : String)

structure DurableInstrumentReservations where
  deps : DurableReservationsDeps
  clockOffsetMs : ℚ
  held : String → Option HeldLease
  spareFences : List ℕ
  lastError : Option String

namespace DurableInstrumentReservations

def MAX_SPARE_FENCES : ℕ := 8

def new (deps : DurableReservationsDeps) : DurableInstrumentReservations where
  deps
  clockOffsetMs := 0
  held _ := none
  spareFences := []
  lastError := none

variable (w : DurableInstrumentReservations)

def skewGraceMs : ℚ := max 0 (w.deps.skewGraceMs.getD 250)

def toAuthority (localMs : ℚ) : ℚ := localMs + w.clockOffsetMs

def toLocal (authorityMs : ℚ) : ℚ := authorityMs - w.clockOffsetMs

def syncClock (before serverMs after : ℚ) : DurableInstrumentReservations :=
  { w with clockOffsetMs := ⌊serverMs - (before + (after - before) / 2) + 1 / 2⌋ }

def hold (owner : String) (lease : Option HeldLease) : DurableInstrumentReservations :=
  { w with held := fun o => if o = owner then lease else w.held o }

def failed (error : String) : DurableInstrumentReservations :=
  { w with lastError := some error }

def ensureUsable : Readiness → DurableInstrumentReservations × Option String
  | .usable initialised => (if initialised then { w with lastError := none } else w, none)
  | .notReady error =>
    let w := { w with lastError := error.or w.lastError }
    (w, some (w.lastError.getD (w.deps.name ++ " reservation authority is not ready")))
  | .clockFailed error => (w.failed error, some error)

def recycleFence (fence : ℕ) : DurableInstrumentReservations :=
  if MAX_SPARE_FENCES ≤ w.spareFences.length then w else { w with spareFences := fence :: w.spareFences }

/-! ## Acquire -/

structure Acquisition where
  owner : String
  keys : List String
  sideByKey : String → Option String
  ctx : ReservationContext
  authNow : ℚ
  authExpiresAt : ℚ

inductive InsertAttempt where
  | first
  | afterOwnDelete
  | afterReclaim

inductive AcquirePhase where
  | nextFence (answer : Option (Except String ℕ))
  | insert (attempt : InsertAttempt) (doc : DurableReservationDoc)
      (answer : Option (Except String InsertReservationResult))
  | deleteOwned (doc : DurableReservationDoc) (answer : Option (Except String ℕ))
  | deleteExpired (doc : DurableReservationDoc) (answer : Option (Except String ℕ))
  | findLiveByKeys (doc : DurableReservationDoc) (answer : Option (Except String (List DurableReservationDoc)))
  | returned (outcome : ReservationOutcome)

variable (a : Acquisition)

def document (fence : ℕ) : DurableReservationDoc where
  owner := a.owner
  deployment := a.ctx.deployment
  broker := a.ctx.broker
  generation := a.ctx.generation
  mode := a.ctx.mode
  keys := a.keys
  sides := a.keys.map fun key => (key, (a.sideByKey key).getD "")
  fence
  ownerPrefix := w.deps.ownerPrefix
  createdAt := a.authNow
  expiresAt := a.authExpiresAt
  renewedAt := a.authNow

def acquisition (args : AcquireArgs) (active : ReservationContext) : Acquisition where
  owner := args.owner
  keys := dedupeKeys args.keys
  sideByKey := args.sideByKey
  ctx := args.context.getD active
  authNow := w.toAuthority args.now
  authExpiresAt := w.toAuthority args.now + normaliseTtl args.ttlMs

/-- `tryAcquireAll` up to its first call: a spare fence is used before a new one is drawn. -/
def tryAcquireAll (readiness : Readiness) : DurableInstrumentReservations × AcquirePhase :=
  if a.keys = [] then
    (w, .returned (.unavailable w.deps.name "refusing to reserve an empty instrument set"))
  else
    match w.ensureUsable readiness with
    | (w, some detail) => (w, .returned (.unavailable w.deps.name detail))
    | (w, none) =>
      match w.spareFences with
      | fence :: rest => ({ w with spareFences := rest }, .insert .first (w.document a fence) none)
      | [] => (w, .nextFence none)

def describeFrom (tier : String) (wanted seen : List String) :
    List (DurableReservationDoc × String) → List ReservationConflictDetail
  | [] => []
  | (doc, key) :: rest =>
    if key ∉ wanted ∨ key ∈ seen then describeFrom tier wanted seen rest
    else
      let side := ((doc.sides.find? fun entry => entry.1 == key).map Prod.snd).getD ""
      { key, heldBy := doc.owner, heldSide := if side = "" then none else some side, tier } ::
        describeFrom tier wanted (key :: seen) rest

def describeConflicts (keys : List String) (live : List DurableReservationDoc) : List ReservationConflictDetail :=
  describeFrom w.deps.name keys [] (live.flatMap fun doc => doc.keys.map fun key => (doc, key))

def grant (owner : String) (keys : List String) (authExpiresAt : ℚ)
    (fence : ℕ) : DurableInstrumentReservations × AcquirePhase :=
  let expiresAt := w.toLocal authExpiresAt
  (w.hold owner (some { keys, expiresAt, fence }), .returned (.ok { owner, keys, expiresAt, fence }))

def failClosed (error : String) : DurableInstrumentReservations × AcquirePhase :=
  (w.failed error, .returned (.unavailable w.deps.name error))

def afterInsert (attempt : InsertAttempt)
    (doc : DurableReservationDoc) : InsertReservationResult → DurableInstrumentReservations × AcquirePhase
  | .inserted => w.grant a.owner a.keys a.authExpiresAt doc.fence
  | .ownerExists =>
    match attempt with
    | .first => (w, .deleteOwned doc none)
    | .afterOwnDelete | .afterReclaim => (w, .findLiveByKeys doc none)
  | .keyConflict =>
    match attempt with
    | .first | .afterOwnDelete => (w, .deleteExpired doc none)
    | .afterReclaim => (w, .findLiveByKeys doc none)

/-- A live lease of the caller's own alone is a success, else a conflict. -/
def afterHolders (doc : DurableReservationDoc)
    (live : List DurableReservationDoc) : DurableInstrumentReservations × AcquirePhase :=
  match live.find? fun d => d.owner == a.owner with
  | some mine =>
    if live.all fun d => d.owner == a.owner then w.grant a.owner mine.keys mine.expiresAt mine.fence
    else (w.recycleFence doc.fence, .returned (.conflict (w.describeConflicts a.keys live)))
  | none => (w.recycleFence doc.fence, .returned (.conflict (w.describeConflicts a.keys live)))

def resumeAcquire : AcquirePhase → DurableInstrumentReservations × AcquirePhase
  | .nextFence (some (.ok fence)) => (w, .insert .first (w.document a fence) none)
  | .insert attempt doc (some (.ok result)) => w.afterInsert a attempt doc result
  | .deleteOwned doc (some (.ok _)) => (w, .insert .afterOwnDelete doc none)
  | .deleteExpired doc (some (.ok reclaimed)) =>
    if 0 < reclaimed then (w, .insert .afterReclaim doc none) else (w, .findLiveByKeys doc none)
  | .findLiveByKeys doc (some (.ok live)) => w.afterHolders a doc live
  | .nextFence (some (.error e)) => w.failClosed e
  | .insert _ _ (some (.error e)) => w.failClosed e
  | .deleteOwned _ (some (.error e)) => w.failClosed e
  | .deleteExpired _ (some (.error e)) => w.failClosed e
  | .findLiveByKeys _ (some (.error e)) => w.failClosed e
  | phase => (w, phase)

end DurableInstrumentReservations

end BoxEngine
