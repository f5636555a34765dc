import BoxEngine.Lib.Keyed
import BoxEngine.ReservationWorkers
import Mathlib.Data.List.TakeWhile

/-!
# The chain of reservation tiers

A call asks each tier in turn and undoes those already taken when one does not grant. The durable tier is run call by
call, each with a fate of its own.
-/

namespace BoxEngine

open Js

/-! ## The in-process tier -/

structure InProcessEntry where
  owner : String
  expiresAt : ℚ
  side : Option String
  fence : ℕ

structure InProcessInstrumentReservations where
  entries : List (String × InProcessEntry)
  fenceSeq : ℕ

namespace InProcessInstrumentReservations

def new : InProcessInstrumentReservations := ⟨[], 0⟩

variable (r : InProcessInstrumentReservations)
variable (key : String)

def get? : Option InProcessEntry :=
  (r.entries.find? fun e => e.1 = key).map Prod.snd

def set (entry : InProcessEntry) : InProcessInstrumentReservations :=
  { r with entries := Keyed.put Prod.fst r.entries (key, entry) }

def delete : InProcessInstrumentReservations :=
  { r with entries := r.entries.filter fun e => ¬ e.1 = key }

variable (args : AcquireArgs)

def conflicts : List ReservationConflictDetail :=
  (dedupeKeys args.keys).filterMap fun key =>
    match r.get? key with
    | none => none
    | some entry =>
      if entry.expiresAt ≤ args.now then none
      else if entry.owner = args.owner then none
      else some { key, heldBy := entry.owner, heldSide := entry.side, tier := "in-process" }

def takeKeys (fence : ℕ) (keys : List String) : InProcessInstrumentReservations :=
  keys.foldl (fun r key =>
    r.set key { owner := args.owner, expiresAt := args.now + normaliseTtl args.ttlMs, side := args.sideByKey key, fence }) r

def tryAcquireAll : InProcessInstrumentReservations × ReservationOutcome :=
  if r.conflicts args ≠ [] then (r, .conflict (r.conflicts args))
  else
    let keys := dedupeKeys args.keys
    let fence := r.fenceSeq + 1
    (takeKeys { r with fenceSeq := fence } args fence keys,
      .ok { owner := args.owner, keys, expiresAt := args.now + normaliseTtl args.ttlMs, fence })

/-- Another owner's entry stays, and with a fence quoted so does the entry of another lease. -/
def releaseKey (args : ReleaseArgs) (r : InProcessInstrumentReservations) (key : String) :
    InProcessInstrumentReservations × ℕ :=
  match r.get? key with
  | none => (r, 0)
  | some entry =>
    if entry.owner ≠ args.owner then (r, 0)
    else if args.fence.any fun fence => entry.fence ≠ fence then (r, 0)
    else (r.delete key, 1)

def releaseKeys (args : ReleaseArgs) : List String → InProcessInstrumentReservations → InProcessInstrumentReservations × ℕ
  | [], r => (r, 0)
  | key :: keys, r =>
    let (r, released) := releaseKey args r key
    let (r, rest) := releaseKeys args keys r
    (r, released + rest)

def release (args : ReleaseArgs) (keys : Option (List String)) : InProcessInstrumentReservations × ℕ :=
  releaseKeys args (keys.getD (r.entries.map Prod.fst)) r

end InProcessInstrumentReservations

def DurableInstrumentReservations.acquireRound (a : DurableInstrumentReservations.Acquisition) (fate : Fate)
    (w : DurableInstrumentReservations) (db : Authority) (phase : DurableInstrumentReservations.AcquirePhase) :
    DurableInstrumentReservations × Authority × DurableInstrumentReservations.AcquirePhase :=
  let (phase, db) := serveAcquire w fate db a phase
  let (w, phase) := w.resumeAcquire a phase
  (w, db, phase)

def DurableInstrumentReservations.acquireRounds (a : DurableInstrumentReservations.Acquisition) :
    List Fate → DurableInstrumentReservations → Authority → DurableInstrumentReservations.AcquirePhase →
      DurableInstrumentReservations × Authority × DurableInstrumentReservations.AcquirePhase
  | [], w, db, phase => (w, db, phase)
  | fate :: fates, w, db, phase =>
    let (w, db, phase) := acquireRound a fate w db phase
    acquireRounds a fates w db phase

/-! ## Tiers -/

structure TierWeather where
  thrown : Option String
  active : ReservationContext
  synced : Option (ℚ × ℚ × ℚ)
  readiness : Readiness
  /-- The fates of the calls of the port, of which an acquisition makes at most seven. -/
  fates : ℕ → Fate
  ready : Bool
  releaseFate : Fate

inductive ReservationTier where
  | inProcess (r : InProcessInstrumentReservations)
  | durable (w : DurableInstrumentReservations) (db : Authority) (crossProcess : Bool)

inductive ReservationDurability where
  | localOnly
  | durable
  deriving DecidableEq

def DurableInstrumentReservations.synced (w : DurableInstrumentReservations) (weather : TierWeather) :
    DurableInstrumentReservations :=
  match weather.synced with
  | none => w
  | some (before, serverMs, after) => w.syncClock before serverMs after

namespace ReservationTier

def name : ReservationTier → String
  | inProcess _ => "in-process"
  | durable w _ _ => w.deps.name

def isDurable : ReservationTier → Bool
  | inProcess _ => false
  | durable _ _ crossProcess => crossProcess

def durability : ReservationTier → ReservationDurability
  | inProcess _ => .localOnly
  | durable _ _ _ => .durable

def answer (name : String) : DurableInstrumentReservations.AcquirePhase → ReservationOutcome
  | .returned outcome => outcome
  | _ => .unavailable name "still waiting"

def tryAcquireAll (args : AcquireArgs) (weather : TierWeather) (tier : ReservationTier) :
    ReservationTier × Except String ReservationOutcome :=
  match weather.thrown with
  | some error => (tier, .error error)
  | none =>
    match tier with
    | inProcess r =>
      let (r, outcome) := r.tryAcquireAll args
      (inProcess r, .ok outcome)
    | durable w db crossProcess =>
      let w := w.synced weather
      let a := w.acquisition args weather.active
      let (w, phase) := w.tryAcquireAll a weather.readiness
      let (w, db, phase) := DurableInstrumentReservations.acquireRounds a ((List.range 7).map weather.fates) w db phase
      (durable w db crossProcess, .ok (answer w.deps.name phase))

def release (args : ReleaseArgs) (keys : Option (List String)) (weather : TierWeather) :
    ReservationTier → ReservationTier × ℕ
  | inProcess r =>
    let (r, released) := r.release args keys
    (inProcess r, released)
  | durable w db crossProcess =>
    let (w, phase) := w.release args weather.ready
    let (phase, db) := serveCount weather.releaseFate db (db.deleteOwned args.owner args.fence) phase
    let (w, phase) := w.resumeCount phase
    (durable w db crossProcess, match phase with | .returned count => count | .waiting _ => 0)

end ReservationTier

/-! ## The chain -/

structure ChainedInstrumentReservations where
  tiers : List ReservationTier
  fences : String → Option (String → Option ℕ)

inductive ChainOutcome where
  | ok (lease : ReservationLease) (durability : ReservationDurability)
  | refused (outcome : ReservationOutcome)

structure ChainProgress where
  fence : ℕ
  expiresAt : ℚ
  durability : ReservationDurability
  issued : String → Option ℕ

namespace ChainProgress

def start (args : AcquireArgs) : ChainProgress where
  fence := 0
  expiresAt := args.now + normaliseTtl args.ttlMs
  durability := .localOnly
  issued _ := none

def granted (p : ChainProgress) (tier : ReservationTier) (lease : ReservationLease) : ChainProgress where
  fence := if tier.isDurable ∨ p.durability = .localOnly then lease.fence else p.fence
  expiresAt := if tier.isDurable ∨ p.durability = .localOnly then lease.expiresAt else p.expiresAt
  durability := if tier.durability = .durable then .durable else p.durability
  issued := Function.update p.issued tier.name (some lease.fence)

end ChainProgress

namespace ChainedInstrumentReservations

variable (c : ChainedInstrumentReservations)

def setFences (owner : String) (issued : Option (String → Option ℕ)) : ChainedInstrumentReservations :=
  { c with fences := Function.update c.fences owner issued }

def rollback (args : AcquireArgs) (taken : List (ReservationTier × TierWeather)) : List ReservationTier :=
  taken.map fun t => (t.1.release { owner := args.owner, fence := none } (some (dedupeKeys args.keys)) t.2).1

def acquireTiers (args : AcquireArgs) (taken : List (ReservationTier × TierWeather)) (p : ChainProgress) :
    List (ReservationTier × TierWeather) → List ReservationTier × Except ReservationOutcome ChainProgress
  | [] => (taken.map Prod.fst, .ok p)
  | (tier, weather) :: rest =>
    match tier.tryAcquireAll args weather with
    | (tier, .error detail) =>
      (rollback args taken ++ tier :: rest.map Prod.fst, .error (.unavailable tier.name detail))
    | (tier, .ok (.ok lease)) => acquireTiers args (taken ++ [(tier, weather)]) (p.granted tier lease) rest
    | (tier, .ok refused) => (rollback args taken ++ tier :: rest.map Prod.fst, .error refused)

def calls (weather : ℕ → TierWeather) : List (ReservationTier × TierWeather) :=
  c.tiers.zipIdx.map fun t => (t.1, weather t.2)

def tryAcquireAll (args : AcquireArgs) (weather : ℕ → TierWeather) : ChainedInstrumentReservations × ChainOutcome :=
  match acquireTiers args [] (.start args) (c.calls weather) with
  | (tiers, .ok p) =>
    ({ c with tiers }.setFences args.owner (some p.issued),
      .ok { owner := args.owner, keys := dedupeKeys args.keys, expiresAt := p.expiresAt, fence := p.fence } p.durability)
  | (tiers, .error outcome) => ({ c with tiers }.setFences args.owner none, .refused outcome)

end ChainedInstrumentReservations

/-! ## The in-process tier -/

namespace InProcessInstrumentReservations

variable {r : InProcessInstrumentReservations} {args : AcquireArgs} {k : String}
variable (key : String) (entry : InProcessEntry)

@[simp] theorem get?_set : (r.set key entry).get? k = if k = key then some entry else r.get? k := by
  simp only [get?, set, Keyed.find?_put]
  by_cases hk : k = key <;> simp [hk]

@[simp] theorem get?_delete : (r.delete key).get? k = if k = key then none else r.get? k := by
  simp only [get?, delete, Keyed.find?_erase]
  by_cases hk : k = key <;> simp [hk]

theorem get?_takeKeys (fence : ℕ) (keys : List String) :
    (takeKeys r args fence keys).get? k =
      if k ∈ keys then
        some { owner := args.owner, expiresAt := args.now + normaliseTtl args.ttlMs, side := args.sideByKey k, fence }
      else r.get? k := by
  induction keys generalizing r with
  | nil => simp [takeKeys]
  | cons key keys ih =>
    simp only [takeKeys, List.foldl_cons] at ih ⊢
    rw [ih, get?_set]
    by_cases hk : k ∈ keys
    · simp [hk]
    · by_cases hkey : k = key <;> simp [hk, hkey]

theorem get?_releaseKey (owner key : String) (entry : InProcessEntry) :
    (releaseKey ⟨owner, none⟩ r key).1.get? k = some entry ↔
      r.get? k = some entry ∧ ¬ (k = key ∧ entry.owner = owner) := by
  unfold releaseKey
  by_cases hk : k = key
  · subst hk
    cases hentry : r.get? k with
    | none => simp [hentry]
    | some found =>
      by_cases howner : found.owner = owner
      · simp [howner]
        rintro rfl
        exact howner
      · simp [howner, hentry]
        rintro rfl
        exact howner
  · cases hkey : r.get? key with
    | none => simp [hk]
    | some found =>
      by_cases howner : found.owner = owner <;> simp [howner, hk]

theorem get?_releaseKeys (owner : String) (keys : List String) (entry : InProcessEntry) :
    (releaseKeys ⟨owner, none⟩ keys r).1.get? k = some entry ↔
      r.get? k = some entry ∧ ¬ (k ∈ keys ∧ entry.owner = owner) := by
  induction keys generalizing r with
  | nil => simp [releaseKeys]
  | cons key keys ih =>
    simp only [releaseKeys]
    rw [ih, get?_releaseKey, List.mem_cons]
    tauto

end InProcessInstrumentReservations

/-! ## The durable tier -/

namespace DurableInstrumentReservations

structure Acquisition.Asks (a : Acquisition) (doc : DurableReservationDoc) : Prop where
  owner : doc.owner = a.owner
  keys : doc.keys = a.keys
  expiresAt : doc.expiresAt = a.authExpiresAt

theorem Acquisition.asks (a : Acquisition) (w : DurableInstrumentReservations) (fence : ℕ) :
    a.Asks (w.document a fence) := ⟨rfl, rfl, rfl⟩

def Vacant (db : Authority) (owner : String) : Prop := ∀ doc ∈ db.docs, doc.owner ≠ owner

def Alone (db : Authority) (a : Acquisition) : Prop := ∃ doc ∈ db.docs, a.Asks doc ∧ ∀ d ∈ db.docs, d.owner = a.owner → d = doc

def AcquirePhase.Undisturbed (a : Acquisition) (db : Authority) : AcquirePhase → Prop
  | .nextFence none => True
  | .insert .first doc none => a.Asks doc
  | .deleteOwned doc none => a.Asks doc
  | .insert _ doc none => a.Asks doc ∧ Vacant db a.owner
  | .deleteExpired doc none => a.Asks doc ∧ Vacant db a.owner
  | .findLiveByKeys doc none => a.Asks doc ∧ Vacant db a.owner
  | .returned (.ok _) => Alone db a
  | .returned _ => True
  | _ => False

variable (w : DurableInstrumentReservations)

theorem tryAcquireAll_undisturbed (a : Acquisition) (readiness : Readiness) (db : Authority) :
    (w.tryAcquireAll a readiness).2.Undisturbed a db := by
  unfold tryAcquireAll
  split
  · trivial
  · split
    · trivial
    · split
      · exact a.asks _ _
      · trivial

variable {db : Authority}

theorem Vacant.delete {owner : String} (h : Vacant db owner) (gone : DurableReservationDoc → Bool) :
    Vacant (db.delete gone).2 owner := fun doc hdoc => h doc (List.mem_filter.mp hdoc).1

theorem vacant_deleteOwned (db : Authority) (owner : String) : Vacant (db.deleteOwned owner none).2 owner := by
  intro doc hdoc
  simp only [Authority.deleteOwned, Authority.delete, Option.all_none, Bool.and_true, List.mem_filter] at hdoc
  simpa using hdoc.2

variable {doc : DurableReservationDoc}

theorem vacant_of_not_ownerExists (h : db.admission doc ≠ .ownerExists) : Vacant db doc.owner := by
  intro d hd howner
  apply h
  have hany : (db.docs.any fun d => d.owner == doc.owner) = true := by
    simp only [List.any_eq_true]
    exact ⟨d, hd, by simp [howner]⟩
  simp [Authority.admission, hany]

variable {a : Acquisition}

theorem insert_alone (hdoc : a.Asks doc) (h : db.admission doc = .inserted) : Alone (db.insert doc).2 a := by
  have hvacant : Vacant db doc.owner := vacant_of_not_ownerExists (by simp [h])
  refine ⟨doc, by simp [Authority.insert, h], hdoc, fun d hd howner => ?_⟩
  simp only [Authority.insert, h, List.mem_append, List.mem_singleton] at hd
  rcases hd with hd | hd
  · exact absurd (howner.trans hdoc.owner.symm) (hvacant d hd)
  · exact hd

theorem insert_refused (h : db.admission doc ≠ .inserted) : db.insert doc = (db.admission doc, db) := by
  unfold Authority.insert
  split <;> simp_all

theorem insert_undisturbed (attempt : InsertAttempt) (hdoc : a.Asks doc)
    (hvacant : attempt ≠ .first → Vacant db a.owner) :
    (w.afterInsert a attempt doc (db.insert doc).1).2.Undisturbed a (db.insert doc).2 := by
  by_cases hinserted : db.admission doc = .inserted
  · have hfst : (db.insert doc).1 = .inserted := by simp [Authority.insert, hinserted]
    rw [hfst]
    exact insert_alone hdoc hinserted
  · rw [insert_refused hinserted]
    by_cases howner : db.admission doc = .ownerExists
    · rw [howner]
      cases attempt with
      | first => exact hdoc
      | afterOwnDelete | afterReclaim => exact ⟨hdoc, hvacant (by simp)⟩
    · have hfree := vacant_of_not_ownerExists howner
      rw [hdoc.owner] at hfree
      have hconflict : db.admission doc = .keyConflict := by
        cases hadmission : db.admission doc <;> simp_all
      rw [hconflict]
      cases attempt with
      | first => exact ⟨hdoc, hfree⟩
      | afterOwnDelete => exact ⟨hdoc, hfree⟩
      | afterReclaim => exact ⟨hdoc, hfree⟩

variable {phase : AcquirePhase}

theorem acquireRound_undisturbed (fate : Fate) (h : phase.Undisturbed a db) :
    (acquireRound a fate w db phase).2.2.Undisturbed a (acquireRound a fate w db phase).2.1 := by
  have hrefused : ∀ (error : String) (db : Authority), (w.failClosed error).2.Undisturbed a db := fun _ _ => trivial
  cases phase with
  | nextFence answer =>
    cases answer with
    | some => exact h.elim
    | none =>
      cases fate with
      | answered => exact a.asks _ _
      | refused error | lost error => exact hrefused error _
  | insert attempt doc answer =>
    cases answer with
    | some => cases attempt <;> exact h.elim
    | none =>
      cases fate with
      | answered =>
        cases attempt with
        | first => exact insert_undisturbed w .first h (absurd rfl)
        | afterOwnDelete => exact insert_undisturbed w .afterOwnDelete h.1 fun _ => h.2
        | afterReclaim => exact insert_undisturbed w .afterReclaim h.1 fun _ => h.2
      | refused error | lost error => exact hrefused error _
  | deleteOwned doc answer =>
    cases answer with
    | some => exact h.elim
    | none =>
      cases fate with
      | answered => exact ⟨h, vacant_deleteOwned db a.owner⟩
      | refused error | lost error => exact hrefused error _
  | deleteExpired doc answer =>
    cases answer with
    | some => exact h.elim
    | none =>
      cases fate with
      | answered =>
        simp only [acquireRound, serveAcquire, Fate.settle, resumeAcquire]
        split <;> exact ⟨h.1, h.2.delete _⟩
      | refused error | lost error => exact hrefused error _
  | findLiveByKeys doc answer =>
    cases answer with
    | some => exact h.elim
    | none =>
      cases fate with
      | answered =>
        have hnone : (db.findLiveByKeys a.ctx.deployment a.keys a.authNow).find? (fun d => d.owner == a.owner) = none := by
          rw [List.find?_eq_none]
          intro d hd
          simpa using h.2 d (List.mem_filter.mp hd).1
        simp only [acquireRound, serveAcquire, Fate.settle, resumeAcquire, afterHolders, hnone]
        trivial
      | refused error | lost error => exact hrefused error _
  | returned outcome => exact h

theorem acquireRounds_undisturbed (fates : List Fate) (w : DurableInstrumentReservations)
    (h : phase.Undisturbed a db) :
    (acquireRounds a fates w db phase).2.2.Undisturbed a (acquireRounds a fates w db phase).2.1 := by
  induction fates generalizing w db phase with
  | nil => exact h
  | cons fate fates ih => exact ih _ (acquireRound_undisturbed w fate h)

theorem acquireRounds_of_returned (a : Acquisition) (fates : List Fate) (w : DurableInstrumentReservations)
    (db : Authority) (outcome : ReservationOutcome) :
    acquireRounds a fates w db (.returned outcome) = (w, db, .returned outcome) := by
  induction fates with
  | nil => rfl
  | cons fate fates ih => exact ih

/-- The phase awaits its call of the port, and at most `n` calls are left with it. -/
def AcquirePhase.CallsWithin (n : ℕ) : AcquirePhase → Prop
  | .nextFence none => 7 ≤ n
  | .insert .first _ none => 6 ≤ n
  | .deleteOwned _ none => 5 ≤ n
  | .insert .afterOwnDelete _ none => 4 ≤ n
  | .deleteExpired _ none => 3 ≤ n
  | .insert .afterReclaim _ none => 2 ≤ n
  | .findLiveByKeys _ none => 1 ≤ n
  | .returned _ => True
  | _ => False

variable (w : DurableInstrumentReservations)

theorem afterInsert_callsWithin {attempt : InsertAttempt} {doc : DurableReservationDoc}
    {n : ℕ} (h : (AcquirePhase.insert attempt doc none).CallsWithin (n + 1)) (result : InsertReservationResult) :
    (w.afterInsert a attempt doc result).2.CallsWithin n := by
  cases result with
  | inserted => trivial
  | ownerExists | keyConflict =>
    cases attempt <;> simp only [AcquirePhase.CallsWithin, afterInsert] at h ⊢ <;> omega

theorem acquireRound_callsWithin (fate : Fate) (db : Authority)
    {n : ℕ} (h : phase.CallsWithin (n + 1)) : (acquireRound a fate w db phase).2.2.CallsWithin n := by
  have hrefused : ∀ error : String, (w.failClosed error).2.CallsWithin n := fun _ => trivial
  cases phase with
  | nextFence answer =>
    cases answer with
    | some => exact h.elim
    | none =>
      cases fate with
      | answered => exact Nat.le_of_succ_le_succ h
      | refused error | lost error => exact hrefused error
  | insert attempt doc answer =>
    cases answer with
    | some => cases attempt <;> exact h.elim
    | none =>
      cases fate with
      | answered => exact afterInsert_callsWithin w h _
      | refused error | lost error => exact hrefused error
  | deleteOwned doc answer =>
    cases answer with
    | some => exact h.elim
    | none =>
      cases fate with
      | answered => exact Nat.le_of_succ_le_succ h
      | refused error | lost error => exact hrefused error
  | deleteExpired doc answer =>
    cases answer with
    | some => exact h.elim
    | none =>
      have hleft : 3 ≤ n + 1 := h
      cases fate with
      | answered =>
        simp only [acquireRound, serveAcquire, Fate.settle, resumeAcquire]
        split <;> simp only [AcquirePhase.CallsWithin] <;> omega
      | refused error | lost error => exact hrefused error
  | findLiveByKeys doc answer =>
    cases answer with
    | some => exact h.elim
    | none =>
      cases fate with
      | answered =>
        simp only [acquireRound, serveAcquire, Fate.settle, resumeAcquire, afterHolders]
        split
        · split <;> trivial
        · trivial
      | refused error | lost error => exact hrefused error
  | returned outcome => trivial

theorem acquireRounds_returns {fates : List Fate} (w : DurableInstrumentReservations) (db : Authority)
    (h : phase.CallsWithin fates.length) :
    ∃ outcome, (acquireRounds a fates w db phase).2.2 = .returned outcome := by
  induction fates generalizing w db phase with
  | nil =>
    unfold AcquirePhase.CallsWithin at h
    split at h
    case h_8 outcome => exact ⟨outcome, rfl⟩
    all_goals cases h
  | cons fate fates ih => exact ih _ _ (acquireRound_callsWithin w fate db h)

/-- Seven calls of the port are enough for an acquisition. -/
theorem tryAcquireAll_returns (readiness : Readiness) (fates : ℕ → Fate) (db : Authority) :
    ∃ outcome, (acquireRounds a ((List.range 7).map fates) (w.tryAcquireAll a readiness).1 db
      (w.tryAcquireAll a readiness).2).2.2 = .returned outcome := by
  apply acquireRounds_returns
  unfold DurableInstrumentReservations.tryAcquireAll
  split
  · trivial
  · split
    · trivial
    · split <;> simp [AcquirePhase.CallsWithin]

end DurableInstrumentReservations

open DurableInstrumentReservations

namespace ReservationTier

variable {args : AcquireArgs} {weather : TierWeather} {tier : ReservationTier}

def Holds (owner key : String) (expiresAt : ℚ) : ReservationTier → Prop
  | inProcess r => ∃ entry, r.get? key = some entry ∧ entry.owner = owner ∧ entry.expiresAt = expiresAt
  | durable _ db _ => ∃ doc ∈ db.docs, doc.owner = owner ∧ key ∈ doc.keys ∧ doc.expiresAt = expiresAt

def Agrees (owner : String) (tier tier' : ReservationTier) : Prop :=
  ∀ key expiresAt, tier'.Holds owner key expiresAt ↔ tier.Holds owner key expiresAt

def records (owner key : String) : ReservationTier → Bool
  | inProcess r => (r.get? key).any fun entry => entry.owner = owner
  | durable _ db _ => db.docs.any fun doc => doc.owner = owner ∧ key ∈ doc.keys

theorem records_iff {owner key : String} : tier.records owner key = true ↔ ∃ expiresAt, tier.Holds owner key expiresAt := by
  cases tier <;> simp [records, Holds, Option.any_eq_true]

def grants (args : AcquireArgs) (weather : TierWeather) (tier : ReservationTier) : Bool :=
  match (tier.tryAcquireAll args weather).2 with
  | .ok (.ok _) => true
  | _ => false

def undone (args : AcquireArgs) (weather : TierWeather) (tier : ReservationTier) : ReservationTier :=
  (tier.release { owner := args.owner, fence := none } (some (dedupeKeys args.keys)) weather).1

/-- Undoing a grant restores what was there; where a release has no effect the owner already had what it asked for. -/
def Untouched (args : AcquireArgs) (weather : TierWeather) : ReservationTier → Prop
  | inProcess r => ∀ key ∈ args.keys, ∀ expiresAt, ¬ (inProcess r).Holds args.owner key expiresAt
  | durable w db crossProcess =>
    if weather.ready ∧ weather.releaseFate.takesEffect then
      ∀ key expiresAt, ¬ (durable w db crossProcess).Holds args.owner key expiresAt
    else
      ∀ key expiresAt, (durable w db crossProcess).Holds args.owner key expiresAt ↔
        key ∈ args.keys ∧ expiresAt = (w.synced weather).toAuthority args.now + normaliseTtl args.ttlMs

/-! ## A grant and its undoing -/

theorem grants_inProcess {r : InProcessInstrumentReservations} (h : (inProcess r).grants args weather = true) :
    ((inProcess r).tryAcquireAll args weather).1 = inProcess
      (InProcessInstrumentReservations.takeKeys { r with fenceSeq := r.fenceSeq + 1 } args (r.fenceSeq + 1)
        (dedupeKeys args.keys)) := by
  cases hthrown : weather.thrown with
  | some error => simp [grants, tryAcquireAll, hthrown] at h
  | none =>
    by_cases hconflicts : r.conflicts args = []
    · simp [tryAcquireAll, hthrown, InProcessInstrumentReservations.tryAcquireAll, hconflicts]
    · simp [grants, tryAcquireAll, hthrown, InProcessInstrumentReservations.tryAcquireAll, hconflicts] at h

theorem grants_durable {w : DurableInstrumentReservations} {db : Authority} {crossProcess : Bool}
    (h : (durable w db crossProcess).grants args weather = true) :
    ∃ w' db', ((durable w db crossProcess).tryAcquireAll args weather).1 = durable w' db' crossProcess ∧
      Alone db' ((w.synced weather).acquisition args weather.active) := by
  cases hthrown : weather.thrown with
  | some error => simp [grants, tryAcquireAll, hthrown] at h
  | none =>
    simp only [grants, tryAcquireAll, hthrown] at h ⊢
    generalize ha : (w.synced weather).acquisition args weather.active = a at h ⊢
    have hstart := tryAcquireAll_undisturbed (w.synced weather) a weather.readiness db
    have hend := acquireRounds_undisturbed ((List.range 7).map weather.fates)
      ((w.synced weather).tryAcquireAll a weather.readiness).1 hstart
    generalize acquireRounds a _ _ db _ = done at h hend ⊢
    obtain ⟨w', db', phase⟩ := done
    refine ⟨w', db', rfl, ?_⟩
    cases phase with
    | returned outcome =>
      cases outcome with
      | ok lease => exact hend
      | conflict conflicts => simp [answer] at h
      | unavailable tier detail => simp [answer] at h
    | _ => simp [answer] at h

theorem holds_alone {db : Authority} {a : Acquisition} (h : Alone db a) (w : DurableInstrumentReservations)
    (crossProcess : Bool) (key : String) (expiresAt : ℚ) :
    (durable w db crossProcess).Holds a.owner key expiresAt ↔ key ∈ a.keys ∧ expiresAt = a.authExpiresAt := by
  obtain ⟨doc, hdoc, hasks, honly⟩ := h
  constructor
  · intro hholds
    obtain ⟨d, hd, howner, hkey, hexpires⟩ := hholds
    rw [honly d hd howner] at hkey hexpires
    rw [hasks.keys] at hkey
    rw [hasks.expiresAt] at hexpires
    exact ⟨hkey, hexpires.symm⟩
  · intro hkey
    refine ⟨doc, hdoc, hasks.owner, ?_, ?_⟩
    · rw [hasks.keys]
      exact hkey.1
    · rw [hasks.expiresAt, hkey.2]

theorem holds_undone_inProcess (r : InProcessInstrumentReservations) (key : String) (expiresAt : ℚ) :
    ((inProcess r).undone args weather).Holds args.owner key expiresAt ↔
      key ∉ args.keys ∧ (inProcess r).Holds args.owner key expiresAt := by
  simp only [undone, release, InProcessInstrumentReservations.release, Option.getD_some, Holds,
    InProcessInstrumentReservations.get?_releaseKeys, mem_dedupeKeys]
  grind

variable (args weather) in
theorem undone_durable (w : DurableInstrumentReservations) (db : Authority) (crossProcess : Bool) :
    ∃ w', (durable w db crossProcess).undone args weather = durable w'
      (if weather.ready ∧ weather.releaseFate.takesEffect then (db.deleteOwned args.owner none).2 else db) crossProcess := by
  unfold undone release DurableInstrumentReservations.release
  by_cases hready : weather.ready = true
  · cases hfate : weather.releaseFate <;>
      exact ⟨_, by simp [hready, Fate.takesEffect, serveCount, Fate.settle, resumeCount]; rfl⟩
  · exact ⟨_, by simp [hready, serveCount, resumeCount]; rfl⟩

theorem holds_granted (h : tier.grants args weather = true) {key : String} (hkey : key ∈ args.keys) :
    ∃ expiresAt, (tier.tryAcquireAll args weather).1.Holds args.owner key expiresAt := by
  cases tier with
  | inProcess r =>
    rw [grants_inProcess h]
    simp [Holds, InProcessInstrumentReservations.get?_takeKeys, hkey]
  | durable w db crossProcess =>
    obtain ⟨w', db', htier, halone⟩ := grants_durable h
    rw [htier]
    exact ⟨_, (holds_alone halone w' crossProcess key _).mpr ⟨mem_dedupeKeys.mpr hkey, rfl⟩⟩

theorem undone_granted (h : tier.grants args weather = true) :
    tier.Agrees args.owner ((tier.tryAcquireAll args weather).1.undone args weather) ↔ tier.Untouched args weather := by
  cases tier with
  | inProcess r =>
    rw [grants_inProcess h]
    have hundone : ∀ key expiresAt, ((inProcess (InProcessInstrumentReservations.takeKeys
        { r with fenceSeq := r.fenceSeq + 1 } args (r.fenceSeq + 1) (dedupeKeys args.keys))).undone args weather).Holds
          args.owner key expiresAt ↔ key ∉ args.keys ∧ (inProcess r).Holds args.owner key expiresAt := by
      intro key expiresAt
      rw [holds_undone_inProcess]
      refine and_congr_right fun hkey => ?_
      simp only [Holds, InProcessInstrumentReservations.get?_takeKeys, mem_dedupeKeys, hkey, if_false]
      rfl
    simp only [Agrees, hundone, Untouched]
    grind
  | durable w db crossProcess =>
    obtain ⟨w', db', htier, halone⟩ := grants_durable h
    rw [htier]
    obtain ⟨w'', hundone⟩ := undone_durable args weather w' db' crossProcess
    rw [hundone]
    simp only [Agrees, Untouched]
    by_cases heffect : weather.ready = true ∧ weather.releaseFate.takesEffect = true
    · have hgone : ∀ key expiresAt, ¬ (durable w'' (db'.deleteOwned args.owner none).2 crossProcess).Holds args.owner key expiresAt := by
        intro key expiresAt hholds
        obtain ⟨doc, hdoc, howner, _⟩ := hholds
        exact vacant_deleteOwned db' args.owner doc hdoc howner
      simp only [if_pos heffect, hgone, false_iff]
    · simp only [if_neg heffect]
      have hkept := holds_alone halone w'' crossProcess
      simp only [acquisition] at hkept
      simp only [hkept, mem_dedupeKeys]
      grind

theorem agrees_of_notReady {owner : String} {error : Option String} (hready : weather.readiness = .notReady error)
    (h : tier.grants args weather = false) : tier.Agrees owner (tier.tryAcquireAll args weather).1 := by
  cases hthrown : weather.thrown with
  | some detail =>
    simp only [tryAcquireAll, hthrown]
    exact fun _ _ => Iff.rfl
  | none =>
    cases tier with
    | inProcess r =>
      by_cases hconflicts : r.conflicts args = []
      · simp [grants, tryAcquireAll, hthrown, InProcessInstrumentReservations.tryAcquireAll, hconflicts] at h
      · simp only [tryAcquireAll, hthrown, InProcessInstrumentReservations.tryAcquireAll, ne_eq, hconflicts, not_false_eq_true,
          if_true]
        exact fun _ _ => Iff.rfl
    | durable w db crossProcess =>
      have hreturned : ∀ a, ∃ outcome, ((w.synced weather).tryAcquireAll a weather.readiness).2 = .returned outcome := by
        intro a
        unfold DurableInstrumentReservations.tryAcquireAll
        by_cases hkeys : a.keys = []
        · exact ⟨_, by rw [if_pos hkeys]⟩
        · exact ⟨_, by rw [if_neg hkeys, hready]; rfl⟩
      obtain ⟨outcome, houtcome⟩ := hreturned ((w.synced weather).acquisition args weather.active)
      simp only [tryAcquireAll, hthrown, houtcome, acquireRounds_of_returned]
      exact fun _ _ => Iff.rfl

end ReservationTier

/-! ## The chain -/

def ChainOutcome.isRefused : ChainOutcome → Bool
  | .ok _ _ => false
  | .refused _ => true

namespace ChainedInstrumentReservations

variable {args : AcquireArgs} {calls : List (ReservationTier × TierWeather)}

/-- A success left every key on every tier, anything else left each tier as it was for the owner. -/
def AllOrNone (args : AcquireArgs) (before after : List ReservationTier) : ChainOutcome → Prop
  | .ok _ _ => before.Forall₂ (fun _ tier => ∀ key ∈ args.keys, ∃ expiresAt, tier.Holds args.owner key expiresAt) after
  | .refused _ => before.Forall₂ (ReservationTier.Agrees args.owner) after

def grants (args : AcquireArgs) (t : ReservationTier × TierWeather) : Bool := t.1.grants args t.2

def acquired (args : AcquireArgs) (t : ReservationTier × TierWeather) : ReservationTier :=
  (t.1.tryAcquireAll args t.2).1

def Clear (c : ChainedInstrumentReservations) (args : AcquireArgs) (weather : ℕ → TierWeather) : Prop :=
  (∀ t ∈ c.calls weather, grants args t = true) ∨
    ∀ t ∈ (c.calls weather).takeWhile (grants args), t.1.Untouched args t.2

theorem acquireTiers_granted (h : ∀ t ∈ calls, grants args t = true) (taken : List (ReservationTier × TierWeather))
    (p : ChainProgress) :
    ∃ p', acquireTiers args taken p calls = (taken.map Prod.fst ++ calls.map (acquired args), .ok p') := by
  induction calls generalizing taken p with
  | nil => exact ⟨p, by simp [acquireTiers]⟩
  | cons t calls ih =>
    obtain ⟨tier, weather⟩ := t
    have hgrants : tier.grants args weather = true := h _ (.head _)
    have hrest := ih fun t ht => h t (.tail _ ht)
    simp only [acquireTiers, List.map_cons, acquired, ReservationTier.grants] at hgrants ⊢
    generalize tier.tryAcquireAll args weather = answered at hgrants ⊢
    obtain ⟨tier', _ | (lease | _ | _)⟩ := answered
    · simp at hgrants
    · obtain ⟨p', hp'⟩ := hrest (taken ++ [(tier', weather)]) (p.granted tier' lease)
      exact ⟨p', by simp [hp']⟩
    · simp at hgrants
    · simp at hgrants

variable {t : ReservationTier × TierWeather}

theorem acquireTiers_refused (rest : List (ReservationTier × TierWeather)) (h : ∀ t ∈ calls, grants args t = true)
    (ht : grants args t = false) (taken : List (ReservationTier × TierWeather)) (p : ChainProgress) :
    ∃ outcome, acquireTiers args taken p (calls ++ t :: rest) =
      (rollback args taken ++ calls.map (fun t => (acquired args t).undone args t.2) ++ acquired args t :: rest.map Prod.fst,
        .error outcome) := by
  induction calls generalizing taken p with
  | nil =>
    obtain ⟨tier, weather⟩ := t
    have hrefused : tier.grants args weather = false := ht
    simp only [List.nil_append, acquireTiers, List.map_nil, List.append_nil, acquired, ReservationTier.grants] at hrefused ⊢
    generalize tier.tryAcquireAll args weather = answered at hrefused ⊢
    obtain ⟨tier', _ | (lease | _ | _)⟩ := answered
    · exact ⟨_, rfl⟩
    · simp at hrefused
    · exact ⟨_, rfl⟩
    · exact ⟨_, rfl⟩
  | cons first calls ih =>
    obtain ⟨tier, weather⟩ := first
    have hgrants : tier.grants args weather = true := h _ (.head _)
    have hrest := ih fun t ht => h t (.tail _ ht)
    simp only [List.cons_append, acquireTiers, List.map_cons, ReservationTier.grants] at hgrants ⊢
    have hacquired : (tier.tryAcquireAll args weather).1 = acquired args (tier, weather) := rfl
    rw [← hacquired]
    generalize tier.tryAcquireAll args weather = answered at hgrants ⊢
    obtain ⟨tier', _ | (lease | _ | _)⟩ := answered
    · simp at hgrants
    · obtain ⟨outcome, houtcome⟩ := hrest (taken ++ [(tier', weather)]) (p.granted tier' lease)
      exact ⟨outcome, by simp [houtcome, rollback, ReservationTier.undone]⟩
    · simp at hgrants
    · simp at hgrants

theorem forall₂_map_append {α β : Type} {R : β → β → Prop} (f g : α → β) (l : List α) (rest rest' : List β) :
    (l.map f ++ rest).Forall₂ R (l.map g ++ rest') ↔ (∀ a ∈ l, R (f a) (g a)) ∧ rest.Forall₂ R rest' := by
  induction l with
  | nil => simp
  | cons a l ih => simp [ih, and_assoc]

theorem tiers_calls (c : ChainedInstrumentReservations) (weather : ℕ → TierWeather) :
    (c.calls weather).map Prod.fst = c.tiers := by
  simp [calls, List.map_map, Function.comp_def, List.zipIdx_map_fst]

variable {c : ChainedInstrumentReservations}

theorem tiers_granted {weather : ℕ → TierWeather} (h : ∀ t ∈ c.calls weather, grants args t = true) :
    (c.tryAcquireAll args weather).1.tiers = (c.calls weather).map (acquired args) ∧
      ∃ lease durability, (c.tryAcquireAll args weather).2 = .ok lease durability := by
  obtain ⟨p, hp⟩ := acquireTiers_granted h [] (.start args)
  unfold tryAcquireAll
  rw [hp]
  exact ⟨rfl, _, _, rfl⟩

theorem tiers_refused {weather : ℕ → TierWeather} {rest : List (ReservationTier × TierWeather)}
    (hcalls : c.calls weather = calls ++ t :: rest) (h : ∀ t ∈ calls, grants args t = true)
    (ht : grants args t = false) :
    (c.tryAcquireAll args weather).1.tiers =
        calls.map (fun t => (acquired args t).undone args t.2) ++ acquired args t :: rest.map Prod.fst ∧
      ∃ outcome, (c.tryAcquireAll args weather).2 = .refused outcome := by
  obtain ⟨outcome, houtcome⟩ := acquireTiers_refused rest h ht [] (.start args)
  unfold tryAcquireAll
  rw [hcalls, houtcome]
  exact ⟨rfl, _, rfl⟩

/-- **All or none**, exactly when every tier grants, or those asked before the first refusal were untouched. -/
theorem all_or_none_iff (c : ChainedInstrumentReservations) (args : AcquireArgs) (weather : ℕ → TierWeather)
    (hunwritten : ∀ t ∈ c.calls weather, grants args t = false → t.1.Agrees args.owner (acquired args t)) :
    AllOrNone args c.tiers (c.tryAcquireAll args weather).1.tiers (c.tryAcquireAll args weather).2 ↔
      c.Clear args weather := by
  rw [← tiers_calls c weather]
  unfold Clear
  by_cases hall : ∀ t ∈ c.calls weather, grants args t = true
  · obtain ⟨htiers, lease, durability, houtcome⟩ := tiers_granted hall
    rw [htiers, houtcome]
    simp only [AllOrNone, List.forall₂_map_left_iff, List.forall₂_map_right_iff, List.forall₂_same]
    exact ⟨fun _ => .inl hall, fun _ t ht key hkey => ReservationTier.holds_granted (hall t ht) hkey⟩
  · have hsplit := (c.calls weather).takeWhile_append_dropWhile (p := grants args)
    cases hrest : (c.calls weather).dropWhile (grants args) with
    | nil => exact absurd (List.dropWhile_eq_nil_iff.mp hrest) hall
    | cons t rest =>
      rw [hrest] at hsplit
      have hgranted : ∀ t ∈ (c.calls weather).takeWhile (grants args), grants args t = true :=
        fun t ht => List.mem_takeWhile_imp ht
      have ht : grants args t = false := by
        have hhead := List.head?_dropWhile_not (grants args) (c.calls weather)
        simpa [hrest] using hhead
      obtain ⟨htiers, outcome, houtcome⟩ := tiers_refused hsplit.symm hgranted ht
      have hwritten := hunwritten t (hsplit ▸ List.mem_append_right _ (.head _)) ht
      rw [htiers, houtcome]
      simp only [AllOrNone]
      generalize (c.calls weather).takeWhile (grants args) = calls at hsplit hgranted ⊢
      rw [← hsplit, List.map_append, List.map_cons, forall₂_map_append]
      constructor
      · intro hrestored
        exact .inr fun t ht => (ReservationTier.undone_granted (hgranted t ht)).mp (hrestored.1 t ht)
      · intro hclear
        have huntouched := hclear.resolve_left (hsplit ▸ hall)
        refine ⟨fun t ht => (ReservationTier.undone_granted (hgranted t ht)).mpr (huntouched t ht), .cons hwritten ?_⟩
        exact List.forall₂_same.mpr fun _ _ _ _ => Iff.rfl

/-! ## An owner that asks again -/

def calm : TierWeather where
  thrown := none
  active := ⟨"main", "dhan", 1, "live"⟩
  synced := none
  readiness := .usable false
  fates _ := .answered
  ready := true
  releaseFate := .answered

def down : TierWeather := { calm with readiness := .notReady none, ready := false }

def durableDown (i : ℕ) : TierWeather := if i = 0 then calm else down

def twoTiers : ChainedInstrumentReservations :=
  ⟨[.inProcess .new, .durable (.new ⟨"mongo", "p0", none⟩) .empty true], fun _ => none⟩

def strikes : AcquireArgs := ⟨"e1", ["k1", "k2"], .fin 15000, 0, fun _ => none, none⟩

theorem durableDown_unwritten (ht : t ∈ c.calls durableDown) (h : (grants args t || !t.2.ready) = true)
    (hrefused : grants args t = false) : t.1.Agrees args.owner (acquired args t) := by
  obtain ⟨⟨tier, i⟩, _, rfl⟩ := List.mem_map.mp ht
  by_cases hi : i = 0
  · rw [hrefused] at h
    simp [durableDown, hi, calm] at h
  · have hready : (durableDown i).readiness = .notReady none := by simp [durableDown, hi, down]
    exact ReservationTier.agrees_of_notReady hready hrefused

/-- An owner that held nothing is refused and holds nothing. -/
theorem all_or_none_iff_fresh :
    AllOrNone strikes twoTiers.tiers (twoTiers.tryAcquireAll strikes durableDown).1.tiers
      (twoTiers.tryAcquireAll strikes durableDown).2 := by
  have hready : (twoTiers.calls durableDown).all (fun t => grants strikes t || !t.2.ready) = true := by decide +kernel
  have hgrants : grants strikes (.inProcess .new, calm) = true := by decide +kernel
  have hdown : grants strikes (.durable (.new ⟨"mongo", "p0", none⟩) .empty true, down) = false := by decide +kernel
  have htaken : (twoTiers.calls durableDown).takeWhile (grants strikes) = [(.inProcess .new, calm)] := by
    show List.takeWhile (grants strikes)
      [(.inProcess .new, calm), (.durable (.new ⟨"mongo", "p0", none⟩) .empty true, down)] = _
    rw [List.takeWhile_cons_of_pos hgrants, List.takeWhile_cons_of_neg (by rw [hdown]; decide)]
  apply (all_or_none_iff twoTiers strikes durableDown
    fun t ht => durableDown_unwritten ht (List.all_eq_true.mp hready t ht)).mpr
  refine .inr ?_
  rw [htaken]
  simp [ReservationTier.Untouched, ReservationTier.Holds, InProcessInstrumentReservations.get?,
      InProcessInstrumentReservations.new]

def firstRecords (owner key : String) (tiers : List ReservationTier) : Bool :=
  tiers.head?.any fun tier => tier.records owner key

theorem AllOrNone.first {before after : List ReservationTier} {outcome : ChainOutcome}
    (h : AllOrNone args before after outcome) (hrefused : outcome.isRefused = true) (key : String)
    (hheld : firstRecords args.owner key before = true) : firstRecords args.owner key after = true := by
  cases outcome with
  | ok lease durability => cases hrefused
  | refused outcome =>
    cases h with
    | nil => cases hheld
    | cons hagrees =>
      simp only [firstRecords, List.head?_cons, Option.any_some, ReservationTier.records_iff] at hheld ⊢
      obtain ⟨expiresAt, hholds⟩ := hheld
      exact ⟨expiresAt, (hagrees key expiresAt).mpr hholds⟩

def held : ChainedInstrumentReservations := (twoTiers.tryAcquireAll strikes fun _ => calm).1

theorem keys_lost :
    (∀ t ∈ held.calls durableDown, grants strikes t = false → t.1.Agrees strikes.owner (acquired strikes t)) ∧
      ¬ AllOrNone strikes held.tiers (held.tryAcquireAll strikes durableDown).1.tiers
        (held.tryAcquireAll strikes durableDown).2 := by
  have hready : (held.calls durableDown).all (fun t => grants strikes t || !t.2.ready) = true := by decide +kernel
  refine ⟨fun t ht => durableDown_unwritten ht (List.all_eq_true.mp hready t ht), fun h => ?_⟩
  have hkept := h.first (by decide +kernel) "k1" (by decide +kernel)
  exact absurd hkept (by decide +kernel)

end ChainedInstrumentReservations

end BoxEngine
