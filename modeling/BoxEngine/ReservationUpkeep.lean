import BoxEngine.DurableReservations

/-!
# Keeping and giving up leases

Release, renewal, verification, clearing and reaping of leases already granted. None draws or uses a fence.
-/

namespace BoxEngine

namespace DurableInstrumentReservations

inductive CountPhase where
  | waiting (answer : Option (Except String ℕ))
  | returned (count : ℕ)

variable (w : DurableInstrumentReservations)

def release (args : ReleaseArgs) (ready : Bool) : DurableInstrumentReservations × CountPhase :=
  let w := w.hold args.owner none
  if ready then (w, .waiting none)
  else (w.failed (w.deps.name ++ ": release skipped while the authority was unavailable; the lease will expire by TTL"),
    .returned 0)

def clear (ready : Bool) : DurableInstrumentReservations × CountPhase :=
  ({ w with held := fun _ => none }, if ready then .waiting none else .returned 0)

def reapExpired (now : ℚ) (readiness : Readiness) : DurableInstrumentReservations × ℚ × CountPhase :=
  let notAfter := w.toAuthority now - w.skewGraceMs
  match w.ensureUsable readiness with
  | (w, some _) => (w, notAfter, .returned 0)
  | (w, none) => (w, notAfter, .waiting none)

def resumeCount : CountPhase → DurableInstrumentReservations × CountPhase
  | .waiting (some (.ok count)) => (w, .returned count)
  | .waiting (some (.error e)) => (w.failed e, .returned 0)
  | phase => (w, phase)

/-- A renewal on its way, with the filter it was sent under. -/
structure Renewal where
  filter : Authority.RenewFilter
  expiresAt : ℚ

inductive RenewPhase where
  | renewOwned (answer : Option (Except String (Option DurableReservationDoc)))
  | findByOwner (answer : Option (Except String (Option DurableReservationDoc)))
  | returned (outcome : RenewOutcome)

def renew (args : RenewArgs) (active : ReservationContext)
    (readiness : Readiness) : DurableInstrumentReservations × Renewal × RenewPhase :=
  let ctx := args.context.getD active
  let authNow := w.toAuthority args.now
  let r : Renewal :=
    { filter :=
        { owner := args.owner, fence := args.fence, broker := ctx.broker, generation := ctx.generation, now := authNow }
      expiresAt := authNow + normaliseTtl args.ttlMs }
  match w.ensureUsable readiness with
  | (w, some detail) => (w, r, .returned (.unavailable detail))
  | (w, none) => (w, r, .renewOwned none)

def generationText (broker : String) (generation : ℤ) : String :=
  broker ++ " generation " ++ toString generation

/-- Why a renewal found no document of its own. -/
def classifyLost (filter : Authority.RenewFilter) : Option DurableReservationDoc → RenewOutcome
  | none => .lost (w.deps.name ++ ": renewal matched no live reservation for this owner and fence")
  | some existing =>
    if existing.broker ≠ filter.broker ∨ existing.generation ≠ filter.generation then
      .lost (w.deps.name ++ ": reservation belongs to " ++ generationText existing.broker existing.generation ++
        ", active is " ++ generationText filter.broker filter.generation)
    else .expired (w.deps.name ++ ": renewal matched no live reservation for this owner and fence")

def resumeRenew (r : Renewal) : RenewPhase → DurableInstrumentReservations × RenewPhase
  | .renewOwned (some (.ok none)) => (w.hold r.filter.owner none, .findByOwner none)
  | .renewOwned (some (.ok (some updated))) =>
    let expiresAt := w.toLocal updated.expiresAt
    (w.hold r.filter.owner (some { keys := updated.keys, expiresAt, fence := updated.fence }),
      .returned (.ok expiresAt updated.fence))
  | .renewOwned (some (.error e)) => (w.failed e, .returned (.unavailable e))
  | .findByOwner (some (.ok existing)) => (w, .returned (w.classifyLost r.filter existing))
  | .findByOwner (some (.error _)) => (w, .returned (w.classifyLost r.filter none))
  | phase => (w, phase)

/-- A verification on its way, with what the caller believes. -/
structure Verification where
  args : VerifyArgs
  ctx : ReservationContext

inductive VerifyPhase where
  | findByOwner (answer : Option (Except String (Option DurableReservationDoc)))
  | returned (verdict : OwnershipVerdict)

def verify (args : VerifyArgs) (active : ReservationContext)
    (readiness : Readiness) : DurableInstrumentReservations × Verification × VerifyPhase :=
  let v : Verification := { args, ctx := args.context.getD active }
  match w.ensureUsable readiness with
  | (w, some detail) => (w, v, .returned (.unavailable detail))
  | (w, none) => (w, v, .findByOwner none)

/-- Owned only by the same owner, fence and contracts, unexpired by the authority's clock. -/
def verdict (v : Verification) : Option DurableReservationDoc → OwnershipVerdict
  | none => .lost (w.deps.name ++ ": no reservation for this owner")
  | some doc =>
    match v.args.fence.filter fun fence => doc.fence != fence with
    | some fence =>
      .lost (w.deps.name ++ ": reservation fence " ++ toString doc.fence ++ " supersedes " ++ toString fence)
    | none =>
      -- the grace is taken from the holder: close to the expiry counts as expired
      if doc.expiresAt - w.skewGraceMs ≤ w.toAuthority v.args.now then
        .expired (w.deps.name ++ ": reservation has expired or is within its skew grace")
      else if doc.deployment ≠ v.ctx.deployment then
        .superseded (w.deps.name ++ ": reservation belongs to deployment " ++ doc.deployment ++
          ", active is " ++ v.ctx.deployment)
      else if doc.broker ≠ v.ctx.broker ∨ doc.generation ≠ v.ctx.generation then
        .superseded (w.deps.name ++ ": reservation belongs to " ++ generationText doc.broker doc.generation ++
          ", active is " ++ generationText v.ctx.broker v.ctx.generation)
      else
        match (dedupeKeys v.args.keys).find? fun key => !doc.keys.contains key with
        | some key => .lost (w.deps.name ++ ": reservation does not cover " ++ key)
        | none => .owned (w.toLocal doc.expiresAt) doc.fence

def resumeVerify (v : Verification) : VerifyPhase → DurableInstrumentReservations × VerifyPhase
  | .findByOwner (some (.ok doc)) => (w, .returned (w.verdict v doc))
  | .findByOwner (some (.error e)) => (w.failed e, .returned (.unavailable e))
  | phase => (w, phase)

end DurableInstrumentReservations

end BoxEngine
