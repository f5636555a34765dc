import BoxEngine.ExecutionCoordinator

/-!
# Calls of the execution coordinator

Entries, exits, claims on underlyings and the heartbeat of one process, interleaved. A call stands at an
await, and whatever it awaits answers or rejects, in any order.
-/

namespace BoxEngine

open Js BoxScanner

namespace Coordination

/-! ## One entry -/

inductive Progress where
  | goesOn (stage : EntryStage)
  | refused (refusal : Refusal)
  | threw
  | returned

namespace ExecutionCoordinator

variable (cfg : CoordinatorConfig) (s : ExecutionCoordinator) (call : EntryCall)

def refuse (refusal : Refusal) : ExecutionCoordinator × Progress :=
  (s.abandonAndReleaseHold cfg call.id, .refused refusal)

def refuseLeased (refusal : Refusal) : ExecutionCoordinator × Progress :=
  ((s.abandonAndReleaseHold cfg call.id).releaseLease call.id, .goesOn (.releasing refusal))

def alreadyHeld : Refusal :=
  ⟨"underlying_already_active", s!"{call.candidate.underlying} is already held by another Box or entry pipeline; " ++
    "BOX_ONE_ACTIVE_BOX_PER_UNDERLYING is enabled, so a second Box on this underlying may " ++
    "not enter regardless of strike pair, expiry or direction. This is NOT a contract " ++
    "reservation conflict — the two Boxes need not share any option."⟩

def takeHold (now : ℚ) : ExecutionCoordinator × Progress :=
  if cfg.oneActiveBoxPerUnderlying then
    match s.holdUnderlying cfg call.candidate.underlying (.pipeline call.id) true with
    | (s, .inl true) => (s, .goesOn (.acquiring now))
    | (s, .inl false) => s.refuse cfg call (alreadyHeld call)
    | (s, .inr acquiring) => (s, .goesOn (.holding acquiring))
  else (s, .goesOn (.acquiring now))

variable (lease : Lease)

def permit : ExecutionCoordinator × Progress :=
  (s.grant call.id call.candidate.legKeys lease, .goesOn .executing)

def confirmBeforeSubmit (waited : Bool) : ExecutionCoordinator × Progress :=
  if s.context ≠ call.context then
    s.refuseLeased cfg call ⟨"feed_unhealthy", "stale_broker_generation: reservation was taken under " ++
      s!"{call.context.broker} generation {call.context.generation}, " ++
      s!"active is {s.context.broker} generation {s.context.generation}"⟩
  else if !waited || !lease.durable then s.permit call lease
  else (s, .goesOn (.verifying lease))

def handleUnavailable (tier detail : String) (waitStarted : ℚ) (waited : Bool) : ExecutionCoordinator × Progress :=
  if cfg.mode = .live then
    s.refuse cfg call ⟨"feed_unhealthy", "durable_reservation_unavailable: live entry refused because the durable " ++
      s!"reservation authority \"{tier}\" is unavailable ({detail})"⟩
  else if !cfg.hasLocalTier then s.refuse cfg call ⟨"feed_unhealthy", s!"durable_reservation_unavailable: {detail}"⟩
  else (s, .goesOn (.fallingBack waitStarted waited))

variable (result : AcquireResult)

def afterWait (revalidated : Except String Unit) (waitStarted now : ℚ) : ExecutionCoordinator × Progress :=
  match result, revalidated with
  | .acquired lease, .ok () => s.confirmBeforeSubmit cfg call lease true
  | .acquired _, .error reason =>
    s.refuseLeased cfg call ⟨"edge_disappeared", s!"revalidation after {now - waitStarted}ms: {reason}"⟩
  | _, _ =>
    s.refuse cfg call ⟨"price_moved", s!"waited {now - waitStarted}ms for a shared contract and gave up"⟩

def waitForKeys (waitStarted now : ℚ) : ExecutionCoordinator × Progress :=
  if now < waitStarted + cfg.conflictWaitMaxMs then (s, .goesOn (.waiting waitStarted))
  else { s with waiting := s.waiting - 1 }.afterWait cfg call .conflict (.ok ()) waitStarted now

def beginWait (waitStarted now : ℚ) : ExecutionCoordinator × Progress :=
  { s with waiting := s.waiting + 1 }.waitForKeys cfg call waitStarted now

def afterAcquire (waitStarted now : ℚ) (localTier : Bool) : ExecutionCoordinator × Progress :=
  match result with
  | .acquired lease => s.confirmBeforeSubmit cfg call lease false
  | .conflict => s.beginWait cfg call waitStarted now
  | .unavailable tier detail =>
    if localTier then s.refuse cfg call ⟨"feed_unhealthy", s!"durable_reservation_unavailable: {detail}"⟩
    else s.handleUnavailable cfg call tier detail waitStarted false

def afterRetry (revalidated : Except String Unit) (waitStarted now : ℚ) : ExecutionCoordinator × Progress :=
  match result with
  | .acquired lease =>
    { s with waiting := s.waiting - 1 }.afterWait cfg call (.acquired lease) revalidated waitStarted now
  | .conflict => s.waitForKeys cfg call waitStarted now
  | .unavailable tier detail =>
    { s with waiting := s.waiting - 1 }.handleUnavailable cfg call tier detail waitStarted true

def afterVerify (verdict : OwnershipVerdict) : ExecutionCoordinator × Progress :=
  match verdict with
  | .owned _ _ => s.permit call lease
  | .superseded detail => s.refuseLeased cfg call ⟨"feed_unhealthy", s!"stale_broker_generation: {detail}"⟩
  | .expired detail | .lost detail | .unavailable detail =>
    s.refuseLeased cfg call ⟨"feed_unhealthy", s!"reservation_ownership_lost: {detail}"⟩

variable (result : ExecutionResult)

def certainty : Certainty :=
  if call.atomic then .clean else uncertaintyOf result.ok result.reason result.residual

def promoted : Option String :=
  if call.atomic || !result.ok then none else result.tradeId.filter fun tradeId => tradeId != ""

def settleEntry (outcome : Certainty) (now : ℚ) : ExecutionCoordinator × Progress :=
  (s.settle call.id outcome now, match outcome with
    | .clean => .goesOn .settling
    | .uncertain => .returned)

/-- The pipeline's hold goes; when it was the last holder the lease goes back first. -/
def dropPipeline (outcome : Certainty) (now : ℚ) : ExecutionCoordinator × Progress :=
  match s.dropUnderlyingHolder cfg call.candidate.underlying (.pipeline call.id) with
  | (s, some owner) => (s, .goesOn (.dropping owner outcome))
  | (s, none) => s.settleEntry call outcome now

def settleUnderlyingHold (now : ℚ) : ExecutionCoordinator × Progress :=
  let outcome := certainty call result
  if !cfg.oneActiveBoxPerUnderlying then s.settleEntry call outcome now
  else
    match promoted call result with
    | some tradeId =>
      let key := s.positionClaimKey cfg call.candidate.underlying
      match s.positionClaim? key with
      | some _ => (s.addHolder key (.dependant (.trade tradeId))).dropPipeline cfg call outcome now
      | none =>
        match s.holdUnderlying cfg call.candidate.underlying (.dependant (.trade tradeId)) false with
        | (s, .inl _) => s.dropPipeline cfg call outcome now
        | (s, .inr acquiring) => (s, .goesOn (.promoting acquiring outcome))
    | none =>
      if outcome = .uncertain then s.settleEntry call outcome now else s.dropPipeline cfg call outcome now

def throwEntry (now : ℚ) : ExecutionCoordinator × Progress :=
  (s.holdOnUncertainty call.id "entry threw" now, .threw)

/-! ## Steps of an entry -/

/-- A refusal of `coordinateEntry` that has released its claim; only its error may replace it. -/
def consumeRefused (detail : Option String) : Refusal :=
  ⟨"session_limit_reached", detail.getD
    "the entry attempt could not be durably counted against the session attempt budget, so it was not started"⟩

/-- An entry goes on with the answer it awaited; at any other it stays where it is. -/
def advance (answer : Answer) (now : ℚ) : ExecutionCoordinator × Progress :=
  match call.stage, answer with
  | .consuming, .consumed true _ => s.takeHold cfg call now
  | .consuming, .consumed false detail => s.refuse cfg call (consumeRefused detail)
  | .consuming, .rejected => (s.abandonAndReleaseHold cfg call.id, .threw)
  | .holding acquiring, .acquire (.acquired lease) revalidated =>
    ((s.underlyingAcquired acquiring (.acquire (.acquired lease) revalidated)).1, .goesOn (.acquiring now))
  | .holding _, .acquire _ _ => s.refuse cfg call (alreadyHeld call)
  | .holding _, .rejected => s.refuse cfg call (alreadyHeld call)
  | .acquiring waitStarted, .acquire result _ => s.afterAcquire cfg call result waitStarted now false
  | .acquiring _, .rejected => (s.abandonAndReleaseHold cfg call.id, .threw)
  | .fallingBack waitStarted false, .acquire result _ => s.afterAcquire cfg call result waitStarted now true
  | .fallingBack waitStarted true, .acquire result revalidated => s.afterWait cfg call result revalidated waitStarted now
  -- no `try` around the local tier
  | .fallingBack _ _, .rejected => (s, .threw)
  | .waiting waitStarted, .woken => (s, .goesOn (.retrying waitStarted))
  -- the `finally` of the wait does not give the claim back
  | .waiting _, .rejected => ({ s with waiting := s.waiting - 1 }, .threw)
  | .retrying waitStarted, .acquire result revalidated => s.afterRetry cfg call result revalidated waitStarted now
  | .retrying _, .rejected => ({ s with waiting := s.waiting - 1 }, .threw)
  | .verifying lease, .verified verdict => s.afterVerify cfg call lease verdict
  -- nor is there one around the verification
  | .verifying _, .rejected => (s, .threw)
  | .releasing refusal, .released => (s, .refused refusal)
  | .releasing _, .rejected => (s, .threw)
  | .executing, .executed result => s.settleUnderlyingHold cfg call result now
  | .executing, .rejected => s.throwEntry call now
  | .promoting acquiring outcome, .acquire result revalidated =>
    (s.underlyingAcquired acquiring (.acquire result revalidated)).1.dropPipeline cfg call outcome now
  | .promoting _ outcome, .rejected => s.dropPipeline cfg call outcome now
  | .dropping owner outcome, .released =>
    { s with drops := s.drops.filter fun drop => drop ≠ owner }.settleEntry call outcome now
  | .dropping owner _, .rejected =>
    { s with drops := s.drops.filter fun drop => drop ≠ owner }.throwEntry call now
  | .settling, .released => (s, .returned)
  | .settling, .rejected => s.throwEntry call now
  | stage, _ => (s, .goesOn stage)

def conclude : Progress → ExecutionCoordinator
  | .goesOn stage => { s with entries := Keyed.replace EntryCall.id s.entries { call with stage } }
  | .returned => { s with entries := s.entries.filter fun other => other.id ≠ call.id }
  | _ =>
    { s with
      entries := s.entries.filter fun other => other.id ≠ call.id
      unstarted := if call.stage.started then s.unstarted else s.unstarted ++ [call.id] }

variable (id : MintedId)

def entry? : Option EntryCall := s.entries.find? fun call => call.id = id

def resumeEntry (answer : Answer) (now : ℚ) : ExecutionCoordinator :=
  match s.entry? id with
  | some call => (s.advance cfg call answer now).1.conclude call (s.advance cfg call answer now).2
  | none => s

def enter (atomic : Bool) (candidate : EntryCandidate) (gates : EntryGates) (now : ℚ) : ExecutionCoordinator :=
  let id := ⟨.entry, s.seq + 1⟩
  let minted := { s with seq := s.seq + 1 }
  match s.prologue cfg candidate gates with
  | some _ => { minted with unstarted := s.unstarted ++ [id] }
  | none =>
    let call := ⟨id, atomic, candidate, s.context, .consuming⟩
    let claimed := { minted.claim cfg id candidate with entries := s.entries ++ [call] }
    if cfg.sessionConsumeAttempt then claimed
    else (claimed.takeHold cfg call now).1.conclude call (claimed.takeHold cfg call now).2

def claimUnderlying (underlying : String) (dependant : Dependant) : ExecutionCoordinator :=
  match s.holdUnderlying cfg underlying (.dependant dependant) false with
  | (s, .inl _) => s
  | (s, .inr acquiring) => { s with acquirings := s.acquirings ++ [acquiring] }

def claimAcquired (owner : MintedId) (answer : Answer) : ExecutionCoordinator :=
  match s.acquirings.find? fun acquiring => acquiring.owner = owner with
  | some acquiring =>
    ({ s with acquirings := s.acquirings.filter fun other => other.owner ≠ owner }.underlyingAcquired acquiring answer).1
  | none => s

def exit? : Option ExitCall := s.exits.find? fun call => call.id = id

def exit (atomic : Bool) (keys : List String) (underlying : String) : ExecutionCoordinator :=
  { s with
    seq := s.seq + 1
    exits := s.exits ++ [⟨⟨.exit, s.seq + 1⟩, atomic, keys, underlying, .acquiring⟩] }

variable (call : ExitCall)

def moveExit (stage : ExitStage) : ExecutionCoordinator :=
  { s with exits := Keyed.replace ExitCall.id s.exits { call with stage } }

def endExit : ExecutionCoordinator :=
  { s with exits := s.exits.filter fun other => other.id ≠ call.id }

def exitAcquired (result : AcquireResult) : ExecutionCoordinator :=
  match result with
  | .acquired lease => (s.registerActive call.id call.keys call.underlying lease).moveExit call .executing
  | .conflict => s.endExit call
  | .unavailable _ _ =>
    if call.stage = .acquiring ∧ cfg.hasLocalTier = true then s.moveExit call .fallingBack else s.endExit call

def exitExecuted (result : ExecutionResult) (now : ℚ) : ExecutionCoordinator :=
  match if call.atomic then Certainty.clean else uncertaintyOf result.ok result.reason result.residual with
  | .clean => (s.settle call.id .clean now).moveExit call .settling
  | .uncertain => (s.settle call.id .uncertain now).endExit call

def advanceExit (answer : Answer) (now : ℚ) : ExecutionCoordinator :=
  match call.stage, answer with
  | .acquiring, .acquire result _ => s.exitAcquired cfg call result
  | .fallingBack, .acquire result _ => s.exitAcquired cfg call result
  | .acquiring, .rejected => s.endExit call
  | .fallingBack, .rejected => s.endExit call
  | .executing, .executed result => s.exitExecuted call result now
  | .executing, .rejected => (s.holdOnUncertainty call.id "exit threw" now).endExit call
  | .settling, .released => s.endExit call
  | .settling, .rejected => (s.holdOnUncertainty call.id "exit threw" now).endExit call
  | _, _ => s

def resumeExit (answer : Answer) (now : ℚ) : ExecutionCoordinator :=
  match s.exit? id with
  | some call => s.advanceExit cfg call answer now
  | none => s

/-! ## The heartbeat -/

def renewable : List MintedId :=
  (s.active.filter fun exec => exec.lease.isSome && !exec.ownershipLost).map ActiveExecution.id

def tickClaims (tick : RenewTick) : List MintedId → ExecutionCoordinator
  | [] => { s with renewTick := none }
  | rest => { s with renewTick := some { tick with stage := .claims rest } }

def tickHolds (tick : RenewTick) : ExecutionCoordinator → List MintedId → ExecutionCoordinator
  | s, [] => s.tickClaims tick (s.positionClaims.map PositionUnderlyingClaim.owner)
  | s, id :: rest =>
    match s.holds.find? fun hold => hold.id = id with
    | none => tickHolds tick s rest
    | some hold =>
      if cfg.reservationUncertainHoldMaxMs ≤ tick.now - hold.heldSince then
        tickHolds tick { s with holds := s.holds.filter fun other => other.id ≠ id } rest
      else { s with renewTick := some { tick with stage := .holds (id :: rest) } }

def tickExecutions (tick : RenewTick) : List MintedId → ExecutionCoordinator
  | [] => tickHolds cfg tick s (s.holds.map UncertainHold.id)
  | pending => { s with renewTick := some { tick with stage := .executions pending } }

def beginTick (now : ℚ) : ExecutionCoordinator :=
  match s.renewTick with
  | some _ => s
  | none => s.tickExecutions cfg ⟨now, s.context, .executions s.renewable⟩ s.renewable

def renewExecution : Option RenewOutcome → ExecutionCoordinator × Option Violation
  | none => (s, none)
  | some (.ok expiresAt fence) =>
    ({ s with active := s.active.map fun exec =>
        if exec.id = id then { exec with lease := exec.lease.map fun lease => { lease with expiresAt, fence } }
        else exec }, none)
  | some (.lost detail) => fault "lost" detail
  | some (.expired detail) => fault "expired" detail
  | some (.unavailable detail) => fault "unavailable" detail
where
  fault (reason detail : String) : ExecutionCoordinator × Option Violation :=
    ({ s with active := s.active.map fun exec =>
        if exec.id = id then { exec with ownershipLost := true, ownershipLossReason := some reason } else exec },
      some ⟨id, s!"box reservation ownership {reason} mid-execution ({detail})"⟩)

def renewHold : RenewOutcome → ExecutionCoordinator
  | .ok expiresAt fence =>
    { s with holds := s.holds.map fun hold =>
        if hold.id = id then { hold with lease := { hold.lease with expiresAt, fence } } else hold }
  | .unavailable _ => s
  | .lost _ | .expired _ => { s with holds := s.holds.filter fun hold => hold.id ≠ id }

def renewClaim (owner : MintedId) : RenewOutcome → ExecutionCoordinator
  | .ok expiresAt fence =>
    { s with positionClaims := s.positionClaims.map fun claim =>
        if claim.owner = owner then
          { claim with lease := { claim.lease with expiresAt, fence }, ownershipLost := false }
        else claim }
  | _ =>
    { s with positionClaims := s.positionClaims.map fun claim =>
        if claim.owner = owner then { claim with ownershipLost := true } else claim }

def renewed (outcome : Option RenewOutcome) : ExecutionCoordinator × Option Violation :=
  match s.renewTick with
  | none => (s, none)
  | some tick =>
    match tick.stage, outcome with
    | .executions pending, _ =>
      if id ∈ pending then
        ((s.renewExecution id outcome).1.tickExecutions cfg tick (pending.filter fun other => other ≠ id),
          (s.renewExecution id outcome).2)
      else (s, none)
    | .holds (current :: rest), some outcome =>
      if id = current then (tickHolds cfg tick (s.renewHold id outcome) rest, none) else (s, none)
    | .claims (current :: rest), some outcome =>
      if id = current then ((s.renewClaim id outcome).tickClaims tick rest, none) else (s, none)
    | .holds (current :: _), none => (if id = current then { s with renewTick := none } else s, none)
    | .claims (current :: _), none => (if id = current then { s with renewTick := none } else s, none)
    | _, _ => (s, none)

def resetForBrokerSwitch : ExecutionCoordinator :=
  { s with active := [], holds := [], positionClaims := [], activeOpportunities := [] }

end ExecutionCoordinator

inductive CoordinatorEvent where
  | entered (atomic : Bool) (candidate : EntryCandidate) (gates : EntryGates) (now : ℚ)
  | entryAnswered (id : MintedId) (answer : Answer) (now : ℚ)
  | exited (atomic : Bool) (keys : List String) (underlying : String)
  | exitAnswered (id : MintedId) (answer : Answer) (now : ℚ)
  | claimed (underlying : String) (dependant : Dependant)
  | claimAnswered (owner : MintedId) (answer : Answer)
  | unclaimed (underlying : String) (dependant : Dependant)
  | dropped (owner : MintedId)
  | ticked (now : ℚ)
  | renewed (id : MintedId) (outcome : Option RenewOutcome)
  | switched (context : Context)
  | reset

namespace ExecutionCoordinator

def step (cfg : CoordinatorConfig) (s : ExecutionCoordinator) :
    CoordinatorEvent → ExecutionCoordinator × Option Violation
  | .entered atomic candidate gates now => (s.enter cfg atomic candidate gates now, none)
  | .entryAnswered id answer now => (s.resumeEntry cfg id answer now, none)
  | .exited atomic keys underlying => (s.exit atomic keys underlying, none)
  | .exitAnswered id answer now => (s.resumeExit cfg id answer now, none)
  | .claimed underlying dependant => (s.claimUnderlying cfg underlying dependant, none)
  | .claimAnswered owner answer => (s.claimAcquired owner answer, none)
  | .unclaimed underlying dependant => ((s.dropUnderlyingHolder cfg underlying (.dependant dependant)).1, none)
  | .dropped owner => ({ s with drops := s.drops.filter fun drop => drop ≠ owner }, none)
  | .ticked now => (s.beginTick cfg now, none)
  | .renewed id outcome => s.renewed cfg id outcome
  | .switched context => ({ s with context }, none)
  | .reset => (s.resetForBrokerSwitch, none)

end ExecutionCoordinator

end Coordination

end BoxEngine
