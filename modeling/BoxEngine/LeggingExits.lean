import BoxEngine.BoxScanner

/-!
# The monitor's legging exits

What the monitor does with the results of legging exits for one position: exits one at a time, the writes they await,
and retries. Nothing of the monitor reads the accepted results.
-/

namespace BoxEngine

open Js

inductive BoxPositionState where
  | box
  | partiallyExited
  | recovery
  | flat
  deriving DecidableEq

inductive ExitOrigin where
  | auto
  | manual
  deriving DecidableEq

inductive ExitAttemptStatus where
  | partial_
  | complete
  | invariantViolation
  | uncertain
  deriving DecidableEq

structure ExitLegRecord where
  role : BoxLegRole
  requestedQty : Number
  orderId : Option String

structure LeggingExitRecord where
  legs : List ExitLegRecord
  fillsByRole : ByRole Number
  submittedLegCount : ℕ
  fullyClosedRoleCount : ℕ

inductive LeggingExitResult where
  | ok (legs : List BoxLegEvaluation) (record : LeggingExitRecord)
  | failed (legs : Option (List BoxLegEvaluation)) (record : LeggingExitRecord) (detail : String)

structure ExitAttempt where
  attemptId : String
  origin : ExitOrigin
  status : ExitAttemptStatus
  reason : String
  requestedQtyByRole : BoxLegRole → Number
  fillsByRole : ByRole Number
  avgPriceByRole : ByRole Number
  remainingAfter : BoxLegRole → Number
  remainingRoleCount : ℕ
  submittedLegCount : ℕ
  fullyFilledRoleCount : ℕ
  violation : Option String

structure MonitoredPosition where
  position : BoxOpenPosition
  positionState : BoxPositionState
  exitAttempts : List ExitAttempt
  exitBlockedReason : Option String

structure PartialPersist where
  projected : MonitoredPosition
  residual : List (BoxLegRole × Number)

/-- What a result comes to: a write, after which the position is changed, or an end at once. -/
inductive AppliedExit where
  | uncertain (persist : PartialPersist) (detail : String)
  | nothing (detail : String)
  | invalid (persist : PartialPersist) (message : String)
  | final (projected : MonitoredPosition)
  | partial_ (persist : PartialPersist) (closedRoles : List BoxLegRole)
  | threw

structure AcceptedExit where
  legs : List BoxLegEvaluation
  fillsByRole : ByRole Number

inductive ExitCall where
  | executing (origin : ExitOrigin) (reason : String)
  | persisting (applied : AppliedExit)

inductive ExitRetry where
  | final (projected : MonitoredPosition)
  | partial_ (persist : PartialPersist)

structure ExitMonitor where
  «open» : Bool
  pos : MonitoredPosition
  exit : Option ExitCall
  pendingPartialPersist : Option PartialPersist
  pendingFinalPersist : Option MonitoredPosition
  retrying : Option ExitRetry
  accepted : List AcceptedExit

def isInteger : Number → Bool
  | .fin q => q.den = 1
  | _ => false

def ExecutionMode.label : ExecutionMode → String
  | .paperTouch => "paper_touch"
  | .paperLatency => "paper_latency"
  | .paperLegging => "paper_legging"
  | .live => "live"

def emptyRoleMap : BoxLegRole → Number := fun _ => .fin 0

def isBoxPositionFlat (remaining : BoxLegRole → Number) : Bool := boxLegRoles.all fun role => remaining role = .fin 0

def deriveBoxPositionState (remaining : BoxLegRole → Number) (current : BoxPositionState) : BoxPositionState :=
  if isBoxPositionFlat remaining then .flat
  else if current = .recovery then .recovery
  else if .fin 0 < remaining .k1Ce ∧ ∀ role ∈ boxLegRoles, remaining role = remaining .k1Ce then .box
  else .partiallyExited

namespace LeggingExitResult

def record : LeggingExitResult → LeggingExitRecord
  | .ok _ record => record
  | .failed _ record _ => record

def legs : LeggingExitResult → List BoxLegEvaluation
  | .ok legs _ => legs
  | .failed legs _ _ => legs.getD []

def detail : LeggingExitResult → Option String
  | .ok _ _ => none
  | .failed _ _ detail => some detail

def isUncertain (mode : ExecutionMode) (result : LeggingExitResult) : Bool :=
  decide (mode = .live) && result.detail.any (matchesAny ["uncertain", "reconcil"])

end LeggingExitResult

namespace LeggingExitRecord

variable (record : LeggingExitRecord)

def confirmed (role : BoxLegRole) : Number := (record.fillsByRole role).getD (.fin 0)

def requestedByRole : BoxLegRole → Number :=
  record.legs.foldl (fun requested leg => Function.update requested leg.role leg.requestedQty) emptyRoleMap

def submittedRoles : List BoxLegRole :=
  record.legs.map ExitLegRecord.role ++ boxLegRoles.filter fun role => (record.fillsByRole role).isSome

def attemptId (pos : MonitoredPosition) : String :=
  (record.legs.head?.bind ExitLegRecord.orderId).getD s!"{pos.position.id}:exit:{pos.exitAttempts.length}"

end LeggingExitRecord

/-! ## Applying a result -/

namespace MonitoredPosition

variable (pos : MonitoredPosition)

def remaining : BoxLegRole → Number := pos.position.remainingQtyByRole

def withRemaining (remaining : BoxLegRole → Number) : MonitoredPosition :=
  { pos with position := { pos.position with remainingQtyByRole := remaining } }

def attemptWithout (record : LeggingExitRecord) (origin : ExitOrigin) (reason : String)
    (status : ExitAttemptStatus) (violation : Option String) (outstanding : ℕ) : ExitAttempt where
  attemptId := record.attemptId pos
  origin
  status
  reason
  requestedQtyByRole := record.requestedByRole
  fillsByRole := record.fillsByRole
  avgPriceByRole _ := none
  remainingAfter := pos.remaining
  remainingRoleCount := outstanding
  submittedLegCount := record.submittedLegCount
  fullyFilledRoleCount := record.fullyClosedRoleCount
  violation

def recovering (attempt : ExitAttempt) (reason : String) : MonitoredPosition :=
  { pos with positionState := .recovery, exitAttempts := pos.exitAttempts ++ [attempt], exitBlockedReason := some reason }

def invalidRole (record : LeggingExitRecord) : Option BoxLegRole :=
  record.submittedRoles.find? fun role =>
    isInteger (record.confirmed role) = false ∨ record.confirmed role < .fin 0 ∨ pos.remaining role < record.confirmed role

end MonitoredPosition

structure BankedFills where
  remaining : BoxLegRole → Number
  fillsByRole : ByRole Number
  avgPriceByRole : ByRole Number
  closedRoles : List BoxLegRole

/-- A confirmed fill is banked at the price of its leg, and left outstanding where that has none. -/
def BankedFills.bank (pos : MonitoredPosition) (record : LeggingExitRecord) (banked : BankedFills) (leg : BoxLegEvaluation) :
    BankedFills :=
  let closed := record.confirmed leg.role
  match leg.price.filter fun price => .fin 0 < price with
  | none => banked
  | some price =>
    { remaining := Function.update banked.remaining leg.role (Number.max (.fin 0) ((pos.remaining leg.role).sub closed))
      fillsByRole := banked.fillsByRole.set leg.role closed
      avgPriceByRole := banked.avgPriceByRole.set leg.role price
      closedRoles := banked.closedRoles ++ [leg.role] }

namespace MonitoredPosition

variable (pos : MonitoredPosition)
variable (record : LeggingExitRecord)

def bank (closedLegs : List BoxLegEvaluation) : BankedFills :=
  closedLegs.foldl (BankedFills.bank pos record) ⟨pos.remaining, fun _ => none, fun _ => none, []⟩

def bankedAttempt (origin : ExitOrigin) (reason : String) (banked : BankedFills) : ExitAttempt where
  attemptId := record.attemptId pos
  origin
  status := if isBoxPositionFlat banked.remaining then .complete else .partial_
  reason
  requestedQtyByRole := record.requestedByRole
  fillsByRole := banked.fillsByRole
  avgPriceByRole := banked.avgPriceByRole
  remainingAfter := banked.remaining
  remainingRoleCount := (boxLegRoles.filter fun role => .fin 0 < banked.remaining role).length
  submittedLegCount := record.submittedLegCount
  fullyFilledRoleCount := record.fullyClosedRoleCount
  violation := none

def afterBanking (origin : ExitOrigin) (reason : String) (banked : BankedFills) : MonitoredPosition :=
  { pos.withRemaining banked.remaining with
    positionState := deriveBoxPositionState banked.remaining pos.positionState
    exitAttempts := pos.exitAttempts ++ [pos.bankedAttempt record origin reason banked] }

def violationMessage (role : BoxLegRole) : String :=
  s!"confirmed fill invariant violated for {role.label}: {(record.confirmed role).toText} not within " ++
    s!"0..{(pos.remaining role).toText}"

/-- `applyLeggingExitResult` up to its write, with the residual of the written copy. -/
def applyLeggingExitResult (mode : ExecutionMode) (pos : MonitoredPosition) (result : LeggingExitResult)
    (origin : ExitOrigin) (reason : String) : AppliedExit :=
  let record := result.record
  let recover (status : ExitAttemptStatus) (violation : Option String) (blocked : String) : Except String PartialPersist :=
    (outstandingRoles pos.position boxLegRoles).map fun residual =>
      ⟨pos.recovering (pos.attemptWithout record origin reason status violation residual.length) blocked, residual⟩
  if result.isUncertain mode then
    let detail := result.detail.getD ""
    (recover .uncertain none detail).toOption.elim .threw fun persist => .uncertain persist detail
  else
    let closedLegs := result.legs.filter fun leg => .fin 0 < record.confirmed leg.role
    if closedLegs = [] then
      .nothing (s!"{mode.label} exit closed 0/{record.submittedLegCount} submitted legs" ++
        result.detail.elim "" fun detail => s!" — {detail}")
    else match pos.invalidRole record with
      | some role =>
        let message := pos.violationMessage record role
        (recover .invariantViolation (some message) message).toOption.elim .threw fun persist => .invalid persist message
      | none =>
        let banked := pos.bank record closedLegs
        let projected := pos.afterBanking record origin reason banked
        if isBoxPositionFlat banked.remaining then .final { projected with exitBlockedReason := none }
        else (outstandingRoles projected.position boxLegRoles).toOption.elim .threw fun residual =>
          .partial_ ⟨projected, residual⟩ banked.closedRoles

end MonitoredPosition

/-! ## The monitor -/

namespace ExitMonitor

/-- What becomes of the position once the store has answered; a write that failed is retained for a retry. -/
def persisted (s : ExitMonitor) (applied : AppliedExit) (stored : Bool) : ExitMonitor :=
  match applied with
  | .uncertain persist detail =>
    if stored then
      { s with pos := { s.pos with
          positionState := .recovery
          exitBlockedReason := some detail
          exitAttempts := persist.projected.exitAttempts } }
    else { s with pendingPartialPersist := some persist }
  -- nothing was confirmed, so nothing was written
  | .nothing _ => s
  | .invalid persist message =>
    if stored then
      { s with pos := { s.pos with
          positionState := persist.projected.positionState
          exitBlockedReason := persist.projected.exitBlockedReason
          exitAttempts := persist.projected.exitAttempts } }
    else
      { s with
        pendingPartialPersist := some persist
        pos := { s.pos with
          positionState := .recovery
          exitBlockedReason := some s!"{message}; durable recovery projection is pending" } }
  | .final projected =>
    if stored then
      { s with
        «open» := false
        pos := { s.pos.withRemaining projected.remaining with
          positionState := projected.positionState
          exitAttempts := projected.exitAttempts
          exitBlockedReason := none } }
    else
      { s with
        pendingFinalPersist := some projected
        pos := { s.pos with
          positionState := .recovery
          exitBlockedReason := some "all exit fills confirmed, but final close persistence is pending" } }
  | .partial_ persist closedRoles =>
    let closed := ", ".intercalate (closedRoles.map BoxLegRole.label)
    let left := ", ".intercalate (persist.residual.map fun leg => s!"{leg.1.label}×{leg.2.toText}")
    let detail := s!"partial exit: closed {closed}; still open {left}"
    if stored then
      { s with pos := { s.pos.withRemaining persist.projected.remaining with
          positionState := persist.projected.positionState
          exitAttempts := persist.projected.exitAttempts
          exitBlockedReason := some detail } }
    else
      { s with
        pendingPartialPersist := some persist
        pos := { s.pos with
          positionState := .recovery
          exitBlockedReason := some (detail ++ " (persist failed — retained for deterministic retry)") } }
  | .threw => s

/-- The market, the feed, the book and the rules may each refuse; the automatic path also asks for retained
projections. -/
def admits (s : ExitMonitor) (origin : ExitOrigin) (refused : Bool) : Bool :=
  s.open && !refused && decide (s.pos.positionState ≠ .recovery) && s.exit.isNone &&
    (decide (origin = .manual) || (s.pendingFinalPersist.isNone && s.pendingPartialPersist.isNone))

end ExitMonitor

inductive ExitEvent where
  | started (origin : ExitOrigin) (reason : String) (refused : Bool)
  | threw
  | returned (result : LeggingExitResult)
  | persisted (stored : Bool)
  | retryFinal
  | retryPartial
  | retried (stored : Bool)

namespace ExitMonitor

def apply (mode : ExecutionMode) (s : ExitMonitor) (result : LeggingExitResult) : ExitMonitor :=
  match s.exit with
  | some (.executing origin reason) =>
    match s.pos.applyLeggingExitResult mode result origin reason with
    | .nothing detail => { s with exit := none, pos := { s.pos with exitBlockedReason := some detail } }
    | .threw => { s with exit := none }
    | .uncertain persist detail => { s with exit := some (.persisting (.uncertain persist detail)) }
    | .invalid persist message => { s with exit := some (.persisting (.invalid persist message)) }
    | .final projected =>
      { s with
        exit := some (.persisting (.final projected))
        accepted := s.accepted ++ [⟨result.legs, result.record.fillsByRole⟩] }
    | .partial_ persist closedRoles =>
      { s with
        exit := some (.persisting (.partial_ persist closedRoles))
        accepted := s.accepted ++ [⟨result.legs, result.record.fillsByRole⟩] }
  | _ => s

variable (s : ExitMonitor)

def finishPersist (stored : Bool) : ExitMonitor :=
  match s.exit with
  | some (.persisting applied) => { s with exit := none }.persisted applied stored
  | _ => s

def retryFinal : ExitMonitor :=
  match s.retrying, s.pendingFinalPersist with
  | none, some projected => { s with retrying := some (.final projected) }
  | _, _ => s

def retryPartial : ExitMonitor :=
  match s.retrying, s.pendingPartialPersist with
  | none, some persist => { s with retrying := some (.partial_ persist) }
  | _, _ => s

def finishRetry (stored : Bool) : ExitMonitor :=
  match s.retrying with
  | none => s
  | some (.final _) =>
    if s.open = false then { s with retrying := none, pendingFinalPersist := none }
    else if stored then { s with retrying := none, pendingFinalPersist := none, «open» := false }
    else { s with retrying := none }
  | some (.partial_ persist) =>
    if s.open = false then { s with retrying := none, pendingPartialPersist := none }
    else if stored then
      { s with
        retrying := none
        pendingPartialPersist := none
        pos := { s.pos.withRemaining persist.projected.remaining with
          positionState := persist.projected.positionState
          exitAttempts := persist.projected.exitAttempts
          exitBlockedReason := persist.projected.exitBlockedReason } }
    else { s with retrying := none }

def step (mode : ExecutionMode) (s : ExitMonitor) : ExitEvent → ExitMonitor × Unit
  | .started origin reason refused =>
    (if s.admits origin refused then { s with exit := some (.executing origin reason) } else s, ())
  | .threw =>
    (match s.exit with
      | some (.executing _ _) => { s with exit := none }
      | _ => s, ())
  | .returned result => (s.apply mode result, ())
  | .persisted stored => (s.finishPersist stored, ())
  | .retryFinal => (s.retryFinal, ())
  | .retryPartial => (s.retryPartial, ())
  | .retried stored => (s.finishRetry stored, ())

end ExitMonitor

end BoxEngine
