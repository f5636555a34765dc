import BoxEngine.LiveExit

/-!
# Partial-entry recovery

Without all four legs there is no box. An unprovable quantity is neither zero nor full, a working leg is waited for,
and an unwind is sized by confirmed quantities.
-/

namespace BoxEngine

open Js

structure EntryLegOutcome where
  role : BoxLegRole
  side : OrderSide
  requested : Number
  confirmedFilled : Number
  terminal : Bool
  submitted : Bool
  brokerStateKnown : Bool

structure PlannedUnwind where
  role : BoxLegRole
  side : OrderSide
  quantity : Number

inductive PartialEntryAction where
  | qualifyCompleteBox
  | noExposure
  | unwindConfirmedExposure
  | awaitTerminal
  | quarantineUnknown
  deriving DecidableEq

def PartialEntryAction.label : PartialEntryAction → String
  | .qualifyCompleteBox => "qualify_complete_box"
  | .noExposure => "no_exposure"
  | .unwindConfirmedExposure => "unwind_confirmed_exposure"
  | .awaitTerminal => "await_terminal"
  | .quarantineUnknown => "quarantine_unknown"

structure PartialEntryPlan where
  action : PartialEntryAction
  complete : Bool
  quantityUnknown : Bool
  cancelRoles : List BoxLegRole
  awaitTerminalRoles : List BoxLegRole
  stopSubmitRoles : List BoxLegRole
  unwind : List PlannedUnwind
  totalConfirmedQuantity : Number
  confirmedByRole : ByRole Number
  detail : String

/-! ## The scan over the expected roles -/

structure RecoveryScan where
  confirmedByRole : ByRole Number
  cancelRoles : List BoxLegRole
  awaitTerminalRoles : List BoxLegRole
  stopSubmitRoles : List BoxLegRole
  totalConfirmed : Number
  quantityUnknown : Bool
  allRequestedMet : Bool

def RecoveryScan.start : RecoveryScan := ⟨fun _ => none, [], [], [], .fin 0, false, true⟩

def legByRole (legs : List EntryLegOutcome) : ByRole EntryLegOutcome :=
  legs.foldl (fun byRole leg => byRole.set leg.role leg) fun _ => none

/-- A negative or unusable reading counts as nothing; one above the request is kept. -/
def EntryLegOutcome.filled (leg : EntryLegOutcome) : Number :=
  if leg.confirmedFilled.isFinite then (Number.fin 0).max leg.confirmedFilled else .fin 0

def RecoveryScan.leg (scan : RecoveryScan) (role : BoxLegRole) (found : Option EntryLegOutcome) : RecoveryScan :=
  match found.filter EntryLegOutcome.submitted with
  | none =>
    { scan with
      stopSubmitRoles := scan.stopSubmitRoles ++ [role]
      allRequestedMet := false
      confirmedByRole := scan.confirmedByRole.set role (.fin 0) }
  | some leg =>
    let counted := { scan with
      confirmedByRole := scan.confirmedByRole.set role leg.filled
      totalConfirmed := scan.totalConfirmed.add leg.filled }
    if leg.brokerStateKnown = false then { counted with quantityUnknown := true, allRequestedMet := false }
    else if leg.terminal = false then
      { counted with
        cancelRoles := scan.cancelRoles ++ [role]
        awaitTerminalRoles := scan.awaitTerminalRoles ++ [role]
        allRequestedMet := false }
    else if leg.filled < leg.requested then { counted with allRequestedMet := false }
    else counted

def plannedUnwinds (byRole : ByRole EntryLegOutcome) (confirmedByRole : ByRole Number) (expectedRoles : List BoxLegRole) :
    List PlannedUnwind :=
  expectedRoles.filterMap fun role =>
    let filled := (confirmedByRole role).getD (.fin 0)
    (byRole role).bind fun leg => if filled ≤ .fin 0 then none else some ⟨role, leg.side.reverse, filled⟩

def totalOf (unwind : List PlannedUnwind) : Number :=
  unwind.foldl (fun sum item => sum.add item.quantity) (.fin 0)

/-- A box that is complete is qualified; one with an unknown quantity is not unwound on a guess. -/
def planPartialEntryRecovery (legs : List EntryLegOutcome) (expectedRoles : List BoxLegRole) : PartialEntryPlan :=
  let byRole := legByRole legs
  let scan := expectedRoles.foldl (fun (scan : RecoveryScan) role => scan.leg role (byRole role)) RecoveryScan.start
  let plan := fun (action : PartialEntryAction) (unwind : List PlannedUnwind) (detail : String) =>
    { action
      complete := false
      quantityUnknown := scan.quantityUnknown
      cancelRoles := scan.cancelRoles
      awaitTerminalRoles := scan.awaitTerminalRoles
      stopSubmitRoles := scan.stopSubmitRoles
      unwind
      totalConfirmedQuantity := scan.totalConfirmed
      confirmedByRole := scan.confirmedByRole
      detail : PartialEntryPlan }
  if scan.allRequestedMet ∧ expectedRoles ≠ [] then
    { action := .qualifyCompleteBox
      complete := true
      quantityUnknown := false
      cancelRoles := []
      awaitTerminalRoles := []
      stopSubmitRoles := []
      unwind := []
      totalConfirmedQuantity := scan.totalConfirmed
      confirmedByRole := scan.confirmedByRole
      detail := "all four legs reached requested quantity" }
  else if scan.quantityUnknown then
    -- outranks everything: acting on an unprovable quantity is how a recovery turns into a naked position
    plan .quarantineUnknown []
      "at least one leg's broker filled quantity is unprovable (UNKNOWN / RECONCILIATION_REQUIRED); quarantining instead of unwinding, because unwinding an unproven quantity would create opposite naked exposure"
  else if ¬ scan.awaitTerminalRoles.isEmpty then
    plan .awaitTerminal []
      s!"{scan.awaitTerminalRoles.length} leg(s) are still working; cancellation requested and the plan will be rebuilt from authoritative terminal quantities, since a cancel can race a fill"
  else if scan.totalConfirmed = .fin 0 then
    plan .noExposure [] "no leg filled any quantity; there is no exposure to unwind"
  else
    let unwind := plannedUnwinds byRole scan.confirmedByRole expectedRoles
    plan .unwindConfirmedExposure unwind
      s!"entry incomplete; unwinding exactly the confirmed exposure on {unwind.length} leg(s) ({(totalOf unwind).toText} total units)"

inductive ConservationViolationKind where
  | unwoundMoreThanConfirmed | negativeResidual | overfill
  deriving DecidableEq

def ConservationViolationKind.label : ConservationViolationKind → String
  | .unwoundMoreThanConfirmed => "unwound_more_than_confirmed"
  | .negativeResidual => "negative_residual"
  | .overfill => "overfill"

structure ConservationViolation where
  role : BoxLegRole
  kind : ConservationViolationKind
  confirmed : Number
  unwound : Number
  requested : Number
  detail : String

structure ConservationResult where
  conserved : Bool
  violations : List ConservationViolation
  residualByRole : ByRole Number
  totalResidual : Number
  requiresRecovery : Bool

def legViolations (leg : EntryLegOutcome) (unwound : Number) : List ConservationViolation :=
  let confirmed := if leg.confirmedFilled.isFinite then leg.confirmedFilled else .fin 0
  let residual := confirmed.sub unwound
  let violation := fun (wrong : Bool) (kind : ConservationViolationKind) (detail : String) =>
    if wrong then [ConservationViolation.mk leg.role kind confirmed unwound leg.requested detail] else []
  violation (leg.requested < confirmed) .overfill
      s!"broker confirmed {confirmed.toText} filled against a requested {leg.requested.toText}: broker truth proves an overfill, so the quantity model is wrong and RECOVERY must trigger" ++
    violation (confirmed < unwound) .unwoundMoreThanConfirmed
      s!"unwound {unwound.toText} against a confirmed {confirmed.toText}: this creates opposite naked exposure and must never happen" ++
    violation (residual < .fin 0) .negativeResidual
      s!"residual {residual.toText} is negative; exposure accounting is inconsistent"

def verifyQuantityConservation (entry : List EntryLegOutcome) (unwoundByRole : BoxLegRole → Option Number) :
    ConservationResult :=
  let unwoundOf := fun (leg : EntryLegOutcome) => (unwoundByRole leg.role).getD (.fin 0)
  let residualOf := fun (leg : EntryLegOutcome) =>
    (Number.fin 0).max ((if leg.confirmedFilled.isFinite then leg.confirmedFilled else .fin 0).sub (unwoundOf leg))
  let violations := entry.flatMap fun leg => legViolations leg (unwoundOf leg)
  { conserved := violations.isEmpty
    violations
    residualByRole := entry.foldl (fun byRole leg => byRole.set leg.role (residualOf leg)) fun _ => none
    totalResidual := entry.foldl (fun total leg => total.add (residualOf leg)) (.fin 0)
    requiresRecovery := ¬ violations.isEmpty }

end BoxEngine
