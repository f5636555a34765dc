import BoxEngine.Lib.Text
import BoxEngine.OrderIntent

/-!
# Residual flatten identities

The same logical submission keeps its identity, a new attempt on what is outstanding gets a new one; the generation
lives on the residual.
-/

namespace BoxEngine

open Js

inductive ResidualExposureSource where
  | partialEntry
  | partialExit
  | failedUnwind
  deriving DecidableEq

/-- The watermarks say what of the generation's order is projected; older rows carry none. -/
structure ResidualLegExposure where
  token : Number
  tradingsymbol : String
  exchange : Option String
  role : BoxLegRole
  side : OrderSide
  quantity : ℚ
  averagePrice : Number
  source : ResidualExposureSource
  createdAt : Number
  flattenAttempt : Option Number
  flattenAccountedFilled : Option Number
  flattenAccountedCharges : Option Number
  flattenBrokerRejections : Option Number
  outstanding : 0 < quantity

def firstResidualFlattenAttempt : ℕ := 1

def maxResidualBrokerRejections : ℕ := 5

def maxResidualFlattenAttemptProbe : ℕ := 64

variable (residual : ResidualLegExposure)

def residualBrokerRejections : ℕ :=
  match residual.flattenBrokerRejections with
  | some (.fin q) => if q ≤ 0 then 0 else ⌊q⌋.toNat
  | _ => 0

def residualRejectionBudgetExhausted : Bool :=
  maxResidualBrokerRejections ≤ residualBrokerRejections residual

inductive ResidualFlattenDisposition where
  | flattened
  | retireAttempt
  | reuseAttempt
  | adoptAttempt
  deriving DecidableEq

def ResidualFlattenDisposition.label : ResidualFlattenDisposition → String
  | .flattened => "flattened"
  | .retireAttempt => "retire_attempt"
  | .reuseAttempt => "reuse_attempt"
  | .adoptAttempt => "adopt_attempt"

inductive ResidualFlattenFailureKind where
  | noExecutableBook
  | gateRefused
  | alreadyInFlight
  | localPreSubmitRefused
  | brokerRejected
  | brokerRejectionBudgetExhausted
  | persistenceAfterFill
  | brokerStateUnknown
  | identityConflict
  | hedgeCoverRetained
  | unexpected
  deriving DecidableEq

def ResidualFlattenFailureKind.label : ResidualFlattenFailureKind → String
  | .noExecutableBook => "no_executable_book"
  | .gateRefused => "gate_refused"
  | .alreadyInFlight => "already_in_flight"
  | .localPreSubmitRefused => "local_pre_submit_refused"
  | .brokerRejected => "broker_rejected"
  | .brokerRejectionBudgetExhausted => "broker_rejection_budget_exhausted"
  | .persistenceAfterFill => "persistence_after_fill"
  | .brokerStateUnknown => "broker_state_unknown"
  | .identityConflict => "identity_conflict"
  | .hedgeCoverRetained => "hedge_cover_retained"
  | .unexpected => "unexpected"

/-- The generation of the next submission; absent and unusable values read as the first. -/
def residualFlattenAttempt : ℕ :=
  match residual.flattenAttempt with
  | some (.fin q) => max firstResidualFlattenAttempt ⌊q⌋.toNat
  | _ => firstResidualFlattenAttempt

def residualFlattenAttemptId (base : String) (attempt : ℕ) : String :=
  s!"{base}-attempt-{max firstResidualFlattenAttempt attempt}"

structure ResidualFlattenAccounting where
  cumulativeFilled : Option Number
  cumulativeCharges : Option ℚ

/-- Only a retired identity advances the generation, from zero watermarks. -/
def carryResidualForward (quantity : ℚ) (held : 0 < quantity) (attempt : ℕ)
    (disposition : ResidualFlattenDisposition) (accounting : ResidualFlattenAccounting)
    (failure : Option ResidualFlattenFailureKind) : ResidualLegExposure :=
  let retires : Bool := disposition = .retireAttempt
  let filled : Bool := quantity < residual.quantity
  let priorRejections := if filled then 0 else residualBrokerRejections residual
  let rejections := priorRejections + if failure = some .brokerRejected then 1 else 0
  { residual with
    quantity
    outstanding := held
    flattenAttempt := some (.fin (if retires then attempt + 1 else attempt))
    flattenAccountedFilled :=
      if retires then some (.fin 0) else accounting.cumulativeFilled.or residual.flattenAccountedFilled
    flattenAccountedCharges :=
      if retires then some (.fin 0)
      else (accounting.cumulativeCharges.map Number.fin).or residual.flattenAccountedCharges
    flattenBrokerRejections := if 0 < rejections then some (.fin rejections) else none }

def classifyResidualOrder (order : BrokerOrder) (requested : ℚ) : ResidualFlattenDisposition :=
  if isBrokerOrderTerminal order.state = false then .adoptAttempt
  else if order.state = .rejected then
    if .fin 0 < order.filledQuantity then .adoptAttempt else .retireAttempt
  else if .fin requested ≤ order.filledQuantity then .flattened
  else .retireAttempt

def classifyResidualFlattenErrorMessage (message : String) : ResidualFlattenFailureKind :=
  if matchesAny ["reused with different immutable field"] message then .identityConflict
  else if matchesAny ["already queued or active"] message then .alreadyInFlight
  else if matchesAny ["unknown", "ambiguous", "reconcil", "timedout", "timed out", "timeout", "time out"] message then
    .brokerStateUnknown
  else if matchesAny ["quantity limits", "exposure management", "controls or limits", "exposure changed while",
      "disabled while"] message then .gateRefused
  else .unexpected

def dispositionForFailure : ResidualFlattenFailureKind → ResidualFlattenDisposition
  | .noExecutableBook => .reuseAttempt
  | .gateRefused => .reuseAttempt
  | .alreadyInFlight => .reuseAttempt
  | .hedgeCoverRetained => .reuseAttempt
  | .localPreSubmitRefused => .retireAttempt
  | .brokerRejected => .retireAttempt
  | .brokerRejectionBudgetExhausted => .adoptAttempt
  | .identityConflict => .retireAttempt
  | .persistenceAfterFill => .adoptAttempt
  | .brokerStateUnknown => .adoptAttempt
  | .unexpected => .adoptAttempt

def residualFailurePhrase : ResidualFlattenFailureKind → String
  | .noExecutableBook => "no executable book on the reducing side"
  | .gateRefused => "an order-manager gate refused the reduction before the broker"
  | .alreadyInFlight => "the same attempt is already queued or in flight"
  | .localPreSubmitRefused => "current executable-feed authority refused before broker POST"
  | .brokerRejected => "the broker terminally rejected the reduction"
  | .brokerRejectionBudgetExhausted =>
    s!"the broker rejected this reduction {maxResidualBrokerRejections} times running with zero fill each time; automatic retry has STOPPED and the exposure is still held — check for an F&O ban period, an expired contract, an RMS block or a margin shortfall, then flatten manually"
  | .persistenceAfterFill => "filled but its durable snapshot failed"
  | .brokerStateUnknown => "uncertain broker terminal quantity; quarantined for reconciliation"
  | .identityConflict => "a stale durable intent blocked this attempt; the generation was retired past it"
  | .hedgeCoverRetained =>
    "held back as cover: it is long protection against a short residual that is not yet proven closed"
  | .unexpected => "an unclassified internal fault"

def residualFailureIsInvariant (kind : ResidualFlattenFailureKind) : Bool :=
  kind = .persistenceAfterFill || kind = .brokerStateUnknown || kind = .identityConflict ||
    kind = .brokerRejectionBudgetExhausted || kind = .unexpected

theorem residualFlattenAttempt_pos : 0 < residualFlattenAttempt residual := by
  unfold residualFlattenAttempt firstResidualFlattenAttempt
  split <;> simp

theorem carry_attempt (quantity : ℚ) (held : 0 < quantity) {attempt : ℕ}
    (hattempt : 0 < attempt) (disposition : ResidualFlattenDisposition) (accounting : ResidualFlattenAccounting)
    (failure : Option ResidualFlattenFailureKind) :
    residualFlattenAttempt (carryResidualForward residual quantity held attempt disposition accounting failure) =
      if disposition = .retireAttempt then attempt + 1 else attempt := by
  unfold residualFlattenAttempt carryResidualForward firstResidualFlattenAttempt
  by_cases h : disposition = .retireAttempt
  · simp [h]
  · simp [h]
    omega

theorem classify_flattened {order : BrokerOrder} {requested : ℚ}
    (h : classifyResidualOrder order requested = .flattened) :
    (order.state = .complete ∨ order.state = .cancelled) ∧ .fin requested ≤ order.filledQuantity := by
  unfold classifyResidualOrder at h
  by_cases hterminal : isBrokerOrderTerminal order.state = false
  · simp [hterminal] at h
  · by_cases hrejected : order.state = .rejected
    · rw [if_neg hterminal, if_pos hrejected] at h
      split at h <;> cases h
    · by_cases hcovers : Number.fin requested ≤ order.filledQuantity
      · refine ⟨?_, hcovers⟩
        simp only [isBrokerOrderTerminal, hrejected, decide_false, Bool.or_false, Bool.not_eq_false, Bool.or_eq_true,
          decide_eq_true_eq] at hterminal
        exact hterminal
      · simp [hterminal, hrejected, hcovers] at h

theorem classify_of_covers {order : BrokerOrder} {requested : ℚ}
    (hstate : order.state = .complete ∨ order.state = .cancelled) (hcovers : .fin requested ≤ order.filledQuantity) :
    classifyResidualOrder order requested = .flattened := by
  unfold classifyResidualOrder isBrokerOrderTerminal
  rcases hstate with h | h <;> simp [h, hcovers]

end BoxEngine
