import BoxEngine.ExitDependencies
import BoxEngine.OrderMerge
import Mathlib.Data.Nat.Digits.Defs

/-!
# Order requests and what submitting one can answer

The gateway's request, its stable identities, the errors of a submission, and when a rejection proves that nothing
executed.
-/

namespace BoxEngine

open Js

structure BrokerOrderRequest where
  clientOrderId : String
  role : BoxLegRole
  tradeId : Option String
  attemptId : String
  purpose : BoxOrderPurpose
  phase : BoxOrderPhase
  exchange : String
  tradingsymbol : String
  token : Number
  side : OrderSide
  quantity : Number
  pricing : BrokerLimitPricing
  deriving DecidableEq

def BoxOrderPurpose.label : BoxOrderPurpose → String
  | .entry => "ENTRY"
  | .exit => "EXIT"
  | .emergencyResidual => "EMERGENCY_RESIDUAL"
  | .protectiveCancel => "PROTECTIVE_CANCEL"

def sideLabel : OrderSide → String
  | .buy => "BUY"
  | .sell => "SELL"

def boxClientOrderId (tradeId : String) (purpose : BoxOrderPurpose) (role : BoxLegRole) (attempt : String) : String :=
  s!"BOX:{tradeId}:{purpose.label}:{role.label}:{attempt}"

def fromRequest (req : BrokerOrderRequest) (tag : Option String) (now : Number) : BrokerOrder :=
  { req with
    brokerOrderId := none, tag, limitPrice := req.pricing.limitPrice, state := .created, filledQuantity := .fin 0
    pendingQuantity := req.quantity, averagePrice := none, fills := [], executionEvidence := none
    rejectFamily := none, rejectReason := none, createdAt := now, updatedAt := now, exchangeUpdatedAt := none }

def charCodeAt0 (c : Char) : UInt32 :=
  if c.toNat < 65536 then c.val else 55296 + (c.val - 65536) / 1024

def stableHash (value : String) : UInt32 :=
  value.toList.foldl (fun hash char => (hash ^^^ charCodeAt0 char) * 16777619) 2166136261

def base36Digit (d : ℕ) : Char :=
  if d < 10 then Char.ofNat (48 + d) else Char.ofNat (87 + d)

def base36 (n : ℕ) : String :=
  if n = 0 then "0" else String.ofList ((Nat.digits 36 n).reverse.map base36Digit)

def stableAttemptId (scope : String) («at» : Number) (purpose : String) : String :=
  let hash := stableHash s!"{scope}:{at.toText}:{purpose}"
  s!"{purpose.toLower}-{base36 hash.toNat}"

inductive BrokerPreSubmitStage where
  | dequeue | postPersist | prePost
  deriving DecidableEq

def BrokerPreSubmitStage.label : BrokerPreSubmitStage → String
  | .dequeue => "dequeue"
  | .postPersist => "post_persist"
  | .prePost => "pre_post"

/-- A contradicted rejection carries its snapshot; every other error is known by its text alone. -/
inductive SubmitError where
  | preSubmitRefused (clientOrderId : String) (stage : BrokerPreSubmitStage) (durableIdentitySpent : Bool)
      (reason : String)
  | orderRejected (order : BrokerOrder)
  | ambiguousSubmit (clientOrderId message : String) (order : Option BrokerOrder)
  | persistenceAfterFill (order : BrokerOrder)
  | other (message : String)

def errorMessage : SubmitError → String
  | .preSubmitRefused _ stage _ reason => s!"Local pre-submit refusal at {stage.label}: {reason}"
  | .orderRejected order => order.rejectReason.getD "Broker rejected order."
  | .ambiguousSubmit _ message _ => message
  | .persistenceAfterFill order => s!"Persistence failed after confirmed fill {order.clientOrderId}."
  | .other message => message

abbrev SubmitAnswer := Except SubmitError BrokerOrder

/-! ## Verified zero exposure -/

inductive ZeroExposureDisproof where
  | stateNotTerminalRejected | positiveCumulativeFill | fillRecordsPresent | quantityEvidenceMissing
  deriving DecidableEq

def ZeroExposureDisproof.label : ZeroExposureDisproof → String
  | .stateNotTerminalRejected => "state_not_terminal_rejected"
  | .positiveCumulativeFill => "positive_cumulative_fill"
  | .fillRecordsPresent => "fill_records_present"
  | .quantityEvidenceMissing => "quantity_evidence_missing"

def QuantityEvidence.label : QuantityEvidence → String
  | .confirmed => "confirmed"
  | .missing => "missing"

def AccountingEvidence.label : AccountingEvidence → String
  | .complete => "complete"
  | .pendingPrice => "pending_price"
  | .unproven => "unproven"

structure ZeroExposureRefusal where
  disproof : ZeroExposureDisproof
  detail : String

def evidenceUnproven (evidence : ExecutionEvidenceQuality) : Bool :=
  evidence.quantity = .missing || evidence.accounting = .unproven

/-- What keeps a snapshot from proving that nothing executed; exposure comes before the label. -/
def verifyZeroBrokerExposure (order : BrokerOrder) : Option ZeroExposureRefusal :=
  let id := order.clientOrderId
  let filled := order.filledQuantity
  let recorded := sumFilled order.fills
  if filled.isFinite = false then
    some ⟨.quantityEvidenceMissing,
      s!"{id} reports a non-numeric cumulative filled quantity ({filled.toText}), so the zero is unverified"⟩
  else if .fin 0 < filled then
    some ⟨.positiveCumulativeFill,
      s!"{id} was reported REJECTED while holding a confirmed cumulative fill of {filled.toText}"⟩
  else if filled < .fin 0 then
    some ⟨.quantityEvidenceMissing,
      s!"{id} reports a negative cumulative filled quantity ({filled.toText}), so the zero is unverified"⟩
  else if 0 < recorded then
    some ⟨.fillRecordsPresent,
      s!"{id} carries fill records totalling {(Number.fin recorded).toText} despite a zero cumulative quantity"⟩
  else if order.state ≠ .rejected then
    some ⟨.stateNotTerminalRejected,
      s!"{id} is in state {order.state.label}, which does not assert that the request was refused without execution"⟩
  else
    (order.executionEvidence.filter evidenceUnproven).map fun evidence =>
      ⟨.quantityEvidenceMissing,
        s!"{id} was labelled REJECTED but its quantity evidence is {evidence.quantity.label}/{evidence.accounting.label}, so no cumulative quantity was ever confirmed"⟩

def provesZeroExposure (order : BrokerOrder) : Bool := (verifyZeroBrokerExposure order).isNone

theorem provesZeroExposure_spec {order : BrokerOrder} (h : provesZeroExposure order = true) :
    order.filledQuantity = .fin 0 ∧ order.state = .rejected := by
  unfold provesZeroExposure verifyZeroBrokerExposure at h
  dsimp only at h
  cases hfilled : order.filledQuantity with
  | fin q =>
    rw [hfilled] at h
    by_cases hpos : 0 < q
    · simp [hpos] at h
    · by_cases hneg : q < 0
      · simp [hpos, hneg] at h
      · refine ⟨by rw [le_antisymm (not_lt.mp hpos) (not_lt.mp hneg)], ?_⟩
        by_contra hstate
        by_cases hrecords : 0 < sumFilled order.fills
        · simp [hpos, hneg, hrecords] at h
        · simp [hpos, hneg, hrecords, hstate] at h
  | _ =>
    rw [hfilled] at h
    simp [Number.isFinite] at h

end BoxEngine
