import BoxEngine.ExecutionFaults
import BoxEngine.FlattenPass
import BoxEngine.Lib.Fallible
import BoxEngine.LiveEntry
import BoxEngine.PositionBook

/-!
# The scanner's entry attempt

One run of the entry pipeline. Every call outside answers as it likes or throws: a hook is asked at most once by the
pipeline and once more by its handler.
-/

namespace BoxEngine

open Js Fallible

inductive ExecutionMode where
  | paperTouch
  | paperLatency
  | paperLegging
  | live
  deriving DecidableEq

structure BoxCandidate where
  key : String
  underlying : String
  lotSize : Number
  legs : BoxLegRole → BoxOptionInstrument
  legLotSize : BoxLegRole → Number

structure BoxLegEvaluation where
  role : BoxLegRole
  side : OrderSide
  token : Number
  tradingsymbol : String
  price : Option Number

structure BoxEvaluation where
  candidate : BoxCandidate
  «at» : Number
  legs : List BoxLegEvaluation
  grossEdge : Option Number

structure BoxChargeLeg where
  side : OrderSide
  token : Number
  tradingsymbol : String
  exchange : String
  quantity : Number
  price : Number

structure PaperLegExecution where
  role : BoxLegRole
  side : OrderSide
  token : Number
  tradingsymbol : String
  fillQty : Number
  fillPrice : Option Number
  averageFillPrice : Option Number

structure PaperLeggingExecutionRecord where
  tradeId : Option String
  filledLegCount : Number
  fillsByRole : BoxLegRole → Option Number
  legs : List PaperLegExecution
  emergencyUnwind : Bool
  abortAfterFill : Bool
  outcomeClass : Option String
  residualExposure : List EntryResidual

inductive LeggingEntryResult where
  | filled (evaluation : BoxEvaluation) (legging : PaperLeggingExecutionRecord)
  | refused (legging : PaperLeggingExecutionRecord) (reason detail : String)

inductive AtomicEntryResult where
  | filled (evaluation : BoxEvaluation)
  | refused (reason detail : String)

inductive ParentOutcome where
  | success
  | failed
  | partialRecovered
  | partialUnresolved
  | aborted
  deriving DecidableEq

structure EntryRejection where
  underlying : String
  reason : String
  detail : Option String
  candidateKey : String

structure ExecutionAttempt where
  candidate : BoxCandidate
  legging : PaperLeggingExecutionRecord
  reason : String
  detail : String
  detectedGrossEdge : Option Number

inductive Caller where
  | pipeline
  | handler
  deriving DecidableEq

structure BoxMetrics where
  beginLogicalAttempt : String → Except Thrown Unit
  finishLogicalAttempt : Caller → String → ParentOutcome → Option String → Except Thrown Unit

structure BoxScannerDeps where
  executionMode : ExecutionMode
  prefilterGrossThreshold : Number → Number
  rejectionCooled : Caller → String → Bool
  chargeTotals : List BoxChargeLeg → Except Thrown Unit
  chargeRoundTrip : List BoxChargeLeg → Except Thrown Unit
  simulateLeggingEntry : Except Thrown LeggingEntryResult
  simulateEntry : Except Thrown AtomicEntryResult
  invariantViolation : String → Except Thrown Unit
  openPaperTrade : List BoxChargeLeg → Except Thrown (Option String)
  onEvent : Caller → String → String → Except Thrown Unit
  metrics : Option BoxMetrics
  faults : Option (Caller → ExecutionFaultEvent → Except Thrown String)
  activeBroker : Option (Caller → Except Thrown String)
  reachedBroker : Option (Caller → Except Thrown Bool)
  onExecutionAttempt : Option (ExecutionAttempt → Except Thrown Unit)
  onEntryRejected : Option (Caller → EntryRejection → Except Thrown Unit)

inductive EntryAct where
  /-- The gateway answered that all four legs filled, with or without a legging record. -/
  | filled (legged : Bool)
  | opened (id : String)
  | attempted (residual : List EntryResidual)
  | violated (reason : String)
  | released (key : String)

/-- What one attempt reads and writes, and the acts it has done so far. -/
structure AttemptState (π : Type) where
  positions : PositionBook π
  entryInFlight : Finset String
  entryInFlightUnderlyings : String → Option String
  stage : ExecutionStage
  acts : List EntryAct

namespace AttemptState

variable {π : Type}

def note (act : EntryAct) (s : AttemptState π) : AttemptState π := { s with acts := s.acts ++ [act] }

def enter (stage : ExecutionStage) (s : AttemptState π) : AttemptState π := { s with stage }

def release (key : String) (s : AttemptState π) : AttemptState π :=
  { s with positions := s.positions.release key, acts := s.acts ++ [.released key] }

def claim (cand : BoxCandidate) (s : AttemptState π) : AttemptState π :=
  { s with
    entryInFlight := insert cand.key s.entryInFlight
    entryInFlightUnderlyings := Function.update s.entryInFlightUnderlyings cand.underlying (some cand.key) }

def unclaim (cand : BoxCandidate) (s : AttemptState π) : AttemptState π :=
  { s with
    entryInFlight := s.entryInFlight.erase cand.key
    entryInFlightUnderlyings :=
      if s.entryInFlightUnderlyings cand.underlying = some cand.key then
        Function.update s.entryInFlightUnderlyings cand.underlying none
      else s.entryInFlightUnderlyings }

end AttemptState

def round2Price : Number → Number
  | .fin q => .fin (round2 q)
  | x => x

/-- The last evaluation of a role stands for it; a leg without a positive price prices nothing. -/
def buildEntryChargeLegs (candidate : BoxCandidate) (evaluations : List BoxLegEvaluation) : Option (List BoxChargeLeg) :=
  boxLegRoles.mapM fun role => do
    let ev ← (evaluations.filter fun ev => ev.role = role).getLast?
    let price ← ev.price
    if .fin 0 < price then
      let inst := candidate.legs role
      some ⟨ev.side, inst.token, inst.tradingsymbol, inst.exchange, candidate.lotSize, round2Price price⟩
    else none

def retainedLegs (evaluation : BoxEvaluation) (legging : Option PaperLeggingExecutionRecord) (now : Number) :
    List EntryResidual :=
  let filledLegs := (legging.elim [] PaperLeggingExecutionRecord.legs).filter fun leg => .fin 0 < leg.fillQty
  if filledLegs = [] then
    evaluation.legs.filterMap fun leg => leg.price.bind fun price =>
      if .fin 0 < price then
        some ⟨leg.token, leg.tradingsymbol, none, leg.role, leg.side, evaluation.candidate.lotSize, price, now⟩
      else none
  else
    filledLegs.map fun leg =>
      ⟨leg.token, leg.tradingsymbol, none, leg.role, leg.side, leg.fillQty,
        (leg.averageFillPrice <|> leg.fillPrice).getD (.fin 0), now⟩

/-- The record marked unrecorded; the gateway's own residual stands where it computed one. -/
def PaperLeggingExecutionRecord.unrecorded (legging : PaperLeggingExecutionRecord) (retained : List EntryResidual) :
    PaperLeggingExecutionRecord :=
  { legging with
    outcomeClass := some "FILLED_EXPOSURE_UNRECORDED"
    residualExposure := if legging.residualExposure = [] then retained else legging.residualExposure }

def brokerIdentity (retained : List EntryResidual) : String :=
  if retained = [] then "no per-leg execution detail available"
  else "; ".intercalate (retained.map fun leg =>
    s!"{leg.role.label} {sideLabel leg.side} {leg.quantity.toText} @ {leg.averagePrice.toText}")

def lostFillDetail (key why : String) (retained : List EntryResidual) : String :=
  s!"LOST FILL: {key} filled all four legs but {why}. The exposure is REAL and is NOT " ++
    "unwound; it is retained for broker-authoritative reconciliation and new entry is blocked. " ++
    "Durable recording of this attempt could NOT be confirmed from here, so do not assume it was " ++
    s!"persisted — verify the legs at the broker: {brokerIdentity retained}"

/-! ## Asking the outside -/

namespace BoxScannerDeps

def hook {α : Type} : Option (Except Thrown α) → Except Thrown (Option α)
  | none => .ok none
  | some answer => answer.map some

variable (deps : BoxScannerDeps)

def begin (attemptId : String) : Except Thrown Unit :=
  match deps.metrics with
  | none => .ok ()
  | some metrics => metrics.beginLogicalAttempt attemptId

variable (caller : Caller)

def finish (attemptId : String) (outcome : ParentOutcome) (reason : Option String) : Except Thrown Unit :=
  match deps.metrics with
  | none => .ok ()
  | some metrics => metrics.finishLogicalAttempt caller attemptId outcome reason

def reject (cand : BoxCandidate) (reason : String) (detail : Option String) : Except Thrown Unit :=
  match deps.onEntryRejected with
  | none => .ok ()
  | some onEntryRejected => onEntryRejected caller ⟨cand.underlying, reason, detail, cand.key⟩

def recordFault (event : Option String → Option Bool → ExecutionFaultEvent) : Except Thrown (Option String) :=
  match deps.faults with
  | none => .ok none
  | some record => do
    let broker ← hook (deps.activeBroker.map fun activeBroker => activeBroker caller)
    let reached ← if deps.executionMode = .live then
        hook (deps.reachedBroker.map fun reachedBroker => reachedBroker caller)
      else .ok none
    let stored ← record caller (event broker reached)
    return some stored

def passesGrossPrefilter (grossEdge : Option Number) (threshold : Number) : Bool :=
  match grossEdge with
  | none => false
  | some edge => decide (threshold ≤ edge)

def logRejection (event : String) (cand : BoxCandidate)
    (evaluation : BoxEvaluation) (detail : String) : Except Thrown Unit :=
  if passesGrossPrefilter evaluation.grossEdge (deps.prefilterGrossThreshold cand.lotSize) then
    if deps.rejectionCooled caller event then deps.onEvent caller event detail else .ok ()
  else .ok ()

def recordExecutionFailure (cand : BoxCandidate) (detection : BoxEvaluation)
    (reason detail : String) : Except Thrown Unit :=
  if reason = "below_expected_net_profit" then
    deps.logRejection .pipeline "ENTRY_REJECTED_NET_PROFIT" cand detection detail
  else deps.logRejection .pipeline "ENTRY_REJECTED_EXECUTION" cand detection s!"{reason}: {detail}"

def localDecisionFor (evaluation : BoxEvaluation) : Except Thrown Unit :=
  match evaluation.grossEdge with
  | none => .ok ()
  | some _ =>
    match buildEntryChargeLegs evaluation.candidate evaluation.legs with
    | none => .ok ()
    | some legs => deps.chargeTotals legs

def legged : Bool := deps.executionMode = .paperLegging || deps.executionMode = .live

end BoxScannerDeps

/-! ## The attempt -/

namespace BoxScanner

variable {π : Type}

abbrev Attempt (π : Type) := Fallible Thrown (AttemptState π)

variable (deps : BoxScannerDeps)

def handAttempt (attempt : ExecutionAttempt) : Attempt π Unit :=
  match deps.onExecutionAttempt with
  | none => pure ()
  | some onExecutionAttempt => do
    outside (onExecutionAttempt attempt)
    update (.note (.attempted attempt.legging.residualExposure))

variable (cand : BoxCandidate)

def lostFillEvent (detail : String) (reservationHeld : Bool) (broker : Option String)
    (reachedBroker : Option Bool) : ExecutionFaultEvent where
  faultClass := .tradePersistenceError
  stage := .tradePersistence
  broker
  errorType := "LostFillUnrecorded"
  message := detail
  candidateKey := cand.key
  reservationHeld
  exposureExisted := true
  reachedBroker

variable (cand : BoxCandidate)

def announceLostFill (detail : String) (reservationHeld : Bool) : Except Thrown Unit := do
  let _ ← deps.recordFault .pipeline (lostFillEvent cand detail reservationHeld)
  deps.reject .pipeline cand "filled_exposure_unrecorded" (some detail)

def lostFillAttempt (evaluation : BoxEvaluation) (legging : PaperLeggingExecutionRecord)
    (retained : List EntryResidual) (detail : String) : ExecutionAttempt where
  candidate := cand
  legging := legging.unrecorded retained
  reason := "legging_incomplete"
  detail
  detectedGrossEdge := evaluation.grossEdge <|> some (.fin 0)

def lostFillViolation (detail : String) : String := s!"{cand.key}: {detail}"

def handLostFill (evaluation : BoxEvaluation)
    (legging : Option PaperLeggingExecutionRecord) (retained : List EntryResidual) (detail : String) : Attempt π Unit :=
  match legging with
  | none => pure ()
  | some legging => handAttempt deps (lostFillAttempt cand evaluation legging retained detail)

variable (now : Number)
variable (cand : BoxCandidate)

def retainUnrecordedFill (evaluation : BoxEvaluation)
    (legging : Option PaperLeggingExecutionRecord) (why : String) : Attempt π Unit := do
  let retained := retainedLegs evaluation legging now
  let detail := lostFillDetail cand.key why retained
  let s ← look
  outside (announceLostFill deps cand detail (s.positions.isTaken cand.key))
  handLostFill deps cand evaluation legging retained detail
  outside (deps.invariantViolation (lostFillViolation cand detail))
  update (.note (.violated (lostFillViolation cand detail)))

def chargeLegsMissing : String := "its entry charge legs could not be built"

def notPersisted : String := "no position was persisted (duplicate open box, or the insert failed)"

def truthyId (id : Option String) : Option String := id.filter (· ≠ "")

def finalizeOpen (evaluation : BoxEvaluation) (legging : Option PaperLeggingExecutionRecord) : Attempt π Bool :=
  match buildEntryChargeLegs evaluation.candidate evaluation.legs with
  | none => do
    retainUnrecordedFill deps now cand evaluation legging chargeLegsMissing
    return false
  | some legs => do
    outside (deps.chargeRoundTrip legs)
    let id ← outside (deps.openPaperTrade legs)
    match truthyId id with
    | some id => update (.note (.opened id))
    | none => retainUnrecordedFill deps now cand evaluation legging notPersisted
    return id.isSome

variable (detection : BoxEvaluation)

def attemptId : String :=
  s!"entry:{cand.key}:{detection.at.toText}"

def leggingOutcome (legging : PaperLeggingExecutionRecord) : ParentOutcome :=
  if legging.residualExposure ≠ [] then .partialUnresolved
  else if legging.abortAfterFill then .aborted
  else if .fin 0 < legging.filledLegCount then .partialRecovered
  else .failed

def settleFill (detection evaluation : BoxEvaluation)
    (legging : Option PaperLeggingExecutionRecord) : Attempt π Unit := do
  update (.note (.filled legging.isSome))
  update (.enter .tradePersistence)
  let opened ← finalizeOpen deps now cand evaluation legging
  outside (deps.finish .pipeline (attemptId cand detection) (if opened then .success else .partialUnresolved)
    (if opened then none else some "persistence_unavailable"))

def settleRefusal (legging : PaperLeggingExecutionRecord) (reason detail : String) : Attempt π Unit := do
  if .fin 0 < legging.filledLegCount ∨ legging.emergencyUnwind then
    handAttempt deps ⟨cand, legging, reason, detail, detection.grossEdge⟩
  outside (deps.recordExecutionFailure cand detection reason detail)
  outside (deps.reject .pipeline cand reason (some detail))
  outside (deps.finish .pipeline (attemptId cand detection) (leggingOutcome legging) (some reason))
  update (.release cand.key)

def pipeline (detection : BoxEvaluation) : Attempt π Unit := do
  outside (deps.localDecisionFor detection)
  update (.enter .execution)
  if deps.legged then
    match ← outside deps.simulateLeggingEntry with
    | .refused legging reason detail => settleRefusal deps cand detection legging reason detail
    | .filled evaluation legging => settleFill deps now cand detection evaluation (some legging)
  else
    match ← outside deps.simulateEntry with
    | .refused reason detail => do
      outside (deps.recordExecutionFailure cand detection reason detail)
      outside (deps.finish .pipeline (attemptId cand detection) .failed (some reason))
      update (.release cand.key)
    | .filled evaluation => settleFill deps now cand detection evaluation none

def faultEvent (stage : ExecutionStage) (error : Thrown) (positions : PositionBook π)
    (broker : Option String) (reachedBroker : Option Bool) : ExecutionFaultEvent where
  faultClass := classifyExecutionFault stage error
  stage
  broker
  errorType := error.errorType
  message := error.message
  candidateKey := cand.key
  reservationHeld := positions.isTaken cand.key
  exposureExisted := (positions.getByKey cand.key).isSome
  reachedBroker

def reportFault (error : Thrown) (stage : ExecutionStage) (positions : PositionBook π) : Except Thrown Unit := do
  let faultClass := (classifyExecutionFault stage error).label
  let recorded ← deps.recordFault .handler (faultEvent cand stage error positions)
  deps.logRejection .handler "ENTRY_REJECTED_EXECUTION" cand detection s!"{faultClass}: {stage.label}"
  let message := recorded.getD error.message
  deps.reject .handler cand faultClass (some s!"{faultClass} at stage {stage.label}: {message}")
  deps.finish .handler (attemptId cand detection) .failed (some faultClass)

def handleFault (error : Thrown) : Attempt π Unit := do
  let s ← look
  outside (reportFault deps cand detection error s.stage s.positions)
  update (.release cand.key)

def attemptEntry (detection : BoxEvaluation) : Attempt π Unit := do
  let s ← look
  match s.positions.reserve cand.key with
  | none => outside (deps.logRejection .pipeline "ENTRY_REJECTED_DUPLICATE" cand detection "strike pair already taken")
  | some positions => do
    update fun s => ({ s with positions } : AttemptState π).claim cand
    -- before the `try`: what this throws leaves the claim and the reservation behind
    outside (deps.begin (attemptId cand detection))
    update (.enter .preDecision)
    lastly (recovering (pipeline deps now cand detection) (handleFault deps cand detection)) (.unclaim cand)

end BoxScanner

end BoxEngine
