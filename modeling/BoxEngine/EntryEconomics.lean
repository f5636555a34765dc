import BoxEngine.FundingStages
import BoxEngine.FundingStagesSound

/-!
# Entry economics

The controls an entry must pass before any leg is sent. Each fails closed and names its reason; asking for the stages
asks for the funds to cover them too.
-/

namespace BoxEngine

open Js

structure EconomicPicture where
  availableFunds : EconomicFigure
  plannedMargin : EconomicFigure
  peakLeggingExposure : EconomicFigure
  grossNotional : EconomicFigure
  worstCaseEntry : EconomicFigure
  grossNotionalMetrics : BoxCapitalMetrics
  funding : Option FundingPicture

structure AgedFigure where
  valueRupees : Option Number
  aged : AgedEvidence
  observedAt : Option EvidenceInstant

def AgedFigure.figure (f : AgedFigure) (planFingerprint : Option String) (confirmedNote : String) : EconomicFigure :=
  brokerFigure f.valueRupees f.aged (f.observedAt.map (·.wall)) (f.observedAt.map (·.mono)) planFingerprint confirmedNote

def buildEconomicPicture (requests : List BrokerOrderRequest) (now : Number) (availableFunds : AgedFigure)
    (availableFundsBasis : Option String) (plannedMargin : AgedFigure) (planFingerprint : Option String)
    (estimatedChargesRupees : Option Number) (expectedLegCount : ℕ) (funding : Option FundingArgs) : EconomicPicture :=
  let metrics := grossEntryOrderNotional requests expectedLegCount
  let worst := worstCaseEntryCost requests estimatedChargesRupees
  let gross := if metrics.complete then some metrics.grossEntryOrderNotionalRupees else none
  { availableFunds := availableFunds.figure none
      (availableFundsBasis.getD "broker-confirmed available funds for this account/session")
    plannedMargin := plannedMargin.figure planFingerprint
      ("broker basket-margin estimate for the four-leg sequence (Kite basket / Dhan multi). " ++
        "An ESTIMATE of the requirement — it does NOT guarantee the broker will accept the orders.")
    peakLeggingExposure := estimateFigure gross now
      ("peak temporary exposure during legging, bounded ABOVE by gross notional; the true peak " ++
        "depends on fill order which this pure module does not observe.")
    grossNotional := estimateFigure gross now
      "gross option-order notional from the bounded LIMIT requests (existing metric)."
    worstCaseEntry := estimateFigure (if worst.complete then some worst.grossCostRupees else none) now
      "bounded worst-case gross entry cost from the LIMIT requests."
    grossNotionalMetrics := metrics
    funding := funding.map fun args =>
      buildFundingPicture requests now args plannedMargin.aged planFingerprint estimatedChargesRupees }

/-! ## Admission -/

inductive EconomicRefusalReason where
  | grossNotionalOverCap
  | insufficientAvailableFunds
  | marginEvidenceStaleOrMissing
  | marginEvidenceInvalid
  | fundsEvidenceInvalid
  | fundingStageUnknown
  | hedgeSequenceInvalid
  | metricIncomplete
  deriving DecidableEq

structure EconomicControls where
  grossCapEnabled : Bool
  fundsCheckEnabled : Bool
  marginEvidenceRequired : Bool
  stageFundingRequired : Bool

structure ReadElapsed where
  funds : Option ℚ
  margin : Option ℚ

structure EconomicAdmissionReport where
  allowed : Bool
  reasons : List EconomicRefusalReason
  detail : Option String
  picture : EconomicPicture
  controls : EconomicControls
  evaluatedAt : Number
  planFingerprint : Option String
  evidenceContext : Option EvidenceIdentity
  readElapsedMs : ReadElapsed

abbrev Refusals := List (EconomicRefusalReason × String)

def capEnabled (grossCapRupees : Number) : Bool := grossCapRupees.isFinite && decide (.fin 0 < grossCapRupees)

def grossCapRefusals (metrics : BoxCapitalMetrics) (grossCapRupees : Number) : Refusals :=
  if capEnabled grossCapRupees = false then []
  else if metrics.complete = false then
    [(.metricIncomplete, s!"cannot verify the ₹{grossCapRupees.toText} gross cap: " ++
      metrics.incompleteReason.getD "metric incomplete")]
  else if toPaise grossCapRupees < metrics.grossEntryOrderNotionalPaise then
    [(.grossNotionalOverCap,
      s!"gross_entry_order_notional_rupees ₹{rupeeText metrics.grossEntryOrderNotionalRupees} " ++
        s!"exceeds the configured gross cap ₹{grossCapRupees.toText} (gross option-order notional, NOT broker margin)")]
  else []

def marginEvidenceRefusals (plannedMargin : EconomicFigure) (required : Bool) : Refusals :=
  if required = false ∨ plannedMargin.usable = true then []
  else if plannedMargin.provenance = .invalid then
    [(.marginEvidenceInvalid, s!"planned-margin evidence is INVALID: {plannedMargin.note}")]
  else
    [(.marginEvidenceStaleOrMissing,
      s!"planned-margin evidence is not usable ({plannedMargin.provenance.label}); " ++
        "refusing rather than admitting on an estimate or a stale figure")]

/-- A stage that is unknown, or a SELL before its hedge, refuses the entry. -/
def stageFundingRefusals (funding : Option FundingPicture) (required : Bool) : Refusals :=
  if required = false then []
  else
    match funding with
    | none =>
      [(.fundingStageUnknown,
        "no stage-by-stage funding model could be built (no broker initial/final basket margin was " ++
          "supplied); the supervised entry profile is refused rather than admitted on the completed-" ++
          "basket figure")]
    | some funding =>
      (if funding.hedgeFirstSequenceValid then []
      else
        [(.hedgeSequenceInvalid,
          "the transmitted sequence is not hedge-first (a BUY hedge would follow a SELL); refusing " ++
            "because an uncovered SELL must never be sent first")]) ++
      (if funding.unknownStages.isEmpty && funding.bindingRequirement.usable then []
      else
        let unknown := String.intercalate ", " funding.unknownStages
        [(.fundingStageUnknown,
          s!"at least one funding stage is UNKNOWN [{unknown}]: {funding.bindingRequirement.note}")])

def EconomicFigure.usableValue (figure : EconomicFigure) : Option ℚ :=
  if figure.usable then figure.valueRupees else none

/-- The binding stage requirement, else the broker's basket margin. -/
def fundsNeed (picture : EconomicPicture) : Option ℚ × String :=
  match picture.funding.bind fun funding => funding.bindingRequirement.usableValue with
  | some binding => (some binding, "binding hedge-first stage requirement")
  | none => (picture.plannedMargin.usableValue, "broker margin")

/-- Funds that are unusable or too small refuse the entry, and so does an unknown need. -/
def fundsCoverRefusals (picture : EconomicPicture) (required : Bool) : Refusals :=
  if required = false then []
  else if picture.availableFunds.provenance = .invalid then
    [(.fundsEvidenceInvalid, s!"available-funds evidence is INVALID: {picture.availableFunds.note}")]
  else
    match picture.availableFunds.usableValue with
    | none =>
      [(.insufficientAvailableFunds,
        s!"available funds not usable ({picture.availableFunds.provenance.label}); " ++
          "cannot prove the account can fund this entry")]
    | some funds =>
      match fundsNeed picture with
      | (none, _) =>
        [(.metricIncomplete,
          "cannot compute a funding requirement: neither a usable hedge-first stage requirement nor a " ++
            "usable broker basket margin is available. Gross option premium is NOT used as a substitute — " ++
            "it does not bound the margin a short option requires — so entry is refused until real " ++
            "margin evidence is obtained.")]
      | (some need, basis) =>
        if funds < need then
          [(.insufficientAvailableFunds,
            s!"available funds ₹{rupeeText funds} < required ₹{rupeeText need} ({basis})")]
        else []

def evaluateEconomicAdmission (picture : EconomicPicture) (grossCapRupees : Number)
    (requireFundsCover requireMarginEvidence requireStageFunding : Bool) (evaluatedAt : Number)
    (planFingerprint : Option String) (evidenceContext : Option EvidenceIdentity) (readElapsedMs : ReadElapsed) :
    EconomicAdmissionReport :=
  -- the stages are only worth asking for when the funds are compared against them
  let fundsCoverRequired := requireFundsCover || requireStageFunding
  let refusals := grossCapRefusals picture.grossNotionalMetrics grossCapRupees ++
    marginEvidenceRefusals picture.plannedMargin requireMarginEvidence ++
    stageFundingRefusals picture.funding requireStageFunding ++ fundsCoverRefusals picture fundsCoverRequired
  { allowed := refusals.isEmpty
    reasons := refusals.map (·.1)
    detail := joinedProblems (refusals.map (·.2))
    picture := picture
    controls := ⟨capEnabled grossCapRupees, fundsCoverRequired, requireMarginEvidence, requireStageFunding⟩
    evaluatedAt := evaluatedAt
    planFingerprint := planFingerprint
    evidenceContext := evidenceContext
    readElapsedMs := readElapsedMs }

/-! ## One entry -/

structure EconomicsConfig where
  executionMode : ExecutionMode
  liveRequireFundsCover : Bool
  liveRequireMarginEvidence : Bool
  liveRequireStageFunding : Bool
  liveFundsFreshnessMaxAgeMs : Number
  liveMarginFreshnessMaxAgeMs : Number
  liveEvidenceFutureSkewGraceMs : Number
  liveRecoveryReserveRupees : Number
  liveMaxBoxCapitalRupees : Number
  zerodhaFundsBasis : FundsBasis

structure FundsReport where
  availableRupees : Option Number
  utilisedRupees : Option Number
  components : Option FundsComponents

structure MarginReport where
  marginRupees : Option Number
  initialMarginRupees : Option Number
  finalMarginRupees : Option Number
  encumbranceRupees : Option Number

structure EntryReads where
  requests : List BrokerOrderRequest
  direction : BoxDirection
  attemptId : String
  planFingerprint : String
  charges : Option Number
  fundsObs : TimedObservation FundsReport
  marginObs : TimedObservation MarginReport
  evaluatedAt : EvidenceInstant
  currentIdentity : Option EvidenceIdentity

structure EntryEconomicEvidence where
  fundsObservedAtMono : Option Number
  marginObservedAtMono : Option Number
  fundsMaxAgeMs : Number
  marginMaxAgeMs : Number
  planFingerprint : String
  identity : Option EvidenceIdentity
  fundsRequired : Bool
  marginRequired : Bool
  attemptId : String

namespace EntryReads

variable (cfg : EconomicsConfig) (r : EntryReads)

def fundsAged : AgedEvidence :=
  ageEvidence r.fundsObs r.evaluatedAt cfg.liveFundsFreshnessMaxAgeMs cfg.liveEvidenceFutureSkewGraceMs
    r.currentIdentity "available-funds"

def marginAged : AgedEvidence :=
  ageEvidence r.marginObs r.evaluatedAt cfg.liveMarginFreshnessMaxAgeMs cfg.liveEvidenceFutureSkewGraceMs
    r.currentIdentity "planned-margin"

/-- The spendable funds, by the semantics of the broker that is current once the reads have settled. -/
def usableFunds : UsableFundsVerdict :=
  usableFundsRupees (r.currentIdentity.map (·.broker)) (r.fundsObs.value.bind (·.availableRupees))
    (r.fundsObs.value.bind (·.utilisedRupees)) (r.fundsObs.value.bind (·.components)) cfg.zerodhaFundsBasis

def encumbranceRupees : Option Number :=
  (r.fundsObs.value.bind (·.utilisedRupees)).or (r.marginObs.value.bind (·.encumbranceRupees))

def fundingArgs : Option FundingArgs :=
  r.marginObs.value.bind fun margin =>
    if margin.initialMarginRupees.isSome ∨ margin.finalMarginRupees.isSome then
      some
        { transportOrder := entrySubmissionOrder r.direction
          initialMarginRupees := margin.initialMarginRupees
          finalMarginRupees := margin.finalMarginRupees
          encumbranceRupees := r.encumbranceRupees
          encumbranceNettedFromAvailableFunds := (r.usableFunds cfg).encumbranceNettedFromAvailable
          recoveryReserveRupees := cfg.liveRecoveryReserveRupees }
    else none

def picture : EconomicPicture :=
  buildEconomicPicture r.requests r.evaluatedAt.wall
    ⟨(r.usableFunds cfg).valueRupees.map .fin, r.fundsAged cfg, r.fundsObs.at_⟩ (some (r.usableFunds cfg).basis)
    ⟨r.marginObs.value.bind (·.marginRupees), r.marginAged cfg, r.marginObs.at_⟩ (some r.planFingerprint)
    r.charges boxLegRoles.length (r.fundingArgs cfg)

def report : EconomicAdmissionReport :=
  evaluateEconomicAdmission (r.picture cfg) cfg.liveMaxBoxCapitalRupees cfg.liveRequireFundsCover
    cfg.liveRequireMarginEvidence cfg.liveRequireStageFunding r.evaluatedAt.wall (some r.planFingerprint)
    r.currentIdentity ⟨r.fundsObs.elapsedMs, r.marginObs.elapsedMs⟩

def evidence : EntryEconomicEvidence where
  fundsObservedAtMono := r.fundsObs.at_.map (·.mono)
  marginObservedAtMono := r.marginObs.at_.map (·.mono)
  fundsMaxAgeMs := cfg.liveFundsFreshnessMaxAgeMs
  marginMaxAgeMs := cfg.liveMarginFreshnessMaxAgeMs
  planFingerprint := r.planFingerprint
  identity := r.currentIdentity
  fundsRequired := cfg.liveRequireFundsCover || cfg.liveRequireStageFunding
  marginRequired := cfg.liveRequireMarginEvidence || cfg.liveRequireStageFunding
  attemptId := r.attemptId

end EntryReads

def evaluateEntryEconomics (cfg : EconomicsConfig) (r : EntryReads) :
    Option (EconomicAdmissionReport × Option EntryEconomicEvidence) :=
  if cfg.executionMode ≠ .live then none
  else if (cfg.liveRequireFundsCover || cfg.liveRequireMarginEvidence || cfg.liveRequireStageFunding) = false then none
  else some (r.report cfg, if (r.report cfg).allowed then some (r.evidence cfg) else none)

namespace EntryReads

variable (cfg : EconomicsConfig) (r : EntryReads)

def Admitted : Prop := ∃ report evidence, evaluateEntryEconomics cfg r = some (report, evidence) ∧ report.allowed = true

def initialMargin : Option Number := r.marginObs.value.bind (·.initialMarginRupees)

def finalMargin : Option Number := r.marginObs.value.bind (·.finalMarginRupees)

def buyPremium : ℚ := fromPaise (duePaise (requestsByRole r.requests) (entrySubmissionOrder r.direction))

def exactBuyPremium : ℚ :=
  ((entrySubmissionOrder r.direction).map fun slot =>
    if slot.side = .buy then
      ((requestsByRole r.requests slot.role).map fun leg => leg.pricing.limitPrice.value * leg.quantity.value).getD 0
    else 0).sum

def WholePaise : Prop :=
  ∀ role leg, requestsByRole r.requests role = some leg →
    ∃ paise units : ℤ, leg.pricing.limitPrice = .fin (paise / 100) ∧ leg.quantity = .fin units

def funding : FundingArgs where
  transportOrder := entrySubmissionOrder r.direction
  initialMarginRupees := r.initialMargin
  finalMarginRupees := r.finalMargin
  encumbranceRupees := r.encumbranceRupees
  encumbranceNettedFromAvailableFunds := (r.usableFunds cfg).encumbranceNettedFromAvailable
  recoveryReserveRupees := cfg.liveRecoveryReserveRupees

def countedEncumbrance : Option ℚ :=
  if (r.usableFunds cfg).encumbranceNettedFromAvailable then some 0 else finiteFigure r.encumbranceRupees

def Covered : Prop :=
  ∃ spendable initial final charges encumbrance : ℚ, (r.usableFunds cfg).valueRupees = some spendable ∧
    usableFigure r.initialMargin = some initial ∧ usableFigure r.finalMargin = some final ∧
    finiteFigure r.charges = some charges ∧ r.countedEncumbrance cfg = some encumbrance ∧
    max (max initial final) r.buyPremium + charges + recoveryReserve cfg.liveRecoveryReserveRupees + encumbrance ≤
      spendable

structure Affordable : Prop where
  live : cfg.executionMode = .live
  cap : grossCapRefusals (grossEntryOrderNotional r.requests boxLegRoles.length) cfg.liveMaxBoxCapitalRupees = []
  planned : cfg.liveRequireMarginEvidence = true →
    (finiteFigure (r.marginObs.value.bind (·.marginRupees))).isSome = true
  fundsUsable : (r.fundsAged cfg).status = .usable
  marginUsable : (r.marginAged cfg).status = .usable
  priced : ∀ role, (requestsByRole r.requests role).any (·.priced) = true
  covered : r.Covered cfg

end EntryReads

section

variable {now : Number} {aged : AgedEvidence} {planFingerprint : Option String}

theorem intermediateStage_usableValue {built : FundingStages} :
    (intermediateStage built now aged planFingerprint).usableValue =
      if aged.status = .usable ∧ built.unknown = [] then (built.stages.filterMap (·.requirementRupees)).max? else none := by
  unfold intermediateStage
  cases hunknown : built.unknown with
  | cons problem problems => simp [unknownFigure, EconomicFigure.usableValue]
  | nil =>
    cases hworst : (built.stages.filterMap (·.requirementRupees)).max? with
    | none => simp [unknownFigure, EconomicFigure.usableValue]
    | some worst => simp [marginFigure, EconomicFigure.usableValue]

theorem bindingFigure_usableValue {intermediate encumbrance charges reserve : EconomicFigure} {counted : Bool} :
    (bindingFigure intermediate encumbrance charges reserve counted now aged planFingerprint).usableValue =
      if aged.status = .usable then
        sumKnown ([intermediate.usableValue, charges.valueRupees, reserve.valueRupees] ++
          (if counted then [encumbrance.valueRupees] else []))
      else none := by
  unfold bindingFigure
  dsimp only
  split
  · rename_i hparts
    change sumKnown ([intermediate.usableValue, _, _] ++ _) = none at hparts
    rw [hparts]
    simp [unknownFigure, EconomicFigure.usableValue]
  · rename_i binding hparts
    change sumKnown ([intermediate.usableValue, _, _] ++ _) = some binding at hparts
    rw [hparts]
    simp [marginFigure, EconomicFigure.usableValue]

theorem sumKnown_cons (part : Option ℚ) (parts : List (Option ℚ)) :
    sumKnown (part :: parts) = part.bind fun value => (sumKnown parts).map (value + ·) := by
  cases part with
  | none => rfl
  | some value =>
    by_cases h : parts.any Option.isNone = true <;> simp [sumKnown, h]

@[simp] theorem sumKnown_nil : sumKnown [] = some 0 := rfl

theorem brokerFigure_usableValue {value : Option Number} {wall mono : Option Number} {note : String} :
    (brokerFigure value aged wall mono planFingerprint note).usableValue =
      if aged.status = .usable then finiteFigure value else none := by
  unfold brokerFigure EconomicFigure.usableValue
  cases finiteFigure value with
  | none => simp [unknownFigure]
  | some figure => cases aged.status <;> simp [EvidenceStatus.provenance]

end

/-! ## Admission -/

section

variable {cfg : EconomicsConfig} {r : EntryReads}
variable {now : Number} {aged : AgedEvidence}

theorem encumbranceFigure_value {encumbrance : Option Number} :
    (encumbranceFigure encumbrance now aged).valueRupees = finiteFigure encumbrance := by
  unfold encumbranceFigure
  cases finiteFigure encumbrance <;> rfl

variable {planFingerprint : Option String}

theorem chargesFigure_value {charges : Option Number} :
    (chargesFigure charges now planFingerprint).valueRupees = finiteFigure charges := by
  unfold chargesFigure
  cases finiteFigure charges <;> rfl

theorem sumKnown_parts {worst reserve binding : ℚ} {charges encumbrance : Option ℚ} {netted : Bool} :
    sumKnown ([some worst, charges, some reserve] ++ (if !netted then [encumbrance] else [])) = some binding ↔
      ∃ fees blocked : ℚ, charges = some fees ∧ (if netted then some 0 else encumbrance) = some blocked ∧
        binding = worst + fees + reserve + blocked := by
  cases charges <;> cases encumbrance <;> cases netted <;> simp [sumKnown_cons, eq_comm, add_assoc]

theorem binding_usableValue {args : FundingArgs} {requests : List BrokerOrderRequest} {direction : BoxDirection}
    {charges : Option Number} (horder : args.transportOrder = entrySubmissionOrder direction) {binding : ℚ} :
    (buildFundingPicture requests now args aged planFingerprint charges).bindingRequirement.usableValue = some binding ↔
      aged.status = .usable ∧ (∀ role, (requestsByRole requests role).any (·.priced) = true) ∧
        ∃ initial final fees blocked : ℚ, usableFigure args.initialMarginRupees = some initial ∧
          usableFigure args.finalMarginRupees = some final ∧ finiteFigure charges = some fees ∧
          (if args.encumbranceNettedFromAvailableFunds then some 0 else finiteFigure args.encumbranceRupees) =
            some blocked ∧
          binding = max (max initial final)
              (fromPaise (duePaise (requestsByRole requests) (entrySubmissionOrder direction))) +
            fees + recoveryReserve args.recoveryReserveRupees + blocked := by
  have hunknown := @buildFundingStages_unknown requests direction args.initialMarginRupees args.finalMarginRupees
  simp only [buildFundingPicture, bindingFigure_usableValue, intermediateStage_usableValue, horder,
    encumbranceFigure_value, chargesFigure_value]
  by_cases haged : aged.status = .usable
  · simp only [haged, if_true, true_and]
    by_cases hstages : (buildFundingStages requests (entrySubmissionOrder direction) args.initialMarginRupees
        args.finalMarginRupees).unknown = []
    · obtain ⟨hpriced, hinitial, hfinal⟩ := hunknown.mp hstages
      obtain ⟨initial, hinitial⟩ := Option.isSome_iff_exists.mp hinitial
      obtain ⟨final, hfinal⟩ := Option.isSome_iff_exists.mp hfinal
      rw [if_pos hstages, buildFundingStages_worst hinitial hfinal hpriced]
      refine sumKnown_parts.trans ⟨?_, ?_⟩
      · rintro ⟨fees, blocked, hfees, hblocked, hbinding⟩
        exact ⟨hpriced, initial, final, fees, blocked, hinitial, hfinal, hfees, hblocked, hbinding⟩
      · rintro ⟨-, initial', final', fees, blocked, hinitial', hfinal', hfees, hblocked, hbinding⟩
        obtain rfl := Option.some.inj (hinitial.symm.trans hinitial')
        obtain rfl := Option.some.inj (hfinal.symm.trans hfinal')
        exact ⟨fees, blocked, hfees, hblocked, hbinding⟩
    · rw [if_neg hstages]
      constructor
      · simp [sumKnown]
      · rintro ⟨hpriced, initial, final, fees, blocked, hinitial, hfinal, -⟩
        exact absurd (hunknown.mpr ⟨hpriced, by simp [hinitial], by simp [hfinal]⟩) hstages
  · simp [haged]

variable {figure : EconomicFigure}

theorem marginEvidenceRefusals_nil {required : Bool} :
    marginEvidenceRefusals figure required = [] ↔ (required = true → figure.usable = true) := by
  unfold marginEvidenceRefusals
  by_cases hinvalid : figure.provenance = .invalid <;> cases required <;> cases figure.usable <;> simp [hinvalid]

theorem stageFundingRefusals_nil {funding : Option FundingPicture} :
    stageFundingRefusals funding true = [] ↔ ∃ picture, funding = some picture ∧
      picture.hedgeFirstSequenceValid = true ∧ picture.unknownStages = [] ∧
      picture.bindingRequirement.usable = true := by
  cases funding with
  | none => simp [stageFundingRefusals]
  | some picture =>
    cases hvalid : picture.hedgeFirstSequenceValid <;> cases hunknown : picture.unknownStages <;>
      cases husable : picture.bindingRequirement.usable <;> simp [stageFundingRefusals, hvalid, hunknown, husable]

theorem usableValue_of_usable (h : figure.usable = true) :
    figure.usableValue = figure.valueRupees := by simp [EconomicFigure.usableValue, h]

variable {need : ℚ}

theorem fundsCoverRefusals_nil {picture : EconomicPicture} {funding : FundingPicture}
    (hfunding : picture.funding = some funding) (hneed : funding.bindingRequirement.usableValue = some need) :
    fundsCoverRefusals picture true = [] ↔ picture.availableFunds.provenance ≠ .invalid ∧
      ∃ funds, picture.availableFunds.usableValue = some funds ∧ need ≤ funds := by
  have hbasis : fundsNeed picture = (some need, "binding hedge-first stage requirement") := by
    simp [fundsNeed, hfunding, hneed]
  unfold fundsCoverRefusals
  rw [hbasis]
  by_cases hinvalid : picture.availableFunds.provenance = .invalid
  · simp [hinvalid]
  · cases hvalue : picture.availableFunds.usableValue with
    | none => simp [hinvalid]
    | some funds =>
      by_cases hlt : funds < need
      · simp [hinvalid, hlt]
      · simpa [hinvalid, hlt] using le_of_not_gt hlt

theorem fundingArgs_eq :
    r.fundingArgs cfg =
      if r.initialMargin.isSome ∨ r.finalMargin.isSome then some (r.funding cfg) else none := by
  unfold EntryReads.fundingArgs EntryReads.funding EntryReads.initialMargin EntryReads.finalMargin
  cases r.marginObs.value with
  | none => simp
  | some margin => rfl

theorem bindingFigure_usable {intermediate encumbrance charges reserve : EconomicFigure} {counted : Bool}
    (h : (bindingFigure intermediate encumbrance charges reserve counted now aged planFingerprint).usable = true) :
    ∃ binding, (bindingFigure intermediate encumbrance charges reserve counted now aged
      planFingerprint).usableValue = some binding := by
  rw [usableValue_of_usable h]
  revert h
  unfold bindingFigure
  dsimp only
  split
  · simp [unknownFigure]
  · simp [marginFigure]

theorem usable_of_usableValue {value : ℚ} (h : figure.usableValue = some value) : figure.usable = true := by
  unfold EconomicFigure.usableValue at h
  by_contra husable
  simp [husable] at h

theorem brokerFigure_valid {value : Option Number} {wall mono : Option Number} {note : String}
    (h : aged.status = .usable) : (brokerFigure value aged wall mono planFingerprint note).provenance ≠ .invalid := by
  unfold brokerFigure
  cases finiteFigure value <;> simp [unknownFigure, h, EvidenceStatus.provenance]

theorem isSome_of_brokerFigure {value : Option Number} {wall mono : Option Number} {note : String}
    (h : (brokerFigure value aged wall mono planFingerprint note).usable = true) :
    (finiteFigure value).isSome = true := by
  unfold brokerFigure at h
  cases hvalue : finiteFigure value with
  | none => simp [hvalue, unknownFigure] at h
  | some figure => rfl

theorem finiteFigure_map_fin (value : Option ℚ) : finiteFigure (value.map .fin) = value := by
  cases value <;> rfl

theorem isSome_of_usableFigure {figure : Option Number} {value : ℚ} (h : usableFigure figure = some value) :
    figure.isSome = true := by
  cases figure with
  | none => simp [usableFigure] at h
  | some _ => rfl

theorem EntryReads.binding_iff :
    (buildFundingPicture r.requests r.evaluatedAt.wall (r.funding cfg) (r.marginAged cfg) (some r.planFingerprint)
        r.charges).bindingRequirement.usableValue = some need ↔
      (r.marginAged cfg).status = .usable ∧ (∀ role, (requestsByRole r.requests role).any (·.priced) = true) ∧
        ∃ initial final fees blocked : ℚ, usableFigure r.initialMargin = some initial ∧
          usableFigure r.finalMargin = some final ∧ finiteFigure r.charges = some fees ∧
          r.countedEncumbrance cfg = some blocked ∧
          need = max (max initial final) r.buyPremium + fees + recoveryReserve cfg.liveRecoveryReserveRupees + blocked :=
  binding_usableValue rfl

theorem EntryReads.funds_nil {picture : FundingPicture} (hpicture : (r.picture cfg).funding = some picture)
    (hneed : picture.bindingRequirement.usableValue = some need) :
    fundsCoverRefusals (r.picture cfg) true = [] ↔
      (r.fundsAged cfg).status = .usable ∧ ∃ funds, (r.usableFunds cfg).valueRupees = some funds ∧ need ≤ funds := by
  rw [fundsCoverRefusals_nil hpicture hneed]
  simp only [EntryReads.picture, buildEconomicPicture, AgedFigure.figure, brokerFigure_usableValue, finiteFigure_map_fin]
  by_cases haged : (r.fundsAged cfg).status = .usable
  · simp only [haged, if_true, true_and]
    exact and_iff_right (brokerFigure_valid haged)
  · simp [haged]

theorem EntryReads.admitted_iff_refusals (hstage : cfg.liveRequireStageFunding = true) :
    r.Admitted cfg ↔ cfg.executionMode = .live ∧
      grossCapRefusals (grossEntryOrderNotional r.requests boxLegRoles.length) cfg.liveMaxBoxCapitalRupees = [] ∧
      marginEvidenceRefusals (r.picture cfg).plannedMargin cfg.liveRequireMarginEvidence = [] ∧
      stageFundingRefusals (r.picture cfg).funding true = [] ∧ fundsCoverRefusals (r.picture cfg) true = [] := by
  have hallowed : (r.report cfg).allowed = true ↔
      grossCapRefusals (grossEntryOrderNotional r.requests boxLegRoles.length) cfg.liveMaxBoxCapitalRupees = [] ∧
        marginEvidenceRefusals (r.picture cfg).plannedMargin cfg.liveRequireMarginEvidence = [] ∧
        stageFundingRefusals (r.picture cfg).funding true = [] ∧ fundsCoverRefusals (r.picture cfg) true = [] := by
    simp only [EntryReads.report, evaluateEconomicAdmission, hstage, Bool.or_true, List.isEmpty_iff,
      List.append_eq_nil_iff, and_assoc]
    rfl
  unfold EntryReads.Admitted evaluateEntryEconomics
  by_cases hlive : cfg.executionMode = .live
  · simp only [hlive, hstage, ne_eq, not_true_eq_false, if_false, Bool.or_true, Bool.true_eq_false, Option.some.injEq,
      Prod.mk.injEq, true_and]
    rw [← hallowed]
    constructor
    · rintro ⟨report, evidence, ⟨rfl, -⟩, h⟩
      exact h
    · exact fun h => ⟨_, _, ⟨rfl, rfl⟩, h⟩
  · simp [hlive]

theorem EntryReads.admitted_iff (hstage : cfg.liveRequireStageFunding = true) :
    r.Admitted cfg ↔ r.Affordable cfg := by
  have hplanned : (r.picture cfg).plannedMargin.usableValue =
      if (r.marginAged cfg).status = .usable then finiteFigure (r.marginObs.value.bind (·.marginRupees)) else none :=
    brokerFigure_usableValue
  have hpicture : (r.picture cfg).funding = (r.fundingArgs cfg).map fun args =>
      buildFundingPicture r.requests r.evaluatedAt.wall args (r.marginAged cfg) (some r.planFingerprint) r.charges := rfl
  rw [EntryReads.admitted_iff_refusals hstage, marginEvidenceRefusals_nil, stageFundingRefusals_nil]
  constructor
  · rintro ⟨hlive, hcap, hmargin, ⟨picture, hsome, -, -, husable⟩, hfunds⟩
    rw [hpicture, fundingArgs_eq] at hsome
    by_cases hfigures : r.initialMargin.isSome ∨ r.finalMargin.isSome
    · obtain rfl : _ = picture := by simpa [hfigures] using hsome
      obtain ⟨need, hneed⟩ := bindingFigure_usable husable
      have hmodel := hpicture
      rw [fundingArgs_eq, if_pos hfigures] at hmodel
      obtain ⟨hfundsAged, spendable, hspendable, hle⟩ := (EntryReads.funds_nil hmodel hneed).mp hfunds
      obtain ⟨hmarginAged, hpriced, initial, final, fees, blocked, hinitial, hfinal, hfees, hblocked, rfl⟩ :=
        EntryReads.binding_iff.mp hneed
      exact ⟨hlive, hcap, fun hrequired => isSome_of_brokerFigure (hmargin hrequired), hfundsAged, hmarginAged, hpriced,
        spendable, initial, final, fees, blocked, hspendable, hinitial, hfinal, hfees, hblocked, hle⟩
    · simp [hfigures] at hsome
  · rintro ⟨hlive, hcap, hmargin, hfundsAged, hmarginAged, hpriced, spendable, initial, final, fees, blocked, hspendable,
      hinitial, hfinal, hfees, hblocked, hle⟩
    have hfigures : r.initialMargin.isSome ∨ r.finalMargin.isSome := .inl (isSome_of_usableFigure hinitial)
    have hmodel := hpicture
    rw [fundingArgs_eq, if_pos hfigures] at hmodel
    have hneed := EntryReads.binding_iff.mpr
      ⟨hmarginAged, hpriced, initial, final, fees, blocked, hinitial, hfinal, hfees, hblocked, rfl⟩
    refine ⟨hlive, hcap, fun hrequired => ?_, ⟨_, hmodel, ?_, ?_, usable_of_usableValue hneed⟩,
      (EntryReads.funds_nil hmodel hneed).mpr ⟨hfundsAged, spendable, hspendable, hle⟩⟩
    · obtain ⟨planned, hvalue⟩ := Option.isSome_iff_exists.mp (hmargin hrequired)
      exact usable_of_usableValue (by rw [hplanned, if_pos hmarginAged, hvalue])
    · exact buildFundingStages_hedgeFirstValid
    · exact buildFundingStages_unknown.mpr ⟨hpriced, by
        show (usableFigure r.initialMargin).isSome = true
        rw [hinitial]
        rfl, by
        show (usableFigure r.finalMargin).isSome = true
        rw [hfinal]
        rfl⟩

end

/-! ## Easing an entry -/

def Lowered (before after : Number) : Prop := after = before ∨ (.fin 0 < after ∧ after ≤ before)

def LoweredFigure (before after : Option Number) : Prop :=
  after = before ∨ ∃ a b : ℚ, before = some (.fin a) ∧ after = some (.fin b) ∧ 0 < b ∧ b ≤ a

structure Lighter (before after : BrokerOrderRequest) : Prop where
  role : after.role = before.role
  price : Lowered before.pricing.limitPrice after.pricing.limitPrice
  quantity : Lowered before.quantity after.quantity
  whole : before.quantity.isInteger = true → after.quantity.isInteger = true

section

variable {before after : BrokerOrderRequest} {x y : Number} {q : ℚ}

theorem Lowered.fin (h : Lowered (.fin q) y) (hq : 0 < q) : ∃ p : ℚ, y = .fin p ∧ 0 < p ∧ p ≤ q := by
  obtain rfl | ⟨hpos, hle⟩ := h
  · exact ⟨q, rfl, hq, le_rfl⟩
  · obtain hy := Number.eq_fin_of_between (Number.le_of_lt hpos) hle rfl
    rw [hy] at hpos hle
    exact ⟨y.value, hy, by simpa using hpos, by simpa using hle⟩

theorem Lighter.priced (h : Lighter before after) (hpriced : before.priced = true) :
    after.priced = true ∧ legPaise after ≤ legPaise before := by
  obtain ⟨price, quantity, hprice, hquantity, hpos, hqpos⟩ := BrokerOrderRequest.pos_of_priced hpriced
  obtain ⟨price', hprice', hpos', hle⟩ := (hprice ▸ h.price).fin hpos
  obtain ⟨quantity', hquantity', hqpos', hqle⟩ := (hquantity ▸ h.quantity).fin hqpos
  constructor
  · simp [BrokerOrderRequest.priced, BrokerOrderRequest.boundedPrice, hprice', hquantity', hpos', hqpos']
  · have hpaise := toPaise_mono hle
    have hnonneg := toPaise_nonneg hpos'.le
    simp only [legPaise, hprice, hquantity, hprice', hquantity', Number.value_fin]
    rw [abs_of_nonneg (mul_nonneg hnonneg hqpos'.le), abs_of_nonneg (mul_nonneg (hnonneg.trans hpaise) hqpos.le)]
    exact mul_le_mul hpaise hqle hqpos'.le (hnonneg.trans hpaise)

theorem BrokerOrderRequest.priced_of_whole (hwhole : before.wholeQuantity = true) (hprice : before.boundedPrice = true) :
    before.priced = true := by
  simp only [wholeQuantity, Bool.and_eq_true] at hwhole
  simp [BrokerOrderRequest.priced, hprice, hwhole.1]

theorem Lighter.wholeQuantity (h : Lighter before after) (hwhole : before.wholeQuantity = true)
    (hprice : before.boundedPrice = true) : after.wholeQuantity = true ∧ after.boundedPrice = true := by
  have hpriced := (h.priced (BrokerOrderRequest.priced_of_whole hwhole hprice)).1
  simp only [BrokerOrderRequest.priced, BrokerOrderRequest.wholeQuantity, Bool.and_eq_true] at hpriced hwhole ⊢
  exact ⟨⟨⟨hpriced.1.2, hpriced.2⟩, h.whole hwhole.2⟩, hpriced.1.1⟩

theorem requestsByRole_lighter {requests requests' : List BrokerOrderRequest} (h : List.Forall₂ Lighter requests requests')
    (role : BoxLegRole) : Option.Rel Lighter (requestsByRole requests role) (requestsByRole requests' role) := by
  have hfold (map map' : ByRole BrokerOrderRequest) (hmap : ∀ role, Option.Rel Lighter (map role) (map' role)) :
      Option.Rel Lighter (requests.foldl (fun map request => map.set request.role request) map role)
        (requests'.foldl (fun map request => map.set request.role request) map' role) := by
    induction h generalizing map map' with
    | nil => exact hmap role
    | cons hlighter _ ih =>
      refine ih _ _ fun role => ?_
      unfold ByRole.set
      dsimp only
      rw [hlighter.role]
      split
      · exact .some hlighter
      · exact hmap role
  exact hfold _ _ fun _ => .none

end

/-! ## The gross cap -/

section

def NoHeavier (scan scan' : CapitalScan) : Prop :=
  scan.problems = [] → scan'.problems = [] ∧ scan'.legs.length = scan.legs.length ∧ scan'.totalPaise ≤ scan.totalPaise

theorem add_problems {scan : CapitalScan} {request : BrokerOrderRequest} (h : (scan.add request).problems = []) :
    scan.problems = [] ∧ request.wholeQuantity = true ∧ request.boundedPrice = true := by
  unfold CapitalScan.add at h
  cases hwhole : request.wholeQuantity <;> cases hprice : request.boundedPrice <;> simp_all

theorem NoHeavier.add {scan scan' : CapitalScan} {request request' : BrokerOrderRequest} (h : NoHeavier scan scan')
    (hlighter : Lighter request request') : NoHeavier (scan.add request) (scan'.add request') := by
  intro hproblems
  obtain ⟨hproblems, hwhole, hprice⟩ := add_problems hproblems
  obtain ⟨hproblems', hlength, htotal⟩ := h hproblems
  obtain ⟨hwhole', hprice'⟩ := hlighter.wholeQuantity hwhole hprice
  have hpaise := (hlighter.priced (BrokerOrderRequest.priced_of_whole hwhole hprice)).2
  simp only [CapitalScan.add, hwhole, hprice, hwhole', hprice', Bool.true_eq_false, if_false, List.length_append,
    List.length_singleton]
  exact ⟨hproblems', by omega, add_le_add htotal hpaise⟩

variable {requests requests' : List BrokerOrderRequest}

theorem NoHeavier.foldl (h : List.Forall₂ Lighter requests requests')
    {scan scan' : CapitalScan} (hscan : NoHeavier scan scan') :
    NoHeavier (requests.foldl CapitalScan.add scan) (requests'.foldl CapitalScan.add scan') := by
  induction h generalizing scan scan' with
  | nil => exact hscan
  | cons hlighter _ ih => exact ih (hscan.add hlighter)

theorem grossCapRefusals_nil {metrics : BoxCapitalMetrics} {cap : Number} :
    grossCapRefusals metrics cap = [] ↔ capEnabled cap = false ∨
      metrics.complete = true ∧ metrics.grossEntryOrderNotionalPaise ≤ toPaise cap := by
  unfold grossCapRefusals
  cases capEnabled cap with
  | false => simp
  | true =>
    cases metrics.complete with
    | false => simp
    | true => by_cases h : toPaise cap < metrics.grossEntryOrderNotionalPaise <;> simp [h, not_le.mpr, le_of_not_gt]

theorem grossCap_lighter (h : List.Forall₂ Lighter requests requests')
    {count : ℕ} {cap : Number} (hcap : grossCapRefusals (grossEntryOrderNotional requests count) cap = []) :
    grossCapRefusals (grossEntryOrderNotional requests' count) cap = [] := by
  rw [grossCapRefusals_nil] at hcap ⊢
  refine hcap.imp id fun ⟨hcomplete, hle⟩ => ?_
  have hscans : NoHeavier (requests.foldl CapitalScan.add ⟨[], [], 0⟩) (requests'.foldl CapitalScan.add ⟨[], [], 0⟩) :=
    NoHeavier.foldl h fun _ => ⟨rfl, rfl, le_rfl⟩
  simp only [grossEntryOrderNotional, List.isEmpty_iff, List.append_eq_nil_iff] at hcomplete hle ⊢
  obtain ⟨hproblems, hlength, htotal⟩ := hscans hcomplete.1
  exact ⟨⟨hproblems, by rw [hlength]; simpa using hcomplete.2⟩, htotal.trans hle⟩

end

structure FundsRaised (before after : Option FundsReport) : Prop where
  available : Raised (before.bind (·.availableRupees)) (after.bind (·.availableRupees))
  components : ∀ key, Raised (component (before.bind (·.components)) key) (component (after.bind (·.components)) key)
  utilised : after.bind (·.utilisedRupees) = before.bind (·.utilisedRupees)

structure MarginLowered (before after : Option MarginReport) : Prop where
  margin : LoweredFigure (before.bind (·.marginRupees)) (after.bind (·.marginRupees))
  initial : LoweredFigure (before.bind (·.initialMarginRupees)) (after.bind (·.initialMarginRupees))
  final : LoweredFigure (before.bind (·.finalMarginRupees)) (after.bind (·.finalMarginRupees))
  encumbrance : after.bind (·.encumbranceRupees) = before.bind (·.encumbranceRupees)

/-- The same entry with funds raised, or legs, margins, charges or the reserve lowered. -/
structure Eases (cfg : EconomicsConfig) (r : EntryReads) (cfg' : EconomicsConfig) (r' : EntryReads) : Prop where
  settings : { cfg' with liveRecoveryReserveRupees := cfg.liveRecoveryReserveRupees } = cfg
  reserve : recoveryReserve cfg'.liveRecoveryReserveRupees ≤ recoveryReserve cfg.liveRecoveryReserveRupees
  direction : r'.direction = r.direction
  evaluatedAt : r'.evaluatedAt = r.evaluatedAt
  currentIdentity : r'.currentIdentity = r.currentIdentity
  requests : List.Forall₂ Lighter r.requests r'.requests
  charges : Raised r'.charges r.charges
  fundsObs : { r'.fundsObs with value := r.fundsObs.value } = r.fundsObs
  funds : FundsRaised r.fundsObs.value r'.fundsObs.value
  marginObs : { r'.marginObs with value := r.marginObs.value } = r.marginObs
  margin : MarginLowered r.marginObs.value r'.marginObs.value

section

variable {cfg cfg' : EconomicsConfig} {r r' : EntryReads}
variable {a b : Option Number}

theorem LoweredFigure.usable {value : ℚ} (h : LoweredFigure a b)
    (ha : usableFigure a = some value) : ∃ value', usableFigure b = some value' ∧ value' ≤ value := by
  obtain rfl | ⟨x, y, rfl, rfl, hpos, hle⟩ := h
  · exact ⟨value, ha, le_rfl⟩
  · have hx : 0 < x := hpos.trans_le hle
    obtain rfl : x = value := by simpa [usableFigure, hx] using ha
    exact ⟨y, by simp [usableFigure, hpos], hle⟩

theorem LoweredFigure.isSome (h : LoweredFigure a b) (ha : (finiteFigure a).isSome = true) :
    (finiteFigure b).isSome = true := by
  obtain rfl | ⟨x, y, rfl, rfl, -, -⟩ := h
  · exact ha
  · rfl

theorem Raised.lowered {value : ℚ} (h : Raised b a) (ha : finiteFigure a = some value) :
    ∃ value', finiteFigure b = some value' ∧ value' ≤ value := by
  obtain rfl | ⟨x, y, rfl, rfl, hle⟩ := h
  · exact ⟨value, ha, le_rfl⟩
  · obtain rfl : y = value := by simpa [finiteFigure] using ha
    exact ⟨x, rfl, hle⟩

section

variable (h : Eases cfg r cfg' r')
include h

theorem Eases.fundsAged : r'.fundsAged cfg' = r.fundsAged cfg := by
  rw [← h.settings, EntryReads.fundsAged, EntryReads.fundsAged, ← h.fundsObs, h.evaluatedAt, h.currentIdentity]
  rfl

theorem Eases.marginAged : r'.marginAged cfg' = r.marginAged cfg := by
  rw [← h.settings, EntryReads.marginAged, EntryReads.marginAged, ← h.marginObs, h.evaluatedAt, h.currentIdentity]
  rfl

theorem Eases.usableFunds {spendable : ℚ} (hspendable : (r.usableFunds cfg).valueRupees = some spendable) :
    ∃ spendable', (r'.usableFunds cfg').valueRupees = some spendable' ∧ spendable ≤ spendable' ∧
      (r'.usableFunds cfg').encumbranceNettedFromAvailable = (r.usableFunds cfg).encumbranceNettedFromAvailable := by
  have hbasis : cfg'.zerodhaFundsBasis = cfg.zerodhaFundsBasis := congrArg (·.zerodhaFundsBasis) h.settings
  unfold EntryReads.usableFunds at hspendable ⊢
  rw [h.currentIdentity, h.funds.utilised, hbasis]
  exact usableFundsRupees_raised h.funds.components h.funds.available hspendable

theorem Eases.priced (hpriced : ∀ role, (requestsByRole r.requests role).any (·.priced) = true) (role : BoxLegRole) :
    (requestsByRole r'.requests role).any (·.priced) = true := by
  have hrole := hpriced role
  have hrel := requestsByRole_lighter h.requests role
  cases hrequest : requestsByRole r.requests role with
  | none => simp [hrequest] at hrole
  | some request =>
    rw [hrequest] at hrel hrole
    cases hrequest' : requestsByRole r'.requests role with
    | none => rw [hrequest'] at hrel; cases hrel
    | some request' =>
      rw [hrequest'] at hrel
      obtain ⟨hlighter⟩ := hrel
      simpa using (hlighter.priced (by simpa using hrole)).1

theorem Eases.slotPaise_le (hpriced : ∀ role, (requestsByRole r.requests role).any (·.priced) = true)
    (slot : EntrySubmissionSlot) :
    (slotPaise (requestsByRole r'.requests) slot).getD 0 ≤ (slotPaise (requestsByRole r.requests) slot).getD 0 := by
  have hrole := hpriced slot.role
  have hrel := requestsByRole_lighter h.requests slot.role
  unfold slotPaise
  cases hrequest : requestsByRole r.requests slot.role with
  | none => simp [hrequest] at hrole
  | some request =>
    rw [hrequest] at hrel hrole
    cases hrequest' : requestsByRole r'.requests slot.role with
    | none => rw [hrequest'] at hrel; cases hrel
    | some request' =>
      rw [hrequest'] at hrel
      obtain ⟨hlighter⟩ := hrel
      have hbefore : request.priced = true := by simpa using hrole
      obtain ⟨hafter, hle⟩ := hlighter.priced hbefore
      simpa [Option.filter, hbefore, hafter] using hle

theorem Eases.buyPremium_le (hpriced : ∀ role, (requestsByRole r.requests role).any (·.priced) = true) :
    r'.buyPremium ≤ r.buyPremium := by
  unfold EntryReads.buyPremium duePaise
  rw [h.direction]
  refine fromPaise_mono (List.sum_le_sum fun slot _ => ?_)
  unfold slotDebit
  by_cases hbuy : slot.side = .buy
  · simpa [hbuy] using h.slotPaise_le hpriced slot
  · simp [hbuy]

theorem Eases.affordable (hr : r.Affordable cfg) : r'.Affordable cfg' := by
  obtain ⟨spendable, initial, final, charges, encumbrance, hspendable, hinitial, hfinal, hcharges, hencumbrance, hle⟩ :=
    hr.covered
  obtain ⟨spendable', hspendable', hmore, hnetted⟩ := h.usableFunds hspendable
  obtain ⟨initial', hinitial', hless⟩ := h.margin.initial.usable hinitial
  obtain ⟨final', hfinal', hless'⟩ := h.margin.final.usable hfinal
  obtain ⟨charges', hcharges', hcheaper⟩ := h.charges.lowered hcharges
  have hpremium := h.buyPremium_le hr.priced
  have hblocked : r'.countedEncumbrance cfg' = some encumbrance := by
    rw [← hencumbrance]
    unfold EntryReads.countedEncumbrance EntryReads.encumbranceRupees
    rw [hnetted, h.funds.utilised, h.margin.encumbrance]
  have hmode : cfg'.executionMode = cfg.executionMode := congrArg (·.executionMode) h.settings
  have hlimit : cfg'.liveMaxBoxCapitalRupees = cfg.liveMaxBoxCapitalRupees :=
    congrArg (·.liveMaxBoxCapitalRupees) h.settings
  have hrequired : cfg'.liveRequireMarginEvidence = cfg.liveRequireMarginEvidence :=
    congrArg (·.liveRequireMarginEvidence) h.settings
  have hworst := max_le_max (max_le_max hless hless') hpremium
  have hreserve := h.reserve
  exact {
    live := hmode.trans hr.live
    cap := hlimit ▸ grossCap_lighter h.requests hr.cap
    planned := fun hmargin => h.margin.margin.isSome (hr.planned (hrequired ▸ hmargin))
    fundsUsable := h.fundsAged ▸ hr.fundsUsable
    marginUsable := h.marginAged ▸ hr.marginUsable
    priced := h.priced hr.priced
    covered := ⟨spendable', initial', final', charges', encumbrance, hspendable', hinitial', hfinal', hcharges', hblocked,
      by linarith⟩ }

end

/-! ## The premium -/

theorem slotDebit_exact (hwhole : r.WholePaise)
    (hpriced : ∀ role, (requestsByRole r.requests role).any (·.priced) = true) (slot : EntrySubmissionSlot) :
    ∃ paise : ℤ, slotDebit (requestsByRole r.requests) slot = paise ∧
      (if slot.side = .buy then
        ((requestsByRole r.requests slot.role).map fun leg => leg.pricing.limitPrice.value * leg.quantity.value).getD 0
      else 0) = paise / 100 := by
  unfold slotDebit
  by_cases hbuy : slot.side = .buy
  · have hrole := hpriced slot.role
    cases hleg : requestsByRole r.requests slot.role with
    | none => simp [hleg] at hrole
    | some leg =>
      obtain ⟨paise, units, hprice, hquantity⟩ := hwhole slot.role leg hleg
      have hleg' : leg.priced = true := by simpa [hleg] using hrole
      obtain ⟨price, quantity, hprice', hquantity', hpos, hqpos⟩ := BrokerOrderRequest.pos_of_priced hleg'
      obtain rfl : (paise : ℚ) / 100 = price := Number.fin.inj (hprice.symm.trans hprice')
      obtain rfl : (units : ℚ) = quantity := Number.fin.inj (hquantity.symm.trans hquantity')
      have hround : toPaise (.fin ((paise : ℚ) / 100)) = paise := by
        rw [toPaise, div_mul_cancel₀ _ (by norm_num : (100 : ℚ) ≠ 0), mathRound_intCast]
      have hnonneg : (0 : ℚ) ≤ paise * units := by
        have : (0 : ℚ) ≤ paise := by linarith
        positivity
      refine ⟨paise * units, ?_, ?_⟩
      · simp [slotPaise, hbuy, hleg, hleg', Option.filter, legPaise, hprice, hquantity, hround, abs_of_nonneg hnonneg]
      · simp only [hbuy, if_true, Option.map_some, Option.getD_some, hprice, hquantity, Number.value_fin]
        push_cast
        ring
  · exact ⟨0, by simp [hbuy], by simp [hbuy]⟩

theorem EntryReads.buyPremium_exact (hwhole : r.WholePaise)
    (hpriced : ∀ role, (requestsByRole r.requests role).any (·.priced) = true) : r.buyPremium = r.exactBuyPremium := by
  have hsum (slots : List EntrySubmissionSlot) :
      ∃ paise : ℤ, duePaise (requestsByRole r.requests) slots = paise ∧
        (slots.map fun slot =>
          if slot.side = .buy then
            ((requestsByRole r.requests slot.role).map fun leg =>
              leg.pricing.limitPrice.value * leg.quantity.value).getD 0
          else 0).sum = paise / 100 := by
    induction slots with
    | nil => exact ⟨0, by simp [duePaise], by simp⟩
    | cons slot slots ih =>
      obtain ⟨rest, hrest, hexact⟩ := ih
      obtain ⟨paise, hpaise, hslot⟩ := slotDebit_exact hwhole hpriced slot
      refine ⟨paise + rest, ?_, ?_⟩
      · rw [duePaise_cons, hpaise, hrest]
        push_cast
        rfl
      · rw [List.map_cons, List.sum_cons, hslot, hexact]
        push_cast
        ring
  obtain ⟨paise, hdue, hexact⟩ := hsum (entrySubmissionOrder r.direction)
  rw [EntryReads.buyPremium, hdue, fromPaise_intCast, EntryReads.exactBuyPremium, hexact]

/-- An admitted entry has its legs priced, its BUY hedges first and fresh funds and margins that cover it, however it
is eased. -/
theorem entry_economics_sound (hstage : cfg.liveRequireStageFunding = true) (hadmitted : r.Admitted cfg) :
    (∀ role, ∃ leg, requestsByRole r.requests role = some leg ∧ leg.priced = true) ∧
      ((entrySubmissionOrder r.direction).Pairwise fun earlier later => later.side = .buy → earlier.side = .buy) ∧
      r.Covered cfg ∧ (r.WholePaise → r.buyPremium = r.exactBuyPremium) ∧
      Fresh r.fundsObs r.evaluatedAt cfg.liveFundsFreshnessMaxAgeMs r.currentIdentity ∧
      Fresh r.marginObs r.evaluatedAt cfg.liveMarginFreshnessMaxAgeMs r.currentIdentity ∧
      ∀ cfg' r', Eases cfg r cfg' r' → r'.Admitted cfg' := by
  have haffordable := (EntryReads.admitted_iff hstage).mp hadmitted
  refine ⟨fun role => ?_, entrySubmissionOrder_hedgeFirst r.direction, haffordable.covered,
    fun hwhole => EntryReads.buyPremium_exact hwhole haffordable.priced, fresh_of_usable haffordable.fundsUsable,
    fresh_of_usable haffordable.marginUsable, fun cfg' r' heases => ?_⟩
  · have hrole := haffordable.priced role
    cases hleg : requestsByRole r.requests role with
    | none => simp [hleg] at hrole
    | some leg => exact ⟨leg, rfl, by simpa [hleg] using hrole⟩
  · have hstage' : cfg'.liveRequireStageFunding = true :=
      (congrArg (·.liveRequireStageFunding) heases.settings).trans hstage
    exact (EntryReads.admitted_iff hstage').mpr (heases.affordable haffordable)

/-! ## One entry -/

def sampleLeg (role : BoxLegRole) (side : OrderSide) (price : ℚ) : BrokerOrderRequest where
  clientOrderId := role.label
  role := role
  tradeId := none
  attemptId := "entry-1"
  purpose := .entry
  phase := .entry
  exchange := "NFO"
  tradingsymbol := role.label
  token := .fin 1
  side := side
  quantity := .fin 1
  pricing := ⟨.fin price, .fin (1 / 20), .fin 0, .fin price⟩

def sampleObservation {α : Type} (value : α) : TimedObservation α where
  value := some value
  at_ := some ⟨.fin 0, .fin 0⟩
  sourceObservedAtWall := none
  failure := none
  detail := none
  identity := none
  identityAtResolution := none
  elapsedMs := none

def sampleConfig (reserve : Number) : EconomicsConfig where
  executionMode := .live
  liveRequireFundsCover := false
  liveRequireMarginEvidence := false
  liveRequireStageFunding := true
  liveFundsFreshnessMaxAgeMs := .fin 5000
  liveMarginFreshnessMaxAgeMs := .fin 5000
  liveEvidenceFutureSkewGraceMs := .fin 1000
  liveRecoveryReserveRupees := reserve
  liveMaxBoxCapitalRupees := .fin 0
  zerodhaFundsBasis := .liveBalance

def sampleEntry (price funds : ℚ) : EntryReads where
  requests := [sampleLeg .k1Ce .buy price, sampleLeg .k2Ce .sell 50, sampleLeg .k2Pe .buy price, sampleLeg .k1Pe .sell 50]
  direction := .longBox
  attemptId := "entry-1"
  planFingerprint := "plan"
  charges := some (.fin 0)
  fundsObs := sampleObservation ⟨some (.fin funds), some (.fin 0), none⟩
  marginObs := sampleObservation ⟨some (.fin 100), some (.fin 100), some (.fin 100), none⟩
  evaluatedAt := ⟨.fin 10, .fin 10⟩
  currentIdentity := some ⟨"zerodha", none, none⟩

theorem admitted_of_report (h : (evaluateEntryEconomics cfg r).any (fun result => result.1.allowed) = true) :
    r.Admitted cfg := by
  cases hresult : evaluateEntryEconomics cfg r with
  | none => simp [hresult] at h
  | some result => exact ⟨result.1, result.2, hresult, by simpa [hresult] using h⟩

theorem entry_economics_sound_sample :
    (sampleEntry 100 200).Covered (sampleConfig (.fin 0)) :=
  (entry_economics_sound rfl (admitted_of_report (by decide +kernel))).2.2.1

def EntryReads.CoveredInFull (cfg : EconomicsConfig) (r : EntryReads) : Prop :=
  ∃ spendable initial final charges encumbrance : ℚ, (r.usableFunds cfg).valueRupees = some spendable ∧
    usableFigure r.initialMargin = some initial ∧ usableFigure r.finalMargin = some final ∧
    finiteFigure r.charges = some charges ∧ r.countedEncumbrance cfg = some encumbrance ∧
    (Number.fin (max (max initial final) r.exactBuyPremium + charges + encumbrance)).add cfg.liveRecoveryReserveRupees ≤
      .fin spendable

theorem entry_not_covered_in_full :
    ((sampleEntry 100 200).Admitted (sampleConfig .posInf) ∧ ¬ (sampleEntry 100 200).CoveredInFull (sampleConfig .posInf)) ∧
      ((sampleEntry (100 + 1 / 250) 200).Admitted (sampleConfig (.fin 0)) ∧
        ¬ (sampleEntry (100 + 1 / 250) 200).CoveredInFull (sampleConfig (.fin 0))) := by
  refine ⟨⟨admitted_of_report (by decide +kernel), ?_⟩, admitted_of_report (by decide +kernel), ?_⟩
  · rintro ⟨spendable, initial, final, charges, encumbrance, -, -, -, -, -, hle⟩
    exact Number.not_lt_of_le hle rfl
  · rintro ⟨spendable, initial, final, charges, encumbrance, hspendable, -, -, hcharges, hencumbrance, hle⟩
    obtain rfl : (200 : ℚ) = spendable := Option.some.inj (Eq.trans (by decide +kernel) hspendable)
    obtain rfl : (0 : ℚ) = charges := Option.some.inj hcharges
    obtain rfl : (0 : ℚ) = encumbrance := Option.some.inj (Eq.trans (by decide +kernel) hencumbrance)
    have hexact : (sampleEntry (100 + 1 / 250) 200).exactBuyPremium = 200 + 1 / 125 := by decide +kernel
    rw [hexact] at hle
    simp only [sampleConfig, Number.add_fin, Number.fin_le_fin] at hle
    have hpremium := le_max_right (max initial final) (200 + 1 / 125 : ℚ)
    linarith

end

end BoxEngine
