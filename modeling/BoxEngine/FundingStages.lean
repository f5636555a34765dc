import BoxEngine.BoxCapital
import Mathlib.Data.List.Sort

/-!
# Funding stages

Before each leg the account must fund the initial margin while legs are missing, the final one after, and never less
than the BUY premium due. An unpriced leg or a margin that is not positive leaves a stage unknown.
-/

namespace BoxEngine

open Js

inductive MarginBasis where
  | initialBasket | finalBasket | unknown
  deriving DecidableEq

/-- What the account must hold before one leg, and why. -/
structure FundingStage where
  index : ℕ
  role : BoxLegRole
  side : OrderSide
  hedge : Bool
  cumulativePremiumDebitRupees : Option ℚ
  cumulativePremiumCreditRupees : Option ℚ
  marginBasis : MarginBasis
  requirementRupees : Option ℚ
  known : Bool
  note : String

/-- A figure counts when it is finite and positive. -/
def usableFigure : Option Number → Option ℚ
  | some (.fin value) => if 0 < value then some value else none
  | _ => none

def BrokerOrderRequest.priced (request : BrokerOrderRequest) : Bool :=
  request.boundedPrice && request.quantity.isFinite && decide (.fin 0 < request.quantity)

variable (requests : List BrokerOrderRequest)

def requestsByRole : ByRole BrokerOrderRequest :=
  requests.foldl (fun map request => map.set request.role request) fun _ => none

/-- The scan over the legs: what is due so far and what stays unknown. -/
structure StageScan where
  stages : List FundingStage
  unknown : List String
  debitPaise : ℚ
  creditPaise : ℚ
  seenSell : Bool
  hedgeFirstValid : Bool

def StageScan.start : StageScan := ⟨[], [], 0, 0, false, true⟩

section

variable (byRole : ByRole BrokerOrderRequest) (initialMarginRupees finalMarginRupees : Option Number) (slotCount : ℕ)
variable (slot : EntrySubmissionSlot)

/-- The premium of a leg in paise; unknown where the leg has no usable price. -/
def slotPaise : Option ℚ :=
  ((byRole slot.role).filter BrokerOrderRequest.priced).map legPaise

variable (index : ℕ)

/-- The initial margin while legs are missing, the final one with the last. -/
def stageMargin : Option ℚ :=
  usableFigure (if index + 1 = slotCount then finalMarginRupees else initialMarginRupees)

def stageBasis : MarginBasis :=
  if (stageMargin initialMarginRupees finalMarginRupees slotCount index).isNone then .unknown
  else if index + 1 = slotCount then .finalBasket
  else .initialBasket

/-- Never less than the premium due by then. -/
def stageRequirement (debitPaise : ℚ) : Option ℚ :=
  match slotPaise byRole slot, stageMargin initialMarginRupees finalMarginRupees slotCount index with
  | some _, some margin => some (max margin (fromPaise debitPaise))
  | _, _ => none

def stageUnknown : List String :=
  if (slotPaise byRole slot).isNone then [s!"{slot.role.label}:unpriced"]
  else if (stageMargin initialMarginRupees finalMarginRupees slotCount index).isNone then
    [if index + 1 = slotCount then s!"{slot.role.label}:no_final_margin" else s!"{slot.role.label}:no_initial_margin"]
  else []

def stageNote (debitPaise : ℚ) : String :=
  let final := decide (index + 1 = slotCount)
  match slotPaise byRole slot, stageMargin initialMarginRupees finalMarginRupees slotCount index with
  | none, _ => s!"{slot.role.label} is unpriced or missing from the plan; its stage requirement is UNKNOWN"
  | some _, none =>
    "no broker " ++ (if final then "final" else "initial") ++ " basket-margin figure is available, so the " ++
      s!"funding requirement at stage {index} ({slot.role.label}) is UNKNOWN — refusing is the only " ++
      "honest answer; gross premium does NOT bound a margin requirement"
  | some _, some margin =>
    let premiumDue := rupeeText (fromPaise debitPaise)
    s!"stage {index}: after sending {sideLabel slot.side} {slot.role.label}, cumulative BUY premium payable is " ++
      s!"₹{premiumDue}; applicable broker figure is the " ++
      (if final then "FINAL (spread-benefit)" else "INITIAL (no spread benefit)") ++
      s!" basket margin ₹{rupeeText margin}. Requirement is the greater of the two (the broker total already " ++
      "includes an option-premium component, so they are not added)."

variable (scan : StageScan)

def StageScan.debitAfter (slot : EntrySubmissionSlot) : ℚ :=
  if slot.side = .buy then scan.debitPaise + (slotPaise byRole slot).getD 0 else scan.debitPaise

def StageScan.creditAfter (slot : EntrySubmissionSlot) : ℚ :=
  if slot.side = .buy then scan.creditPaise else scan.creditPaise + (slotPaise byRole slot).getD 0

def StageScan.step (slot : EntrySubmissionSlot) : StageScan :=
  let index := scan.stages.length
  let debitPaise := scan.debitAfter byRole slot
  let creditPaise := scan.creditAfter byRole slot
  let priced := (slotPaise byRole slot).isSome
  let requirement := stageRequirement byRole initialMarginRupees finalMarginRupees slotCount slot index debitPaise
  { stages := scan.stages ++
      [{ index := index
         role := slot.role
         side := slot.side
         hedge := slot.side = .buy
         cumulativePremiumDebitRupees := if priced then some (fromPaise debitPaise) else none
         cumulativePremiumCreditRupees := if priced then some (fromPaise creditPaise) else none
         marginBasis := stageBasis initialMarginRupees finalMarginRupees slotCount index
         requirementRupees := requirement
         known := requirement.isSome
         note := stageNote byRole initialMarginRupees finalMarginRupees slotCount slot index debitPaise }]
    unknown := scan.unknown ++ stageUnknown byRole initialMarginRupees finalMarginRupees slotCount slot index
    debitPaise := debitPaise
    creditPaise := creditPaise
    seenSell := scan.seenSell || decide (slot.side = .sell)
    -- a BUY after a SELL breaks hedge-first
    hedgeFirstValid := scan.hedgeFirstValid && (decide (slot.side = .sell) || !scan.seenSell) }

end

structure FundingStages where
  stages : List FundingStage
  hedgeFirstValid : Bool
  unknown : List String

variable (transportOrder : List EntrySubmissionSlot)

/-- The stages in the order of submission, and what stays unknown of them. -/
def buildFundingStages (initialMarginRupees finalMarginRupees : Option Number) : FundingStages :=
  let ordered := transportOrder.insertionSort fun a b => a.rank ≤ b.rank
  let step := StageScan.step (requestsByRole requests) initialMarginRupees finalMarginRupees ordered.length
  let scan := ordered.foldl step .start
  { stages := scan.stages
    hedgeFirstValid := scan.hedgeFirstValid
    unknown := scan.unknown ++ (if scan.hedgeFirstValid then [] else ["sequence:not_hedge_first"]) }

/-! ## The picture -/

def hedgePremiumRupees : Option ℚ :=
  let hedgeRoles := ((transportOrder.filter fun slot => slot.side = .buy).map (·.role)).dedup
  let hedges := requests.filter fun request => request.role ∈ hedgeRoles
  if hedgeRoles.isEmpty ∨ hedges.any (fun request => !request.priced) ∨ hedges.length ≠ hedgeRoles.length then none
  else some (fromPaise (hedges.map legPaise).sum)

/-- The funding of an entry as the operator sees it. -/
structure FundingPicture where
  initialBasketMargin : EconomicFigure
  finalBasketMargin : EconomicFigure
  hedgePremiumRequirement : EconomicFigure
  intermediateStageRequirement : EconomicFigure
  encumbrance : EconomicFigure
  estimatedCharges : EconomicFigure
  recoveryReserve : EconomicFigure
  bindingRequirement : EconomicFigure
  stages : List FundingStage
  hedgeFirstSequenceValid : Bool
  unknownStages : List String

structure FundingArgs where
  transportOrder : List EntrySubmissionSlot
  initialMarginRupees : Option Number
  finalMarginRupees : Option Number
  encumbranceRupees : Option Number
  encumbranceNettedFromAvailableFunds : Bool
  recoveryReserveRupees : Number

def marginFigure (value : ℚ) (now : Number) (aged : AgedEvidence) (planFingerprint : Option String) (note : String) :
    EconomicFigure :=
  { valueRupees := some value
    provenance := if aged.status = .usable then .brokerConfirmed else .stale
    observedAt := some now
    observedAtMono := none
    ageMs := aged.ageMs
    ageIsMonotonic := aged.ageIsMonotonic
    usable := aged.status = .usable
    planFingerprint := planFingerprint
    note := note }

def recoveryReserve : Number → ℚ
  | .fin reserve => if 0 ≤ reserve then reserve else 0
  | _ => 0

def sumKnown (parts : List (Option ℚ)) : Option ℚ :=
  if parts.any Option.isNone then none else some (parts.map (·.getD 0)).sum

def knownText (value : Option ℚ) : String := (value.map rupeeText).getD "unknown"

def intermediateStage (built : FundingStages) (now : Number) (aged : AgedEvidence) (planFingerprint : Option String) :
    EconomicFigure :=
  match built.unknown, (built.stages.filterMap (·.requirementRupees)).max? with
  | [], some worstStage =>
    marginFigure worstStage now aged planFingerprint
      (s!"the WORST stage of the {built.stages.length}-stage hedge-first sequence requires ₹{rupeeText worstStage}. " ++
        "This — not the completed-basket final margin — is what the account must be able to fund.")
  | unknown, _ =>
    unknownFigure
      ("the intermediate execution-stage requirement is UNKNOWN: " ++
        (if unknown.isEmpty then "no stages could be modelled" else String.intercalate "; " unknown) ++
        ". Refusing the supervised entry profile is the only honest response.")

/-- Unknown as soon as one of its components is. -/
def bindingFigure (intermediate encumbrance charges reserve : EconomicFigure) (counted : Bool) (now : Number)
    (aged : AgedEvidence) (planFingerprint : Option String) : EconomicFigure :=
  let parts :=
    [if intermediate.usable then intermediate.valueRupees else none, charges.valueRupees, reserve.valueRupees] ++
      (if counted then [encumbrance.valueRupees] else [])
  match sumKnown parts with
  | none =>
    unknownFigure
      ("the binding funding requirement is UNKNOWN because at least one component is unknown " ++
        s!"(worst stage: {knownText intermediate.valueRupees}, charges: {knownText charges.valueRupees}" ++
        (if counted then s!", encumbrance: {knownText encumbrance.valueRupees}"
        else " — the encumbrance is already netted out of available funds and is not a component here") ++
        "). The supervised entry profile must be refused rather than admitted on a guess.")
  | some binding =>
    marginFigure binding now aged planFingerprint
      (s!"worst stage ₹{knownText intermediate.valueRupees} + charges " ++
        s!"₹{knownText charges.valueRupees} + recovery reserve ₹{knownText reserve.valueRupees}" ++
        (if counted then s!" + encumbrance ₹{knownText encumbrance.valueRupees}"
        else
          s!" (encumbrance ₹{knownText encumbrance.valueRupees} is NOT added here — it is already " ++
            "deducted from the available-funds figure, and counting it twice would overstate the requirement)") ++
        s!" = ₹{rupeeText binding}. This is what available funds are compared against — NOT the " ++
        "completed-basket final margin.")

def encumbranceFigure (encumbranceRupees : Option Number) (now : Number) (aged : AgedEvidence) : EconomicFigure :=
  match finiteFigure encumbranceRupees with
  | none =>
    unknownFigure
      ("₹ blocked by existing open orders/positions is UNKNOWN (the broker facility did not report " ++
        "it). Treated as unknown, never as ₹0: other activity on this account can consume the same " ++
        "available-funds allowance.")
  | some value =>
    { valueRupees := some value
      provenance := .brokerConfirmed
      observedAt := some now
      observedAtMono := none
      ageMs := aged.ageMs
      ageIsMonotonic := aged.ageIsMonotonic
      usable := true
      planFingerprint := none
      note := "₹ already blocked by open orders/positions on this account." }

def chargesFigure (estimatedChargesRupees : Option Number) (now : Number) (planFingerprint : Option String) :
    EconomicFigure :=
  match finiteFigure estimatedChargesRupees with
  | some value =>
    localFigure value now planFingerprint "locally estimated brokerage/statutory charges for the four entry legs."
  | none => unknownFigure "estimated charges are UNKNOWN (no local fee calculator result)."

/-- Margin evidence that may not be used leaves its figures unknown. -/
def buildFundingPicture (now : Number) (args : FundingArgs)
    (plannedMarginAged : AgedEvidence) (planFingerprint : Option String) (estimatedChargesRupees : Option Number) :
    FundingPicture :=
  let built :=
    buildFundingStages requests args.transportOrder args.initialMarginRupees args.finalMarginRupees
  let marginUsable := decide (plannedMarginAged.status = .usable)
  let marginNote :=
    if marginUsable then plannedMarginAged.note
    else s!"broker margin evidence is {plannedMarginAged.status.label}: {plannedMarginAged.note}"
  let intermediate := intermediateStage built now plannedMarginAged planFingerprint
  let encumbrance := encumbranceFigure args.encumbranceRupees now plannedMarginAged
  let charges := chargesFigure estimatedChargesRupees now planFingerprint
  let reserve := recoveryReserve args.recoveryReserveRupees
  let reserveFigure :=
    localFigure reserve now none
      (s!"operator-configured reserve of ₹{rupeeText reserve} held back so a recovery action (cancel, unwind, " ++
        "complete) is not blocked by having spent every rupee on the entry.")
  { initialBasketMargin := figureOrUnknown args.initialMarginRupees marginUsable planFingerprint
      ("broker INITIAL basket margin — the margin required to EXECUTE the orders, WITHOUT the spread " ++
        "benefit. This is the figure that applies while legging, because the completed structure does " ++
        "not exist yet.") marginNote
    finalBasketMargin := figureOrUnknown args.finalMarginRupees marginUsable planFingerprint
      ("broker FINAL basket margin — the margin WITH the spread benefit, applicable only once every " ++
        "leg is on the book. NOT proof that the account can fund the sequence that creates it.") marginNote
    hedgePremiumRequirement :=
      match hedgePremiumRupees requests args.transportOrder with
      | none => unknownFigure "the BUY hedge premium could not be computed (an unpriced hedge leg); UNKNOWN, never ₹0"
      | some premium =>
        localFigure premium now planFingerprint
          (s!"premium payable by the BUY hedge legs before any SELL proceeds exist (₹{rupeeText premium}). " ++
            "Computed from the bounded LIMIT requests, so it is an upper bound on the hedge debit.")
    intermediateStageRequirement := intermediate
    encumbrance := encumbrance
    estimatedCharges := charges
    recoveryReserve := reserveFigure
    bindingRequirement := bindingFigure intermediate encumbrance charges reserveFigure
      (!args.encumbranceNettedFromAvailableFunds) now plannedMarginAged planFingerprint
    stages := built.stages
    hedgeFirstSequenceValid := built.hedgeFirstValid
    unknownStages := built.unknown }

end BoxEngine
