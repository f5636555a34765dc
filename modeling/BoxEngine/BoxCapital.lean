import BoxEngine.EvidenceTiming
import BoxEngine.FundsSemantics
import BoxEngine.Tuning

/-!
# Box capital

The gross notional of the bounded orders, the funding of each stage, and what the spendable funds must cover. Money is
compared in whole paise.
-/

namespace BoxEngine

open Js

/-- ₹ in whole paise, the nearest and halves up; a value that is not finite is 0. -/
def toPaise : Number → ℚ
  | .fin rupees => mathRound (rupees * 100)
  | _ => 0

def fromPaise (paise : ℚ) : ℚ := mathRound paise / 100

variable (request : BrokerOrderRequest)

def legPaise : ℚ := |toPaise request.pricing.limitPrice * request.quantity.value|

/-! ## The gross notional -/

structure BoxCapitalLegBreakdown where
  role : BoxLegRole
  side : OrderSide
  tradingsymbol : String
  quantity : Number
  limitPrice : Number
  notionalRupees : ℚ

structure BoxCapitalMetrics where
  grossEntryOrderNotionalRupees : ℚ
  grossEntryOrderNotionalPaise : ℚ
  legs : List BoxCapitalLegBreakdown
  legCount : ℕ
  complete : Bool
  incompleteReason : Option String

def BrokerOrderRequest.wholeQuantity : Bool :=
  request.quantity.isFinite && decide (.fin 0 < request.quantity) && request.quantity.isInteger

def BrokerOrderRequest.boundedPrice : Bool :=
  request.pricing.limitPrice.isFinite && decide (.fin 0 < request.pricing.limitPrice)

structure CapitalScan where
  legs : List BoxCapitalLegBreakdown
  problems : List String
  totalPaise : ℚ

def CapitalScan.add (scan : CapitalScan) (request : BrokerOrderRequest) : CapitalScan :=
  if request.wholeQuantity = false then
    { scan with problems := scan.problems ++
        [s!"{request.role.label} has a non-positive or non-integer quantity ({request.quantity.toText})"] }
  else if request.boundedPrice = false then
    { scan with problems := scan.problems ++
        [s!"{request.role.label} has no usable bounded LIMIT price ({request.pricing.limitPrice.toText})"] }
  else
    { scan with
      totalPaise := scan.totalPaise + legPaise request
      legs := scan.legs ++ [⟨request.role, request.side, request.tradingsymbol, request.quantity,
        request.pricing.limitPrice, fromPaise (legPaise request)⟩] }

def joinedProblems (problems : List String) : Option String :=
  if problems.isEmpty then none else some (String.intercalate "; " problems)

def grossEntryOrderNotional (requests : List BrokerOrderRequest) (expectedLegCount : ℕ) : BoxCapitalMetrics :=
  let scan := requests.foldl CapitalScan.add ⟨[], [], 0⟩
  let problems := scan.problems ++
    (if scan.legs.length = expectedLegCount then []
    else [s!"expected {expectedLegCount} priced legs, computed {scan.legs.length}"])
  { grossEntryOrderNotionalRupees := fromPaise scan.totalPaise
    grossEntryOrderNotionalPaise := scan.totalPaise
    legs := scan.legs
    legCount := scan.legs.length
    complete := problems.isEmpty
    incompleteReason := joinedProblems problems }

structure WorstCaseEntryCost where
  grossCostRupees : ℚ
  netDebitRupees : ℚ
  estimatedChargesRupees : Option ℚ
  complete : Bool
  incompleteReason : Option String

structure CostScan where
  problems : List String
  grossPaise : ℚ
  netDebitPaise : ℚ
  priced : ℕ

def CostScan.add (scan : CostScan) (request : BrokerOrderRequest) : CostScan :=
  if request.wholeQuantity = false then
    { scan with problems := scan.problems ++ [s!"{request.role.label} non-positive/non-integer quantity"] }
  else if request.boundedPrice = false then
    { scan with problems := scan.problems ++ [s!"{request.role.label} unpriced"] }
  else
    { scan with
      grossPaise := scan.grossPaise + legPaise request
      netDebitPaise := scan.netDebitPaise + (if request.side = .buy then legPaise request else -legPaise request)
      priced := scan.priced + 1 }

def worstCaseEntryCost (requests : List BrokerOrderRequest) (estimatedChargesRupees : Option Number) :
    WorstCaseEntryCost :=
  let scan := requests.foldl CostScan.add ⟨[], 0, 0, 0⟩
  let problems := scan.problems ++ (if scan.priced = 4 then [] else [s!"expected 4 priced legs, got {scan.priced}"])
  { grossCostRupees := fromPaise scan.grossPaise
    netDebitRupees := fromPaise scan.netDebitPaise
    estimatedChargesRupees := finiteFigure estimatedChargesRupees
    complete := problems.isEmpty
    incompleteReason := joinedProblems problems }

/-! ## Figures -/

inductive EconomicProvenance where
  | brokerConfirmed | estimate | unavailable | stale | invalid
  deriving DecidableEq

def EconomicProvenance.label : EconomicProvenance → String
  | .brokerConfirmed => "broker_confirmed"
  | .estimate => "estimate"
  | .unavailable => "unavailable"
  | .stale => "stale"
  | .invalid => "invalid"

structure EconomicFigure where
  valueRupees : Option ℚ
  provenance : EconomicProvenance
  observedAt : Option Number
  observedAtMono : Option Number
  ageMs : Option Number
  ageIsMonotonic : Bool
  usable : Bool
  planFingerprint : Option String
  note : String

def unknownFigure (note : String) : EconomicFigure :=
  ⟨none, .unavailable, none, none, none, false, false, none, note⟩

def localFigure (value : ℚ) (now : Number) (planFingerprint : Option String) (note : String) : EconomicFigure :=
  ⟨some value, .estimate, some now, none, some (.fin 0), false, true, planFingerprint, note⟩

def EvidenceStatus.provenance : EvidenceStatus → EconomicProvenance
  | .usable => .brokerConfirmed
  | .stale => .stale
  | .invalid => .invalid
  | .unavailable => .unavailable

def brokerFigure (valueRupees : Option Number) (aged : AgedEvidence) (observedAtWall observedAtMono : Option Number)
    (planFingerprint : Option String) (confirmedNote : String) : EconomicFigure :=
  match finiteFigure valueRupees with
  | none =>
    { unknownFigure
        (if aged.status = .unavailable then aged.note
        else s!"{aged.note} (and no finite figure was returned; treated as UNKNOWN, never as ₹0)") with
      planFingerprint := planFingerprint }
  | some value =>
    { valueRupees := some value
      provenance := aged.status.provenance
      observedAt := observedAtWall
      observedAtMono := observedAtMono
      ageMs := aged.ageMs
      ageIsMonotonic := aged.ageIsMonotonic
      usable := aged.status.provenance = .brokerConfirmed
      planFingerprint := planFingerprint
      note := if aged.status = .usable then s!"{confirmedNote} ({aged.note})" else aged.note }

def estimateFigure (valueRupees : Option ℚ) (now : Number) (note : String) : EconomicFigure :=
  match valueRupees with
  | none => unknownFigure "estimate could not be computed (an unpriced leg); treated as UNKNOWN"
  | some value =>
    localFigure value now none
      s!"{note} This is OUR estimate from the bounded requests, NOT a broker-confirmed figure."

def figureOrUnknown (valueRupees : Option Number) (usable : Bool) (planFingerprint : Option String)
    (confirmedNote agedNote : String) : EconomicFigure :=
  match finiteFigure valueRupees with
  | none => unknownFigure s!"{confirmedNote} — NOT AVAILABLE: {agedNote}"
  | some value =>
    { valueRupees := some value
      provenance := if usable then .brokerConfirmed else .stale
      observedAt := none
      observedAtMono := none
      ageMs := none
      ageIsMonotonic := false
      usable := usable
      planFingerprint := planFingerprint
      note := if usable then confirmedNote else s!"{confirmedNote} — NOT USABLE: {agedNote}" }

end BoxEngine
