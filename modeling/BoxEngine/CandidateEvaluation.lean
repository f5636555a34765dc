import BoxEngine.DepthWalk
import BoxEngine.Lib.Best
import BoxEngine.OwnedExecutions

/-!
# A candidate on the executable book

A leg is priced at the touch of its side, the scalar of the tick where the depth has no usable level; debit and edge
are rounded to paise.
-/

namespace BoxEngine

open Js

inductive BookSide where
  | bid | ask
  deriving DecidableEq

structure BoxQuote where
  token : Number
  bid : Number
  bidQty : Number
  ask : Number
  askQty : Number
  bids : List BoxDepthLevel
  asks : List BoxDepthLevel
  version : Number
  «at» : Number
  exchangeAt : Option Number

def betterPrice : BookSide → Number → Number → Number
  | .bid => Number.max
  | .ask => Number.min

/-- The usable prices are compared rather than trusting the order of the levels. -/
def bestPrice (levels : List BoxDepthLevel) (side : BookSide) : Option Number :=
  Best.scan (betterPrice side) ((levels.filter fun lv => .fin 0 < lv.price).map BoxDepthLevel.price)

def qtyAtPrice (levels : List BoxDepthLevel) (price : Number) : Number :=
  levels.foldl (fun qty lv => if lv.price = price ∧ .fin 0 < lv.qty then qty.add lv.qty else qty) (.fin 0)

def orElse (a b : Number) : Number := if a = .fin 0 ∨ a = .nan then b else a

structure Touch where
  price : Option Number
  qty : Number

namespace BoxQuote

variable (quote : BoxQuote)

def levels : BookSide → List BoxDepthLevel
  | .bid => quote.bids
  | .ask => quote.asks

def scalar : BookSide → Number
  | .bid => quote.bid
  | .ask => quote.ask

def scalarQty : BookSide → Number
  | .bid => quote.bidQty
  | .ask => quote.askQty

def touchPrice (side : BookSide) : Option Number :=
  bestPrice (quote.levels side) side <|> if .fin 0 < quote.scalar side then some (quote.scalar side) else none

def touchOn (side : BookSide) : Touch :=
  match quote.touchPrice side with
  | none => ⟨none, .fin 0⟩
  | some price =>
    ⟨some price, orElse (qtyAtPrice (quote.levels side) price)
      (if quote.scalar side = price then quote.scalarQty side else .fin 0)⟩

end BoxQuote

def touchFor (quote : BoxQuote) : OrderSide → Touch
  | .buy => quote.touchOn .ask
  | .sell => quote.touchOn .bid

/-! ## One leg -/

structure TouchEvaluation extends BoxLegEvaluation where
  qtyAtTouch : Number
  bid : Number
  bidQty : Number
  ask : Number
  askQty : Number
  quoteAt : Option Number
  exchangeAt : Option Number
  quoteVersion : Option Number
  depth : Option (List BoxDepthLevel × List BoxDepthLevel)
  ageMs : Option Number
  fresh : Bool
  executable : Bool

/-- A leg at the touch: its price, its quantity and whether its quote is fresh. -/
def evaluateLeg (role : BoxLegRole) (side : OrderSide) (inst : BoxOptionInstrument) (quote : Option BoxQuote)
    (lotSize now maxAgeMs : Number) (captureDepth : Bool) : TouchEvaluation :=
  match quote with
  | none =>
    { role, side
      token := inst.token
      tradingsymbol := inst.tradingsymbol
      price := none
      qtyAtTouch := .fin 0
      bid := .fin 0
      bidQty := .fin 0
      ask := .fin 0
      askQty := .fin 0
      quoteAt := none
      exchangeAt := none
      quoteVersion := none
      depth := none
      ageMs := none
      fresh := false
      executable := false }
  | some quote =>
    let age := now.sub quote.at
    let touch := touchFor quote side
    { role, side
      token := inst.token
      tradingsymbol := inst.tradingsymbol
      price := touch.price
      qtyAtTouch := touch.qty
      bid := quote.bid
      bidQty := quote.bidQty
      ask := quote.ask
      askQty := quote.askQty
      quoteAt := some quote.at
      exchangeAt := quote.exchangeAt
      quoteVersion := some quote.version
      depth := if captureDepth then some (quote.bids, quote.asks) else none
      ageMs := some age
      fresh := if .fin 0 ≤ age then decide (age ≤ maxAgeMs) else false
      executable := touch.price.any fun price => decide (.fin 0 < price) && decide (lotSize ≤ touch.qty) }

def evaluateExitLegs (legs : List (BoxLegRole × BoxOptionInstrument)) (quotes : Number → Option BoxQuote)
    (lotSize now maxAgeMs : Number) (direction : Option BoxDirection) (captureDepth : Bool) : List TouchEvaluation :=
  legs.map fun (role, inst) =>
    evaluateLeg role (exitSideFor role (direction.getD .longBox)) inst (quotes inst.token) lotSize now maxAgeMs captureDepth

inductive BoxRejectReason where
  | noQuote | staleQuote | missingBid | missingAsk | insufficientQty
  deriving DecidableEq

def unpriced (leg : TouchEvaluation) : Bool := !leg.price.any fun price => decide (.fin 0 < price)

def firstRejectReason (legs : List TouchEvaluation) (lotSize : Number) : Option BoxRejectReason :=
  if legs.any fun leg => leg.quoteAt.isNone then some .noQuote
  else if legs.any fun leg => !leg.fresh then some .staleQuote
  else
    match legs.find? unpriced with
    | some leg => some (if leg.side = .buy then .missingAsk else .missingBid)
    | none => if legs.any fun leg => leg.qtyAtTouch < lotSize then some .insufficientQty else none

/-! ## The candidate -/

def directionSign : BoxDirection → ℤ
  | .longBox => 1
  | .shortBox => -1

def debitSign : OrderSide → ℤ
  | .buy => 1
  | .sell => -1

/-- A candidate with its direction, the long box where it has none, and its width. -/
structure DirectedCandidate extends BoxCandidate where
  direction : Option BoxDirection
  boxWidth : Number

def BoxDirection.label : BoxDirection → String
  | .longBox => "LONG_BOX"
  | .shortBox => "SHORT_BOX"

def candidateKey (underlying expiry : String) (k1 k2 : ℚ) (direction : BoxDirection) : String :=
  underlying ++ "|" ++ expiry ++ "|" ++ (Number.fin k1).toText ++ "|" ++ (Number.fin k2).toText ++ "|" ++ direction.label

structure ChainContract where
  inst : BoxOptionInstrument
  lotSize : Number

structure CandidateUniverse where
  underlying : String
  expiry : String
  lotSize : Number
  strikes : List ℚ
  ce : ℚ → Option ChainContract
  pe : ℚ → Option ChainContract
  directions : Option (List BoxDirection)

def strikePairs : List ℚ → List (ℚ × ℚ)
  | [] => []
  | k1 :: rest => rest.map (fun k2 => (k1, k2)) ++ strikePairs rest

namespace CandidateUniverse

variable (args : CandidateUniverse)

/-- The candidates of one pair of strikes; none where a contract is missing or of another lot. -/
def pairCandidates (k1 k2 : ℚ) : List DirectedCandidate :=
  match args.ce k1, args.ce k2, args.pe k2, args.pe k1 with
  | some k1ce, some k2ce, some k2pe, some k1pe =>
    let contract : BoxLegRole → ChainContract
      | .k1Ce => k1ce
      | .k2Ce => k2ce
      | .k2Pe => k2pe
      | .k1Pe => k1pe
    let built := fun direction : BoxDirection =>
      { key := candidateKey args.underlying args.expiry k1 k2 direction
        underlying := args.underlying
        lotSize := args.lotSize
        legs := fun role => (contract role).inst
        legLotSize := fun role => (contract role).lotSize
        direction := some direction
        boxWidth := round2Price (.fin (k2 - k1)) : DirectedCandidate }
    -- the lot sizes are those of either direction
    if (singleLotCandidateViolation (built .longBox).toBoxCandidate).isSome then []
    else (args.directions.getD [.longBox]).map built
  | _, _, _, _ => []

end CandidateUniverse

def buildCandidates (args : CandidateUniverse) : List DirectedCandidate :=
  if isPositiveSafeInteger args.lotSize then
    (strikePairs (args.strikes.dedup.insertionSort (· ≤ ·))).flatMap fun (k1, k2) => args.pairCandidates k1 k2
  else []

structure CandidateEvaluation where
  candidate : DirectedCandidate
  «at» : Number
  legs : List TouchEvaluation
  entryNetDebitPerUnit : Option Number
  entryBoxCostPerUnit : Option Number
  grossEdgePerUnit : Option Number
  grossEdge : Option Number
  tradable : Bool
  depthOk : Bool
  worstAgeMs : Option Number
  quoteVersion : Option Number
  reject : Option BoxRejectReason

structure LegTotals where
  legs : List TouchEvaluation
  havePrices : Bool
  netDebit : Number
  worstAge : Option Number
  agesSeen : ℕ
  version : Option Number
  depthOk : Bool

def latest (held : Option Number) (next : Number) : Option Number :=
  match held with
  | none => some next
  | some held => some (if held < next then next else held)

def LegTotals.add (lotSize : Number) (totals : LegTotals) (leg : TouchEvaluation) : LegTotals where
  legs := totals.legs ++ [leg]
  havePrices := totals.havePrices && leg.price.isSome
  netDebit := leg.price.elim totals.netDebit fun price => totals.netDebit.add ((Number.fin (debitSign leg.side)).mul price)
  worstAge := leg.ageMs.elim totals.worstAge (latest totals.worstAge)
  agesSeen := totals.agesSeen + if leg.ageMs.isSome then 1 else 0
  version := leg.quoteVersion.elim totals.version (latest totals.version)
  depthOk := totals.depthOk && leg.price.any fun price => decide (.fin 0 < price) && decide (lotSize ≤ leg.qtyAtTouch)

namespace DirectedCandidate

variable (candidate : DirectedCandidate)

def side (role : BoxLegRole) : OrderSide := boxEntrySidesByDirection (candidate.direction.getD .longBox) role

def evaluatedLeg (quotes : Number → Option BoxQuote) (now maxAgeMs : Number) (captureDepth : Bool) (role : BoxLegRole) :
    TouchEvaluation :=
  let inst := candidate.legs role
  evaluateLeg role (candidate.side role) inst (quotes inst.token) candidate.lotSize now maxAgeMs captureDepth

def totals (quotes : Number → Option BoxQuote) (now maxAgeMs : Number) (captureDepth : Bool) : LegTotals :=
  (boxLegRoles.map (candidate.evaluatedLeg quotes now maxAgeMs captureDepth)).foldl (.add candidate.lotSize)
    ⟨[], true, .fin 0, none, 0, none, true⟩

end DirectedCandidate

/-- A box priced from its four legs, tradable where no leg gives a reason to reject it. -/
def evaluateCandidate (candidate : DirectedCandidate) (quotes : Number → Option BoxQuote) (now maxAgeMs : Number)
    (captureDepth : Bool) : CandidateEvaluation :=
  let totals := candidate.totals quotes now maxAgeMs captureDepth
  let netDebitPerUnit := if totals.havePrices then some (round2Price totals.netDebit) else none
  let signedWidth := (Number.fin (directionSign (candidate.direction.getD .longBox))).mul candidate.boxWidth
  let grossPerUnit := netDebitPerUnit.map fun debit => round2Price (signedWidth.sub debit)
  let grossEdge := grossPerUnit.map fun gross => round2Price (gross.mul candidate.lotSize)
  let reject := firstRejectReason totals.legs candidate.lotSize
  { candidate
    «at» := now
    legs := totals.legs
    entryNetDebitPerUnit := netDebitPerUnit
    entryBoxCostPerUnit := netDebitPerUnit
    grossEdgePerUnit := grossPerUnit
    grossEdge
    tradable := reject.isNone && grossEdge.isSome
    depthOk := totals.depthOk
    worstAgeMs := if totals.agesSeen = boxLegRoles.length then totals.worstAge else none
    quoteVersion := totals.version
    reject }

end BoxEngine
