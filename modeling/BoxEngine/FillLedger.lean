import BoxEngine.Lib.Number
import BoxEngine.Lib.Text

/-!
# The cumulative fill ledger

Every observation of an order's filled quantity passes its ledger: monotonic in the running total, each event identity
applied once.
-/

namespace BoxEngine

open Js

inductive FillEventSource where
  | restPoll
  | orderUpdate
  | postback
  | tradeBook
  | reconciliation
  | paper
  deriving DecidableEq

/-- One sight of an order's running total, from the stream or a snapshot. -/
structure CumulativeFillEvent where
  cumulativeQty : Number
  averagePrice : Option Number
  eventId : Option String
  sequence : Option Number
  observedAtMono : Option Number
  observedAtWall : Option Number
  source : FillEventSource

/-- What the ledger made of an event. -/
inductive FillApplyOutcome where
  | applied
  | appliedOverfill
  | duplicateEvent
  | staleCumulative
  | invalid
  deriving DecidableEq

structure FillApplyResult where
  outcome : FillApplyOutcome
  delta : ℕ
  cumulative : ℕ
  remaining : ℕ
  averagePrice : Option Number
  overfill : ℕ
  sequenceRegression : Bool

/-- A quantity counts when it is finite and not negative, rounded down. -/
def wholeQuantity : Number → Option ℕ
  | .fin q => if q < 0 then none else some ⌊q⌋₊
  | _ => none

def finiteNum : Option Number → Option Number
  | some (.fin q) => some (.fin q)
  | _ => none

/-- The ledger of one order: its total, the events it knows and what it refused. -/
structure CumulativeFillLedger where
  clientOrderId : String
  requested : ℕ
  cumulativeQty : ℕ
  avgPrice : Option Number
  overfillQty : ℕ
  appliedCount : ℕ
  duplicateCount : ℕ
  staleCount : ℕ
  regressionCount : ℕ
  highestSequence : Option Number
  lastSourceSeen : Option FillEventSource
  firstFillMono : Option Number
  lastFillMono : Option Number
  firstFillWall : Option Number
  lastFillWall : Option Number
  seenEventIds : List String
  deriving DecidableEq

namespace CumulativeFillLedger

def new (clientOrderId : String) (requestedQty : Number) : CumulativeFillLedger where
  clientOrderId
  requested := (wholeQuantity requestedQty).getD 0
  cumulativeQty := 0
  avgPrice := none
  overfillQty := 0
  appliedCount := 0
  duplicateCount := 0
  staleCount := 0
  regressionCount := 0
  highestSequence := none
  lastSourceSeen := none
  firstFillMono := none
  lastFillMono := none
  firstFillWall := none
  lastFillWall := none
  seenEventIds := []

variable (l : CumulativeFillLedger)

def remaining : ℕ := l.requested - l.cumulativeQty

def result (outcome : FillApplyOutcome) (delta : ℕ) (sequenceRegression : Bool) : FillApplyResult where
  outcome
  delta
  cumulative := l.cumulativeQty
  remaining := l.remaining
  averagePrice := l.avgPrice
  overfill := l.overfillQty
  sequenceRegression

/-- The empty id stands for none and is not remembered. -/
def remember (id : String) : CumulativeFillLedger :=
  if id = "" then l else { l with seenEventIds := id :: l.seenEventIds }

/-- The highest sequence so far; one that is not higher is told as a regression. -/
def noteSequence (sequence : Option Number) : CumulativeFillLedger × Bool :=
  match finiteNum sequence with
  | none => (l, false)
  | some n =>
    if l.highestSequence.any fun highest => n ≤ highest then
      ({ l with regressionCount := l.regressionCount + 1 }, true)
    else ({ l with highestSequence := some n }, false)

def advance (event : CumulativeFillEvent) (observed : ℕ) : CumulativeFillLedger :=
  let mono := finiteNum event.observedAtMono
  let wall := finiteNum event.observedAtWall
  let priced := (finiteNum event.averagePrice).filter fun p => Number.fin 0 < p
  { l with
    cumulativeQty := observed
    appliedCount := l.appliedCount + 1
    lastSourceSeen := some event.source
    avgPrice := priced.or l.avgPrice
    firstFillMono := l.firstFillMono.or mono
    lastFillMono := mono.or l.lastFillMono
    firstFillWall := l.firstFillWall.or wall
    lastFillWall := wall.or l.lastFillWall
    overfillQty := observed - l.requested }

/-- An unusable quantity first, then a known event, then a total that is no higher, and only then an advance. -/
def apply (event : CumulativeFillEvent) : CumulativeFillLedger × FillApplyResult :=
  match wholeQuantity event.cumulativeQty with
  | none => (l, l.result .invalid 0 false)
  | some observed =>
    let id := trimKey event.eventId
    if id ≠ "" ∧ id ∈ l.seenEventIds then
      let l := { l with duplicateCount := l.duplicateCount + 1 }
      (l, l.result .duplicateEvent 0 false)
    else
      let (l, regression) := (l.remember id).noteSequence event.sequence
      if observed ≤ l.cumulativeQty then
        let l := { l with staleCount := l.staleCount + 1 }
        (l, l.result .staleCumulative 0 regression)
      else
        let delta := observed - l.cumulativeQty
        let l := l.advance event observed
        (l, l.result (if 0 < l.overfillQty then .appliedOverfill else .applied) delta regression)

end CumulativeFillLedger

end BoxEngine
