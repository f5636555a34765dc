import BoxEngine.Lib.Number

/-!
# Broker orders

The cached projection of one broker order, its fills, and the marker of which execution fields the
broker actually supplied.
-/

namespace BoxEngine

open Js

inductive BrokerOrderState where
  | created
  | submitting
  | acknowledged
  | «open»
  | partiallyFilled
  | complete
  | cancelRequested
  | cancelled
  | rejected
  | unknown
  | reconciliationRequired
  deriving DecidableEq

def BrokerOrderState.label : BrokerOrderState → String
  | .created => "CREATED"
  | .submitting => "SUBMITTING"
  | .acknowledged => "ACKNOWLEDGED"
  | .open => "OPEN"
  | .partiallyFilled => "PARTIALLY_FILLED"
  | .complete => "COMPLETE"
  | .cancelRequested => "CANCEL_REQUESTED"
  | .cancelled => "CANCELLED"
  | .rejected => "REJECTED"
  | .unknown => "UNKNOWN"
  | .reconciliationRequired => "RECONCILIATION_REQUIRED"

inductive BrokerRejectFamily where
  | margin | priceBand | instrumentUnavailable | marketClosed | rateLimit | rms | quantityFreeze | auth | generic
  deriving DecidableEq

inductive BoxLegRole where
  | k1Ce | k2Ce | k2Pe | k1Pe
  deriving DecidableEq

inductive OrderSide where
  | buy | sell
  deriving DecidableEq

inductive BoxOrderPurpose where
  | entry | exit | emergencyResidual | protectiveCancel
  deriving DecidableEq

inductive BoxOrderPhase where
  | entry | exit | unwind
  deriving DecidableEq

structure BrokerFill where
  fillId : String
  quantity : Number
  price : Option Number
  «at» : Number
  deriving DecidableEq

/-- The reference, its tick, how far it may chase, and the limit. -/
structure BrokerLimitPricing where
  referencePrice : Number
  tickSize : Number
  maxChaseTicks : Number
  limitPrice : Number
  deriving DecidableEq

inductive QuantityEvidence where
  | confirmed | missing
  deriving DecidableEq

inductive PriceEvidence where
  | confirmed | missing | notApplicable
  deriving DecidableEq

inductive AccountingEvidence where
  | complete | pendingPrice | unproven
  deriving DecidableEq

/-- Which fields of an execution the broker supplied itself. -/
structure ExecutionEvidenceQuality where
  quantity : QuantityEvidence
  price : PriceEvidence
  accounting : AccountingEvidence
  deriving DecidableEq

/-- An order as the engine caches it. -/
structure BrokerOrder where
  clientOrderId : String
  brokerOrderId : Option String
  tag : Option String
  role : BoxLegRole
  tradeId : Option String
  attemptId : String
  purpose : BoxOrderPurpose
  phase : BoxOrderPhase
  exchange : String
  tradingsymbol : String
  token : Number
  side : OrderSide
  quantity : Number
  pricing : BrokerLimitPricing
  limitPrice : Number
  state : BrokerOrderState
  filledQuantity : Number
  pendingQuantity : Number
  averagePrice : Option Number
  fills : List BrokerFill
  executionEvidence : Option ExecutionEvidenceQuality
  rejectFamily : Option BrokerRejectFamily
  rejectReason : Option String
  createdAt : Number
  updatedAt : Number
  exchangeUpdatedAt : Option Number
  deriving DecidableEq

/-- An order of one leg with plain values. -/
def legOrder (state : BrokerOrderState) (quantity filled : ℚ) (averagePrice : Option Number) : BrokerOrder where
  clientOrderId := "C1"
  brokerOrderId := some "B1"
  tag := none
  role := .k1Ce
  tradeId := some "t1"
  attemptId := "a1"
  purpose := .entry
  phase := .entry
  exchange := "NFO"
  tradingsymbol := "NIFTY26SEP19900CE"
  token := .fin 1001
  side := .buy
  quantity := .fin quantity
  pricing := { referencePrice := .fin 10, tickSize := .fin (1 / 20), maxChaseTicks := .fin 0, limitPrice := .fin 10 }
  limitPrice := .fin 10
  state
  filledQuantity := .fin filled
  pendingQuantity := .fin (max 0 (quantity - filled))
  averagePrice
  fills := []
  executionEvidence := none
  rejectFamily := none
  rejectReason := none
  createdAt := .fin 1
  updatedAt := .fin 1
  exchangeUpdatedAt := none

/-- The states after which nothing more fills. -/
def isBrokerOrderTerminal (state : BrokerOrderState) : Bool :=
  state = .complete || state = .cancelled || state = .rejected

end BoxEngine
