import BoxEngine.OrderRequest

/-!
# Durable order intents

The row of the journal that stands for one client order id, written before anything is sent.
-/

namespace BoxEngine

open Js

structure AuditPayload where
  origin : Option String
  noBrokerPost : Bool
  stage : Option String

/-- One step of an intent's history. -/
structure BoxOrderIntentAudit where
  auditId : String
  «at» : Number
  fromState : Option BrokerOrderState
  toState : BrokerOrderState
  brokerOrderId : Option String
  message : Option String
  fillIdentity : Option String
  payload : Option AuditPayload

/-- The journal row of one order. -/
structure BoxOrderIntent where
  clientOrderId : String
  brokerOrderId : Option String
  brokerAccount : Option String
  tradeId : Option String
  attemptId : String
  role : BoxLegRole
  purpose : BoxOrderPurpose
  phase : BoxOrderPhase
  exchange : String
  tradingsymbol : String
  token : Number
  side : OrderSide
  quantity : Number
  referencePrice : Number
  tickSize : Number
  maxChaseTicks : Number
  limitPrice : Number
  state : BrokerOrderState
  filledQuantity : Number
  previousFilledQuantity : Option Number
  averagePrice : Option Number
  brokerTag : Option String
  rejectFamily : Option BrokerRejectFamily
  rejectReason : Option String
  createdAt : Number
  updatedAt : Number
  terminalAt : Option Number
  audit : List BoxOrderIntentAudit

/-- The order a row stands for when the broker shows none. -/
def brokerOrderFromDurableIntent (intent : BoxOrderIntent) : BrokerOrder where
  clientOrderId := intent.clientOrderId
  brokerOrderId := intent.brokerOrderId
  tag := intent.brokerTag
  role := intent.role
  tradeId := intent.tradeId
  attemptId := intent.attemptId
  purpose := intent.purpose
  phase := intent.phase
  exchange := intent.exchange
  tradingsymbol := intent.tradingsymbol
  token := intent.token
  side := intent.side
  quantity := intent.quantity
  pricing := ⟨intent.referencePrice, intent.tickSize, intent.maxChaseTicks, intent.limitPrice⟩
  limitPrice := intent.limitPrice
  state := intent.state
  filledQuantity := intent.filledQuantity
  pendingQuantity := (Number.fin 0).max (intent.quantity.sub intent.filledQuantity)
  averagePrice := intent.averagePrice
  fills := []
  executionEvidence := none
  rejectFamily := intent.rejectFamily
  rejectReason := intent.rejectReason
  createdAt := intent.createdAt
  updatedAt := intent.updatedAt
  exchangeUpdatedAt := none

def BoxOrderIntentAudit.noPost (event : BoxOrderIntentAudit) : Bool :=
  event.toState = .rejected && event.payload.any fun payload =>
    payload.origin = some "local_pre_submit_refusal" && payload.noBrokerPost &&
      (payload.stage = some "dequeue" || payload.stage = some "post_persist" || payload.stage = some "pre_post")

/-- A rejected row without fills whose history says that nothing was posted. -/
def hasDurableLocalNoPostProvenance (intent : BoxOrderIntent) : Bool :=
  intent.state = .rejected && intent.filledQuantity = .fin 0 && intent.brokerOrderId.isNone &&
    intent.audit.any BoxOrderIntentAudit.noPost

def legIntent (state : BrokerOrderState) (role : BoxLegRole) (side : OrderSide) (quantity filled : ℚ) : BoxOrderIntent where
  clientOrderId := "C1"
  brokerOrderId := some "B1"
  brokerAccount := none
  tradeId := some "T1"
  attemptId := "a1"
  role
  purpose := .emergencyResidual
  phase := .unwind
  exchange := "NFO"
  tradingsymbol := "NIFTY26SEP20000CE"
  token := .fin 1002
  side
  quantity := .fin quantity
  referencePrice := .fin 10
  tickSize := .fin (1 / 20)
  maxChaseTicks := .fin 4
  limitPrice := .fin 10
  state
  filledQuantity := .fin filled
  previousFilledQuantity := none
  averagePrice := none
  brokerTag := none
  rejectFamily := none
  rejectReason := none
  createdAt := .fin 1
  updatedAt := .fin 1
  terminalAt := none
  audit := []

end BoxEngine
