import BoxEngine.Consumer
import BoxEngine.Lib.Run
import BoxEngine.OrderPricing

/-!
# The Dhan broker adapter

What one reading of an order proves, and the session with its indexes. Every observation is committed through the
merge. A submission stops where it awaits the POST; its later reads are observations like any other.
-/

namespace BoxEngine.DhanAdapter

open Js

/-! ## Execution evidence

A raw field is what `Number` makes of it; nothing where it is missing, empty or a boolean. -/

def readNonNegativeInteger (candidate : Option Number) : Option Number :=
  candidate.filter fun n => n.isInteger && decide (.fin 0 ≤ n)

def readPositivePrice (candidate : Option Number) : Option Number :=
  candidate.filter fun n => n.isFinite && decide (.fin 0 < n)

structure ExecutionEvidenceVerdict where
  sufficient : Bool
  filledQuantity : ℚ
  averagePrice : Option Number
  accountingComplete : Bool
  quality : ExecutionEvidenceQuality
  detail : Option String

def freezesAccounting (state : BrokerOrderState) : Bool :=
  isBrokerOrderTerminal state || state = .partiallyFilled

/-- A missing quantity is not a zero, and a quantity once observed can only grow. -/
def evaluateExecutionEvidence (statusLabel : String) (claimedState : BrokerOrderState) (priorFilled : Number)
    (quantity price : Option Number) : ExecutionEvidenceVerdict :=
  let prior := safeCumulative priorFilled
  let priceEvidence : PriceEvidence := if price.isSome then .confirmed else .missing
  match quantity with
  | none =>
    if freezesAccounting claimedState then
      { sufficient := false, filledQuantity := prior, averagePrice := price, accountingComplete := false
        quality := ⟨.missing, priceEvidence, .unproven⟩
        detail := some (s!"broker reported '{statusLabel}' with no cumulative filled quantity; " ++
          "the execution is unproven and must be reconciled before it is accounted for") }
    else
      { sufficient := true, filledQuantity := prior, averagePrice := price, accountingComplete := true
        quality := ⟨.missing, if 0 < prior then priceEvidence else .notApplicable,
          if 0 < prior ∧ price = none then .pendingPrice else .complete⟩
        detail := none }
  | some observed =>
    let filled := max prior observed.value
    let regressed := if observed.value < prior then
      some "a later read reported a lower cumulative quantity; the higher observation stands" else none
    let filledText := (Number.fin filled).toText
    if filled = 0 then
      { sufficient := true, filledQuantity := 0, averagePrice := none, accountingComplete := true
        quality := ⟨.confirmed, .notApplicable, .complete⟩, detail := regressed }
    else
      { sufficient := true, filledQuantity := filled, averagePrice := price, accountingComplete := price.isSome
        quality := ⟨.confirmed, priceEvidence, if price.isSome then .complete else .pendingPrice⟩
        detail := if price.isSome then regressed else
          some (s!"broker confirmed {filledText} filled but published no average price; exposure stands, " ++
            "P&L and charges must not be asserted until the price is reconciled") }

/-! ## Dhan's orders -/

structure DhanOrder where
  orderId : String
  correlationId : Option String
  orderStatus : String
  transactionType : OrderSide
  exchangeSegment : String
  tradingSymbol : String
  securityId : Number
  quantity : Number
  price : Number
  remainingQuantity : Option Number
  averageTradedPrice : Option Number
  filledQty : Option Number
  omsErrorCode : Option String
  omsErrorDescription : Option String
  updateTime : Option String
  exchangeTime : Option String

structure DhanTrade where
  exchangeTradeId : Option String
  tradedQuantity : Number
  tradedPrice : Option Number

/-- What the adapter asks of its surroundings: `clean` trims a label and puts it in upper case. -/
structure DhanDeps where
  clean : String → String
  correlationFor : String → String
  classifyDhanReject : Option String → Option String → BrokerRejectFamily
  parseIstBrokerTimestamp : Option String → Option Number

def numberOr (value : Number) (fallback : Number) : Number := if value.isFinite then value else fallback

def readCumulativeQuantity (remote : DhanOrder) : Option Number := readNonNegativeInteger remote.filledQty

def observedOptions (remote : DhanOrder) : BrokerOrderMergeOptions :=
  match readCumulativeQuantity remote with
  | none => .absent
  | some n => .observed n

variable (deps : DhanDeps)

/-- A partial fill can present as `PENDING`, and a label that is not known is never guessed. -/
def dhanOrderState (status : String) (filled quantity : Number) : BrokerOrderState :=
  match deps.clean status with
  | "TRANSIT" => .acknowledged
  | "PENDING" => if .fin 0 < filled ∧ filled < quantity then .partiallyFilled else .open
  | "PART_TRADED" => if quantity ≤ filled ∧ .fin 0 < quantity then .complete else .partiallyFilled
  | "TRADED" => if .fin 0 < quantity ∧ .fin 0 < filled ∧ filled < quantity then .partiallyFilled else .complete
  | "CANCELLED" | "CLOSED" => .cancelled
  | "REJECTED" => .rejected
  | "EXPIRED" => if .fin 0 < filled ∧ filled < quantity then .partiallyFilled else .cancelled
  | _ => .unknown

def projectedFills (remote : DhanOrder) (fills : List DhanTrade) (filled : ℚ) (averagePrice : Option Number)
    (now : Number) : List BrokerFill :=
  let orderId := remote.orderId
  let acc := (Number.fin filled).toText
  let priced := averagePrice.elim "unpriced" Number.toText
  match fills with
  | [] =>
    if 0 < filled then
      [{ fillId := s!"dhan:{orderId}:{acc}:{priced}", quantity := .fin filled, price := averagePrice, «at» := now }]
    else []
  | fills =>
    fills.mapIdx fun index t =>
      let quantity := t.tradedQuantity.toText
      let price := t.tradedPrice.elim "undefined" Number.toText
      { fillId := match t.exchangeTradeId.filter (· ≠ "") with
          | some id => s!"dhan:{id}"
          | none => s!"dhan:{orderId}:{index}:{quantity}:{price}"
        quantity := numberOr t.tradedQuantity (.fin 0), price := readPositivePrice t.tradedPrice, «at» := now }

/-- The label is read against the observed quantity first, and again against the accepted one. -/
def project (template : BrokerOrder) (remote : DhanOrder) (correlationId : String) (fills : List DhanTrade)
    (now : Number) : BrokerOrder :=
  let quantity := template.quantity
  let observed := readCumulativeQuantity remote
  let claimed := dhanOrderState deps remote.orderStatus (observed.getD template.filledQuantity) quantity
  let verdict := evaluateExecutionEvidence remote.orderStatus claimed template.filledQuantity observed
    (readPositivePrice remote.averageTradedPrice)
  let filled := verdict.filledQuantity
  let state :=
    if verdict.sufficient then dhanOrderState deps remote.orderStatus (.fin filled) quantity
    else .reconciliationRequired
  let unfilled := Number.max (.fin 0) (quantity.sub (.fin filled))
  { template with
    brokerOrderId := some remote.orderId
    tag := some correlationId
    tradingsymbol := if remote.tradingSymbol = "" then template.tradingsymbol else remote.tradingSymbol
    limitPrice := template.pricing.limitPrice
    state
    filledQuantity := .fin filled
    pendingQuantity := remote.remainingQuantity.elim unfilled fun remaining => numberOr remaining unfilled
    averagePrice := verdict.averagePrice
    fills := projectedFills remote fills filled verdict.averagePrice now
    executionEvidence := some verdict.quality
    rejectFamily :=
      if state = .rejected then some (deps.classifyDhanReject remote.omsErrorCode remote.omsErrorDescription) else none
    rejectReason :=
      if state = .rejected then
        (remote.omsErrorDescription.or remote.omsErrorCode).or (some "Dhan rejected the order.")
      else verdict.detail
    createdAt := now
    updatedAt := now
    exchangeUpdatedAt := deps.parseIstBrokerTimestamp (remote.exchangeTime.or remote.updateTime) }

/-- An order of the account that the engine never registered, as it is shown to the operator. -/
def orphanOrder (order : DhanOrder) (now : Number) : BrokerOrder :=
  let orderId := order.orderId
  let quantity := numberOr order.quantity (.fin 0)
  let observed := readCumulativeQuantity order
  let claimed := dhanOrderState deps order.orderStatus (observed.getD (.fin 0)) quantity
  let verdict := evaluateExecutionEvidence order.orderStatus claimed (.fin 0) observed
    (readPositivePrice order.averageTradedPrice)
  let price := numberOr order.price (.fin 0)
  let envelope := if price = .fin 0 then .fin (1 / 20) else price
  { clientOrderId := s!"DHAN_ORPHAN:{orderId}"
    brokerOrderId := some orderId
    tag := order.correlationId
    role := .k1Ce
    tradeId := none
    attemptId := s!"dhan-orphan-{orderId}"
    purpose := .protectiveCancel
    phase := .entry
    exchange := if order.exchangeSegment = "NSE_FNO" then "NFO" else order.exchangeSegment
    tradingsymbol := order.tradingSymbol
    token := if order.securityId = .nan then .fin 0 else order.securityId
    side := order.transactionType
    quantity
    pricing := ⟨envelope, .fin (1 / 20), .fin 0, envelope⟩
    limitPrice := price
    state :=
      if verdict.sufficient then dhanOrderState deps order.orderStatus (.fin verdict.filledQuantity) quantity
      else .reconciliationRequired
    filledQuantity := .fin verdict.filledQuantity
    pendingQuantity := Number.max (.fin 0) (quantity.sub (.fin verdict.filledQuantity))
    averagePrice := verdict.averagePrice
    fills := []
    executionEvidence := some verdict.quality
    rejectFamily := none
    rejectReason := verdict.detail
    createdAt := now
    updatedAt := now
    exchangeUpdatedAt := deps.parseIstBrokerTimestamp order.updateTime }

/-! ## The session -/

structure DhanBrokerAdapter where
  orders : List BrokerOrder := []
  clientByBroker : String → Option String := fun _ => none
  clientByCorrelation : String → Option String := fun _ => none

namespace DhanBrokerAdapter

variable (s : DhanBrokerAdapter)

def order? (clientOrderId : String) : Option BrokerOrder :=
  s.orders.find? fun o => o.clientOrderId = clientOrderId

def register (brokerOrderId : Option String) (clientOrderId : String) : DhanBrokerAdapter :=
  match brokerOrderId.filter (· ≠ "") with
  | none => s
  | some id => { s with clientByBroker := Function.update s.clientByBroker id (some clientOrderId) }

def commit (candidate : BrokerOrder) (options : BrokerOrderMergeOptions) : DhanBrokerAdapter × BrokerOrderMerge :=
  let merged := mergeBrokerOrderSnapshot (s.order? candidate.clientOrderId) candidate options
  let s := { s with orders := Keyed.put BrokerOrder.clientOrderId s.orders merged.order }
  (if merged.conflict.isSome then s else s.register merged.order.brokerOrderId candidate.clientOrderId, merged)

/-- A stream update as an observation of the known order; insufficient evidence keeps the known state. -/
def streamCandidate (known : BrokerOrder) (update : ExternalOrderUpdate) : BrokerOrder :=
  let label := update.rawStatus.getD ""
  let observed := readNonNegativeInteger update.cumulativeQty
  let claimed := dhanOrderState deps label (observed.getD known.filledQuantity) known.quantity
  let verdict := evaluateExecutionEvidence label claimed known.filledQuantity observed
    (readPositivePrice update.averagePrice)
  let filled := observed.getD (.fin verdict.filledQuantity)
  let brokerOrderId := (update.brokerOrderId.filter (· ≠ "")).or known.brokerOrderId
  let owner := brokerOrderId.getD update.clientOrderId
  let acc := filled.toText
  let priced := verdict.averagePrice.elim "unpriced" Number.toText
  { known with
    brokerOrderId
    filledQuantity := filled
    pendingQuantity := Number.max (.fin 0) (known.quantity.sub filled)
    averagePrice := verdict.averagePrice
    executionEvidence := some verdict.quality
    state := if verdict.sufficient then dhanOrderState deps label filled known.quantity else known.state
    rejectReason := if verdict.sufficient then known.rejectReason else verdict.detail
    fills := if .fin 0 < filled then
        [{ fillId := s!"dhan:stream:{owner}:{acc}:{priced}", quantity := filled, price := verdict.averagePrice
           «at» := update.observedAtWall }]
      else []
    updatedAt := update.observedAtWall }

def streamMerge (known : BrokerOrder) (update : ExternalOrderUpdate) : BrokerOrderMerge :=
  mergeBrokerOrderSnapshot (some known) (streamCandidate deps known update)
    ((readNonNegativeInteger update.cumulativeQty).elim .absent .observed)

/-- An update whose quantity went back and that moves nothing else is ignored. -/
def applyOrderUpdate (update : ExternalOrderUpdate) : DhanBrokerAdapter :=
  match s.order? update.clientOrderId with
  | none => s
  | some known =>
    let merged := streamMerge deps known update
    let regressed := ∃ n ∈ readNonNegativeInteger update.cumulativeQty, n < known.filledQuantity
    if regressed ∧ merged.order.state = known.state ∧ merged.order.filledQuantity = known.filledQuantity then s
    else
      { s with orders := Keyed.put BrokerOrder.clientOrderId s.orders merged.order }.register
        merged.order.brokerOrderId update.clientOrderId

/-- A reading of one order after the awaits; the template stands in for an order that was forgotten meanwhile. -/
def observe (template : BrokerOrder) (remote : DhanOrder) (correlationId : Option String)
    (fills : List DhanTrade) (now : Number) : DhanBrokerAdapter × BrokerOrderMerge :=
  let current := (s.order? template.clientOrderId).getD template
  let correlation := (correlationId.or current.tag).getD (deps.correlationFor template.clientOrderId)
  s.commit (project deps current remote correlation fills now) (observedOptions remote)

/-- The cached order a remote one is taken for. An empty correlation id is an answer of its own. -/
def known? (order : DhanOrder) : Option BrokerOrder :=
  let clientId := match order.correlationId with
    | none => s.clientByBroker order.orderId
    | some "" => some ""
    | some correlation => (s.clientByCorrelation correlation).or (s.clientByBroker order.orderId)
  (clientId.filter (· ≠ "")).bind s.order?

def listOne (now : Number) (s : DhanBrokerAdapter) (order : DhanOrder) : DhanBrokerAdapter × BrokerOrder :=
  match s.known? order with
  | some known =>
    let committed := s.commit (project deps known order (known.tag.getD "") [] now) (observedOptions order)
    (committed.1, committed.2.order)
  | none => (s, orphanOrder deps order now)

def listOrders (now : Number) (s : DhanBrokerAdapter) (remote : List DhanOrder) :
    DhanBrokerAdapter × List BrokerOrder :=
  (Run.finish (listOne deps now) s remote, Run.answers (listOne deps now) s remote)

def submitOrder (ceilings : Option BoundedLimitCeilings) (req : BrokerOrderRequest)
    (now : Number) : DhanBrokerAdapter :=
  match assertBoundedLimit req ceilings, s.order? req.clientOrderId with
  | .ok (), none =>
    let correlationId := deps.correlationFor req.clientOrderId
    { s with
      orders := Keyed.put BrokerOrder.clientOrderId s.orders
        { fromRequest req (some correlationId) now with state := .submitting }
      clientByCorrelation := Function.update s.clientByCorrelation correlationId (some req.clientOrderId) }
  | _, _ => s

def refuse (clientOrderId : String) : DhanBrokerAdapter :=
  { s with
    orders := s.orders.filter fun o => o.clientOrderId ≠ clientOrderId
    clientByCorrelation := Function.update s.clientByCorrelation (deps.correlationFor clientOrderId) none }

/-- The POST's order id is written into the cached order, or the submitted one if that is gone. -/
def place (clientOrderId orderId : String) (replaced : Bool) (now : Number) : DhanBrokerAdapter :=
  let s := { s with clientByBroker := Function.update s.clientByBroker orderId (some clientOrderId) }
  match s.order? clientOrderId with
  | none => s
  | some order =>
    if replaced then s
    else
      let placed := { order with brokerOrderId := some orderId, updatedAt := now }
      { s with orders := Keyed.put BrokerOrder.clientOrderId s.orders placed }

/-- The identity checks are those of the durable intent, field by field. -/
def adoptOrder (intent : BoxOrderIntent) (brokerCorrelationId : Option String)
    (snapshot : BrokerOrder) : DhanBrokerAdapter :=
  let truthy := Option.filter (fun id : String => decide (id ≠ ""))
  let mismatched := ∃ a ∈ truthy intent.brokerOrderId, ∃ b ∈ truthy snapshot.brokerOrderId, a ≠ b
  let different := snapshot.exchange ≠ intent.exchange ∨ snapshot.tradingsymbol ≠ intent.tradingsymbol ∨
    snapshot.side ≠ intent.side ∨ snapshot.quantity = .nan ∨ snapshot.quantity ≠ intent.quantity
  let attributed := (truthy snapshot.brokerOrderId).bind s.clientByBroker
  if mismatched ∨ different ∨ ∃ client ∈ truthy attributed, client ≠ intent.clientOrderId then s
  else
    let correlation := brokerCorrelationId.getD (deps.correlationFor intent.clientOrderId)
    let adopted := { snapshot with
      clientOrderId := intent.clientOrderId
      tag := some correlation
      pricing := ⟨intent.referencePrice, intent.tickSize, intent.maxChaseTicks, intent.limitPrice⟩
      limitPrice := intent.limitPrice }
    let byCorrelation := Function.update s.clientByCorrelation correlation (some intent.clientOrderId)
    ({ s with clientByCorrelation := byCorrelation }.commit adopted .omitted).1

end DhanBrokerAdapter

/-- Rejection, quarantine, acknowledgement, cancel request and modification each commit an order of their own making.
-/
inductive DhanEvent where
  | submitted (ceilings : Option BoundedLimitCeilings) (req : BrokerOrderRequest) (now : Number)
  | refused (clientOrderId : String)
  | placed (clientOrderId orderId : String) (replaced : Bool) (now : Number)
  | committed (candidate : BrokerOrder)
  | observed (template : BrokerOrder) (remote : DhanOrder) (correlationId : Option String) (fills : List DhanTrade)
      (now : Number)
  | streamed (update : ExternalOrderUpdate)
  | listed (remote : List DhanOrder) (now : Number)
  | adopted (intent : BoxOrderIntent) (brokerCorrelationId : Option String) (snapshot : BrokerOrder)

def DhanBrokerAdapter.step (s : DhanBrokerAdapter) : DhanEvent → DhanBrokerAdapter × Unit
  | .submitted ceilings req now => (s.submitOrder deps ceilings req now, ())
  | .refused clientOrderId => (s.refuse deps clientOrderId, ())
  | .placed clientOrderId orderId replaced now => (s.place clientOrderId orderId replaced now, ())
  | .committed candidate => ((s.commit candidate .omitted).1, ())
  | .observed template remote correlationId fills now =>
    ((s.observe deps template remote correlationId fills now).1, ())
  | .streamed update => (s.applyOrderUpdate deps update, ())
  | .listed remote now => ((s.listOrders deps now remote).1, ())
  | .adopted intent brokerCorrelationId snapshot => (s.adoptOrder deps intent brokerCorrelationId snapshot, ())

end BoxEngine.DhanAdapter
