import BoxEngine.FillLedger
import BoxEngine.Lib.Index

/-!
# The order-update projection

Stream events and REST snapshots are both attributed to a registered order and funnelled into that
order's one ledger. The projection also keeps the order stream's own health.
-/

namespace BoxEngine

open Js

/-! ## Orders and observations -/

/-- An order the engine expects events for. -/
structure RegisteredOrder where
  clientOrderId : String
  requestedQty : Number
  ownerTag : String
  brokerOrderId : Option String
  account : Option String

/-- What a broker reported of an order, in the engine's words. -/
structure NormalizedOrderObservation where
  ownerTag : String
  brokerOrderId : Option String
  account : Option String
  cumulativeQty : Number
  quantityPresent : Option Bool
  averagePrice : Option Number
  rawStatus : Option String
  eventId : Option String
  sequence : Option Number
  source : FillEventSource
  observedAtMono : Option Number
  observedAtWall : Option Number

namespace NormalizedOrderObservation

variable (obs : NormalizedOrderObservation)

def quantityAbsent : Bool := obs.quantityPresent = some false

def malformed : Bool := (wholeQuantity obs.cumulativeQty).isNone

def toFillEvent : CumulativeFillEvent where
  cumulativeQty := obs.cumulativeQty
  averagePrice := obs.averagePrice
  eventId := obs.eventId
  sequence := obs.sequence
  observedAtMono := obs.observedAtMono
  observedAtWall := obs.observedAtWall
  source := obs.source

end NormalizedOrderObservation

inductive IngestRejection where
  | unowned
  | foreignAccount
  | malformed
  deriving DecidableEq

inductive IngestEvidence where
  | confirmed
  | absent
  deriving DecidableEq

structure IngestResult where
  attributed : Bool
  clientOrderId : Option String
  apply : Option FillApplyResult
  rejection : Option IngestRejection
  quantityEvidence : IngestEvidence
  source : FillEventSource

inductive OrderStreamState where
  | disabled
  | down
  | connecting
  | live
  | degraded
  | reconnectedPendingReconcile
  | authExpired
  deriving DecidableEq

/-- The ledgers of the registered orders, their owners and the stream's health. -/
structure OrderUpdateProjection where
  ledgers : String → Option CumulativeFillLedger
  byOwnerTag : Index
  byBrokerOrderId : Index
  accountOf : String → Option String
  streamState : OrderStreamState
  streamConnected : Bool
  streamAuthorised : Bool
  lastEventAtWall : Option Number
  disconnectCount : ℕ
  reconcileOwed : Bool
  unownedCount : ℕ
  foreignAccountCount : ℕ
  absentQuantityCount : ℕ
  unverifiedAccountCount : ℕ

namespace OrderUpdateProjection

def new : OrderUpdateProjection where
  ledgers _ := none
  byOwnerTag _ := none
  byBrokerOrderId _ := none
  accountOf _ := none
  streamState := .disabled
  streamConnected := false
  streamAuthorised := false
  lastEventAtWall := none
  disconnectCount := 0
  reconcileOwed := false
  unownedCount := 0
  foreignAccountCount := 0
  absentQuantityCount := 0
  unverifiedAccountCount := 0

/-! ## Attribution -/

/-- The latest owner named for a broker id is the one it resolves to. -/
def learnBrokerOrderId (p : OrderUpdateProjection) (clientOrderId : String) (brokerOrderId : Option String) :
    OrderUpdateProjection :=
  { p with byBrokerOrderId := p.byBrokerOrderId.set (trimKey brokerOrderId) clientOrderId }

def register (p : OrderUpdateProjection) (order : RegisteredOrder) : OrderUpdateProjection :=
  let ledger := (p.ledgers order.clientOrderId).getD (.new order.clientOrderId order.requestedQty)
  let p := { p with
    ledgers := Function.update p.ledgers order.clientOrderId (some ledger)
    byOwnerTag := p.byOwnerTag.set (trim order.ownerTag) order.clientOrderId
    accountOf := Function.update p.accountOf order.clientOrderId order.account }
  p.learnBrokerOrderId order.clientOrderId order.brokerOrderId

variable (p : OrderUpdateProjection) (c : String) (order : RegisteredOrder) (given : Option String)

@[simp] theorem learnBrokerOrderId_byBrokerOrderId :
    (p.learnBrokerOrderId c given).byBrokerOrderId = p.byBrokerOrderId.set (trimKey given) c := by
  simp only [learnBrokerOrderId]

@[simp] theorem learnBrokerOrderId_byOwnerTag : (p.learnBrokerOrderId c given).byOwnerTag = p.byOwnerTag := by
  simp only [learnBrokerOrderId]

@[simp] theorem learnBrokerOrderId_accountOf : (p.learnBrokerOrderId c given).accountOf = p.accountOf := by
  simp only [learnBrokerOrderId]

@[simp] theorem learnBrokerOrderId_ledgers : (p.learnBrokerOrderId c given).ledgers = p.ledgers := by
  simp only [learnBrokerOrderId]

@[simp] theorem register_byOwnerTag :
    (p.register order).byOwnerTag = p.byOwnerTag.set (trim order.ownerTag) order.clientOrderId := by
  simp only [register, learnBrokerOrderId]

@[simp] theorem register_byBrokerOrderId :
    (p.register order).byBrokerOrderId =
      p.byBrokerOrderId.set (trimKey order.brokerOrderId) order.clientOrderId := by
  simp only [register, learnBrokerOrderId]

@[simp] theorem register_accountOf :
    (p.register order).accountOf = Function.update p.accountOf order.clientOrderId order.account := by
  simp only [register, learnBrokerOrderId]

variable (p : OrderUpdateProjection)
variable (obs : NormalizedOrderObservation)

/-- By owner tag, then by broker id. -/
def resolveOwner : Option String :=
  (p.byOwnerTag.get (trim obs.ownerTag)).or (p.byBrokerOrderId.get (trimKey obs.brokerOrderId))

/-- An owner registered for another account takes nothing from this one. -/
def namesForeignAccount (clientOrderId : String) : Bool :=
  (p.accountOf clientOrderId).any fun expected =>
    trimKey obs.account ≠ "" ∧ trimKey obs.account ≠ expected

def noteDelivery : OrderUpdateProjection :=
  if obs.source = .orderUpdate ∨ obs.source = .postback then
    { p with lastEventAtWall := (finiteNum obs.observedAtWall).or p.lastEventAtWall }
  else p

variable (obs : NormalizedOrderObservation)

def evidence : IngestEvidence :=
  if obs.quantityAbsent then .absent else .confirmed

def rejected (clientOrderId : Option String) (rejection : IngestRejection) : IngestResult where
  attributed := false
  clientOrderId
  apply := none
  rejection := some rejection
  quantityEvidence := evidence obs
  source := obs.source

def accepted (clientOrderId : String) (apply : Option FillApplyResult) : IngestResult where
  attributed := true
  clientOrderId := some clientOrderId
  apply
  rejection := none
  quantityEvidence := evidence obs
  source := obs.source

variable (obs : NormalizedOrderObservation)

def deliver (clientOrderId : String) : OrderUpdateProjection × IngestResult :=
  match p.ledgers clientOrderId with
  | none => ({ p with unownedCount := p.unownedCount + 1 }, rejected obs (some clientOrderId) .unowned)
  | some ledger =>
    if obs.quantityAbsent then
      -- Nothing is applied: the placeholder quantity must not be read as a confirmed zero.
      ({ p with absentQuantityCount := p.absentQuantityCount + 1 }, accepted obs clientOrderId none)
    else
      let (ledger, apply) := ledger.apply obs.toFillEvent
      ({ p with ledgers := Function.update p.ledgers clientOrderId (some ledger) },
        accepted obs clientOrderId (some apply))

def noteUnverified (clientOrderId : String) : OrderUpdateProjection :=
  if p.accountOf clientOrderId = none ∨ trimKey obs.account = "" then
    { p with unverifiedAccountCount := p.unverifiedAccountCount + 1 }
  else p

/-- An observation is attributed first, then its account is checked, then its quantity. -/
def ingest : OrderUpdateProjection × IngestResult :=
  let p := p.noteDelivery obs
  if obs.malformed then (p, rejected obs none .malformed)
  else match p.resolveOwner obs with
    | none => ({ p with unownedCount := p.unownedCount + 1 }, rejected obs none .unowned)
    | some clientOrderId =>
      if p.namesForeignAccount obs clientOrderId then
        ({ p with foreignAccountCount := p.foreignAccountCount + 1 },
          rejected obs (some clientOrderId) .foreignAccount)
      else
        ((p.noteUnverified obs clientOrderId).learnBrokerOrderId clientOrderId obs.brokerOrderId).deliver obs
          clientOrderId

/-! ## Order-stream health -/

def describeStream : String :=
  match p.streamState with
  | .disabled => "Order-update stream disabled — fills are observed by REST polling only."
  | .down => "Order-update stream is down — REST polling remains the source of truth."
  | .connecting => "Connecting to the order-update stream…"
  | .live => "Order-update stream live — fills observed here first, REST reconciles."
  | .degraded =>
    "Order-update stream connected but NOT delivering (no event within the expected idle " ++
      "bound while a fill is expected) — REST polling is observing fills. New entry is paused; " ++
      "exit, reduction and protective cancel continue."
  | .reconnectedPendingReconcile =>
    "Order-update stream reconnected — a REST reconciliation is owed before it is trusted."
  | .authExpired =>
    "The session behind the order-update stream was rejected or expired — reconnecting with " ++
      "it is pointless. REST polling observes fills; the broker will refuse all but a cancel."

def setStreamEnabled (enabled : Bool) : OrderUpdateProjection :=
  if enabled then
    if p.streamState = .disabled then { p with streamState := .down } else p
  else { p with streamState := .disabled, streamConnected := false, streamAuthorised := false }

def onStreamConnecting : OrderUpdateProjection :=
  if p.streamState = .disabled then p else { p with streamConnected := false, streamState := .connecting }

def onStreamConnected (authorised reconnect : Bool) : OrderUpdateProjection :=
  if p.streamState = .disabled then p
  else if reconnect then
    { p with
      streamConnected := true
      streamAuthorised := authorised
      reconcileOwed := true
      streamState := .reconnectedPendingReconcile }
  else { p with streamConnected := true, streamAuthorised := authorised, streamState := .live }

def onStreamIdle : OrderUpdateProjection :=
  if p.streamState = .live ∨ p.streamState = .reconnectedPendingReconcile then { p with streamState := .degraded }
  else p

def onStreamSessionLost : OrderUpdateProjection :=
  if p.streamState = .disabled then p
  else
    { p with streamConnected := false, streamAuthorised := false, reconcileOwed := true, streamState := .authExpired }

/-- What was missed from here on only REST can show. -/
def onStreamDisconnected : OrderUpdateProjection :=
  if p.streamState = .disabled then p
  else
    { p with
      streamConnected := false
      streamAuthorised := false
      disconnectCount := p.disconnectCount + 1
      reconcileOwed := true
      streamState := .down }

def markReconciled : OrderUpdateProjection :=
  if p.streamState = .disabled then p
  else
    { p with reconcileOwed := false, streamState := if p.streamConnected then .live else p.streamState }

end OrderUpdateProjection

end BoxEngine
