import BoxEngine.Order
import BoxEngine.Projection
import BoxEngine.StreamMachine
import Mathlib.Data.Finset.Erase
import Mathlib.Data.Finset.Insert

/-!
# The order-stream consumer

An observation is attributed and deduplicated, then handed to the adapter when it says something new. The clock and
the adapter's answers are inputs of each call.
-/

namespace BoxEngine

open Js

/-! ## State -/

structure OrderStreamConsumerOptions where
  adapter : Bool
  streamEnabled : Bool
  restReconcile : Bool
  reconcileSweep : Bool
  reconcileRetryBaseMs : Option Number
  reconcileRetryMaxMs : Option Number
  expectedIdleMs : Option Number

structure ForwardedMemo where
  status : Option String
  price : Option Number
  terminal : Bool

structure Sweep where
  id : ℕ
  generation : ℕ
  settled : Bool

structure OrderStreamConsumer where
  opts : OrderStreamConsumerOptions
  proj : OrderUpdateProjection
  machine : OrderStreamStateMachine
  pendingReconciliations : Finset String
  workingOrders : Finset String
  lastStreamEventAtWall : Option Number
  expectedIdleMs : Number
  lastForwarded : String → Option ForwardedMemo
  sweeps : List Sweep
  sweepsStarted : ℕ
  sweepInFlight : Option ℕ
  sweepInFlightGeneration : Option ℕ
  sweepAttempts : ℕ
  nextSweepNotBeforeWall : Option Number
  lastSweepFailure : Option String

structure RegisterIntentArgs where
  clientOrderId : String
  ownerTag : String
  account : Option (Option String)
  requestedQty : Number
  brokerOrderId : Option String

structure ExternalOrderUpdate where
  clientOrderId : String
  brokerOrderId : Option String
  cumulativeQty : Option Number
  averagePrice : Option Number
  rawStatus : Option String
  observedAtWall : Number

inductive AdapterReply where
  | threw
  | returned (state : Option BrokerOrderState)
  deriving DecidableEq

structure NonQuantityChange where
  statusChanged : Bool
  priceChanged : Bool
  contradictsTerminal : Bool

structure IngestOutput where
  result : IngestResult
  forwarded : Option ExternalOrderUpdate

namespace OrderStreamConsumer

def new (opts : OrderStreamConsumerOptions) : OrderStreamConsumer where
  opts
  proj := OrderUpdateProjection.new.setStreamEnabled opts.streamEnabled
  machine := .new opts.streamEnabled
  pendingReconciliations := ∅
  workingOrders := ∅
  lastStreamEventAtWall := none
  expectedIdleMs := Number.max (.fin 0) (opts.expectedIdleMs.getD (.fin 15000))
  lastForwarded _ := none
  sweeps := []
  sweepsStarted := 0
  sweepInFlight := none
  sweepInFlightGeneration := none
  sweepAttempts := 0
  nextSweepNotBeforeWall := none
  lastSweepFailure := none

/-- The account a registration proves: an explicit null stays unproven, an omitted one is the session's. -/
def registeredOwnershipAccount (args : RegisterIntentArgs) (session : Option String) : Option String :=
  let named := trimKey (args.account.getD session)
  if named = "" then none else some named

variable (c : OrderStreamConsumer)

def registerIntent (args : RegisterIntentArgs) (session : Option String) : OrderStreamConsumer :=
  { c with
    proj := c.proj.register
      { clientOrderId := args.clientOrderId
        requestedQty := args.requestedQty
        ownerTag := args.ownerTag
        brokerOrderId := args.brokerOrderId
        account := registeredOwnershipAccount args session }
    workingOrders :=
      if Number.fin 0 < args.requestedQty then insert args.clientOrderId c.workingOrders else c.workingOrders }

def markOrderSettled (clientOrderId : String) : OrderStreamConsumer :=
  { c with workingOrders := c.workingOrders.erase clientOrderId }

def learnBrokerOrderId (clientOrderId : String) (brokerOrderId : Option String) : OrderStreamConsumer :=
  { c with proj := c.proj.learnBrokerOrderId clientOrderId brokerOrderId }

/-! ## Forwarding -/

variable (toUpperCase : String → String)

def normaliseStatusLabel (raw : Option String) : Option String :=
  raw.bind fun raw =>
    let trimmed := toUpperCase (trim raw)
    if trimmed = "" then none else some trimmed

def classifyNonQuantityChange (c : OrderStreamConsumer) (clientOrderId : String)
    (obs : NormalizedOrderObservation) : NonQuantityChange :=
  let status := normaliseStatusLabel toUpperCase obs.rawStatus
  let price := finiteNum obs.averagePrice
  match c.lastForwarded clientOrderId with
  | none => { statusChanged := status ≠ none, priceChanged := price ≠ none, contradictsTerminal := false }
  | some prior =>
    { statusChanged := status ≠ none ∧ status ≠ prior.status
      priceChanged := price ≠ none ∧ price ≠ prior.price
      contradictsTerminal := prior.terminal ∧ status ≠ none ∧ status ≠ prior.status }

def noteForwarded (c : OrderStreamConsumer) (clientOrderId : String)
    (obs : NormalizedOrderObservation) : OrderStreamConsumer :=
  let prior := c.lastForwarded clientOrderId
  { c with
    lastForwarded := Function.update c.lastForwarded clientOrderId (some
      { status := (normaliseStatusLabel toUpperCase obs.rawStatus).or (prior.bind (·.status))
        price := (finiteNum obs.averagePrice).or (prior.bind (·.price))
        -- Terminality is sticky.
        terminal := prior.any (·.terminal) }) }

def terminalOrderStates : List BrokerOrderState := [.complete, .cancelled, .rejected]

variable (clientOrderId : String)

def settleIfTerminal (merged : Option BrokerOrderState) (result : IngestResult) : OrderStreamConsumer :=
  if merged.any (· ∈ terminalOrderStates) then
    { c with
      lastForwarded := Function.update c.lastForwarded clientOrderId
        ((c.lastForwarded clientOrderId).map fun memo => { memo with terminal := true })
      workingOrders := c.workingOrders.erase clientOrderId }
  else if result.apply.any fun apply => apply.remaining = 0 then
    { c with workingOrders := c.workingOrders.erase clientOrderId }
  else c

def externalUpdate (obs : NormalizedOrderObservation) (quantityAbsent : Bool) (now : Number) :
    ExternalOrderUpdate where
  clientOrderId
  brokerOrderId := obs.brokerOrderId
  cumulativeQty := if quantityAbsent then none else some obs.cumulativeQty
  averagePrice := obs.averagePrice
  rawStatus := obs.rawStatus
  observedAtWall := obs.observedAtWall.getD now

def applyToAdapter (update : ExternalOrderUpdate) (reply : AdapterReply) :
    Option ExternalOrderUpdate × Option BrokerOrderState :=
  if c.opts.adapter then
    (some update, match reply with
      | .threw => none
      | .returned state => state)
  else (none, none)

def scheduleReconciliation : OrderStreamConsumer :=
  if c.opts.restReconcile then
    { c with pendingReconciliations := insert clientOrderId c.pendingReconciliations }
  else c

def escalateWhen (condition : Bool) (clientOrderId : String) : OrderStreamConsumer :=
  if condition then c.scheduleReconciliation clientOrderId else c

/-! ## Ingestion -/

section
variable (toUpperCase : String → String)
variable (c : OrderStreamConsumer)
variable (clientOrderId : String)

/-- Hand an observation to the adapter and note it as forwarded, whatever the adapter did. -/
def forward (obs : NormalizedOrderObservation)
    (quantityAbsent : Bool) (result : IngestResult) (now : Number) (reply : AdapterReply) :
    OrderStreamConsumer × IngestOutput :=
  let (forwarded, merged) := c.applyToAdapter (externalUpdate clientOrderId obs quantityAbsent now) reply
  ((c.noteForwarded toUpperCase clientOrderId obs).settleIfTerminal clientOrderId merged result, ⟨result, forwarded⟩)

def ingestConfirmed (obs : NormalizedOrderObservation)
    (result : IngestResult) (now : Number) (reply : AdapterReply) : OrderStreamConsumer × IngestOutput :=
  let outcome := result.apply.map (·.outcome)
  let quantityAdvanced := outcome = some .applied ∨ outcome = some .appliedOverfill
  let change := c.classifyNonQuantityChange toUpperCase clientOrderId obs
  if outcome = some .invalid then (c.scheduleReconciliation clientOrderId, ⟨result, none⟩)
  else
    let c := c.escalateWhen (outcome = some .appliedOverfill) clientOrderId
    let c := c.escalateWhen change.contradictsTerminal clientOrderId
    if outcome ≠ some .duplicateEvent ∧ (quantityAdvanced ∨ change.statusChanged ∨ change.priceChanged) then
      c.forward toUpperCase clientOrderId obs false result now reply
    else (c.settleIfTerminal clientOrderId none result, ⟨result, none⟩)

/-- An owned observation. Without a quantity it is insufficient evidence, never a zero fill. -/
def ingestOwned (obs : NormalizedOrderObservation)
    (result : IngestResult) (now : Number) (reply : AdapterReply) : OrderStreamConsumer × IngestOutput :=
  if result.quantityEvidence = .absent then
    let (c, output) := c.forward toUpperCase clientOrderId obs true result now reply
    (c.scheduleReconciliation clientOrderId, output)
  else c.ingestConfirmed toUpperCase clientOrderId obs result now reply

variable (obs : NormalizedOrderObservation)
variable (source : FillEventSource)

def stamp (now : Number) : NormalizedOrderObservation :=
  { obs with source, observedAtWall := some (obs.observedAtWall.getD now) }

def observe : OrderStreamConsumer × IngestResult :=
  let (proj, result) := c.proj.ingest obs
  let heard := (obs.source = .orderUpdate ∨ obs.source = .postback) ∧ result.attributed
  ({ c with proj, lastStreamEventAtWall := if heard then obs.observedAtWall else c.lastStreamEventAtWall }, result)

def ingest (now : Number) (reply : AdapterReply) : OrderStreamConsumer × IngestOutput :=
  let (c, result) := c.observe (stamp obs source now)
  match result.attributed, result.clientOrderId with
  | true, some clientOrderId =>
    c.ingestOwned toUpperCase clientOrderId (stamp obs source now) result now reply
  | _, _ => (c, ⟨result, none⟩)

def ingestStreamObservation (now : Number) (reply : AdapterReply) : OrderStreamConsumer × IngestOutput :=
  c.ingest toUpperCase obs .orderUpdate now reply

def ingestRestObservation (now : Number) (reply : AdapterReply) : OrderStreamConsumer × IngestOutput :=
  let (c, output) := c.ingest toUpperCase obs source now reply
  match output.result.clientOrderId with
  | some clientOrderId =>
    if clientOrderId ≠ "" ∧ output.result.quantityEvidence = .confirmed then
      ({ c with pendingReconciliations := c.pendingReconciliations.erase clientOrderId }, output)
    else (c, output)
  | none => (c, output)

end

end OrderStreamConsumer

end BoxEngine
