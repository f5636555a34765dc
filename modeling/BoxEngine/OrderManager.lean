import BoxEngine.Lib.Run
import BoxEngine.OrderExecution
import Mathlib.Data.List.Sort

/-!
# The order manager

The queue and everything kept beside it: slots, reservations, attributed positions, gates. A step runs from one await
to the next, with what other modules answer.
-/

namespace BoxEngine

open Js

structure OrderManagerLimits where
  scheduling : SchedulingLimits
  maxOpenLegQuantity : ℤ
  maxGrossOpenLegQuantity : ℤ

structure Dispatch where
  action : QueueAction
  slot : BoxSchedulingSlot
  occupied : SlotCounters
  waiting : List QueueAction

structure SentOrder where
  order : SizedRequest
  attributed : ℤ

structure OrderManager where
  disposed : Bool
  queue : List QueueAction
  sequence : ℕ
  activeClientIds : List String
  slots : SlotCounters
  running : List Execution
  held : Reservations
  attributedBoxPositions : List (String × ℤ)
  postedEntryAttempts : List String
  knownIntents : String → Option BrokerOrderState
  entryTransportGates : String → Option EntryTransportGate
  lastReconciled : Bool
  /-- History, read by no step: the dispatches, the orders at the broker, and the fills attributed. -/
  dispatched : List Dispatch
  sent : List SentOrder
  fills : List PersistResult

namespace OrderManager

def booted : OrderManager where
  disposed := false
  queue := []
  sequence := 0
  activeClientIds := []
  slots := .zero
  running := []
  held := .empty
  attributedBoxPositions := []
  postedEntryAttempts := []
  knownIntents _ := none
  entryTransportGates _ := none
  lastReconciled := false
  dispatched := []
  sent := []
  fills := []

variable (m : OrderManager)

def netOf (symbol : String) : ℤ :=
  ((m.attributedBoxPositions.find? fun entry => entry.1 = symbol).map Prod.snd).getD 0

def grossOpenLegQuantity : ℤ := (m.attributedBoxPositions.map fun entry => |entry.2|).sum

variable (order : SizedRequest)

def ensureEntryTransportGate (guard : LiveEntryTransportGuard) (accountKey : String) : OrderManager :=
  let attemptId := order.request.attemptId
  let gate := (m.entryTransportGates attemptId).getD (.new attemptId guard accountKey)
  { m with entryTransportGates := Function.update m.entryTransportGates attemptId (some (gate.register guard order.request)) }

def wake (waiters : List EntryTransportWaiter) : OrderManager :=
  { m with
    running := m.running.map fun e => if e.sequence ∈ waiters.map EntryTransportWaiter.leg then e.woken else e }

def decideEntryTransportRank (guard : LiveEntryTransportGuard)
    (outcome : TransportOutcome) (reason : Option String) (terminalOrder : Option BrokerOrder) : OrderManager :=
  let attemptId := order.request.attemptId
  match m.entryTransportGates attemptId with
  | none => m
  | some gate =>
    let decided := gate.decide order.request guard outcome reason terminalOrder
    let woken := decided.wakeReady
    { m.wake decided.ready with
      entryTransportGates := Function.update m.entryTransportGates attemptId (if woken.droppable then none else some woken) }

variable (e : Execution)

/-- A dependent parks until its hedges have decided; everyone else goes on to the adapter. -/
def awaitEntryTransportTurn : OrderManager × Execution :=
  let sending : Execution := { e with phase := .sending }
  match e.action with
  | .cancel _ => (m, sending)
  | .submit action =>
    let attemptId := action.order.request.attemptId
    match action.entry, m.entryTransportGates attemptId with
    | some guard, some gate =>
      if guard.hedge ∨ gate.entryHedgesDecided guard.transportRank then (m, sending)
      else
        let parked := { gate with waiters := gate.waiters ++ [⟨guard.transportRank, action.sequence⟩] }
        ({ m with entryTransportGates := Function.update m.entryTransportGates attemptId (some parked) }, e)
    | _, _ => (m, sending)

def evaluateEntryGuard (guard : LiveEntryTransportGuard) (facts : GuardFacts)
    (stage : LiveEntryGuardStage) : Option (LiveEntryGuardRefusal × String) :=
  let attemptId := order.request.attemptId
  let gate := m.entryTransportGates attemptId
  evaluateLiveEntryGuard
    { stage
      stillWanted := facts.stillWanted
      entryEnabled := facts.entryEnabled
      liveOrderEntryEnabled := facts.liveOrderEntryEnabled
      circuitClosed := facts.circuitClosed
      entryAdmissible := stage = .preEnqueue || facts.entryAdmissible
      attemptAborted := none
      hedgeCoverageGap := if guard.hedge then none else entryHedgeCoverageGap attemptId gate stage
      crossLegCoherenceGap := sendBoundaryGap gate stage facts.sendBoundaryCoherence
      economicEvidenceGap := sendBoundaryGap gate stage facts.sendBoundaryEconomics }

def checkpoint (action : SubmitAction) (stage : LiveEntryGuardStage) (facts : CheckpointFacts) : Option String :=
  facts.objection <|>
    action.entry.bind fun guard => (m.evaluateEntryGuard action.order guard facts.guard stage).map Prod.snd

/-! ## Quantity limits -/

variable (limits : OrderManagerLimits)

def entryQuantityEnvelopeBlockReason (quantityPerLeg : ℤ) (attemptId : String) : Option String :=
  let perLeg := limits.maxOpenLegQuantity
  let cap := limits.maxGrossOpenLegQuantity
  let ownReserved := m.held.reservedEntryQuantityForAttempt attemptId
  let committedByOthers := m.grossOpenLegQuantity + max 0 (m.held.reservedEntryQuantity - ownReserved)
  let needed := quantityPerLeg * 4
  if perLeg < quantityPerLeg then
    some s!"One lot of this instrument is {quantityPerLeg} unit(s), which exceeds the per-leg limit BOX_LIVE_MAX_OPEN_LEG_QUANTITY={perLeg}. Set the limit to the selected instrument's one-lot quantity — do not raise it globally."
  else if cap < committedByOthers + needed then
    some s!"The full 4-leg attempt needs {needed} unit(s) of gross leg quantity (already committed: {committedByOthers}), which exceeds BOX_LIVE_MAX_GROSS_OPEN_LEG_QUANTITY={cap}. Refused BEFORE the first leg posts, so no hedge is acquired against a cap the attempt cannot satisfy."
  else none

/-- A reduction trades against the position it owns, from the side that shrinks it. -/
def correctSide (net : ℤ) (side : OrderSide) : Bool := (0 < net && side = .sell) || (net < 0 && side = .buy)

/-- Why an order fails the quantity limits; `drift`: the positions are of another account. -/
def quantityLimitBlockReason (order : SizedRequest) (drift : Option String) : Option String :=
  let quantity : ℤ := order.units
  let perLeg := limits.maxOpenLegQuantity
  let cap := limits.maxGrossOpenLegQuantity
  let overPerLeg := s!"Order quantity {quantity} exceeds the per-leg limit BOX_LIVE_MAX_OPEN_LEG_QUANTITY={perLeg}."
  if order.purpose = .entry then
    if order.request.attemptId ∉ m.postedEntryAttempts then
      m.entryQuantityEnvelopeBlockReason limits quantity order.request.attemptId
    else
      let gross := m.grossOpenLegQuantity + m.held.reservedEntryQuantity + quantity
      if perLeg < quantity then some overPerLeg
      else if cap < gross then
        some s!"This entry leg would take gross open leg quantity to {gross}, exceeding BOX_LIVE_MAX_GROSS_OPEN_LEG_QUANTITY={cap}."
      else none
  else if perLeg < quantity then some overPerLeg
  else if order.purpose = .protectiveCancel then none
  else if let some drift := drift then some drift
  else
    let symbol := order.symbol
    let net := m.netOf symbol
    let owned := |net|
    let alreadyReserved := m.held.reservedReductionsBySymbol symbol
    if ¬ correctSide net order.request.side then
      let purpose := order.purpose.label
      let side := sideLabel order.request.side
      some s!"A {purpose} {side} on {symbol} would not reduce the attributed net position ({net}); a reduction must trade against the position it owns."
    else if owned < quantity + alreadyReserved then
      some s!"Reducing {quantity} unit(s) of {symbol} would overshoot the attributed net position ({owned}, of which {alreadyReserved} is already reserved for in-flight reductions), which would open NEW exposure on the opposite side."
    else none

abbrev QueueAsk := QueueAction → Option String

/-- The gates are asked again at the last point before an action leaves the queue. -/
def queuedActionBlockReason (ask : QueueAsk) (action : QueueAction) : Option String :=
  ask action <|>
    match action with
    | .cancel _ => none
    | .submit submit =>
      let quantity : ℤ := submit.order.units
      if submit.order.purpose = .entry then
        if limits.maxOpenLegQuantity < quantity ∨
            limits.maxGrossOpenLegQuantity < m.grossOpenLegQuantity + m.held.reservedEntryQuantity then
          some "Order exceeded live quantity limits while queued."
        else none
      else if submit.order.purpose = .protectiveCancel then none
      else
        let net := m.netOf submit.order.symbol
        let reserved := m.held.reservedReductionsBySymbol submit.order.symbol
        if quantity ≤ limits.maxOpenLegQuantity ∧ correctSide net submit.order.request.side ∧ reserved ≤ |net| then none
        else some "Attributed exposure changed while reduction was queued."

def enqueue (action : QueueAction) : OrderManager :=
  { m with queue := (m.queue ++ [action]).insertionSort QueueAction.before, sequence := m.sequence + 1 }

variable (clientOrderId : String)

def dropActive : OrderManager :=
  { m with activeClientIds := m.activeClientIds.filter (· ≠ clientOrderId) }

def release : OrderManager :=
  { m with held := m.held.releaseReservation clientOrderId }

def refuseQueued (action : QueueAction) (reason : String) : OrderManager :=
  match action with
  | .cancel _ => m
  | .submit submit =>
    let released := (m.dropActive submit.order.clientOrderId).release submit.order.clientOrderId
    match submit.entry with
    | none => released
    | some guard => released.decideEntryTransportRank submit.order guard .noPost (some reason) none

def startAction (action : QueueAction) (slot : BoxSchedulingSlot) : OrderManager :=
  { m with
    slots := m.slots.occupySlot action.schedulingRequest slot
    running := m.running ++ [.start action slot]
    dispatched := m.dispatched ++ [⟨action, slot, m.slots, m.queue⟩] }

/-- The head of the queue leaves it as long as it is admitted; nothing behind it overtakes it. -/
def pumpFrom (limits : OrderManagerLimits) (ask : QueueAsk) : ℕ → OrderManager → OrderManager
  | 0, m => m
  | fuel + 1, m =>
    if m.disposed then m
    else
      match m.queue with
      | [] => m
      | action :: rest =>
        match admitBoxOperation action.schedulingRequest m.slots.occupancy limits.scheduling with
        | .error _ => m
        | .ok slot =>
          let shifted := { m with queue := rest }
          pumpFrom limits ask fuel
            (match shifted.queuedActionBlockReason limits ask action with
            | some reason => shifted.refuseQueued action reason
            | none => shifted.startAction action slot)

variable (limits : OrderManagerLimits)

def pump (ask : QueueAsk) : OrderManager :=
  m.pumpFrom limits ask m.queue.length

/-! ## Submitting -/

structure SubmitCall where
  order : SizedRequest
  entry : Option LiveEntryTransportGuard
  accountKey : String
  guard : GuardFacts
  /-- What else `entryBlockReason` or `exposureReductionBlockReason` answers before the quantities. -/
  blocked : Option String
  drift : Option String
  ask : QueueAsk

variable (call : SubmitCall)

def SubmitCall.entryGuard : Option LiveEntryTransportGuard :=
  if call.order.purpose = .entry then call.entry else none

def releaseOnReject (message : String) : OrderManager :=
  match call.entryGuard with
  | none => m
  | some guard => m.decideEntryTransportRank call.order guard .noPost (some message) none

def reserve : OrderManager :=
  if order.purpose = .entry then { m with held := m.held.reserveEntry order.commitment }
  else if order.purpose = .protectiveCancel then m
  else { m with held := m.held.reserveReduction order.commitment }

def disposedText (purpose : BoxOrderPurpose) : String :=
  if purpose = .entry then "Entry cannot be sent: The live order manager has been disposed."
  else "Exposure reduction cannot be sent: The live order manager has been disposed (process shutting down), so no broker request can be issued."

def submitBlockReason : Option String :=
  let id := call.order.clientOrderId
  (call.entryGuard.bind fun guard => (m.evaluateEntryGuard call.order guard call.guard .preEnqueue).map Prod.snd) <|>
    (if m.disposed then some (disposedText call.order.purpose) else call.blocked) <|>
    m.quantityLimitBlockReason limits call.order call.drift <|>
    if id ∈ m.activeClientIds then some s!"Order {id} is already queued or active." else none

def accept : OrderManager :=
  let reserved := ({ m with activeClientIds := m.activeClientIds ++ [call.order.clientOrderId] }).reserve call.order
  reserved.enqueue (.submit ⟨call.order, call.entryGuard, m.sequence⟩)

def submit : OrderManager :=
  let registered := call.entryGuard.elim m fun guard => m.ensureEntryTransportGate call.order guard call.accountKey
  match registered.submitBlockReason limits call with
  | some message => registered.releaseOnReject call message
  | none => (registered.accept call).pump limits call.ask

def attributeFill (symbol : String) (delta : ℤ) : OrderManager :=
  { m with attributedBoxPositions := Keyed.put Prod.fst m.attributedBoxPositions (symbol, m.netOf symbol + delta) }

def know (state : BrokerOrderState) : OrderManager :=
  { m with knownIntents := Function.update m.knownIntents clientOrderId (some state) }

def SentOrder.note (p : PersistResult) (sent : SentOrder) : Option SentOrder :=
  if sent.order.clientOrderId ≠ p.clientOrderId then some sent
  else if p.terminal then none
  else some { sent with attributed := sent.attributed + p.durableFillDelta }

/-- The fill is attributed and leaves the reservation, and a terminal order holds nothing any more. -/
def persisted (p : PersistResult) : OrderManager :=
  let attributed :=
    if 0 < p.durableFillDelta then
      let added := m.attributeFill p.symbol p.signedDelta
      { added with
        held := added.held.reduceReservationByFill p.clientOrderId p.durableFillDelta
        fills := added.fills ++ [p] }
    else m
  let known := attributed.know p.clientOrderId p.row.state
  { (if p.terminal then known.release p.clientOrderId else known) with sent := m.sent.filterMap (SentOrder.note p) }

/-! ## Executions -/

def noteSent (action : SubmitAction) : OrderManager :=
  { m with
    postedEntryAttempts :=
      if action.order.purpose = .entry then m.postedEntryAttempts ++ [action.order.request.attemptId]
      else m.postedEntryAttempts
    sent := if action.order ∈ m.sent.map SentOrder.order then m.sent else m.sent ++ [⟨action.order, 0⟩] }

def putExecution : OrderManager :=
  { m with running := m.running.map fun other => if other.sequence = e.sequence then e else other }

def verdict (answer : ExecutionAnswer) : Option String :=
  e.action.leg.bind fun action =>
    match answer with
    | .created _ facts => m.checkpoint action .dequeue facts
    | .transitioned _ _ facts => m.checkpoint action .postPersist facts
    | .asked facts => m.checkpoint action .prePost facts
    | _ => none

def place (r : Resumption) : OrderManager :=
  match r.execution.phase with
  | .parked =>
    let turn := m.awaitEntryTransportTurn r.execution
    turn.1.putExecution turn.2
  | _ =>
    let put := m.putExecution r.execution
    match r.decides, r.execution.action with
    | true, .submit ⟨order, some guard, _⟩ =>
      put.decideEntryTransportRank order guard (if r.execution.postBegan then .posted else .noPost)
        r.execution.hedgeFailureReason r.execution.terminalOrder
    | _, _ => put

/-- The row a continuation wrote, the state it heard, the order it sent. -/
def told (r : Resumption) : OrderManager :=
  let wrote := r.wrote.elim m m.persisted
  let known := r.known.elim wrote fun state =>
    e.action.leg.elim wrote fun action => wrote.know action.order.clientOrderId state
  if r.posts then e.action.leg.elim known known.noteSent else known

def resumed (leg : ℕ) (answer : ExecutionAnswer) : OrderManager :=
  match m.running.find? fun e => e.sequence = leg with
  | none => m
  | some e =>
    match e.phase with
    | .parked => m
    | .ended => m
    | _ =>
      let r := e.resume (m.verdict e answer) answer
      (m.told e r).place r

def keepsReservation : Bool :=
  m.knownIntents clientOrderId = some .unknown || m.knownIntents clientOrderId = some .reconciliationRequired

def settled : OrderManager :=
  let freed := { m with
    slots := m.slots.releaseSlot e.action.schedulingRequest e.slot
    running := m.running.filter fun other => other.sequence ≠ e.sequence }
  e.action.leg.elim freed fun action =>
    let id := action.order.clientOrderId
    (if freed.keepsReservation id then freed else freed.release id).dropActive id

def finished (leg : ℕ) (ask : QueueAsk) : OrderManager :=
  match m.running.find? fun e => e.sequence = leg with
  | none => m
  | some e => if e.isOver then (m.settled e).pump limits ask else m

/-! ## Reconcile passes -/

structure UnresolvedIntent where
  clientOrderId : String
  attemptId : String
  purpose : BoxOrderPurpose
  symbol : String
  quantity : ℕ
  filled : ℕ

def rebuildOne (r : Reservations) (intent : UnresolvedIntent) : Reservations :=
  let remaining : ℤ := max 0 (intent.quantity - intent.filled)
  let commitment : Commitment := ⟨intent.clientOrderId, intent.attemptId, intent.symbol, remaining⟩
  if remaining = 0 then r
  else if intent.purpose = .entry then r.reserveEntry commitment
  else if intent.purpose = .protectiveCancel then r
  else r.reserveReduction commitment

def recoveredAttempts (unresolved : List UnresolvedIntent) : List String :=
  (unresolved.filter fun intent => intent.purpose = .entry ∧ intent.filled < intent.quantity).map UnresolvedIntent.attemptId

/-- The end of a pass: the first one replaces the reservations, and unless stale, the positions of its contracts are
put in place. -/
def rebuilt (unresolved : List UnresolvedIntent) (positions : Option (List (String × ℤ))) : OrderManager :=
  let reserved :=
    if m.lastReconciled then m
    else
      { m with
        held := unresolved.foldl rebuildOne .empty
        postedEntryAttempts := m.postedEntryAttempts ++ recoveredAttempts unresolved }
  { reserved with
    attributedBoxPositions :=
      (positions.getD []).foldl (Keyed.put Prod.fst) reserved.attributedBoxPositions
    lastReconciled := true }

def dispose : OrderManager :=
  let legs := m.queue.filterMap QueueAction.leg
  { m with
    disposed := true
    entryTransportGates := fun _ => none
    running := m.running.map Execution.woken
    queue := []
    activeClientIds := m.activeClientIds.filter fun id => id ∉ legs.map fun leg => leg.order.clientOrderId
    held := legs.foldl (fun held leg => held.releaseReservation leg.order.clientOrderId) m.held }

inductive OrderManagerEvent where
  | submit (calls : List SubmitCall)
  | cancel (clientOrderId attemptId : String) (ask : QueueAsk)
  | resumed (leg : ℕ) (answer : ExecutionAnswer)
  | finished (leg : ℕ) (ask : QueueAsk)
  | known (clientOrderId : String) (state : BrokerOrderState)
  | snapshot (persisted : PersistResult)
  | rebuilt (unresolved : List UnresolvedIntent) (positions : Option (List (String × ℤ)))
  | dispose

def submitStep (m : OrderManager) (call : SubmitCall) : OrderManager × Unit :=
  (m.submit limits call, ())

def step (m : OrderManager) : OrderManagerEvent → OrderManager × Unit
  | .submit calls => (Run.finish (submitStep limits) m calls, ())
  | .cancel clientOrderId attemptId ask =>
    ((m.enqueue (.cancel ⟨clientOrderId, attemptId, m.sequence⟩)).pump limits ask, ())
  | .resumed leg answer => (m.resumed leg answer, ())
  | .finished leg ask => (m.finished limits leg ask, ())
  | .known clientOrderId state => (m.know clientOrderId state, ())
  | .snapshot p => (m.persisted p, ())
  | .rebuilt unresolved positions => (m.rebuilt unresolved positions, ())
  | .dispose => (m.dispose, ())

end OrderManager

end BoxEngine
