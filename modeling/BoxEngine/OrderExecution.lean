import BoxEngine.OrderIntent
import BoxEngine.OrderReservations
import BoxEngine.OrderScheduling
import BoxEngine.TransportGate

/-!
# Executions of the order manager

The actions of the order queue and what one of them does once it holds a slot, from one await to the
next: what it heard, what it wrote, and how it ended.
-/

namespace BoxEngine

open Js

/-! ## Orders, actions and executions -/

structure SizedRequest where
  request : BrokerOrderRequest
  units : ℕ
  sized : request.quantity = .fin units
  deriving DecidableEq

def contractSymbol (exchange tradingsymbol : String) : String := s!"{exchange}:{tradingsymbol}"

namespace SizedRequest

variable (order : SizedRequest)

def clientOrderId : String := order.request.clientOrderId

def purpose : BoxOrderPurpose := order.request.purpose

def symbol : String := contractSymbol order.request.exchange order.request.tradingsymbol

def commitment : Commitment :=
  ⟨order.clientOrderId, order.request.attemptId, order.symbol, order.units⟩

end SizedRequest

structure SubmitAction where
  order : SizedRequest
  entry : Option LiveEntryTransportGuard
  sequence : ℕ

structure CancelAction where
  clientOrderId : String
  attemptId : String
  sequence : ℕ

inductive QueueAction where
  | submit (action : SubmitAction)
  | cancel (action : CancelAction)

namespace QueueAction

def sequence : QueueAction → ℕ
  | submit action => action.sequence
  | cancel action => action.sequence

def purposeOf : QueueAction → BoxOrderPurpose
  | submit action => action.order.purpose
  | cancel _ => .protectiveCancel

def attemptOf : QueueAction → String
  | submit action => action.order.request.attemptId
  | cancel action => action.attemptId

def schedulingRequest (action : QueueAction) : BoxSchedulingRequest := ⟨action.purposeOf, action.attemptOf⟩

def priority (action : QueueAction) : ℕ := boxOrderPriority action.purposeOf

def before (a b : QueueAction) : Prop := a.priority < b.priority ∨ a.priority = b.priority ∧ a.sequence ≤ b.sequence

instance instDecidableRelBefore : DecidableRel before := fun a b =>
  inferInstanceAs (Decidable (a.priority < b.priority ∨ a.priority = b.priority ∧ a.sequence ≤ b.sequence))

def leg : QueueAction → Option SubmitAction
  | submit action => some action
  | cancel _ => none

end QueueAction

inductive RecordedAs where
  | reread
  | accepted (order : BrokerOrder)
  | uncertain (state : BrokerOrderState)
  | rejected (order : BrokerOrder) (message : String)
  | stillWorking (message : String)
  | ambiguous (message : String)
  | cancelled

inductive ExecutionPhase where
  | creating
  | rereading
  | entering
  | refusing
  | resolving
  | parked
  | sending
  | cancelling
  | recording (recorded : RecordedAs)
  | ended

structure Execution where
  action : QueueAction
  slot : BoxSchedulingSlot
  phase : ExecutionPhase
  postBegan : Bool
  hedgeFailureReason : Option String
  terminalOrder : Option BrokerOrder

structure PersistResult where
  row : BoxOrderIntent
  orderState : BrokerOrderState
  applied : Bool
  previous : Option ℕ
  current : Option ℕ

namespace PersistResult

variable (p : PersistResult)

def clientOrderId : String := p.row.clientOrderId

def symbol : String := contractSymbol p.row.exchange p.row.tradingsymbol

def durableFillDelta : ℤ :=
  match p.applied, p.previous, p.current with
  | true, some previous, some current => max 0 (current - previous)
  | _, _, _ => 0

def signedDelta : ℤ := if p.row.side = .buy then p.durableFillDelta else -p.durableFillDelta

def terminal : Bool := isBrokerOrderTerminal p.orderState

end PersistResult

def authoritativeOrder (order : BrokerOrder) (durable : BoxOrderIntent) : BrokerOrder :=
  (mergeBrokerOrderSnapshot (some order)
    { order with
      brokerOrderId := durable.brokerOrderId
      state := durable.state
      filledQuantity := durable.filledQuantity
      pendingQuantity := (Number.fin 0).max (durable.quantity.sub durable.filledQuantity)
      averagePrice := durable.averagePrice
      fills := if order.filledQuantity < durable.filledQuantity then [] else order.fills
      rejectFamily := durable.rejectFamily
      rejectReason := durable.rejectReason
      updatedAt := durable.updatedAt }
    (.observed durable.filledQuantity)).order

structure GuardFacts where
  stillWanted : Bool
  entryEnabled : Bool
  liveOrderEntryEnabled : Bool
  circuitClosed : Bool
  entryAdmissible : Bool
  sendBoundaryCoherence : Option String
  sendBoundaryEconomics : Option String

/-- A checkpoint: the feed, the account and the authorisation object first, then the entry guard. -/
structure CheckpointFacts where
  objection : Option String
  guard : GuardFacts

inductive AdapterAnswer where
  | order (order : BrokerOrder)
  | failed (error : SubmitError)
  | cancelNotTransmitted (order : Option BrokerOrder) (message : String)

inductive ExecutionAnswer where
  | unprepared
  | threw (message : String)
  | created (state : BrokerOrderState) (facts : CheckpointFacts)
  | found
  | missing
  | transitioned (applied : Bool) (state : BrokerOrderState) (facts : CheckpointFacts)
  | asked (facts : CheckpointFacts)
  | submitted (answer : AdapterAnswer)
  | wrote (persisted : PersistResult)

/-! ## One execution -/

structure Resumption where
  execution : Execution
  wrote : Option PersistResult
  known : Option BrokerOrderState
  posts : Bool
  decides : Bool

namespace Execution

variable (e : Execution)

def sequence : ℕ := e.action.sequence

def start (action : QueueAction) (slot : BoxSchedulingSlot) : Execution where
  action
  slot
  phase := match action with
    | .submit _ => .creating
    | .cancel _ => .cancelling
  postBegan := false
  hedgeFailureReason := none
  terminalOrder := none

def woken : Execution :=
  match e.phase with
  | .parked => { e with phase := .sending }
  | _ => e

def isOver : Bool :=
  match e.phase with
  | .ended => true
  | _ => false

def stay : Resumption := ⟨e, none, none, false, false⟩

def goes (phase : ExecutionPhase) : Resumption := ⟨{ e with phase }, none, none, false, false⟩

def ends (reason : Option String) : Resumption :=
  ⟨{ e with phase := .ended, hedgeFailureReason := reason <|> e.hedgeFailureReason }, none, none, false, true⟩

def refuses (reason : String) : Resumption :=
  ⟨{ e with phase := .refusing, hedgeFailureReason := some reason }, none, none, false, false⟩

def answered : AdapterAnswer → Resumption
  | .order order =>
    e.goes (.recording (if order.state = .unknown ∨ order.state = .reconciliationRequired then .uncertain order.state
      else .accepted order))
  | .failed (.preSubmitRefused ..) => e.goes .refusing
  | .failed (.orderRejected order) =>
    let message := errorMessage (.orderRejected order)
    -- a rejection that does not prove zero exposure is an uncertainty like any other
    e.goes (.recording (if (verifyZeroBrokerExposure order).isNone then RecordedAs.rejected order message
      else .ambiguous message))
  | .cancelNotTransmitted (some _) message => e.goes (.recording (.stillWorking message))
  | .cancelNotTransmitted none message => e.ends (some message)
  | .failed error => e.goes (.recording (.ambiguous (errorMessage error)))

def recordedAs (p : PersistResult) : RecordedAs → Resumption
  | .reread => e.ends none
  | .accepted order =>
    ends { e with terminalOrder := some (authoritativeOrder order p.row) }
      (if order.state = BrokerOrderState.rejected then some (order.rejectReason.getD "broker rejected order") else none)
  | .uncertain state =>
    let state := state.label
    e.ends (some s!"broker state {state} is not proof of a hedge")
  | .rejected order message => ends { e with terminalOrder := some order } (some message)
  | .stillWorking message => e.ends (some message)
  | .ambiguous message => e.ends (some message)
  | .cancelled => e.ends none

/-- One continuation of `execute` or `executeCancel`; `blocked` is its checkpoint's verdict. -/
def resume (blocked : Option String) (answer : ExecutionAnswer) : Resumption :=
  match e.phase, answer with
  | .creating, .unprepared => { e.ends none with decides := false }
  | .creating, .created state _ =>
    if state ≠ .created then { e.goes .rereading with known := some state }
    else { (match blocked with
      | some reason => e.refuses reason
      | none => e.goes .entering) with known := some state }
  | .rereading, .found => e.goes (.recording .reread)
  | .rereading, .missing => e.ends (some "Existing durable intent requires reconciliation before resubmit.")
  | .entering, .transitioned applied state _ =>
    { (if ¬ applied then e.goes .resolving
      else if state ≠ .submitting then
        e.ends (some "Order intent did not durably enter SUBMITTING; broker POST blocked.")
      else
        match blocked with
        | some reason => e.refuses reason
        | none => e.goes .parked) with known := some state }
  | .refusing, .transitioned applied state _ =>
    { (if applied ∧ state = .rejected then e.ends none else e.goes .resolving) with known := some state }
  | .resolving, .found => e.goes (.recording .reread)
  | .resolving, .missing => e.ends none
  | .sending, .asked _ =>
    match blocked with
    | some reason => { e with hedgeFailureReason := some reason }.stay
    | none => { { e with postBegan := true }.stay with posts := true }
  | .sending, .submitted answer => e.answered answer
  | .cancelling, .found => e.goes (.recording .cancelled)
  | .cancelling, .missing => e.ends none
  | .recording recorded, .wrote p => { e.recordedAs p recorded with wrote := some p }
  | .recording (.ambiguous message), .transitioned _ state _ => { e.ends (some message) with known := some state }
  -- an uncertainty that could not be written down is still reported as such
  | .recording (.ambiguous message), .threw _ => e.ends (some message)
  | .ended, _ => e.stay
  | .parked, _ => e.stay
  | _, .threw message => e.ends (some message)
  | _, _ => e.stay

end Execution

end BoxEngine
