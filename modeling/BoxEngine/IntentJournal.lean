import BoxEngine.OrderIntent
import BoxEngine.Lib.Keyed

/-!
# The intent journal

The table of durable intents and its guarded update: four guards under a row lock, then the checks of the table. The
manager writes a snapshot or a bare label.
-/

namespace BoxEngine

open Js

def intentStatePredecessors : BrokerOrderState → List BrokerOrderState
  | .created => [.created]
  | .submitting => [.created, .submitting]
  | .acknowledged => [.submitting, .acknowledged, .unknown, .reconciliationRequired]
  | .open => [.submitting, .acknowledged, .open, .unknown, .reconciliationRequired]
  | .partiallyFilled => [.submitting, .acknowledged, .open, .partiallyFilled, .unknown, .reconciliationRequired]
  | .complete =>
    [.submitting, .acknowledged, .open, .partiallyFilled, .cancelRequested, .cancelled, .unknown, .reconciliationRequired,
      .complete]
  | .cancelRequested =>
    [.submitting, .acknowledged, .open, .partiallyFilled, .cancelRequested, .unknown, .reconciliationRequired]
  | .cancelled =>
    [.submitting, .acknowledged, .open, .partiallyFilled, .cancelRequested, .unknown, .reconciliationRequired, .cancelled]
  | .rejected => [.created, .submitting, .acknowledged, .open, .rejected]
  | .unknown =>
    [.created, .submitting, .acknowledged, .open, .partiallyFilled, .cancelRequested, .unknown, .reconciliationRequired]
  | .reconciliationRequired =>
    [.created, .submitting, .acknowledged, .open, .partiallyFilled, .cancelRequested, .unknown, .reconciliationRequired]

/-- The checks of the table: a fill is not negative, not above the request and not below its pre-image. -/
def BoxOrderIntent.checked (row : BoxOrderIntent) : Bool :=
  Number.fin 0 ≤ row.filledQuantity && row.filledQuantity ≤ row.quantity &&
    row.previousFilledQuantity.all fun previous => previous ≤ row.filledQuantity

structure StoredIntent where
  row : BoxOrderIntent
  asked : row.quantity.isFinite = true
  checked : row.checked = true

namespace StoredIntent

variable (stored : StoredIntent)

abbrev clientOrderId : String := stored.row.clientOrderId

def fill : ℚ := stored.row.filledQuantity.value

theorem filled_eq : stored.row.filledQuantity = .fin stored.fill := by
  have hchecked := stored.checked
  unfold BoxOrderIntent.checked at hchecked
  simp only [Bool.and_eq_true, decide_eq_true_eq] at hchecked
  obtain ⟨⟨hlow, hhigh⟩, -⟩ := hchecked
  exact Number.eq_fin_of_between hlow hhigh stored.asked

theorem fill_nonneg : 0 ≤ stored.fill := by
  have hchecked := stored.checked
  unfold BoxOrderIntent.checked at hchecked
  simp only [Bool.and_eq_true, decide_eq_true_eq, filled_eq, Number.fin_le_fin] at hchecked
  exact hchecked.1.1

end StoredIntent

/-! ## The guarded update -/

structure BoxOrderIntentPatch where
  state : Option BrokerOrderState
  brokerOrderId : Option (Option String)
  filledQuantity : Option Number
  averagePrice : Option (Option Number)
  brokerTag : Option (Option String)
  rejectFamily : Option (Option BrokerRejectFamily)
  rejectReason : Option (Option String)
  updatedAt : Option Number
  terminalAt : Option (Option Number)

structure BoxOrderIntentUpdateResult where
  intent : Option StoredIntent
  applied : Bool
  previousFilledQuantity : Option Number
  currentFilledQuantity : Option Number

namespace BoxOrderIntentPatch

variable (patch : BoxOrderIntentPatch)

/-- The broker id the guard looks at: an absent, null or empty one is not looked at. -/
def namedBrokerId : Option String := patch.brokerOrderId.join.filter (· ≠ "")

variable (before : BoxOrderIntent)

def stateOk : Bool :=
  patch.state.all fun state => before.state ∈ intentStatePredecessors state

def expectedOk (expectedStates : Option (List BrokerOrderState)) (before : BoxOrderIntent) : Bool :=
  expectedStates.all fun states => before.state ∈ states

def fillOk : Bool :=
  patch.filledQuantity.all fun filled => before.filledQuantity ≤ filled

def brokerOk : Bool :=
  patch.namedBrokerId.all fun id => before.brokerOrderId = none || before.brokerOrderId = some id

def admits (expectedStates : Option (List BrokerOrderState)) (before : BoxOrderIntent) : Bool :=
  patch.stateOk before && expectedOk expectedStates before && patch.fillOk before && patch.brokerOk before

/-- The row with the fields of the patch; the audit is appended once under its id. -/
def write (audit : BoxOrderIntentAudit) (before : BoxOrderIntent) : BoxOrderIntent :=
  { before with
    previousFilledQuantity := some before.filledQuantity
    brokerOrderId := patch.brokerOrderId.getD before.brokerOrderId
    state := patch.state.getD before.state
    filledQuantity := patch.filledQuantity.getD before.filledQuantity
    averagePrice := patch.averagePrice.getD before.averagePrice
    brokerTag := patch.brokerTag.getD before.brokerTag
    rejectFamily := patch.rejectFamily.getD before.rejectFamily
    rejectReason := patch.rejectReason.getD before.rejectReason
    updatedAt := patch.updatedAt.getD before.updatedAt
    terminalAt := patch.terminalAt.getD before.terminalAt
    audit := if before.audit.any fun entry => entry.auditId = audit.auditId then before.audit else before.audit ++ [audit] }

end BoxOrderIntentPatch

/-- A refusal writes nothing and reports a transition of no width; a broken check throws. -/
def StoredIntent.update (before : StoredIntent) (patch : BoxOrderIntentPatch) (audit : BoxOrderIntentAudit)
    (expectedStates : Option (List BrokerOrderState)) : Except String (StoredIntent × BoxOrderIntentUpdateResult) :=
  let filled := before.row.filledQuantity
  if patch.admits expectedStates before.row then
    if h : (patch.write audit before.row).checked then
      let after : StoredIntent := ⟨patch.write audit before.row, before.asked, h⟩
      .ok (after, ⟨some after, true, after.row.previousFilledQuantity, some after.row.filledQuantity⟩)
    else .error "new row for relation box_order_intents violates check constraint"
  else .ok (before, ⟨some before, false, some filled, some filled⟩)

structure Journal where
  rows : List StoredIntent
  distinct : (rows.map StoredIntent.clientOrderId).Nodup

namespace Journal

variable (journal : Journal)

def find (clientOrderId : String) : Option StoredIntent :=
  journal.rows.find? fun stored => stored.clientOrderId = clientOrderId

def replace (after : StoredIntent) : Journal where
  rows := Keyed.replace StoredIntent.clientOrderId journal.rows after
  distinct := by
    rw [Keyed.map_replace]
    exact journal.distinct

def insert (fresh : StoredIntent) (h : fresh.clientOrderId ∉ journal.rows.map StoredIntent.clientOrderId) :
    Journal where
  rows := journal.rows ++ [fresh]
  distinct := by
    rw [List.map_append, List.nodup_append]
    refine ⟨journal.distinct, List.nodup_singleton _, ?_⟩
    rintro a ha b hb rfl
    rw [List.map_singleton, List.mem_singleton] at hb
    exact h (hb ▸ ha)

end Journal

def unfilledIntent (state : BrokerOrderState) : StoredIntent where
  row := legIntent state .k1Ce .buy 75 0
  asked := rfl
  checked := by cases state <;> decide +kernel

def unfilledJournal (state : BrokerOrderState) : Journal := ⟨[unfilledIntent state], List.nodup_singleton _⟩

def updateBoxOrderIntent (journal : Journal) (clientOrderId : String) (patch : BoxOrderIntentPatch)
    (audit : BoxOrderIntentAudit) (expectedStates : Option (List BrokerOrderState)) :
    Except String (Journal × BoxOrderIntentUpdateResult) :=
  match journal.find clientOrderId with
  | none => .ok (journal, ⟨none, false, none, none⟩)
  | some before => (before.update patch audit expectedStates).map fun updated => (journal.replace updated.1, updated.2)

/-! ## What the manager writes -/

def auditFor (intent : BoxOrderIntent) (state : BrokerOrderState) (brokerOrderId : Option String) (message : String)
    (fillIdentity : Option String) (now : Number) (payload : Option AuditPayload) : BoxOrderIntentAudit :=
  let id := brokerOrderId.getD "none"
  let fill := fillIdentity.getD "none"
  { auditId := s!"{intent.clientOrderId}:{intent.state.label}->{state.label}:{id}:{fill}"
    «at» := now
    fromState := some intent.state
    toState := state
    brokerOrderId
    message := some message
    fillIdentity
    payload }

/-- The write of a snapshot, or of a label under the broker id the caller holds. -/
inductive JournalCall where
  | persistOrder (intent : BoxOrderIntent) (order : BrokerOrder) (message : String) (now : Number)
  | transition (intent : BoxOrderIntent) (state : BrokerOrderState) (brokerOrderId : Option String) (message : String)
      (now : Number) (expectedStates : Option (List BrokerOrderState)) (payload : Option AuditPayload)

namespace JournalCall

def clientOrderId : JournalCall → String
  | persistOrder intent _ _ _ => intent.clientOrderId
  | transition intent _ _ _ _ _ _ => intent.clientOrderId

def brokerOrderId : JournalCall → Option String
  | persistOrder _ order _ _ => order.brokerOrderId
  | transition _ _ brokerOrderId _ _ _ _ => brokerOrderId

def terminalStamp (state : BrokerOrderState) (stamp : Number) : Option Number :=
  if isBrokerOrderTerminal state then some stamp else none

def patch : JournalCall → BoxOrderIntentPatch
  | persistOrder _ order _ _ =>
    { state := some order.state
      brokerOrderId := some order.brokerOrderId
      filledQuantity := some order.filledQuantity
      averagePrice := some order.averagePrice
      brokerTag := some order.tag
      rejectFamily := some order.rejectFamily
      rejectReason := some order.rejectReason
      updatedAt := some order.updatedAt
      terminalAt := some (terminalStamp order.state order.updatedAt) }
  | transition _ state brokerOrderId _ now _ _ =>
    { state := some state
      brokerOrderId := some brokerOrderId
      filledQuantity := none
      averagePrice := none
      brokerTag := none
      rejectFamily := none
      rejectReason := none
      updatedAt := some now
      terminalAt := some (terminalStamp state now) }

def audit : JournalCall → BoxOrderIntentAudit
  | persistOrder intent order message now =>
    auditFor intent order.state order.brokerOrderId message (order.fills.getLast?.map BrokerFill.fillId) now none
  | transition intent state brokerOrderId message now _ payload =>
    auditFor intent state brokerOrderId message none now payload

def expectedStates : JournalCall → Option (List BrokerOrderState)
  | persistOrder _ _ _ _ => none
  | transition _ _ _ _ _ expectedStates _ => expectedStates

def isPersist : JournalCall → Bool
  | persistOrder _ _ _ _ => true
  | transition _ _ _ _ _ _ _ => false

variable (call : JournalCall)

def onRow (before : StoredIntent) : Except String (StoredIntent × BoxOrderIntentUpdateResult) :=
  before.update call.patch call.audit call.expectedStates

def run (journal : Journal) : Except String (Journal × BoxOrderIntentUpdateResult) :=
  updateBoxOrderIntent journal call.clientOrderId call.patch call.audit call.expectedStates

def writes (before : BoxOrderIntent) : Bool :=
  call.patch.admits call.expectedStates before && (call.patch.write call.audit before).checked

end JournalCall

end BoxEngine
