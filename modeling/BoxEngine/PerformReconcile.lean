import BoxEngine.Reconciler

/-!
# A reconcile pass

A pass loads the journal, matches every broker order to at most one intent, writes it to that intent's row,
quarantines what the broker does not list, and counts what is unresolved.
-/

namespace BoxEngine

open Js

/-- Hydrates the adapter's identity of a matched order, or refuses it; an adapter may have none. -/
abbrev AdoptOrder := Option (BoxOrderIntent → BrokerOrder → Except String BrokerOrder)

structure ReconcileState where
  journal : Journal
  ownedByClient : List StoredIntent
  nonterminalByClient : List StoredIntent
  matchCounts : String → ℕ
  matched : ℕ
  orphanOrders : List BrokerOrder
  affectedTradeIds : List String
  identityMismatchSymbols : List String
  missingAtBroker : List String
  recoveryActive : Bool
  breakerReason : Option String

structure OrderManagerReconcileReport where
  state : ReconcileState
  unknownOrders : ℕ
  unattendedWorkingOrders : ℕ

def nonterminalIntents (journal : Journal) : List StoredIntent :=
  journal.rows.filter fun intent => ¬ isBrokerOrderTerminal intent.row.state

def reconcileStates (state : BrokerOrderState) : Bool := state = .unknown || state = .reconciliationRequired

def insertNew (l : List String) (a : String) : List String := if a ∈ l then l else l ++ [a]

namespace ReconcileState

def load (journal : Journal) (breakerReason : Option String) : ReconcileState where
  journal
  ownedByClient := journal.rows
  nonterminalByClient := nonterminalIntents journal
  matchCounts _ := 0
  matched := 0
  orphanOrders := []
  affectedTradeIds := []
  identityMismatchSymbols := []
  missingAtBroker := []
  recoveryActive := false
  breakerReason

variable (s : ReconcileState)

def trip (reason : String) : ReconcileState :=
  { s with recoveryActive := true, breakerReason := s.breakerReason <|> some reason }

def affect (intent : StoredIntent) : ReconcileState :=
  match intent.row.tradeId.filter (· ≠ "") with
  | none => s
  | some tradeId => { s with affectedTradeIds := insertNew s.affectedTradeIds tradeId }

def lose : SubmitError → ReconcileState
  | .persistenceAfterFill order => s.trip s!"persistence lost after confirmed fill {order.clientOrderId}"
  | _ => s

def mismatch (intent : StoredIntent) (error : SubmitError) : ReconcileState :=
  let affected := (s.lose error).affect intent
  let reason := errorMessage error
  { affected with identityMismatchSymbols := insertNew affected.identityMismatchSymbols intent.contract }.trip
    s!"broker identity/attribute mismatch for {intent.clientOrderId}: {reason}"

def note (journal : Journal) (updated : StoredIntent) : ReconcileState :=
  { s with
    journal
    ownedByClient := setIntent s.ownedByClient updated
    nonterminalByClient :=
      if isBrokerOrderTerminal updated.row.state then
        s.nonterminalByClient.filter fun intent => ¬ intent.clientOrderId = updated.clientOrderId
      else setIntent s.nonterminalByClient updated }

end ReconcileState

def intentByBroker (loaded : List StoredIntent) (brokerOrderId : Option String) : Option StoredIntent :=
  (brokerOrderId.filter (· ≠ "")).bind fun id =>
    (loaded.filter fun intent => intent.row.brokerOrderId = some id).getLast?

def intentByTag (loaded : List StoredIntent) (tag : Option String) : Option StoredIntent :=
  (tag.filter (· ≠ "")).bind fun tag =>
    match loaded.filter fun intent => intent.row.brokerTag = some tag with
    | [intent] => some intent
    | _ => none

/-- Durable identity first: the client id among the intents now, then broker id and tag among those loaded. -/
def intentOf (loaded owned : List StoredIntent) (order : BrokerOrder) : Option StoredIntent :=
  (owned.find? fun intent => intent.clientOrderId = order.clientOrderId) <|>
    intentByBroker loaded order.brokerOrderId <|> intentByTag loaded order.tag

/-! ## Writing -/

def persistOrder (journal : Journal) (intent : StoredIntent) (order : BrokerOrder) (message : String) (now : Number) :
    Except SubmitError (Journal × StoredIntent) :=
  -- a lost write of a fill is reported as such
  let lost := fun (reason : String) =>
    if .fin 0 < order.filledQuantity then SubmitError.persistenceAfterFill order else .other reason
  match (JournalCall.persistOrder intent.row order message now).run journal with
  | .error reason => .error (lost reason)
  | .ok (next, result) =>
    match result.intent with
    | none => .error (lost s!"Order intent {intent.clientOrderId} disappeared.")
    | some updated => .ok (next, updated)

variable (adoptOrder : AdoptOrder)

/-- The order as the adapter adopts it; without an adoption it is taken under the intent's client id. -/
def adoptedOrder (intent : StoredIntent) (order : BrokerOrder) : Except SubmitError BrokerOrder :=
  match adoptOrder with
  | some adopt => (adopt intent.row order).mapError .other
  | none => .ok { order with clientOrderId := intent.clientOrderId }

variable (now : Number)

def adoptAndPersist (journal : Journal) (intent : StoredIntent) (order : BrokerOrder) :
    Except SubmitError (Journal × StoredIntent) := do
  let attributed ← adoptedOrder adoptOrder intent order
  persistOrder journal intent attributed "broker reconciliation snapshot" now

def looksOwned (order : BrokerOrder) : Bool :=
  order.clientOrderId.startsWith "BOX:" || order.tag.any fun tag => tag.startsWith "BOX"

def reconcileOrder (loaded : List StoredIntent) (s : ReconcileState) (order : BrokerOrder) : ReconcileState :=
  match intentOf loaded s.ownedByClient order with
  | none =>
    let orphaned := { s with orphanOrders := s.orphanOrders ++ [order] }
    let id := order.brokerOrderId.getD order.clientOrderId
    if looksOwned order then orphaned.trip s!"unattributed BOX-looking broker order {id}" else orphaned
  | some intent =>
    let id := intent.clientOrderId
    let counted := { s with matchCounts := Function.update s.matchCounts id (s.matchCounts id + 1) }
    if 0 < s.matchCounts id then
      (counted.affect intent).trip s!"multiple broker orders matched durable intent {id}"
    else
      let claimed := { counted with matched := s.matched + 1 }
      match adoptAndPersist adoptOrder now s.journal intent order with
      | .ok (journal, updated) => claimed.note journal updated
      | .error error => claimed.mismatch intent error

/-- An intent that no broker order matched is quarantined and never sent again. -/
def reconcileMissing (s : ReconcileState) (intent : StoredIntent) : Except String ReconcileState :=
  if 0 < s.matchCounts intent.clientOrderId then .ok s
  else
    let id := intent.clientOrderId
    let missed := { s.affect intent with missingAtBroker := s.missingAtBroker ++ [id] }
    let reason := s!"durable nonterminal intent missing at broker: {id}"
    if intent.row.state = .created then .ok (missed.trip reason)
    else do
      let call := JournalCall.transition intent.row .reconciliationRequired intent.row.brokerOrderId
        "durable nonterminal intent not found in broker order list; no resubmit" now none none
      let (journal, result) ← call.run s.journal
      match result.intent with
      | none => .error s!"Order intent {id} disappeared."
      | some updated =>
        let noted := { missed with
          journal
          nonterminalByClient := setIntent s.nonterminalByClient updated
          ownedByClient := setIntent s.ownedByClient updated }
        let refused := result.applied = false ∧ reconcileStates updated.row.state = false
        return (if refused then noted.trip s!"quarantine transition refused for {id}" else noted).trip reason

def performReconcile (brokerOrders : List BrokerOrder) (activeClientIds : List String)
    (now : Number) (breakerReason : Option String) (journal : Journal) : Except String OrderManagerReconcileReport := do
  let matchedOrders := brokerOrders.foldl (reconcileOrder adoptOrder now journal.rows)
    (ReconcileState.load journal breakerReason)
  let s ← (nonterminalIntents journal).foldlM (reconcileMissing now) matchedOrders
  return {
    state := s
    unknownOrders := (s.nonterminalByClient.filter fun intent => reconcileStates intent.row.state).length
    unattendedWorkingOrders := (s.nonterminalByClient.filter fun intent =>
      ¬ reconcileStates intent.row.state ∧ intent.row.state ≠ .created ∧ intent.clientOrderId ∉ activeClientIds).length }

end BoxEngine
