import BoxEngine.IntentJournal

/-!
# The reconciler

A write is evaluated at the journal and its answer arrives later; a pass loads the journal and puts the exposure it
derived in place of the running one unless its copy was overtaken.
-/

namespace BoxEngine

open Js

namespace StoredIntent

def contract (stored : StoredIntent) : String := s!"{stored.row.exchange}:{stored.row.tradingsymbol}"

def signed (stored : StoredIntent) (quantity : Number) : Number :=
  if stored.row.side = .buy then quantity else quantity.neg

end StoredIntent

/-- What an applied write added to the fill; a fall or an unknown image counts as nothing. -/
def durableFillDelta (result : BoxOrderIntentUpdateResult) : Number :=
  match result with
  | ⟨_, true, some previous, some current⟩ =>
    let delta := current.sub previous
    if delta < .fin 0 then .fin 0 else delta
  | _ => .fin 0

structure InFlight where
  own : Bool
  attributes : Bool
  updated : StoredIntent
  result : BoxOrderIntentUpdateResult

inductive ReconcilePass where
  | idle
  | loading (loaded : List StoredIntent)
  | running (owned : List StoredIntent)

structure Reconciler where
  journal : Journal
  inFlight : List InFlight
  knownIntents : List StoredIntent
  attributedBoxPositions : String → Number
  pass : ReconcilePass

variable (owned : List StoredIntent)

def intentNetBySymbol (symbol : String) : Number :=
  (owned.filter fun intent => .fin 0 < intent.row.filledQuantity && intent.contract = symbol).foldl
    (fun net intent => net.add (intent.signed intent.row.filledQuantity)) (.fin 0)

def ownedSymbols : List String := owned.map StoredIntent.contract

/-- A known fill the copy is behind, or has no row for, on a symbol it is about to rebuild. -/
def overtaken (owned : List StoredIntent) (known : StoredIntent) : Bool :=
  .fin 0 < known.row.filledQuantity && known.contract ∈ ownedSymbols owned &&
    (owned.find? fun intent => intent.clientOrderId = known.clientOrderId).all fun snapshot =>
      snapshot.row.filledQuantity < known.row.filledQuantity

def snapshotIsStale (owned known : List StoredIntent) : Bool := known.any (overtaken owned)

def rebuiltPositions (positions : String → Number) : String → Number :=
  fun symbol => if symbol ∈ ownedSymbols owned then intentNetBySymbol owned symbol else positions symbol

def InFlight.attribute (answer : InFlight) (positions : String → Number) : String → Number :=
  let delta := durableFillDelta answer.result
  let key := answer.updated.contract
  if answer.attributes ∧ .fin 0 < delta then
    Function.update positions key ((positions key).add (answer.updated.signed delta))
  else positions

def setIntent (intents : List StoredIntent) (intent : StoredIntent) : List StoredIntent :=
  Keyed.put StoredIntent.clientOrderId intents intent

def ReconcilePass.note (pass : ReconcilePass) (updated : StoredIntent) : ReconcilePass :=
  match pass with
  | running owned => running (setIntent owned updated)
  | pass => pass

/-! ## Steps -/

inductive ReconcilerEvent where
  | create (fresh : StoredIntent)
  | evaluate (own : Bool) (call : JournalCall)
  | deliver (place : ℕ)
  | load
  | loaded
  | rebuild
  | abort

def ReconcilePass.isRunning : ReconcilePass → Bool
  | running _ => true
  | _ => false

namespace Reconciler

variable (m : Reconciler)

def awaiting : Bool := m.inFlight.any InFlight.own

def create (fresh : StoredIntent) : Reconciler :=
  if h : fresh.row.filledQuantity = .fin 0 ∧ fresh.clientOrderId ∉ m.journal.rows.map StoredIntent.clientOrderId then
    { m with
      journal := m.journal.insert fresh h.2
      inFlight := m.inFlight ++ [⟨false, false, fresh, ⟨some fresh, false, some (.fin 0), some (.fin 0)⟩⟩] }
  else m

def evaluate (own : Bool) (call : JournalCall) : Reconciler :=
  if own ∧ m.pass.isRunning = false then m
  else
    match call.run m.journal with
    | .error _ => m
    | .ok (journal, result) =>
      match result.intent with
      | none => m
      | some updated => { m with journal, inFlight := m.inFlight ++ [⟨own, call.isPersist, updated, result⟩] }

def deliver (place : ℕ) : Reconciler :=
  match m.inFlight[place]? with
  | none => m
  | some answer =>
    { m with
      inFlight := m.inFlight.eraseIdx place
      attributedBoxPositions := answer.attribute m.attributedBoxPositions
      knownIntents := setIntent m.knownIntents answer.updated
      pass := if answer.own then m.pass.note answer.updated else m.pass }

def rebuild : Reconciler :=
  match m.pass with
  | .running owned =>
    if m.awaiting then m
    else if snapshotIsStale owned m.knownIntents then { m with pass := .idle }
    else { m with attributedBoxPositions := rebuiltPositions owned m.attributedBoxPositions, pass := .idle }
  | _ => m

def step : ReconcilerEvent → Reconciler
  | .create fresh => m.create fresh
  | .evaluate own call => m.evaluate own call
  | .deliver place => m.deliver place
  | .load =>
    match m.pass with
    | .idle => { m with pass := .loading m.journal.rows }
    | _ => m
  | .loaded =>
    match m.pass with
    | .loading rows => { m with knownIntents := rows.foldl setIntent m.knownIntents, pass := .running rows }
    | _ => m
  | .rebuild => m.rebuild
  | .abort => if m.awaiting then m else { m with pass := .idle }

end Reconciler

end BoxEngine
