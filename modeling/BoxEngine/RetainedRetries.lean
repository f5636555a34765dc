import BoxEngine.OwnedExecutions

/-!
# Retained payloads beside exits and closes

The passes over the retained payloads beside partial exits and closes of what they adopted. Nothing of the engine
reads the record of the inserts that returned.
-/

namespace BoxEngine

structure Adoption where
  id : String
  replaced : Option (Booked BoxTradePayload)
  rowOpen : Bool

structure ReturnedInsert where
  retained : RetainedExecution
  adopted : Option Adoption

/-- The owned executions with what exits and closes made of them. -/
structure RetriedExecutions where
  engine : OwnedExecutions
  closed : List String
  returned : List ReturnedInsert

inductive RetryEvent where
  | owned (event : OwnershipEvent)
  | exitStored (id : String) (remaining : RoleQuantities)
  | exited (id : String) (remaining : RoleQuantities)
  | closed (id : String)
  | removed (id : String)

namespace OwnedExecutions

variable (s : OwnedExecutions)

def answered (n : ℕ) (allocated : String) (answer : InsertAnswer) :
    Option (RetainedExecution × Except Unit (Option BoxTradeRow)) :=
  (s.passes[n]?).bind fun pass => ((s.arrays pass.array)[pass.index]?).map fun kept =>
    (kept, (insertBoxTrade s.store kept.payload kept.preallocatedId allocated answer).2)

variable (id : String)

def writeRow (remaining : RoleQuantities) : OwnedExecutions :=
  { s with store := s.store.map fun row =>
      if row.id = id then { row with payload := { row.payload with remainingQtyByRole := remaining } } else row }

def exit (remaining : RoleQuantities) : OwnedExecutions :=
  let exited (payload : BoxTradePayload) : BoxTradePayload := { payload with remainingQtyByRole := remaining }
  { s with positions := s.positions.modify id exited }

def remove : OwnedExecutions := { s with positions := s.positions.remove id }

end OwnedExecutions

namespace RetriedExecutions

variable (s : RetriedExecutions)

def adoption (row : BoxTradeRow) : Adoption where
  id := row.id
  replaced := s.engine.positions.get row.id
  rowOpen := decide (row.id ∉ s.closed)

/-- The inserts whose answer came back. -/
def returns : OwnershipEvent → List ReturnedInsert
  | .drained n allocated answer =>
    match s.engine.answered n allocated answer with
    | some (retained, .ok row) => [⟨retained, row.map s.adoption⟩]
    | _ => []
  | _ => []

def booked (id : String) : Bool := (s.engine.positions.get id).isSome

def step (mode : ExecutionMode) (s : RetriedExecutions) : RetryEvent → RetriedExecutions × Unit
  | .owned event =>
    ({ s with engine := (s.engine.step mode event).1, returned := s.returned ++ s.returns event }, ())
  | .exitStored id remaining =>
    (if s.booked id then { s with engine := s.engine.writeRow id remaining } else s, ())
  | .exited id remaining => ({ s with engine := s.engine.exit id remaining }, ())
  | .closed id => (if s.booked id ∧ id ∉ s.closed then { s with closed := s.closed ++ [id] } else s, ())
  | .removed id => (if id ∈ s.closed then { s with engine := s.engine.remove id } else s, ())

end RetriedExecutions

end BoxEngine
