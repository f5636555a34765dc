import BoxEngine.Lib.Keyed
import Mathlib.Algebra.Ring.Int.Defs
import Mathlib.Algebra.Order.Group.Unbundled.Int

/-!
# Reservations of the order manager

What queued and unresolved legs hold, entry legs by client order id and attempt and reductions by client
order id and contract, with the totals kept beside them.
-/

namespace BoxEngine

structure EntryReservation where
  clientOrderId : String
  attemptId : String
  quantity : ℤ

structure ReductionReservation where
  clientOrderId : String
  symbol : String
  quantity : ℤ

structure Reservations where
  reservations : List EntryReservation
  reservedEntryQuantity : ℤ
  reductionReservations : List ReductionReservation
  reservedReductionsBySymbol : String → ℤ
  reservedReductionQuantity : ℤ

structure Commitment where
  clientOrderId : String
  attemptId : String
  symbol : String
  quantity : ℤ

namespace Reservations

def empty : Reservations := ⟨[], 0, [], fun _ => 0, 0⟩

variable (r : Reservations)
variable (clientOrderId : String)

def entryOf : Option EntryReservation :=
  r.reservations.find? fun entry => entry.clientOrderId = clientOrderId

def reductionOf : Option ReductionReservation :=
  r.reductionReservations.find? fun reduction => reduction.clientOrderId = clientOrderId

def reserveEntry (c : Commitment) : Reservations :=
  { r with
    reservations := Keyed.put EntryReservation.clientOrderId r.reservations ⟨c.clientOrderId, c.attemptId, c.quantity⟩
    reservedEntryQuantity := r.reservedEntryQuantity + c.quantity }

def reserveReduction (c : Commitment) : Reservations :=
  { r with
    reductionReservations :=
      Keyed.put ReductionReservation.clientOrderId r.reductionReservations ⟨c.clientOrderId, c.symbol, c.quantity⟩
    reservedReductionsBySymbol :=
      Function.update r.reservedReductionsBySymbol c.symbol (r.reservedReductionsBySymbol c.symbol + c.quantity)
    reservedReductionQuantity := r.reservedReductionQuantity + c.quantity }

/-- An entry's reservation gives up what has durably filled; a reduction's does not. -/
def reduceReservationByFill (filledDelta : ℤ) : Reservations :=
  if 0 < filledDelta then
    match r.entryOf clientOrderId with
    | none => r
    | some held =>
      let remaining := max 0 (held.quantity - filledDelta)
      let consumed := held.quantity - remaining
      if 0 < held.quantity ∧ 0 < consumed then
        { r with
          reservedEntryQuantity := max 0 (r.reservedEntryQuantity - consumed)
          reservations :=
            if remaining = 0 then r.reservations.filter fun entry => ¬ entry.clientOrderId = clientOrderId
            else Keyed.put EntryReservation.clientOrderId r.reservations { held with quantity := remaining } }
      else r
  else r

def releaseEntry : Reservations :=
  let quantity := ((r.entryOf clientOrderId).map EntryReservation.quantity).getD 0
  { r with
    reservedEntryQuantity := if 0 < quantity then max 0 (r.reservedEntryQuantity - quantity) else r.reservedEntryQuantity
    reservations := r.reservations.filter fun entry => ¬ entry.clientOrderId = clientOrderId }

def releaseReduction : Reservations :=
  match r.reductionOf clientOrderId with
  | none => r
  | some reduction =>
    { r with
      reservedReductionsBySymbol :=
        Function.update r.reservedReductionsBySymbol reduction.symbol
          (max 0 (r.reservedReductionsBySymbol reduction.symbol - reduction.quantity))
      reservedReductionQuantity := max 0 (r.reservedReductionQuantity - reduction.quantity)
      reductionReservations := r.reductionReservations.filter fun held => ¬ held.clientOrderId = clientOrderId }

def releaseReservation : Reservations :=
  (r.releaseEntry clientOrderId).releaseReduction clientOrderId

def reservedEntryQuantityForAttempt (attemptId : String) : ℤ :=
  ((r.reservations.filter fun entry => entry.attemptId = attemptId).map EntryReservation.quantity).sum

end Reservations

end BoxEngine
