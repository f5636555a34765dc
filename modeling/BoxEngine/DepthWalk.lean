import BoxEngine.FlattenPass
import BoxEngine.Lib.Binary64
import BoxEngine.LiveExit
import Mathlib.Data.List.Sort

/-!
# Walking a book

How much of an order one book fills and at what prices: the usable levels best first, down to the
limit, no more of each than the queue model and earlier reservations leave.
-/

namespace BoxEngine

open Js

def priceEps : ℚ := 1 / 1000000000

def maxSafeInteger : ℕ := 9007199254740991

structure BoxDepthLevel where
  price : Number
  qty : Number

inductive BoxQueueModel where
  | none | haircut
  deriving DecidableEq

/-- The whole number a quantity stands for; nothing where it is not a positive safe integer. -/
def usableQty : Number → ℕ
  | .fin q => if isSafeInteger (.fin q) ∧ 0 < q then q.num.toNat else 0
  | _ => 0

/-- What is left of one after a haircut, in the arithmetic of doubles. -/
def haircutFactor (pct : ℚ) : ℚ := Binary64.rounded (1 - Binary64.rounded (min 100 (max 0 pct) / 100))

/-- The part of a displayed quantity that counts as executable, floored after the double product: of 90 shown a haircut
of 30 leaves 62, not 63. -/
def effectiveQty (displayed : Number) (model : BoxQueueModel) (haircutPct : Number) : ℕ :=
  match model with
  | .none => usableQty displayed
  | .haircut =>
    match haircutPct with
    | .fin pct => ⌊Binary64.rounded (usableQty displayed * haircutFactor pct)⌋₊
    | _ => 0

example : effectiveQty (.fin 90) .haircut (.fin 30) = 62 := by decide +kernel
example : effectiveQty (.fin 10) .haircut (.fin 90) = 0 := by decide +kernel

def withinLimit (side : OrderSide) (price limit : Number) : Bool :=
  match price, limit with
  | .fin p, .fin l =>
    decide (0 < p) && decide (0 < l) &&
      match side with
      | .buy => decide (p ≤ l + priceEps)
      | .sell => decide (l - priceEps ≤ p)
  | _, _ => false

structure PaperFillSlice where
  price : ℚ
  qty : ℕ
  displayedQty : Number
  effectiveQty : ℕ
  at_ : Number
  quoteVersion : Option Number

structure DepthWalkResult where
  filledQty : ℕ
  averagePrice : Option ℚ
  slices : List PaperFillSlice
  executableWithinLimit : ℕ

structure DepthWalk where
  side : OrderSide
  remainingQty : Number
  limitPrice : Number
  queueModel : BoxQueueModel
  haircutPct : Number
  at_ : Number
  quoteVersion : Option Number
  reserved : Option (Number → Option Number → Number)

namespace BoxDepthLevel

def usable (lv : BoxDepthLevel) : Bool :=
  lv.price.isFinite && decide (.fin 0 < lv.price) && (lv.price.mul (.fin 100)).isFinite &&
    isSafeInteger lv.qty && decide (.fin 0 < lv.qty) && (lv.price.mul lv.qty).isFinite

/-- Best price first. Only usable levels are compared, so both prices are finite. -/
def ranks (side : OrderSide) (a b : BoxDepthLevel) : Prop :=
  match side with
  | .buy => a.price.value ≤ b.price.value
  | .sell => b.price.value ≤ a.price.value

instance : ∀ side : OrderSide, DecidableRel (ranks side)
  | .buy => fun a b => inferInstanceAs (Decidable (a.price.value ≤ b.price.value))
  | .sell => fun a b => inferInstanceAs (Decidable (b.price.value ≤ a.price.value))

end BoxDepthLevel

structure WalkState where
  remaining : ℕ
  filled : ℕ
  valueSum : ℚ
  executableWithinLimit : ℕ
  slices : List PaperFillSlice

namespace DepthWalk

def effective (order : DepthWalk) (lv : BoxDepthLevel) : ℕ :=
  let effectiveRaw := BoxEngine.effectiveQty lv.qty order.queueModel order.haircutPct
  let already := order.reserved.elim 0 fun reserved => usableQty (reserved lv.price order.quoteVersion)
  effectiveRaw - already

def visit (order : DepthWalk) (lv : BoxDepthLevel) (state : WalkState) : WalkState :=
  let effective := order.effective lv
  let state := { state with
    executableWithinLimit := min maxSafeInteger (state.executableWithinLimit + effective) }
  if state.remaining = 0 ∨ effective = 0 then state
  else
    let take := min state.remaining effective
    if take = 0 then state
    else
      { state with
        slices := state.slices ++ [⟨round2 lv.price.value, take, lv.qty, effective, order.at_, order.quoteVersion⟩]
        filled := state.filled + take
        valueSum := state.valueSum + lv.price.value * take
        remaining := state.remaining - take }

def walk (order : DepthWalk) : List BoxDepthLevel → WalkState → WalkState
  | [], state => state
  | lv :: rest, state =>
    if withinLimit order.side lv.price order.limitPrice then order.walk rest (order.visit lv state) else state

end DepthWalk

def walkDepth (order : DepthWalk) (levels : List BoxDepthLevel) : DepthWalkResult :=
  if isSafeInteger order.remainingQty = false ∨ order.remainingQty ≤ .fin 0 ∨
      order.limitPrice.isFinite = false ∨ order.limitPrice ≤ .fin 0 then ⟨0, none, [], 0⟩
  else
    let ordered := (levels.filter BoxDepthLevel.usable).insertionSort (BoxDepthLevel.ranks order.side)
    let state := order.walk ordered ⟨usableQty order.remainingQty, 0, 0, 0, []⟩
    { filledQty := state.filled
      averagePrice := if 0 < state.filled then some (round2 (state.valueSum / state.filled)) else none
      slices := state.slices
      executableWithinLimit := state.executableWithinLimit }

end BoxEngine
