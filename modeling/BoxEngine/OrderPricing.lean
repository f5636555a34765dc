import BoxEngine.BoxScanner
import BoxEngine.Tuning

/-!
# Order pricing

The pricing envelope of one order, a limit a bounded number of ticks past its reference, and the check every adapter
makes of an envelope before it sends anything.
-/

namespace BoxEngine

open Js

def roundNumber : Number → Number
  | .fin q => .fin (mathRound q)
  | n => n

def absNumber : Number → Number
  | .fin q => .fin |q|
  | .negInf => .posInf
  | n => n

inductive PaperOrderType where
  | marketableLimit
  | passiveLimit
  deriving DecidableEq

structure PaperOrderPricing where
  orderType : PaperOrderType
  side : OrderSide
  quantity : Number
  referencePrice : Number
  tickSize : Number
  maxChaseTicks : Number
  limitPrice : Number

def roundToTick (price tick : Number) : Number :=
  if ¬.fin 0 < tick then round2Price price else round2Price ((roundNumber (price.div tick)).mul tick)

def computeLimitPrice (side : OrderSide) (referencePrice tickSize maxChaseTicks : Number) : Number :=
  let tick := if .fin 0 < tickSize then tickSize else .fin 0
  let chase := (Number.max (.fin 0) (roundNumber maxChaseTicks)).mul tick
  let raw := if side = .buy then referencePrice.add chase else referencePrice.sub chase
  let snapped := roundToTick raw tickSize
  if .fin 0 < tick then tick.max snapped else snapped

def buildOrderPricing (side : OrderSide) (quantity referencePrice tickSize maxChaseTicks : Number)
    (orderType : Option PaperOrderType) : PaperOrderPricing :=
  let tick := if .fin 0 < tickSize then tickSize else .fin (1 / 20)
  { orderType := orderType.getD .marketableLimit
    side, quantity
    referencePrice := round2Price referencePrice
    tickSize := tick
    maxChaseTicks := Number.max (.fin 0) (roundNumber maxChaseTicks)
    limitPrice := computeLimitPrice side referencePrice tick maxChaseTicks }

def PaperOrderPricing.toLimit (pricing : PaperOrderPricing) : BrokerLimitPricing :=
  { referencePrice := pricing.referencePrice, tickSize := pricing.tickSize, maxChaseTicks := pricing.maxChaseTicks
    limitPrice := pricing.limitPrice }

/-- One chase ceiling for every phase, or one for entries and one for reductions. -/
inductive BoundedLimitCeilings where
  | single (ceiling : Number)
  | perPhase (entry reduction : Number)

def chaseCeilingFor (phase : BoxOrderPhase) : Option BoundedLimitCeilings → Option Number
  | none => none
  | some (.single ceiling) => some ceiling
  | some (.perPhase entry reduction) => some (if phase = .entry then entry else reduction)

/-- An envelope is a bounded limit by its type; what is left to check are its numbers. -/
def assertBoundedLimit (req : BrokerOrderRequest) (configuredMaxChaseTicks : Option BoundedLimitCeilings) :
    Except String Unit :=
  let pricing := req.pricing
  let limit := pricing.limitPrice.toText
  let tick := pricing.tickSize.toText
  let quantity := req.quantity.toText
  if req.quantity.isInteger = false ∨ req.quantity ≤ .fin 0 then .error s!"Invalid order quantity {quantity}."
  else if pricing.referencePrice.isFinite = false ∨ pricing.referencePrice ≤ .fin 0 ∨
      pricing.tickSize.isFinite = false ∨ pricing.tickSize ≤ .fin 0 ∨
      pricing.maxChaseTicks.isInteger = false ∨ pricing.maxChaseTicks < .fin 0 ∨
      (∃ ceiling ∈ chaseCeilingFor req.phase configuredMaxChaseTicks, ceiling < pricing.maxChaseTicks) ∨
      pricing.limitPrice.isFinite = false ∨ pricing.limitPrice ≤ .fin 0 ∨ .fin 10000000 < pricing.limitPrice then
    .error "Invalid bounded LIMIT pricing envelope."
  else
    let ticks := pricing.limitPrice.div pricing.tickSize
    if .fin (1 / 10000000) < absNumber (ticks.sub (roundNumber ticks)) then
      .error s!"LIMIT {limit} is not aligned to tick size {tick}."
    else
      let band := pricing.tickSize.mul pricing.maxChaseTicks
      let tolerance := Number.max (.fin (1 / 100000000)) (pricing.tickSize.div (.fin 10000))
      let lower := (pricing.referencePrice.sub band).sub tolerance
      let upper := (pricing.referencePrice.add band).add tolerance
      let correctlyDirected :=
        if req.side = .buy then
          pricing.referencePrice.sub tolerance ≤ pricing.limitPrice ∧ pricing.limitPrice ≤ upper
        else pricing.limitPrice ≤ pricing.referencePrice.add tolerance ∧ lower ≤ pricing.limitPrice
      if ¬correctlyDirected then .error s!"LIMIT {limit} exceeds the configured chase band." else .ok ()

end BoxEngine
