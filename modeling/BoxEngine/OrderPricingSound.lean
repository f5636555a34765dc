import BoxEngine.FundingStagesSound
import BoxEngine.OrderPricing

/-!
# Every envelope the pricer builds is sendable

On a grid of whole ticks the roundings change nothing: the band takes the limit away from the reference and the floor
brings it back no further.
-/

namespace BoxEngine

open Js

/-! ## On the grid -/

theorem roundNumber_natCast (n : ℕ) : roundNumber (.fin n) = .fin n := by
  simpa [roundNumber] using mathRound_intCast n

theorem max_fin (a b : ℚ) : Number.max (.fin a) (.fin b) = .fin (max a b) := by
  by_cases h : a < b
  · simp [Number.max, h, max_eq_right h.le]
  · simp [Number.max, h, max_eq_left (not_lt.mp h)]

theorem chaseTicks_natCast (chase : ℕ) : Number.max (.fin 0) (roundNumber (.fin chase)) = .fin chase := by
  simp [roundNumber_natCast, max_fin]

theorem isInteger_natCast (n : ℕ) : (Number.fin n).isInteger = true := by
  have hden : ((n : ℚ)).den = 1 := rfl
  simp [Number.isInteger, Rat.isInt, hden]

theorem round2_ticks (k : ℤ) (paise : ℕ) : round2 (k * (paise / 100)) = k * (paise / 100) := by
  have h := round2_of_int (k * paise)
  push_cast at h
  rwa [mul_div_assoc] at h

theorem roundToTick_ticks (k : ℤ) {paise : ℕ} (hpaise : 0 < paise) :
    roundToTick (.fin (k * (paise / 100))) (.fin (paise / 100)) = .fin (k * (paise / 100)) := by
  have htick : (0 : ℚ) < paise / 100 := by positivity
  have hcount : (k * (paise / 100) : ℚ) / (paise / 100) = k := mul_div_cancel_right₀ _ htick.ne'
  have hpos : ¬¬Number.fin 0 < .fin (paise / 100) := not_not_intro (Number.fin_lt_fin.mpr htick)
  rw [roundToTick, if_neg hpos, Number.div_fin htick.ne', hcount, roundNumber, mathRound_intCast, Number.mul_fin,
    round2Price, round2_ticks]

def limitTicks (side : OrderSide) (ticks chase : ℕ) : ℕ :=
  if side = .buy then ticks + chase else max 1 (ticks - chase)

theorem computeLimitPrice_ticks (side : OrderSide) {paise ticks : ℕ} (hpaise : 0 < paise) (hticks : 0 < ticks)
    (chase : ℕ) : computeLimitPrice side (.fin (ticks * (paise / 100))) (.fin (paise / 100)) (.fin chase) =
      .fin (limitTicks side ticks chase * (paise / 100)) := by
  have htick : (0 : ℚ) < paise / 100 := by positivity
  have hpos : Number.fin 0 < .fin (paise / 100) := Number.fin_lt_fin.mpr htick
  have hraw : (if side = .buy then (Number.fin (ticks * (paise / 100))).add (.fin (chase * (paise / 100)))
      else (Number.fin (ticks * (paise / 100))).sub (.fin (chase * (paise / 100)))) =
      .fin ((if side = .buy then (ticks + chase : ℤ) else ticks - chase : ℤ) * (paise / 100)) := by
    by_cases hside : side = .buy
    · simp [hside, Number.add_fin, add_mul]
    · simp [hside, Number.sub_fin, sub_mul]
  simp only [computeLimitPrice, if_pos hpos, chaseTicks_natCast, Number.mul_fin, hraw, roundToTick_ticks _ hpaise,
    max_fin]
  congr 1
  have hfloor : ((limitTicks side ticks chase : ℕ) : ℤ) =
      max 1 (if side = .buy then (ticks + chase : ℤ) else ticks - chase) := by
    by_cases hside : side = .buy
    · simp only [limitTicks, if_pos hside]
      omega
    · simp only [limitTicks, if_neg hside]
      omega
  have hcast : ((limitTicks side ticks chase : ℕ) : ℚ) =
      max 1 ((if side = .buy then (ticks + chase : ℤ) else ticks - chase : ℤ) : ℚ) := by exact_mod_cast hfloor
  rw [hcast, max_mul_of_nonneg _ _ htick.le, one_mul]

variable {ticks : ℕ}

theorem limitTicks_pos (side : OrderSide) (hticks : 0 < ticks) (chase : ℕ) : 0 < limitTicks side ticks chase := by
  by_cases hside : side = .buy
  · simp only [limitTicks, if_pos hside]
    omega
  · simp only [limitTicks, if_neg hside]
    omega

theorem limitTicks_buy {side : OrderSide} (hside : side = .buy) (ticks chase : ℕ) :
    ticks ≤ limitTicks side ticks chase ∧ limitTicks side ticks chase ≤ ticks + chase := by
  simp only [limitTicks, if_pos hside]
  omega

theorem limitTicks_sell {side : OrderSide} (hside : side ≠ .buy) (hticks : 0 < ticks) (chase : ℕ) :
    limitTicks side ticks chase ≤ ticks ∧ ticks ≤ limitTicks side ticks chase + chase := by
  simp only [limitTicks, if_neg hside]
  omega

/-! ## The validator -/

theorem assertBoundedLimit_ticks {req : BrokerOrderRequest} {ceilings : Option BoundedLimitCeilings}
    {paise ticks chase limit quantity : ℕ} (hpaise : 0 < paise) (hticks : 0 < ticks) (hlimit : 0 < limit)
    (hquantity : 0 < quantity) (hceiling : ∀ c, chaseCeilingFor req.phase ceilings = some c → ¬c < .fin chase)
    (hq : req.quantity = .fin quantity)
    (hp : req.pricing = ⟨.fin (ticks * (paise / 100)), .fin (paise / 100), .fin chase, .fin (limit * (paise / 100))⟩)
    (hmax : (limit * (paise / 100) : ℚ) ≤ 10000000)
    (hbuy : req.side = .buy → ticks ≤ limit ∧ limit ≤ ticks + chase)
    (hsell : req.side ≠ .buy → limit ≤ ticks ∧ ticks ≤ limit + chase) :
    assertBoundedLimit req ceilings = .ok () := by
  have htick : (0 : ℚ) < paise / 100 := by positivity
  have hquantity' : ¬(req.quantity.isInteger = false ∨ req.quantity ≤ .fin 0) := by
    simp [hq, isInteger_natCast, hquantity.ne']
  have hnumbers : ¬(req.pricing.referencePrice.isFinite = false ∨ req.pricing.referencePrice ≤ .fin 0 ∨
      req.pricing.tickSize.isFinite = false ∨ req.pricing.tickSize ≤ .fin 0 ∨
      req.pricing.maxChaseTicks.isInteger = false ∨ req.pricing.maxChaseTicks < .fin 0 ∨
      (∃ ceiling ∈ chaseCeilingFor req.phase ceilings, ceiling < req.pricing.maxChaseTicks) ∨
      req.pricing.limitPrice.isFinite = false ∨ req.pricing.limitPrice ≤ .fin 0 ∨
      .fin 10000000 < req.pricing.limitPrice) := by
    have href : (0 : ℚ) < ticks * (paise / 100) := by positivity
    have hlim : (0 : ℚ) < limit * (paise / 100) := by positivity
    rw [hp]
    simp only [Number.isFinite_fin, Number.fin_le_fin, Number.fin_lt_fin, isInteger_natCast, not_or, not_le, not_lt]
    refine ⟨by simp, href, by simp, htick, by simp, by simp, ?_, by simp, hlim, hmax⟩
    rintro ⟨ceiling, hmem, hlt⟩
    exact hceiling ceiling hmem hlt
  have haligned : ¬Number.fin (1 / 10000000) < absNumber ((req.pricing.limitPrice.div req.pricing.tickSize).sub
      (roundNumber (req.pricing.limitPrice.div req.pricing.tickSize))) := by
    have hcount : (limit * (paise / 100) : ℚ) / (paise / 100) = limit := mul_div_cancel_right₀ _ htick.ne'
    rw [hp, Number.div_fin htick.ne', hcount, roundNumber_natCast, Number.sub_fin]
    simp [absNumber]
  have hscale {a b : ℕ} (h : a ≤ b) : (a * (paise / 100) : ℚ) ≤ b * (paise / 100) :=
    mul_le_mul_of_nonneg_right (by exact_mod_cast h) htick.le
  have htolerance : (0 : ℚ) < max (1 / 100000000) ((paise : ℚ) / 100 / 10000) := lt_max_of_lt_left
      (by norm_num : (0 : ℚ) < 1 / 100000000)
  rw [assertBoundedLimit]
  simp only [if_neg hquantity', if_neg hnumbers, if_neg haligned]
  simp only [hp, Number.mul_fin, Number.div_fin (show (10000 : ℚ) ≠ 0 by norm_num), max_fin, Number.sub_fin,
    Number.add_fin, Number.fin_le_fin]
  -- whole ticks pass every check; what is left is the chase to either side
  refine if_neg (not_not_intro ?_)
  by_cases hside : req.side = .buy
  · obtain ⟨hlow, hhigh⟩ := hbuy hside
    have hlow' := hscale hlow
    have hhigh' := hscale hhigh
    push_cast at hhigh'
    rw [if_pos hside]
    constructor <;> linarith
  · obtain ⟨hhigh, hlow⟩ := hsell hside
    have hlow' := hscale hlow
    have hhigh' := hscale hhigh
    push_cast at hlow'
    rw [if_neg hside]
    constructor <;> linarith

/-- The limit is at the reference or past it by at most the band, and the envelope passes the validator up to the
greatest price it takes. -/
theorem pricer_accepted (req : BrokerOrderRequest) (ceilings : Option BoundedLimitCeilings)
    (orderType : Option PaperOrderType) (paise ticks chase quantity : ℕ) (hpaise : 0 < paise) (hticks : 0 < ticks)
    (hquantity : 0 < quantity) (hceiling : ∀ c, chaseCeilingFor req.phase ceilings = some c → ¬c < .fin chase) :
    let tick : ℚ := paise / 100
    let envelope := buildOrderPricing req.side (.fin quantity) (.fin (ticks * tick)) (.fin tick) (.fin chase) orderType
    ∃ limit : ℕ, 0 < limit ∧ envelope.limitPrice = .fin (limit * tick) ∧
      (req.side = .buy → ticks ≤ limit ∧ limit ≤ ticks + chase) ∧
      (req.side = .sell → limit ≤ ticks ∧ ticks ≤ limit + chase ∧ (ticks ≤ chase → limit = 1)) ∧
      (envelope.limitPrice ≤ .fin 10000000 →
        assertBoundedLimit { req with quantity := envelope.quantity, pricing := envelope.toLimit } ceilings =
          .ok ()) := by
  intro tick envelope
  have htick : (0 : ℚ) < tick := by positivity
  have hpos : Number.fin 0 < .fin tick := Number.fin_lt_fin.mpr htick
  have hlimit : envelope.limitPrice = .fin (limitTicks req.side ticks chase * tick) := by
    simp only [envelope, buildOrderPricing, if_pos hpos]
    exact computeLimitPrice_ticks req.side hpaise hticks chase
  have hreference : envelope.referencePrice = .fin (ticks * tick) := by
    have h := round2_ticks ticks paise
    simpa [envelope, buildOrderPricing, round2Price] using h
  have hpricing : envelope.toLimit =
      ⟨.fin (ticks * tick), .fin tick, .fin chase, .fin (limitTicks req.side ticks chase * tick)⟩ := by
    rw [PaperOrderPricing.toLimit, hlimit, hreference]
    simp only [envelope, buildOrderPricing, if_pos hpos, chaseTicks_natCast]
  refine ⟨limitTicks req.side ticks chase, limitTicks_pos _ hticks chase, hlimit,
    fun hside => limitTicks_buy hside ticks chase, fun hside => ?_, fun hmax => ?_⟩
  · have hsell : req.side ≠ .buy := by simp [hside]
    refine ⟨(limitTicks_sell hsell hticks chase).1, (limitTicks_sell hsell hticks chase).2, fun hband => ?_⟩
    simp only [limitTicks, if_neg hsell]
    omega
  · rw [hlimit, Number.fin_le_fin] at hmax
    exact assertBoundedLimit_ticks hpaise hticks (limitTicks_pos _ hticks chase) hquantity hceiling rfl hpricing hmax
      (fun hside => limitTicks_buy hside ticks chase) (fun hside => limitTicks_sell hside hticks chase)

def fivePaiseSell : BrokerOrderRequest where
  clientOrderId := "BOX:T1:EMERGENCY_RESIDUAL:K1_CE:a"
  role := .k1Ce
  tradeId := some "T1"
  attemptId := "a"
  purpose := .emergencyResidual
  phase := .unwind
  exchange := "NFO"
  tradingsymbol := "NIFTY26JUN25000CE"
  token := .fin 1
  side := .sell
  quantity := .fin 75
  pricing := ⟨.fin (1 / 20), .fin (1 / 20), .fin 2, .fin (1 / 20)⟩

theorem pricer_accepted_five_paise :
    (∀ c, chaseCeilingFor fivePaiseSell.phase (some (.perPhase (.fin 1) (.fin 2))) = some c → ¬c < .fin (2 : ℕ)) ∧
      assertBoundedLimit fivePaiseSell (some (.perPhase (.fin 1) (.fin 2))) = .ok () := by
  have hceiling : ∀ c, chaseCeilingFor fivePaiseSell.phase (some (.perPhase (.fin 1) (.fin 2))) = some c →
      ¬c < .fin (2 : ℕ) := by
    intro c hc
    have : c = .fin 2 := by simpa [chaseCeilingFor, fivePaiseSell] using hc.symm
    simp [this]
  obtain ⟨limit, -, -, -, -, hsent⟩ := pricer_accepted fivePaiseSell (some (.perPhase (.fin 1) (.fin 2))) none 5 1 2 75
    (by decide) (by decide) (by decide) hceiling
  have hsame : { fivePaiseSell with
      quantity := (buildOrderPricing .sell (.fin (75 : ℕ)) (.fin ((1 : ℕ) * ((5 : ℕ) / 100))) (.fin ((5 : ℕ) / 100))
        (.fin (2 : ℕ)) none).quantity
      pricing := (buildOrderPricing .sell (.fin (75 : ℕ)) (.fin ((1 : ℕ) * ((5 : ℕ) / 100))) (.fin ((5 : ℕ) / 100))
        (.fin (2 : ℕ)) none).toLimit } = fivePaiseSell := by decide +kernel
  exact ⟨hceiling, hsame ▸ hsent (by decide +kernel)⟩

end BoxEngine
