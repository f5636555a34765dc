import BoxEngine.FlattenRun
import Mathlib.Algebra.BigOperators.Ring.Finset

/-!
# Residual accounting

Every residual accounts for exactly what was observed to fill under its identities. A row without watermarks is read
off its order's immutable quantity.
-/

namespace BoxEngine

open Js

variable (passes : List FlattenEntry)
variable (attempt : ℕ)

def sights : List (ResidualLegExposure × BrokerOrder) :=
  passes.filterMap fun entry =>
    if entry.pass.attempt = attempt then entry.pass.order.map fun order => (entry.pass.residual, order) else none

def latestFill : ℚ :=
  ((sights passes attempt).getLast?.map fun seen => seen.2.filledQuantity.value).getD 0

def projectedBefore : ℚ :=
  match (sights passes attempt).head? with
  | none => 0
  | some (residual, order) =>
    if passWatermarks residual attempt = .legacy then max 0 (order.quantity.value - residual.quantity) else 0

def credit : ℚ :=
  max 0 (latestFill passes attempt - projectedBefore passes attempt)

def credited : ℚ :=
  ∑ attempt ∈ (passes.map fun entry => entry.pass.attempt).toFinset, credit passes attempt

variable (chargeTotal : ChargeTotal)

def billed (keyPrefix : String) (passes : List FlattenEntry) (attempt : ℕ) : ℚ :=
  (passes.map fun entry =>
    if entry.pass.attempt = attempt then (accountPass chargeTotal keyPrefix entry.pass).chargeDelta else 0).sum

def estimate (order : BrokerOrder) : ℚ :=
  residualCumulativeCharges chargeTotal order order.filledQuantity 0

def largestEstimate (passes : List FlattenEntry) (attempt : ℕ) : ℚ :=
  ((sights passes attempt).map fun seen => estimate chargeTotal seen.2).foldl max 0

def requests (attempt : ℕ) : List BrokerOrderRequest :=
  passes.filterMap fun entry => if entry.pass.attempt = attempt then entry.pass.submitted else none

/-- A pass sees an identity's quantity unchanged and its fill not falling, and a new generation's first order is one
asked for. -/
def OrderConsistent (past : List FlattenEntry) (pass : ResidualFlattenPass) (order : BrokerOrder) : Prop :=
  ∃ filled quantity : ℚ, order.filledQuantity = .fin filled ∧ order.quantity = .fin quantity ∧
    0 ≤ filled ∧ filled ≤ quantity ∧
    (∀ seen ∈ sights past pass.attempt, seen.2.quantity = .fin quantity ∧ seen.2.filledQuantity ≤ .fin filled) ∧
    (sights past pass.attempt = [] → passWatermarks pass.residual pass.attempt ≠ .legacy →
      ∃ request ∈ requests past pass.attempt ++ pass.submitted.toList, request.quantity = .fin quantity)

/-- No order was ever seen under a generation the journal proves was never sent. -/
def SkipConsistent (past : List FlattenEntry) (pass : ResidualFlattenPass) : Prop :=
  ∀ attempt, residualFlattenAttempt pass.residual ≤ attempt → attempt < pass.attempt → sights past attempt = []

def BrokerConsistent : Prop :=
  Run.Each (fun past entry => SkipConsistent past entry.pass ∧
    ∀ order, entry.pass.order = some order → OrderConsistent past entry.pass order) passes

/-! ## One more pass -/

section

variable (passes : List FlattenEntry) (entry : FlattenEntry)

theorem sights_snoc (attempt : ℕ) : sights (passes ++ [entry]) attempt = sights passes attempt ++
    (if entry.pass.attempt = attempt then entry.pass.order.map fun order => (entry.pass.residual, order)
      else none).toList := by
  unfold sights
  rw [List.filterMap_append]
  rfl

variable {attempt : ℕ}

theorem sights_other (h : entry.pass.attempt ≠ attempt) :
    sights (passes ++ [entry]) attempt = sights passes attempt := by
  rw [sights_snoc, if_neg h]
  simp

theorem sights_none (h : entry.pass.order = none) : sights (passes ++ [entry]) attempt = sights passes attempt := by
  rw [sights_snoc, h]
  split <;> simp

theorem sights_some {order : BrokerOrder} (h : entry.pass.order = some order) :
    sights (passes ++ [entry]) entry.pass.attempt =
      sights passes entry.pass.attempt ++ [(entry.pass.residual, order)] := by
  rw [sights_snoc, if_pos rfl, h]
  rfl

theorem requests_snoc (attempt : ℕ) : requests (passes ++ [entry]) attempt = requests passes attempt ++
    (if entry.pass.attempt = attempt then entry.pass.submitted else none).toList := by
  unfold requests
  rw [List.filterMap_append]
  rfl

theorem credit_congr {passes passes' : List FlattenEntry} (h : sights passes' attempt = sights passes attempt) :
    credit passes' attempt = credit passes attempt := by
  unfold credit latestFill projectedBefore
  rw [h]

theorem credit_of_unseen {passes : List FlattenEntry} (h : sights passes attempt = []) :
    latestFill passes attempt = 0 ∧ projectedBefore passes attempt = 0 ∧ credit passes attempt = 0 := by
  refine ⟨by simp [latestFill, h], by simp [projectedBefore, h], ?_⟩
  simp [credit, latestFill, projectedBefore, h]

theorem unseen_of_not_mem {passes : List FlattenEntry}
    (h : attempt ∉ (passes.map fun entry => entry.pass.attempt).toFinset) : sights passes attempt = [] := by
  unfold sights
  rw [List.filterMap_eq_nil_iff]
  intro entry hentry
  rw [if_neg]
  rintro rfl
  exact h (List.mem_toFinset.mpr (List.mem_map_of_mem hentry))

theorem credited_snoc : credited (passes ++ [entry]) =
    credited passes + (credit (passes ++ [entry]) entry.pass.attempt - credit passes entry.pass.attempt) := by
  set used := (passes.map fun entry => entry.pass.attempt).toFinset with hused
  have hset : ((passes ++ [entry]).map fun entry => entry.pass.attempt).toFinset =
      insert entry.pass.attempt used := by
    ext attempt
    simp [hused]
  have hold : credited passes = ∑ attempt ∈ insert entry.pass.attempt used, credit passes attempt := by
    unfold credited
    rw [← hused]
    refine (Finset.sum_subset (Finset.subset_insert _ _) ?_)
    intro attempt _ hnot
    exact (credit_of_unseen (unseen_of_not_mem hnot)).2.2
  have hdiff : ∀ attempt ∈ insert entry.pass.attempt used, credit (passes ++ [entry]) attempt =
      credit passes attempt + if attempt = entry.pass.attempt then
        credit (passes ++ [entry]) entry.pass.attempt - credit passes entry.pass.attempt else 0 := by
    intro attempt _
    by_cases h : attempt = entry.pass.attempt
    · rw [if_pos h, h]
      ring
    · rw [if_neg h, add_zero]
      exact credit_congr (sights_other passes entry (Ne.symm h))
  rw [hold]
  unfold credited
  rw [hset, Finset.sum_congr rfl hdiff, Finset.sum_add_distrib, Finset.sum_ite_eq' , if_pos (Finset.mem_insert_self _ _)]

variable (chargeTotal : ChargeTotal)

theorem billed_snoc (keyPrefix : String) (attempt : ℕ) :
    billed chargeTotal keyPrefix (passes ++ [entry]) attempt = billed chargeTotal keyPrefix passes attempt +
      if entry.pass.attempt = attempt then (accountPass chargeTotal keyPrefix entry.pass).chargeDelta else 0 := by
  simp [billed]

theorem largestEstimate_some {order : BrokerOrder} (h : entry.pass.order = some order) :
    largestEstimate chargeTotal (passes ++ [entry]) entry.pass.attempt =
      max (largestEstimate chargeTotal passes entry.pass.attempt) (estimate chargeTotal order) := by
  unfold largestEstimate
  rw [sights_some passes entry h, List.map_append, List.foldl_append]
  rfl

theorem largestEstimate_congr {passes passes' : List FlattenEntry}
    (h : sights passes' attempt = sights passes attempt) :
    largestEstimate chargeTotal passes' attempt = largestEstimate chargeTotal passes attempt := by
  unfold largestEstimate
  rw [h]

end

theorem charges_cases (order : BrokerOrder) (filled : Number) (fallback : ℚ) :
    residualCumulativeCharges chargeTotal order filled fallback = fallback ∨
      (residualCumulativeCharges chargeTotal order filled fallback =
          residualCumulativeCharges chargeTotal order filled 0 ∧
        0 ≤ residualCumulativeCharges chargeTotal order filled 0 ∧
        round2 (residualCumulativeCharges chargeTotal order filled 0) =
          residualCumulativeCharges chargeTotal order filled 0) := by
  unfold residualCumulativeCharges
  split
  · exact .inl rfl
  · split
    · refine .inr ⟨rfl, round2_nonneg ?_, round2_round2 _⟩
      cases chargeTotal with
      | none => exact le_refl 0
      | some total => exact NNRat.cast_nonneg _
    · exact .inl rfl

theorem charge_step {order : BrokerOrder} {charges : ℚ} (hcents : round2 charges = charges) :
    let total := max charges (residualCumulativeCharges chargeTotal order order.filledQuantity charges)
    round2 total = total ∧
      round2 (max 0 (residualCumulativeCharges chargeTotal order order.filledQuantity charges - charges)) =
        total - charges ∧
      (total = charges ∨ total ≤ estimate chargeTotal order) := by
  rcases charges_cases chargeTotal order order.filledQuantity charges with heq | ⟨heq, -, hround⟩
  · rw [heq]
    simp [hcents]
  · rw [heq]
    rcases le_total charges (residualCumulativeCharges chargeTotal order order.filledQuantity 0) with h | h
    · rw [max_eq_right h, max_eq_right (sub_nonneg.mpr h)]
      exact ⟨hround, round2_sub hround hcents, .inr (le_refl _)⟩
    · rw [max_eq_left h, max_eq_left (sub_nonpos.mpr h), round2_zero]
      exact ⟨hcents, (sub_self charges).symm, .inl rfl⟩

structure Accounted (chargeTotal : ChargeTotal) (order : BrokerOrder) (filled accounted charges : ℚ)
    (account : PassAccount) : Prop where
  fillDelta : account.fillDelta = .fin (max 0 (filled - accounted))
  filled : account.accounting.cumulativeFilled = some (.fin (max accounted filled))
  charges : ∃ total, account.accounting.cumulativeCharges = some total ∧ charges ≤ total ∧ round2 total = total ∧
    account.chargeDelta = total - charges ∧ (total = charges ∨ total ≤ estimate chargeTotal order)

theorem accountOrder_accounted {chargeTotal : ChargeTotal} {keyPrefix : String} {pass : ResidualFlattenPass}
    {order : BrokerOrder} {filled quantity accounted charges : ℚ} (hfilled : order.filledQuantity = .fin filled)
    (hquantity : order.quantity = .fin quantity) (hnonneg : 0 ≤ filled) (hle : filled ≤ quantity)
    (hroom : filled ≤ accounted + pass.residual.quantity) (hcents : round2 charges = charges) :
    Accounted chargeTotal order filled accounted charges
      (accountOrder chargeTotal keyPrefix pass order (.fin accounted) charges) := by
  have hregressed : regressed order (.fin accounted) = decide (filled < accounted) := by
    unfold regressed
    rw [hfilled, hquantity]
    simp [not_lt.mpr hnonneg, not_lt.mpr hle]
  by_cases hlt : filled < accounted
  · unfold accountOrder
    rw [hregressed, decide_eq_true hlt]
    refine ⟨?_, ?_, charges, rfl, le_refl _, hcents, (sub_self _).symm, .inl rfl⟩
    · rw [max_eq_left (by linarith)]
      rfl
    · rw [max_eq_left hlt.le]
      rfl
  · have hover : ¬ (false = true ∨ Number.fin pass.residual.quantity < Number.sub (.fin filled) (.fin accounted)) := by
      simp only [Number.sub, Number.fin_lt_fin, Bool.false_eq_true, false_or]
      linarith
    obtain ⟨hround, hdelta, hestimate⟩ := @charge_step chargeTotal order _ hcents
    unfold accountOrder
    dsimp only
    rw [hregressed, decide_eq_false hlt, hfilled]
    simp only [Bool.false_eq_true, if_false] at hover ⊢
    rw [if_neg hover]
    rw [hfilled] at hround hdelta hestimate
    refine ⟨?_, ?_, _, rfl, le_max_left _ _, hround, hdelta, hestimate⟩
    · show (Number.fin filled).sub (.fin accounted) = _
      rw [Number.sub, max_eq_right (sub_nonneg.mpr (not_lt.mp hlt))]
    · rw [max_eq_right (not_lt.mp hlt)]

/-! ## What a run keeps of one residual -/

theorem projectedBefore_nonneg (attempt : ℕ) : 0 ≤ projectedBefore passes attempt := by
  unfold projectedBefore
  split
  · exact le_refl 0
  · split
    · exact le_max_left _ _
    · exact le_refl 0

theorem accountPass_none {chargeTotal : ChargeTotal} {keyPrefix : String} {pass : ResidualFlattenPass}
    (h : pass.order = none) : (accountPass chargeTotal keyPrefix pass).fillDelta = .fin 0 ∧
      (accountPass chargeTotal keyPrefix pass).chargeDelta = 0 := by
  unfold accountPass
  rw [h]
  split <;> exact ⟨rfl, rfl⟩

theorem billed_of_unseen {chargeTotal : ChargeTotal} {keyPrefix : String} {passes : List FlattenEntry} {attempt : ℕ}
    (h : sights passes attempt = []) : billed chargeTotal keyPrefix passes attempt = 0 := by
  refine List.sum_eq_zero ?_
  intro x hx
  obtain ⟨entry, hentry, rfl⟩ := List.mem_map.mp hx
  by_cases hattempt : entry.pass.attempt = attempt
  · rw [if_pos hattempt]
    refine (accountPass_none ?_).2
    have := List.filterMap_eq_nil_iff.mp h entry hentry
    simpa [hattempt] using this
  · rw [if_neg hattempt]

structure Marked (chargeTotal : ChargeTotal) (keyPrefix : String) (residual : ResidualLegExposure)
    (passes : List FlattenEntry) (accounted charges : ℚ) : Prop where
  filled : residual.flattenAccountedFilled = some (.fin accounted)
  charged : residual.flattenAccountedCharges = some (.fin charges)
  nonneg : 0 ≤ charges
  cents : round2 charges = charges
  high : accounted = max (latestFill passes (residualFlattenAttempt residual))
    (projectedBefore passes (residualFlattenAttempt residual))
  room : ∀ seen ∈ sights passes (residualFlattenAttempt residual), ∀ quantity, seen.2.quantity = .fin quantity →
    quantity ≤ residual.quantity + accounted
  billed : billed chargeTotal keyPrefix passes (residualFlattenAttempt residual) ≤ charges

structure Unmarked (residual : ResidualLegExposure) (passes : List FlattenEntry) : Prop where
  filled : residual.flattenAccountedFilled = none
  charged : residual.flattenAccountedCharges = none
  unseen : sights passes (residualFlattenAttempt residual) = []

def BilledInFull (keyPrefix : String) (passes : List FlattenEntry) : Prop :=
  ∀ attempt, billed chargeTotal keyPrefix passes attempt ≤ largestEstimate chargeTotal passes attempt

structure Tracked (chargeTotal : ChargeTotal) (keyPrefix : String) (initial : ℚ) (residual : ResidualLegExposure)
    (passes : List FlattenEntry) : Prop where
  total : residual.quantity + credited passes = initial
  later : ∀ attempt, residualFlattenAttempt residual < attempt →
    sights passes attempt = [] ∧ requests passes attempt = []
  requested : sights passes (residualFlattenAttempt residual) = [] →
    ∀ request ∈ requests passes (residualFlattenAttempt residual), request.quantity = .fin residual.quantity
  marks : Unmarked residual passes ∨ ∃ accounted charges, Marked chargeTotal keyPrefix residual passes accounted charges
  bills : BilledInFull chargeTotal keyPrefix passes

structure Finished (chargeTotal : ChargeTotal) (keyPrefix : String) (initial : ℚ) (passes : List FlattenEntry) :
    Prop where
  total : credited passes = initial
  bills : BilledInFull chargeTotal keyPrefix passes

section

variable {chargeTotal : ChargeTotal} {keyPrefix : String} {residual : ResidualLegExposure}
  {past : List FlattenEntry} {entry : FlattenEntry} {initial : ℚ}

theorem Marked.watermarks {accounted charges : ℚ} (h : Marked chargeTotal keyPrefix residual past accounted charges) :
    passWatermarks residual (residualFlattenAttempt residual) = .valid accounted charges := by
  have hpos : 0 ≤ accounted := h.high ▸ (projectedBefore_nonneg ..).trans (le_max_right ..)
  unfold passWatermarks
  rw [if_pos rfl, h.filled, h.charged]
  simp [readWatermarks, hpos, h.nonneg, h.cents]

theorem Unmarked.watermarks (h : Unmarked residual past) :
    passWatermarks residual (residualFlattenAttempt residual) = .legacy := by
  unfold passWatermarks
  rw [if_pos rfl, h.filled, h.charged]
  rfl

theorem Marked.of_unseen (h : sights past (residualFlattenAttempt residual) = []) {charges : ℚ}
    (hfilled : residual.flattenAccountedFilled = some (.fin 0))
    (hcharged : residual.flattenAccountedCharges = some (.fin charges)) (hnonneg : 0 ≤ charges)
    (hcents : round2 charges = charges) : Marked chargeTotal keyPrefix residual past 0 charges where
  filled := hfilled
  charged := hcharged
  nonneg := hnonneg
  cents := hcents
  high := by rw [(credit_of_unseen h).1, (credit_of_unseen h).2.1, max_self]
  room := by
    rw [h]
    simp
  billed := by
    rw [billed_of_unseen h]
    exact hnonneg

variable {attempt : ℕ}

theorem Tracked.pass_marks (h : Tracked chargeTotal keyPrefix initial residual past)
    (hle : residualFlattenAttempt residual ≤ attempt) :
    (passWatermarks residual attempt = .legacy ∧ sights past attempt = []) ∨
      (attempt = residualFlattenAttempt residual ∧
        ∃ accounted charges, Marked chargeTotal keyPrefix residual past accounted charges) := by
  rcases Nat.lt_or_eq_of_le hle with hlt | rfl
  · refine .inl ⟨?_, (h.later attempt hlt).1⟩
    unfold passWatermarks
    rw [if_neg hlt.ne']
  · rcases h.marks with hunmarked | hmarked
    · exact .inl ⟨hunmarked.watermarks, hunmarked.unseen⟩
    · exact .inr ⟨rfl, hmarked⟩

theorem carryPass_eq {pass : ResidualFlattenPass} {delta : ℚ}
    (h : (accountPass chargeTotal keyPrefix pass).fillDelta = .fin delta) :
    carryPass chargeTotal keyPrefix pass =
      if held : 0 < pass.residual.quantity - delta then
        some (carryResidualForward pass.residual (pass.residual.quantity - delta) held pass.attempt
          (accountPass chargeTotal keyPrefix pass).disposition (accountPass chargeTotal keyPrefix pass).accounting
          pass.failure)
      else none := by
  unfold carryPass outstandingAfter
  rw [h]
  rfl

theorem retired_marks {passes : List FlattenEntry} {quantity : ℚ} {held : 0 < quantity} {attempt : ℕ}
    (hattempt : 0 < attempt) (hlater : ∀ m, attempt < m → sights passes m = [])
    {accounting : ResidualFlattenAccounting} {failure : Option ResidualFlattenFailureKind} :
    residualFlattenAttempt (carryResidualForward residual quantity held attempt .retireAttempt accounting failure) =
        attempt + 1 ∧
      Marked chargeTotal keyPrefix
        (carryResidualForward residual quantity held attempt .retireAttempt accounting failure) passes 0 0 := by
  have hnext := carry_attempt residual quantity held hattempt .retireAttempt accounting failure
  rw [if_pos rfl] at hnext
  refine ⟨hnext, Marked.of_unseen ?_ rfl rfl (le_refl 0) round2_zero⟩
  rw [hnext]
  exact hlater _ (Nat.lt_succ_self attempt)

theorem tracked_carried {passes : List FlattenEntry} {quantity : ℚ} {held : 0 < quantity} (hattempt : 0 < attempt)
    {disposition : ResidualFlattenDisposition} {accounting : ResidualFlattenAccounting}
    {failure : Option ResidualFlattenFailureKind} (htotal : quantity + credited passes = initial)
    (hlater : ∀ m, attempt < m → sights passes m = [] ∧ requests passes m = [])
    (hbills : BilledInFull chargeTotal keyPrefix passes)
    (hrequested : sights passes attempt = [] → ∀ request ∈ requests passes attempt, request.quantity = .fin quantity)
    (hkept : disposition ≠ .retireAttempt → Unmarked (carryResidualForward residual quantity held attempt disposition accounting failure) passes ∨ ∃ accounted charges, Marked chargeTotal keyPrefix (carryResidualForward residual quantity held attempt disposition accounting failure) passes accounted charges) :
    Tracked chargeTotal keyPrefix initial
      (carryResidualForward residual quantity held attempt disposition accounting failure) passes := by
  by_cases hretire : disposition = .retireAttempt
  · subst hretire
    obtain ⟨hnext, hmarked⟩ := @retired_marks chargeTotal keyPrefix residual passes quantity held attempt hattempt
      (fun m hm => (hlater m hm).1) accounting failure
    refine ⟨htotal, ?_, ?_, .inr ⟨0, 0, hmarked⟩, hbills⟩
    · rw [hnext]
      exact fun m hm => hlater m (Nat.lt_of_succ_lt hm)
    · rw [hnext, (hlater _ (Nat.lt_succ_self attempt)).2]
      simp
  · refine ⟨htotal, ?_, ?_, hkept hretire, hbills⟩
    · rw [carry_attempt residual quantity held hattempt, if_neg hretire]
      exact hlater
    · rw [carry_attempt residual quantity held hattempt, if_neg hretire]
      exact hrequested

theorem Tracked.later_snoc (h : Tracked chargeTotal keyPrefix initial residual past)
    (hle : residualFlattenAttempt residual ≤ entry.pass.attempt) :
    ∀ m, entry.pass.attempt < m → sights (past ++ [entry]) m = [] ∧ requests (past ++ [entry]) m = [] := by
  intro m hm
  obtain ⟨hsights, hrequests⟩ := h.later m (hle.trans_lt hm)
  rw [sights_other past entry hm.ne, requests_snoc, if_neg hm.ne, hrequests]
  exact ⟨hsights, rfl⟩

theorem FlattenEntry.Sound.submitted {keyPrefix : String} {entry : FlattenEntry} (h : entry.Sound keyPrefix)
    {request : BrokerOrderRequest} (hrequest : entry.pass.submitted = some request) :
    request.quantity = .fin entry.asked.residual.quantity := by
  rcases h with h | ⟨unresolved, h⟩
  · rw [h, flattenOne_submitted] at hrequest
    obtain ⟨pricing, rfl⟩ := reachedRequest_eq hrequest
    rfl
  · rw [h] at hrequest
    cases hrequest

theorem Tracked.requested_snoc (h : Tracked chargeTotal keyPrefix initial residual past)
    (hsound : entry.Sound keyPrefix) (hasked : entry.asked.residual = residual)
    (hunseen : sights past entry.pass.attempt = []) :
    ∀ request ∈ requests (past ++ [entry]) entry.pass.attempt, request.quantity = .fin residual.quantity := by
  have hle : residualFlattenAttempt residual ≤ entry.pass.attempt := hasked ▸ hsound.attempt_le
  intro request hrequest
  rw [requests_snoc, if_pos rfl] at hrequest
  rcases List.mem_append.mp hrequest with hpast | hnow
  · rcases Nat.lt_or_eq_of_le hle with hlt | heq
    · rw [(h.later _ hlt).2] at hpast
      cases hpast
    · rw [← heq] at hpast hunseen
      exact h.requested hunseen request hpast
  · rw [← hasked]
    exact hsound.submitted (Option.mem_toList.mp hnow)

/-! ## A pass that saw no order -/

theorem accountPass_none_accounting {pass : ResidualFlattenPass} (horder : pass.order = none) :
    (passWatermarks pass.residual pass.attempt = .legacy →
        (accountPass chargeTotal keyPrefix pass).accounting = ⟨none, none⟩) ∧
      ∀ accounted charges, passWatermarks pass.residual pass.attempt = .valid accounted charges →
        (accountPass chargeTotal keyPrefix pass).accounting = ⟨some (.fin accounted), some charges⟩ := by
  unfold accountPass
  constructor
  · intro h
    rw [h, horder]
  · intro accounted charges h
    rw [h, horder]

theorem tracked_unseen (h : Tracked chargeTotal keyPrefix initial residual past) (hsound : entry.Sound keyPrefix)
    (hasked : entry.asked.residual = residual) (hskip : SkipConsistent past entry.pass)
    (horder : entry.pass.order = none) :
    ∃ next, carryPass chargeTotal keyPrefix entry.pass = some next ∧
      Tracked chargeTotal keyPrefix initial next (past ++ [entry]) := by
  have hresidual : entry.pass.residual = residual := hsound.residual.trans hasked
  have hle : residualFlattenAttempt residual ≤ entry.pass.attempt := hasked ▸ hsound.attempt_le
  have hpos : 0 < entry.pass.attempt := (residualFlattenAttempt_pos residual).trans_le hle
  have hsame : ∀ m, sights (past ++ [entry]) m = sights past m := fun m => sights_none past entry horder
  have hlater := h.later_snoc hle
  obtain ⟨hdelta, hcharge⟩ := @accountPass_none chargeTotal keyPrefix _ horder
  obtain ⟨hlegacy, hvalid⟩ := @accountPass_none_accounting chargeTotal keyPrefix _ horder
  have hq := residual.outstanding
  rw [carryPass_eq hdelta, hresidual, dif_pos (by rw [sub_zero]; exact hq)]
  refine ⟨_, rfl, tracked_carried hpos ?_ hlater ?_ ?_ ?_⟩
  · have hcredited : credited (past ++ [entry]) = credited past := by
      rw [credited_snoc, credit_congr (hsame _)]
      ring
    rw [sub_zero, hcredited]
    exact h.total
  · intro m
    rw [billed_snoc, hcharge, largestEstimate_congr chargeTotal (hsame m)]
    simpa using h.bills m
  · rw [hsame, sub_zero]
    exact h.requested_snoc hsound hasked
  · intro hretire
    have hnext := carry_attempt residual (residual.quantity - 0) (by rw [sub_zero]; exact hq) hpos
      (accountPass chargeTotal keyPrefix entry.pass).disposition
      (accountPass chargeTotal keyPrefix entry.pass).accounting entry.pass.failure
    rw [if_neg hretire] at hnext
    rw [hresidual] at hlegacy hvalid
    rcases h.pass_marks hle with ⟨hwatermarks, hnone⟩ | ⟨hattempt, accounted, charges, hmarked⟩
    · -- the residual's own marks are carried, of a generation nothing was seen of
      have haccounting := hlegacy hwatermarks
      have hnext' : sights (past ++ [entry]) (residualFlattenAttempt (carryResidualForward residual
          (residual.quantity - 0) (by rw [sub_zero]; exact hq) entry.pass.attempt
          (accountPass chargeTotal keyPrefix entry.pass).disposition
          (accountPass chargeTotal keyPrefix entry.pass).accounting entry.pass.failure)) = [] := by
        rw [hnext, hsame, hnone]
      rcases h.marks with hunmarked | ⟨accounted, charges, hmarked⟩
      · refine .inl ⟨?_, ?_, hnext'⟩
        · simp [carryResidualForward, hretire, haccounting, hunmarked.filled]
        · simp [carryResidualForward, hretire, haccounting, hunmarked.charged]
      · have hown : sights past (residualFlattenAttempt residual) = [] := by
          rcases Nat.lt_or_eq_of_le hle with hlt | heq
          · exact hskip _ (by rw [hresidual]) hlt
          · rw [heq]
            exact hnone
        have hzero : accounted = 0 := by
          rw [hmarked.high, (credit_of_unseen hown).1, (credit_of_unseen hown).2.1, max_self]
        refine .inr ⟨0, charges, Marked.of_unseen hnext' ?_ ?_ hmarked.nonneg hmarked.cents⟩
        · simp [carryResidualForward, hretire, haccounting, hmarked.filled, hzero]
        · simp [carryResidualForward, hretire, haccounting, hmarked.charged]
    · have haccounting := hvalid accounted charges (by rw [hattempt]; exact hmarked.watermarks)
      refine .inr ⟨accounted, charges, ?_⟩
      constructor
      · simp [carryResidualForward, hretire, haccounting]
      · simp [carryResidualForward, hretire, haccounting]
      · exact hmarked.nonneg
      · exact hmarked.cents
      · rw [hnext, hattempt, hmarked.high]
        unfold latestFill projectedBefore
        rw [hsame]
      · rw [hnext, hattempt, hsame]
        intro seen hseen quantity hquantity
        have := hmarked.room seen hseen quantity hquantity
        show quantity ≤ residual.quantity - 0 + accounted
        linarith
      · rw [hnext, hattempt, billed_snoc, hcharge]
        simpa using hmarked.billed

/-! ## A pass that saw an order -/

theorem value_le_of_le {x : Number} {q : ℚ} (h : x ≤ .fin q) (hq : 0 ≤ q) : x.value ≤ q := by
  cases x with
  | fin y => simpa using h
  | _ => exact hq

theorem latestFill_le {filled : ℚ} (hfilled : 0 ≤ filled)
    (h : ∀ seen ∈ sights past attempt, seen.2.filledQuantity ≤ .fin filled) : latestFill past attempt ≤ filled := by
  unfold latestFill
  cases hlast : (sights past attempt).getLast? with
  | none => exact hfilled
  | some seen => exact value_le_of_le (h seen (List.mem_of_getLast? hlast)) hfilled

variable {order : BrokerOrder}

theorem latestFill_seen (horder : entry.pass.order = some order) :
    latestFill (past ++ [entry]) entry.pass.attempt = order.filledQuantity.value := by
  unfold latestFill
  rw [sights_some past entry horder]
  simp

theorem projectedBefore_seen (h : sights past entry.pass.attempt ≠ []) :
    projectedBefore (past ++ [entry]) entry.pass.attempt = projectedBefore past entry.pass.attempt := by
  unfold projectedBefore
  rw [sights_snoc]
  cases hsights : sights past entry.pass.attempt with
  | nil => exact absurd hsights h
  | cons seen rest => rfl

theorem projectedBefore_first (h : sights past entry.pass.attempt = []) (horder : entry.pass.order = some order) :
    projectedBefore (past ++ [entry]) entry.pass.attempt =
      if passWatermarks entry.pass.residual entry.pass.attempt = .legacy then
        max 0 (order.quantity.value - entry.pass.residual.quantity) else 0 := by
  unfold projectedBefore
  rw [sights_some past entry horder, h]
  rfl

structure Measured (chargeTotal : ChargeTotal) (keyPrefix : String) (residual : ResidualLegExposure)
    (past : List FlattenEntry) (entry : FlattenEntry) (order : BrokerOrder) (filled quantity charges : ℚ) : Prop where
  filledEq : order.filledQuantity = .fin filled
  quantityEq : order.quantity = .fin quantity
  nonneg : 0 ≤ filled
  le : filled ≤ quantity
  latest : latestFill past entry.pass.attempt ≤ filled
  seen : ∀ seen ∈ sights past entry.pass.attempt, seen.2.quantity = .fin quantity
  charged : 0 ≤ charges
  cents : round2 charges = charges
  billed : billed chargeTotal keyPrefix past entry.pass.attempt ≤ charges
  room : quantity ≤ residual.quantity + max (latestFill past entry.pass.attempt)
    (projectedBefore (past ++ [entry]) entry.pass.attempt)
  before : credit past entry.pass.attempt = max 0 (latestFill past entry.pass.attempt -
    projectedBefore (past ++ [entry]) entry.pass.attempt)
  account : accountPass chargeTotal keyPrefix entry.pass = accountOrder chargeTotal keyPrefix entry.pass order
    (.fin (max (latestFill past entry.pass.attempt) (projectedBefore (past ++ [entry]) entry.pass.attempt))) charges

theorem legacyFilled_fin {quantity : ℚ} (h : order.quantity = .fin quantity) :
    legacyFilled order residual = .fin (max 0 (quantity - residual.quantity)) := by
  unfold legacyFilled
  rw [h]
  simp only [Number.sub, Number.max, Number.fin_lt_fin]
  by_cases hpos : 0 < quantity - residual.quantity
  · rw [if_pos hpos, max_eq_right hpos.le]
  · rw [if_neg hpos, max_eq_left (not_lt.mp hpos)]

theorem measured (h : Tracked chargeTotal keyPrefix initial residual past) (hsound : entry.Sound keyPrefix)
    (hasked : entry.asked.residual = residual) (horder : entry.pass.order = some order)
    (hconsistent : OrderConsistent past entry.pass order) :
    ∃ filled quantity charges, Measured chargeTotal keyPrefix residual past entry order filled quantity charges := by
  have hresidual : entry.pass.residual = residual := hsound.residual.trans hasked
  have hle : residualFlattenAttempt residual ≤ entry.pass.attempt := hasked ▸ hsound.attempt_le
  obtain ⟨filled, quantity, hfilled, hquantity, hnonneg, hfq, hseen, hfirst⟩ := hconsistent
  rw [hresidual] at hfirst
  have hlatest : latestFill past entry.pass.attempt ≤ filled := latestFill_le hnonneg fun s hs => (hseen s hs).2
  -- the attempt is a new one without marks, or the residual's own with its watermarks
  rcases h.pass_marks hle with ⟨hwatermarks, hnone⟩ | ⟨hattempt, accounted, charges, hmarked⟩
  · have hproj := projectedBefore_first hnone horder
    rw [hresidual, if_pos hwatermarks, hquantity, Number.value_fin] at hproj
    have hunseen := credit_of_unseen hnone
    have hmax : max (latestFill past entry.pass.attempt) (projectedBefore (past ++ [entry]) entry.pass.attempt) =
        max 0 (quantity - residual.quantity) := by
      rw [hunseen.1, hproj, max_eq_right (le_max_left _ _)]
    have hcharges : 0 ≤ residualCumulativeCharges chargeTotal order (legacyFilled order residual) 0 ∧
        round2 (residualCumulativeCharges chargeTotal order (legacyFilled order residual) 0) =
          residualCumulativeCharges chargeTotal order (legacyFilled order residual) 0 := by
      rcases charges_cases chargeTotal order (legacyFilled order residual) 0 with hzero | ⟨-, hpos, hcents⟩
      · rw [hzero]
        exact ⟨le_refl 0, round2_zero⟩
      · exact ⟨hpos, hcents⟩
    refine ⟨filled, quantity, _, hfilled, hquantity, hnonneg, hfq, hlatest, fun s hs => (hseen s hs).1, hcharges.1,
      hcharges.2, ?_, ?_, ?_, ?_⟩
    · rw [billed_of_unseen hnone]
      exact hcharges.1
    · rw [hmax]
      linarith [le_max_right 0 (quantity - residual.quantity)]
    · rw [hunseen.2.2, hunseen.1, hproj, zero_sub, max_eq_left (by linarith [le_max_left 0 (quantity - residual.quantity)])]
    · unfold accountPass
      rw [hresidual, hwatermarks, horder]
      dsimp only
      rw [hmax, ← legacyFilled_fin hquantity]
  · have hwatermarks := hmarked.watermarks
    rw [← hattempt] at hwatermarks
    have hhigh := hmarked.high
    have hbilled := hmarked.billed
    have hroom := hmarked.room
    rw [← hattempt] at hhigh hbilled hroom
    have hmax : max (latestFill past entry.pass.attempt) (projectedBefore (past ++ [entry]) entry.pass.attempt) =
        accounted ∧ quantity ≤ residual.quantity + accounted ∧
        credit past entry.pass.attempt = max 0 (latestFill past entry.pass.attempt -
          projectedBefore (past ++ [entry]) entry.pass.attempt) := by
      by_cases hnone : sights past entry.pass.attempt = []
      · have hunseen := credit_of_unseen hnone
        have hproj := projectedBefore_first hnone horder
        rw [hresidual, hwatermarks, if_neg (by simp)] at hproj
        have hq : quantity = residual.quantity := by
          obtain ⟨request, hrequest, hrq⟩ := hfirst hnone (by rw [hwatermarks]; simp)
          have hmem : request ∈ requests (past ++ [entry]) entry.pass.attempt := by
            rw [requests_snoc, if_pos rfl]
            exact hrequest
          have := h.requested_snoc hsound hasked hnone request hmem
          rw [hrq] at this
          exact Number.fin.inj this
        rw [hunseen.1, hunseen.2.1, max_self] at hhigh
        rw [hunseen.1, hproj, hunseen.2.2, hhigh, hq]
        simp
      · obtain ⟨s, hs⟩ := List.exists_mem_of_ne_nil _ hnone
        refine ⟨by rw [projectedBefore_seen hnone, hhigh], hroom s hs quantity (hseen s hs).1, ?_⟩
        rw [projectedBefore_seen hnone]
        rfl
    refine ⟨filled, quantity, charges, hfilled, hquantity, hnonneg, hfq, hlatest, fun s hs => (hseen s hs).1,
      hmarked.nonneg, hmarked.cents, hbilled, ?_, hmax.2.2, ?_⟩
    · rw [hmax.1]
      exact hmax.2.1
    · unfold accountPass
      rw [hresidual, hwatermarks, horder, hmax.1]

theorem credit_rise {latest projected filled : ℚ} (h : latest ≤ filled) :
    max 0 (filled - projected) - max 0 (latest - projected) = max 0 (filled - max latest projected) := by
  rcases le_total latest projected with hlp | hlp
  · rw [max_eq_right hlp, max_eq_left (sub_nonpos.mpr hlp), sub_zero]
  · rw [max_eq_left hlp, max_eq_right (sub_nonneg.mpr hlp), max_eq_right (sub_nonneg.mpr (hlp.trans h)),
      max_eq_right (sub_nonneg.mpr h)]
    ring

theorem tracked_seen (h : Tracked chargeTotal keyPrefix initial residual past) (hsound : entry.Sound keyPrefix)
    (hasked : entry.asked.residual = residual) (horder : entry.pass.order = some order)
    (hconsistent : OrderConsistent past entry.pass order) :
    (∀ next, carryPass chargeTotal keyPrefix entry.pass = some next →
        Tracked chargeTotal keyPrefix initial next (past ++ [entry])) ∧
      (carryPass chargeTotal keyPrefix entry.pass = none → Finished chargeTotal keyPrefix initial (past ++ [entry])) := by
  have hresidual : entry.pass.residual = residual := hsound.residual.trans hasked
  have hle : residualFlattenAttempt residual ≤ entry.pass.attempt := hasked ▸ hsound.attempt_le
  have hpos : 0 < entry.pass.attempt := (residualFlattenAttempt_pos residual).trans_le hle
  obtain ⟨filled, quantity, charges, hm⟩ := measured h hsound hasked horder hconsistent
  set latest := latestFill past entry.pass.attempt with hlatest
  set projected := projectedBefore (past ++ [entry]) entry.pass.attempt with hprojected
  have hroom := hm.room
  have haccounted := @accountOrder_accounted chargeTotal keyPrefix entry.pass _ _ _ _ _
    hm.filledEq hm.quantityEq hm.nonneg hm.le
    (show filled ≤ max latest projected + entry.pass.residual.quantity by rw [hresidual]; linarith [hm.le]) hm.cents
  rw [← hm.account] at haccounted
  obtain ⟨total, hcharges, hcle, hcents, hdelta, hestimate⟩ := haccounted.charges
  have hcredit : credit (past ++ [entry]) entry.pass.attempt = max 0 (filled - projected) := by
    unfold credit
    rw [latestFill_seen horder, hm.filledEq, Number.value_fin]
  have hcredited : credited (past ++ [entry]) = credited past + max 0 (filled - max latest projected) := by
    rw [credited_snoc, hcredit, hm.before, credit_rise hm.latest]
  have hlater := h.later_snoc hle
  have hsights : sights (past ++ [entry]) entry.pass.attempt ≠ [] := by
    rw [sights_some past entry horder]
    simp
  have hbills : BilledInFull chargeTotal keyPrefix (past ++ [entry]) := by
    intro m
    have hold := h.bills m
    by_cases hattempt : entry.pass.attempt = m
    · subst hattempt
      rw [billed_snoc, if_pos rfl, hdelta, largestEstimate_some past entry chargeTotal horder]
      have hb := hm.billed
      rcases hestimate with heq | hle'
      · exact le_max_of_le_left (by linarith)
      · exact le_max_of_le_right (by linarith)
    · rw [billed_snoc, if_neg hattempt, add_zero, largestEstimate_congr chargeTotal (sights_other past entry hattempt)]
      exact hold
  have hrise : max 0 (filled - max latest projected) ≤ residual.quantity :=
    max_le residual.outstanding.le (by linarith [hm.le])
  have htotal : residual.quantity - max 0 (filled - max latest projected) + credited (past ++ [entry]) = initial := by
    rw [hcredited]
    linarith [h.total]
  rw [carryPass_eq haccounted.fillDelta, hresidual]
  constructor
  · intro next hnext
    split at hnext
    · rename_i held
      cases hnext
      refine tracked_carried hpos htotal hlater hbills (fun h => absurd h hsights) ?_
      intro hretire
      have hattempt := carry_attempt residual (residual.quantity - max 0 (filled - max latest projected)) held hpos
        (accountPass chargeTotal keyPrefix entry.pass).disposition
        (accountPass chargeTotal keyPrefix entry.pass).accounting entry.pass.failure
      rw [if_neg hretire] at hattempt
      refine .inr ⟨max (max latest projected) filled, total, ?_⟩
      constructor
      · simp [carryResidualForward, hretire, haccounted.filled]
      · simp [carryResidualForward, hretire, hcharges]
      · exact hm.charged.trans hcle
      · exact hcents
      · rw [hattempt, latestFill_seen horder, hm.filledEq, Number.value_fin, ← hprojected]
        rw [max_assoc, max_comm projected filled, ← max_assoc, max_eq_right hm.latest]
      · rw [hattempt, sights_some past entry horder]
        intro seen hseen q hq
        show q ≤ residual.quantity - max 0 (filled - max latest projected) + max (max latest projected) filled
        have hqq : q = quantity := by
          rcases List.mem_append.mp hseen with hseen | hseen
          · have := hm.seen seen hseen
            rw [hq] at this
            exact Number.fin.inj this
          · obtain rfl := List.mem_singleton.mp hseen
            have := hm.quantityEq
            rw [hq] at this
            exact Number.fin.inj this
        rcases le_total filled (max latest projected) with hcase | hcase
        · rw [max_eq_left (sub_nonpos.mpr hcase), max_eq_left hcase]
          linarith
        · rw [max_eq_right (sub_nonneg.mpr hcase), max_eq_right hcase]
          linarith
      · rw [hattempt, billed_snoc, if_pos rfl, hdelta]
        linarith [hm.billed]
    · cases hnext
  · intro hnone
    split at hnone
    · cases hnone
    · rename_i hgone
      exact ⟨by linarith, hbills⟩

end

/-- **Residual accounting.** What is outstanding and what was observed to fill add up to the initial quantity, and no
identity is billed twice. -/
theorem residual_accounting (chargeTotal : ChargeTotal) (keyPrefix : String) {initial : List ResidualLegExposure}
    (hdistinct : Distinct keyPrefix initial)
    (hfresh : ∀ residual ∈ initial, residual.flattenAccountedFilled = none ∧ residual.flattenAccountedCharges = none)
    (calls : List (ℕ → FlattenDesk))
    (hbroker : ∀ residual ∈ initial, BrokerConsistent (passesOf keyPrefix (residualBase keyPrefix residual)
      (flattenRun chargeTotal keyPrefix initial calls).history)) :
    ∀ residual ∈ initial,
      let last := flattenRun chargeTotal keyPrefix initial calls
      let passes := passesOf keyPrefix (residualBase keyPrefix residual) last.history
      ((residualOf keyPrefix (residualBase keyPrefix residual) last.residuals).elim 0 ResidualLegExposure.quantity +
          credited passes = residual.quantity) ∧
        ∀ attempt, billed chargeTotal keyPrefix passes attempt ≤ largestEstimate chargeTotal passes attempt := by
  intro residual hmem
  have htracked := @run_tracked chargeTotal keyPrefix initial hdistinct (Tracked chargeTotal keyPrefix residual.quantity)
    (Finished chargeTotal keyPrefix residual.quantity) BrokerConsistent (fun past entry h => Run.Each.past h) (by
      intro r past entry hP hsound hasked hok
      obtain ⟨hskip, hordered⟩ := Run.Each.last hok
      cases horder : entry.pass.order with
      | none =>
        obtain ⟨next, hnext, hresult⟩ := tracked_unseen hP hsound hasked hskip horder
        rw [hnext]
        exact ⟨fun n hn => by cases hn; exact hresult, fun hn => by cases hn⟩
      | some order => exact tracked_seen hP hsound hasked horder (hordered order horder))
    residual hmem ⟨by simp [credited], fun _ _ => ⟨rfl, rfl⟩, by simp [requests], .inl
        ⟨(hfresh residual hmem).1, (hfresh residual hmem).2, rfl⟩,
      fun _ => le_refl 0⟩ calls (hbroker residual hmem)
  unfold TrackedAt at htracked
  intro last passes
  cases hresidual : residualOf keyPrefix (residualBase keyPrefix residual) last.residuals with
  | none =>
    rw [hresidual] at htracked
    exact ⟨(zero_add _).trans htracked.total, htracked.bills⟩
  | some r =>
    rw [hresidual] at htracked
    exact ⟨htracked.total, htracked.bills⟩

theorem partialEntry_consistent : BrokerConsistent [partialEntry] := by
  refine Run.Each.nil.snoc ⟨fun _ _ _ => rfl, ?_⟩
  intro order horder
  cases horder
  refine ⟨50, 75, rfl, rfl, by norm_num, by norm_num, by simp [sights], ?_⟩
  intro _ h
  exact absurd rfl h

theorem residual_accounting_partial :
    let last := flattenRun none "T1" [shortResidual] [fun _ => partialDesk]
    let passes := passesOf "T1" (residualBase "T1" shortResidual) last.history
    (residualOf "T1" (residualBase "T1" shortResidual) last.residuals).elim 0 ResidualLegExposure.quantity +
        credited passes = 75 ∧ credited passes = 50 := by
  have hpasses : passesOf "T1" (residualBase "T1" shortResidual)
      (flattenRun none "T1" [shortResidual] [fun _ => partialDesk]).history = [partialEntry] := by
    show passesOf _ _ [partialEntry] = _
    simp [passesOf, FlattenEntry.base, partialEntry]
  refine ⟨(@residual_accounting none "T1" [shortResidual] (List.nodup_singleton _) ?_ [fun _ => partialDesk]
    ?_ shortResidual (List.mem_singleton_self _)).1, ?_⟩
  · intro residual hmem
    obtain rfl := List.mem_singleton.mp hmem
    exact ⟨rfl, rfl⟩
  · intro residual hmem
    obtain rfl := List.mem_singleton.mp hmem
    rw [hpasses]
    exact partialEntry_consistent
  · rw [hpasses]
    decide +kernel

/-! ## A row without watermarks -/

theorem legacyResidual_held : (0 : ℚ) < 25 := by norm_num

def legacyResidual : ResidualLegExposure := legResidual .k2Ce .sell 25 legacyResidual_held none none

def legacyDesk : FlattenDesk :=
  openDesk (some (legIntent .cancelled .k2Ce .buy 75 50)) (.error (.other ""))

def legacyEntry : FlattenEntry :=
  ⟨⟨legacyResidual, legacyDesk⟩, replayPass "T1" legacyResidual 1 (legIntent .cancelled .k2Ce .buy 75 50)⟩

theorem legacy_consistent : BrokerConsistent [legacyEntry] := by
  refine Run.Each.nil.snoc ⟨fun _ _ _ => rfl, ?_⟩
  intro order horder
  cases horder
  refine ⟨50, 75, rfl, rfl, by norm_num, by norm_num, by simp [sights], ?_⟩
  intro _ h
  exact absurd rfl h

theorem legacy_row_not_credited :
    let last := flattenRun none "T1" [legacyResidual] [fun _ => legacyDesk]
    let passes := passesOf "T1" (residualBase "T1" legacyResidual) last.history
    Distinct "T1" [legacyResidual] ∧
      (legacyResidual.flattenAccountedFilled = none ∧ legacyResidual.flattenAccountedCharges = none) ∧
      BrokerConsistent passes ∧
      (residualOf "T1" (residualBase "T1" legacyResidual) last.residuals).elim 0 ResidualLegExposure.quantity +
          ∑ attempt ∈ (passes.map fun entry => entry.pass.attempt).toFinset, latestFill passes attempt ≠
        legacyResidual.quantity := by
  intro last passes
  have hpasses : passes = [legacyEntry] := by
    show passesOf _ _ [legacyEntry] = _
    simp [passesOf, FlattenEntry.base, legacyEntry]
  refine ⟨List.nodup_singleton _, ⟨rfl, rfl⟩, hpasses ▸ legacy_consistent, ?_⟩
  rw [hpasses]
  have hleft : (residualOf "T1" (residualBase "T1" legacyResidual) last.residuals).elim 0
      ResidualLegExposure.quantity = 25 := by
    have hcarried : (carryPass none "T1" legacyEntry.pass).map ResidualLegExposure.quantity = some 25 := by
      decide +kernel
    obtain ⟨next, hnext, hquantity⟩ := Option.map_eq_some_iff.mp hcarried
    have hremaining : last.residuals = [next] := by
      show [legacyEntry.pass].filterMap (carryPass none "T1") = _
      rw [List.filterMap_cons_some hnext, List.filterMap_nil]
    have hresidual : legacyEntry.pass.residual = legacyResidual := rfl
    have hbase := carryPass_base hnext
    rw [hresidual] at hbase
    rw [hremaining]
    simpa [residualOf, hbase] using hquantity
  have hseen : ∑ attempt ∈ ([legacyEntry].map fun entry => entry.pass.attempt).toFinset,
      latestFill [legacyEntry] attempt = 50 := by
    decide +kernel
  rw [hleft, hseen]
  show (25 : ℚ) + 50 ≠ 25
  norm_num

end BoxEngine
