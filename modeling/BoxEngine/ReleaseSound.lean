import BoxEngine.FlattenPass

/-!
# When cover is released

`flattened` is given for the cumulative fill of the identity, while what is left is measured by the fill not accounted
before; the two agree exactly when the evidence credits the whole short.
-/

namespace BoxEngine

open Js

/-! ## What a pass is shown -/

section

variable (keyPrefix : String) (r : DeskedResidual)

def selectedAttempt : SelectedAttempt :=
  firstAdoptableResidualAttempt r.desk keyPrefix r.residual (residualFlattenAttempt r.residual)

def reachedRequest : Option BrokerOrderRequest :=
  if residualRejectionBudgetExhausted r.residual then none
  else
    match (selectedAttempt keyPrefix r).terminalIntent with
    | some _ => none
    | none => (prepareRequest r.desk keyPrefix r.residual (selectedAttempt keyPrefix r).attempt).toOption

def shownOrder : Option BrokerOrder :=
  if residualRejectionBudgetExhausted r.residual then none
  else
    match (selectedAttempt keyPrefix r).terminalIntent with
    | some intent => some (brokerOrderFromDurableIntent intent)
    | none => (reachedRequest keyPrefix r).bind fun request => (r.desk.submit request).toOption

def Covers : Prop :=
  ∃ order, shownOrder keyPrefix r = some order ∧ (order.state = .complete ∨ order.state = .cancelled) ∧
    .fin r.residual.quantity ≤ order.filledQuantity

/-- Of the order's fill exactly the quantity of the residual is not accounted yet. -/
def CreditsAll (order : BrokerOrder) : Prop :=
  match passWatermarks r.residual (selectedAttempt keyPrefix r).attempt with
  | .valid filled _ =>
    order.filledQuantity = .fin (filled + r.residual.quantity) ∧ ¬ order.quantity < order.filledQuantity
  | .legacy => order.filledQuantity = order.quantity ∧ order.quantity.isFinite = true ∧
      .fin r.residual.quantity ≤ order.quantity
  | .invalid _ _ => False

end

section

variable {keyPrefix : String}
variable (r : DeskedResidual) (residual : ResidualLegExposure) (attempt : ℕ) (intent : BoxOrderIntent)
  (request : BrokerOrderRequest) (submitted : Option BrokerOrderRequest) (answer : SubmitAnswer)
  (kind : ResidualFlattenFailureKind) (detail : String)

@[simp] theorem failPass_disposition (order : Option BrokerOrder) :
    (failPass keyPrefix residual attempt submitted kind detail order).disposition = dispositionForFailure kind := rfl

@[simp] theorem failPass_submitted (order : Option BrokerOrder) :
    (failPass keyPrefix residual attempt submitted kind detail order).submitted = submitted := rfl

theorem failPass_not_flattened {residual : ResidualLegExposure} {attempt : ℕ}
    {submitted : Option BrokerOrderRequest} {kind : ResidualFlattenFailureKind} {detail : String}
    {order : Option BrokerOrder} :
    (failPass keyPrefix residual attempt submitted kind detail order).disposition ≠ .flattened := by
  cases kind <;> simp [dispositionForFailure]

theorem rejectedPass_eq (keyPrefix : String) (residual : ResidualLegExposure) (attempt : ℕ)
    (submitted : Option BrokerOrderRequest)
    (subject fallback : String) (order : BrokerOrder) :
    ∃ detail, rejectedPass keyPrefix residual attempt submitted subject fallback order =
      failPass keyPrefix residual attempt submitted
        (if provesZeroExposure order then .brokerRejected else .brokerStateUnknown) detail (some order) := by
  unfold rejectedPass provesZeroExposure
  cases verifyZeroBrokerExposure order with
  | none => exact ⟨_, rfl⟩
  | some refusal => exact ⟨_, rfl⟩

variable {order : BrokerOrder}

theorem not_covers_of_rejected (h : order.state = .rejected) :
    ¬ (order.state = .complete ∨ order.state = .cancelled) := by
  rw [h]
  rintro (h | h) <;> cases h

theorem replayPass_flattened :
    (replayPass keyPrefix residual attempt intent).disposition = .flattened ↔
      ((brokerOrderFromDurableIntent intent).state = .complete ∨
          (brokerOrderFromDurableIntent intent).state = .cancelled) ∧
        .fin residual.quantity ≤ (brokerOrderFromDurableIntent intent).filledQuantity := by
  unfold replayPass
  dsimp only
  by_cases hrejected : (brokerOrderFromDurableIntent intent).state = .rejected
  · rw [if_pos hrejected]
    obtain ⟨detail, heq⟩ := rejectedPass_eq keyPrefix residual attempt none
      "durable REJECTED intent" "durable broker rejection" (brokerOrderFromDurableIntent intent)
    rw [heq]
    exact ⟨fun h => absurd h failPass_not_flattened, fun h => absurd h.1 (not_covers_of_rejected hrejected)⟩
  · rw [if_neg hrejected]
    exact ⟨classify_flattened, fun h => classify_of_covers h.1 h.2⟩

theorem answeredPass_flattened :
    (answeredPass keyPrefix residual attempt request answer).disposition = .flattened ↔
      ∃ order, answer = .ok order ∧ (order.state = .complete ∨ order.state = .cancelled) ∧
        .fin residual.quantity ≤ order.filledQuantity := by
  cases answer with
  | error error =>
    refine ⟨fun h => absurd h failPass_not_flattened, ?_⟩
    rintro ⟨order, h, -⟩
    cases h
  | ok order =>
    simp only [Except.ok.injEq, exists_eq_left']
    dsimp only [answeredPass]
    by_cases hadopt : classifyResidualOrder order residual.quantity = .adoptAttempt
    · rw [if_pos hadopt]
      refine ⟨fun h => absurd h failPass_not_flattened, ?_⟩
      intro h
      rw [classify_of_covers h.1 h.2] at hadopt
      cases hadopt
    · rw [if_neg hadopt]
      by_cases hrejected : order.state = .rejected
      · rw [if_pos hrejected]
        obtain ⟨detail, heq⟩ := rejectedPass_eq keyPrefix residual attempt (some request)
          "REJECTED snapshot" "broker rejected the reduction" order
        rw [heq]
        exact ⟨fun h => absurd h failPass_not_flattened, fun h => absurd h.1 (not_covers_of_rejected hrejected)⟩
      · rw [if_neg hrejected]
        exact ⟨classify_flattened, fun h => classify_of_covers h.1 h.2⟩

theorem answeredPass_submitted : (answeredPass keyPrefix residual attempt request answer).submitted = some request := by
  cases answer with
  | error error => rfl
  | ok order =>
    dsimp only [answeredPass]
    split
    · rfl
    · split
      · obtain ⟨detail, heq⟩ := rejectedPass_eq keyPrefix residual attempt (some request)
          "REJECTED snapshot" "broker rejected the reduction" order
        rw [heq]
        rfl
      · rfl

theorem replayPass_submitted : (replayPass keyPrefix residual attempt intent).submitted = none := by
  unfold replayPass
  dsimp only
  split
  · obtain ⟨detail, heq⟩ := rejectedPass_eq keyPrefix residual attempt none
      "durable REJECTED intent" "durable broker rejection" (brokerOrderFromDurableIntent intent)
    rw [heq]
    rfl
  · rfl

theorem flattenOne_flattened :
    (flattenOneResidual r.desk keyPrefix r.residual).disposition = .flattened ↔ Covers keyPrefix r := by
  unfold flattenOneResidual Covers shownOrder reachedRequest
  dsimp only
  by_cases hbudget : residualRejectionBudgetExhausted r.residual = true
  · simp only [if_pos hbudget]
    refine ⟨fun h => absurd h failPass_not_flattened, ?_⟩
    rintro ⟨order, h, -⟩
    cases h
  · simp only [if_neg hbudget]
    unfold selectedAttempt
    cases (firstAdoptableResidualAttempt r.desk keyPrefix r.residual (residualFlattenAttempt r.residual)).terminalIntent with
    | some intent => simp [replayPass_flattened]
    | none =>
      dsimp only
      cases prepareRequest r.desk keyPrefix r.residual _ with
      | error failed =>
        refine ⟨fun h => absurd h failPass_not_flattened, ?_⟩
        rintro ⟨order, h, -⟩
        cases h
      | ok request =>
        rw [answeredPass_flattened]
        cases hanswer : r.desk.submit request <;> simp [Except.toOption, hanswer]

theorem flattenOne_submitted :
    (flattenOneResidual r.desk keyPrefix r.residual).submitted = reachedRequest keyPrefix r := by
  unfold flattenOneResidual reachedRequest
  dsimp only
  by_cases hbudget : residualRejectionBudgetExhausted r.residual = true
  · simp only [if_pos hbudget, failPass_submitted]
  · simp only [if_neg hbudget]
    unfold selectedAttempt
    cases (firstAdoptableResidualAttempt r.desk keyPrefix r.residual (residualFlattenAttempt r.residual)).terminalIntent with
    | some intent => exact replayPass_submitted ..
    | none =>
      dsimp only
      cases prepareRequest r.desk keyPrefix r.residual _ with
      | error failed => rfl
      | ok request => exact answeredPass_submitted ..

/-! ## What a pass is about -/

theorem failPass_about (order : Option BrokerOrder) :
    (failPass keyPrefix residual attempt submitted kind detail order).residual = residual ∧
      (failPass keyPrefix residual attempt submitted kind detail order).attempt = attempt ∧
        (failPass keyPrefix residual attempt submitted kind detail order).order = order := ⟨rfl, rfl, rfl⟩

theorem replayPass_about :
    (replayPass keyPrefix residual attempt intent).residual = residual ∧
      (replayPass keyPrefix residual attempt intent).attempt = attempt ∧
        (replayPass keyPrefix residual attempt intent).order = some (brokerOrderFromDurableIntent intent) := by
  unfold replayPass
  dsimp only
  split
  · obtain ⟨detail, heq⟩ := rejectedPass_eq keyPrefix residual attempt none
      "durable REJECTED intent" "durable broker rejection" (brokerOrderFromDurableIntent intent)
    rw [heq]
    exact failPass_about ..
  · exact ⟨rfl, rfl, rfl⟩

def carriedOrder : SubmitAnswer → Option BrokerOrder
  | .ok order => some order
  | .error error => (failureOf error).2

theorem answeredPass_about :
    (answeredPass keyPrefix residual attempt request answer).residual = residual ∧
      (answeredPass keyPrefix residual attempt request answer).attempt = attempt ∧
        (answeredPass keyPrefix residual attempt request answer).order = carriedOrder answer := by
  cases answer with
  | error error => exact ⟨rfl, rfl, rfl⟩
  | ok order =>
    dsimp only [answeredPass]
    split
    · exact failPass_about ..
    · split
      · obtain ⟨detail, heq⟩ := rejectedPass_eq keyPrefix residual attempt (some request)
          "REJECTED snapshot" "broker rejected the reduction" order
        rw [heq]
        exact failPass_about ..
      · exact ⟨rfl, rfl, rfl⟩

def seenOrder (keyPrefix : String) (r : DeskedResidual) : Option BrokerOrder :=
  if residualRejectionBudgetExhausted r.residual then none
  else
    match (selectedAttempt keyPrefix r).terminalIntent with
    | some intent => some (brokerOrderFromDurableIntent intent)
    | none => (reachedRequest keyPrefix r).bind fun request => carriedOrder (r.desk.submit request)

variable {request : BrokerOrderRequest}

theorem prepareRequest_eq {desk : FlattenDesk} {residual : ResidualLegExposure} {attempt : ℕ}
    (h : prepareRequest desk keyPrefix residual attempt = .ok request) :
    ∃ pricing, request = residualRequest keyPrefix residual attempt pricing := by
  unfold prepareRequest at h
  split at h
  · cases h
  · split at h
    · cases h
    · dsimp only at h
      split at h
      · cases h
      · cases h
        exact ⟨_, rfl⟩

theorem reachedRequest_eq {r : DeskedResidual} (h : reachedRequest keyPrefix r = some request) :
    ∃ pricing, request = residualRequest keyPrefix r.residual (selectedAttempt keyPrefix r).attempt pricing := by
  unfold reachedRequest at h
  split at h
  · cases h
  · split at h
    · cases h
    · cases hprepared : prepareRequest r.desk keyPrefix r.residual (selectedAttempt keyPrefix r).attempt with
      | error failed =>
        rw [hprepared] at h
        cases h
      | ok prepared =>
        rw [hprepared] at h
        cases h
        exact prepareRequest_eq hprepared

theorem flattenOne_about (r : DeskedResidual) :
    (flattenOneResidual r.desk keyPrefix r.residual).residual = r.residual ∧
      (flattenOneResidual r.desk keyPrefix r.residual).attempt = (selectedAttempt keyPrefix r).attempt ∧
        (flattenOneResidual r.desk keyPrefix r.residual).order = seenOrder keyPrefix r := by
  unfold flattenOneResidual seenOrder reachedRequest
  dsimp only
  by_cases hbudget : residualRejectionBudgetExhausted r.residual = true
  · simp only [if_pos hbudget]
    exact ⟨rfl, rfl, rfl⟩
  · simp only [if_neg hbudget]
    unfold selectedAttempt
    cases (firstAdoptableResidualAttempt r.desk keyPrefix r.residual (residualFlattenAttempt r.residual)).terminalIntent with
    | some intent => exact replayPass_about ..
    | none =>
      dsimp only
      cases prepareRequest r.desk keyPrefix r.residual _ with
      | error failed => exact failPass_about ..
      | ok request => exact answeredPass_about ..

theorem seenOrder_of_shown {r : DeskedResidual} (h : shownOrder keyPrefix r = some order) :
    seenOrder keyPrefix r = some order := by
  unfold shownOrder at h
  unfold seenOrder
  by_cases hbudget : residualRejectionBudgetExhausted r.residual = true
  · rw [if_pos hbudget] at h
    cases h
  · rw [if_neg hbudget] at h ⊢
    split at h
    · exact h
    · cases hreached : reachedRequest keyPrefix r with
      | none => rw [hreached] at h; cases h
      | some request =>
        rw [hreached] at h
        show carriedOrder (r.desk.submit request) = some order
        cases hanswer : r.desk.submit request with
        | error error => simp [hanswer, Except.toOption] at h
        | ok answered =>
          simp only [hanswer, Except.toOption, Option.bind_some, Option.some.injEq] at h
          rw [← h]
          rfl

/-! ## What is left after a pass -/

variable {chargeTotal : ChargeTotal} {pass : ResidualFlattenPass}

theorem accountOrder_clears {accountedFilled : Number} {accountedCharges : ℚ} :
    (Number.fin pass.residual.quantity).sub
        (accountOrder chargeTotal keyPrefix pass order accountedFilled accountedCharges).fillDelta = .fin 0 ↔
      ∃ filled accounted : ℚ, order.filledQuantity = .fin filled ∧ accountedFilled = .fin accounted ∧
        filled = accounted + pass.residual.quantity ∧ 0 ≤ filled ∧ ¬ order.quantity < .fin filled := by
  have hq := pass.residual.outstanding
  have hzero : (Number.fin pass.residual.quantity).sub (.fin 0) ≠ .fin 0 := by
    simp only [Number.sub, sub_zero, ne_eq, Number.fin.injEq]
    exact hq.ne'
  unfold accountOrder
  dsimp only
  by_cases hregressed : regressed order accountedFilled = true
  · rw [if_pos (Or.inl hregressed)]
    refine ⟨fun h => absurd h hzero, ?_⟩
    rintro ⟨filled, accounted, hf, ha, heq, hnonneg, hquantity⟩
    simp only [regressed, hf, ha, Number.isFinite_fin, Number.fin_lt_fin, Bool.or_eq_true, decide_eq_true_eq,
      Bool.true_eq_false, decide_false, Bool.false_or] at hregressed
    rcases hregressed with (h | h) | h
    · exact absurd h (by linarith)
    · exact absurd h (by linarith)
    · exact absurd h hquantity
  · rw [if_neg hregressed]
    by_cases hover : Number.fin pass.residual.quantity < order.filledQuantity.sub accountedFilled
    · rw [if_pos (Or.inr hover)]
      refine ⟨fun h => absurd h hzero, ?_⟩
      rintro ⟨filled, accounted, hf, ha, heq, -, -⟩
      rw [hf, ha, Number.sub, Number.fin_lt_fin] at hover
      exact absurd hover (by linarith)
    · rw [if_neg (by simp [hregressed, hover])]
      constructor
      · intro h
        obtain ⟨x, y, hx, hy, hxy⟩ := Number.sub_eq_fin h
        cases hx
        obtain ⟨filled, accounted, hf, ha, heq⟩ := Number.sub_eq_fin hy
        simp only [regressed, hf, ha, Number.isFinite_fin, Number.fin_lt_fin, Bool.or_eq_true, decide_eq_true_eq,
          Bool.true_eq_false, decide_false, Bool.false_or, not_or] at hregressed
        refine ⟨filled, accounted, hf, ha, by linarith, not_lt.mp hregressed.1.2, hregressed.2⟩
      · rintro ⟨filled, accounted, hf, ha, heq, -, -⟩
        rw [hf, ha, heq]
        simp [Number.sub]

theorem readWatermarks_nonneg {rawFilled rawCharge : Option Number} {filled charges : ℚ}
    (h : readWatermarks rawFilled rawCharge = .valid filled charges) : 0 ≤ filled := by
  unfold readWatermarks at h
  split at h
  · cases h
  · split at h
    · rename_i hnonneg
      cases h
      exact hnonneg.1
    · cases h
  · cases h

theorem passWatermarks_nonneg {residual : ResidualLegExposure} {attempt : ℕ} {filled charges : ℚ}
    (h : passWatermarks residual attempt = .valid filled charges) : 0 ≤ filled := by
  unfold passWatermarks at h
  split at h
  · exact readWatermarks_nonneg h
  · cases h

theorem legacyFilled_eq {residual : ResidualLegExposure} {accounted : ℚ}
    (h : legacyFilled order residual = .fin accounted) :
    (∃ quantity, order.quantity = .fin quantity ∧ accounted = max 0 (quantity - residual.quantity)) ∨
      order.quantity = .negInf := by
  unfold legacyFilled at h
  cases hquantity : order.quantity with
  | fin quantity =>
    refine .inl ⟨quantity, rfl, ?_⟩
    rw [hquantity] at h
    simp only [Number.sub, Number.max, Number.fin_lt_fin] at h
    by_cases hpos : 0 < quantity - residual.quantity
    · rw [if_pos hpos] at h
      cases h
      rw [max_eq_right hpos.le]
    · rw [if_neg hpos] at h
      cases h
      rw [max_eq_left (not_lt.mp hpos)]
  | negInf => exact .inr rfl
  | nan => rw [hquantity] at h; cases h
  | posInf => rw [hquantity] at h; cases h

theorem outstanding_zero_iff (h : seenOrder keyPrefix r = some order) :
    outstandingAfter chargeTotal keyPrefix (flattenOneResidual r.desk keyPrefix r.residual) = .fin 0 ↔
      CreditsAll keyPrefix r order := by
  obtain ⟨hresidual, hattempt, horder⟩ := @flattenOne_about keyPrefix r
  set pass := flattenOneResidual r.desk keyPrefix r.residual
  have hq := r.residual.outstanding
  rw [h] at horder
  unfold outstandingAfter accountPass CreditsAll
  rw [← hattempt, ← hresidual, horder]
  cases hwatermarks : passWatermarks pass.residual pass.attempt with
  | invalid filled charges =>
    simp only [Number.sub, sub_zero, Number.fin.injEq, iff_false]
    exact pass.residual.outstanding.ne'
  | valid filled charges =>
    have hnonneg := passWatermarks_nonneg hwatermarks
    have hpos := pass.residual.outstanding
    dsimp only
    rw [accountOrder_clears]
    constructor
    · rintro ⟨f, accounted, hf, ha, heq, -, hquantity⟩
      cases ha
      rw [hf, heq]
      exact ⟨rfl, heq ▸ hquantity⟩
    · rintro ⟨hf, hquantity⟩
      rw [hf] at hquantity
      exact ⟨_, filled, hf, rfl, rfl, by linarith, hquantity⟩
  | legacy =>
    have hpos := pass.residual.outstanding
    dsimp only
    rw [accountOrder_clears]
    constructor
    · rintro ⟨f, accounted, hf, ha, heq, hnonneg, hquantity⟩
      rcases legacyFilled_eq ha with ⟨quantity, hquant, hmax⟩ | hneg
      · rw [hquant, Number.fin_lt_fin, not_lt] at hquantity
        have hle := le_max_right 0 (quantity - pass.residual.quantity)
        have hge := le_max_left 0 (quantity - pass.residual.quantity)
        have hfq : f = quantity := by linarith
        rw [hf, hquant, hfq]
        exact ⟨rfl, rfl, by rw [Number.fin_le_fin]; linarith⟩
      · rw [hneg] at hquantity
        exact absurd rfl hquantity
    · rintro ⟨hf, hfinite, hle⟩
      cases hquant : order.quantity with
      | fin quantity =>
        rw [hquant] at hf hle
        rw [Number.fin_le_fin] at hle
        refine ⟨quantity, quantity - pass.residual.quantity, hf, ?_, by ring, by linarith, by simp⟩
        unfold legacyFilled
        rw [hquant]
        simp only [Number.sub, Number.max, Number.fin_lt_fin]
        by_cases hlt : 0 < quantity - pass.residual.quantity
        · rw [if_pos hlt]
        · rw [if_neg hlt, le_antisymm (not_lt.mp hlt) (by linarith)]
      | _ => rw [hquant] at hfinite; cases hfinite

/-! ## The gate -/

def LongSubmitted (keyPrefix : String) (residuals : List DeskedResidual) : Prop :=
  ∃ pass ∈ flattenPasses keyPrefix residuals, pass.residual.side = .buy ∧ pass.submitted.isSome = true

def ShortsGone (chargeTotal : ChargeTotal) (keyPrefix : String) (residuals : List DeskedResidual) : Prop :=
  ∀ pass ∈ flattenPasses keyPrefix residuals, pass.residual.side = .sell →
    outstandingAfter chargeTotal keyPrefix pass = .fin 0

variable {residuals : List DeskedResidual}

theorem mem_shortPasses :
    pass ∈ shortPasses keyPrefix residuals ↔
      ∃ r ∈ residuals, r.residual.side = .sell ∧ flattenOneResidual r.desk keyPrefix r.residual = pass := by
  simp [shortPasses, and_assoc]

theorem mem_longPasses :
    pass ∈ longPasses keyPrefix residuals ↔
      ∃ r ∈ residuals, r.residual.side = .buy ∧
        (if (unresolvedShorts keyPrefix residuals).isEmpty then flattenOneResidual r.desk keyPrefix r.residual
          else heldPass (unresolvedShorts keyPrefix residuals) r.residual) = pass := by
  have hside : ∀ side : OrderSide, ¬ side = .sell ↔ side = .buy := by
    intro side
    cases side <;> simp
  simp [longPasses, and_assoc, hside]

theorem unresolved_empty :
    (unresolvedShorts keyPrefix residuals).isEmpty = true ↔
      ∀ r ∈ residuals, r.residual.side = .sell → Covers keyPrefix r := by
  rw [List.isEmpty_iff, unresolvedShorts, List.filter_eq_nil_iff]
  constructor
  · intro h r hr hside
    have hpass := h _ (mem_shortPasses.mpr ⟨r, hr, hside, rfl⟩)
    simp only [ne_eq, decide_not, Bool.not_eq_true', decide_eq_false_iff_not, not_not] at hpass
    exact (flattenOne_flattened r).mp hpass
  · intro h pass hpass
    obtain ⟨r, hr, hside, rfl⟩ := mem_shortPasses.mp hpass
    simp [(flattenOne_flattened r).mpr (h r hr hside)]

theorem longSubmitted_iff :
    LongSubmitted keyPrefix residuals ↔
      (∀ r ∈ residuals, r.residual.side = .sell → Covers keyPrefix r) ∧
        ∃ r ∈ residuals, r.residual.side = .buy ∧ (reachedRequest keyPrefix r).isSome = true := by
  constructor
  · rintro ⟨pass, hpass, hbuy, hsubmitted⟩
    rcases List.mem_append.mp hpass with hshort | hlong
    · obtain ⟨r, -, hside, rfl⟩ := mem_shortPasses.mp hshort
      rw [(flattenOne_about r).1, hside] at hbuy
      cases hbuy
    · obtain ⟨r, hr, hside, rfl⟩ := mem_longPasses.mp hlong
      by_cases hempty : (unresolvedShorts keyPrefix residuals).isEmpty = true
      · rw [if_pos hempty, flattenOne_submitted] at hsubmitted
        exact ⟨unresolved_empty.mp hempty, r, hr, hside, hsubmitted⟩
      · rw [if_neg hempty] at hsubmitted
        cases hsubmitted
  · rintro ⟨hcovers, r, hr, hside, hreached⟩
    refine ⟨flattenOneResidual r.desk keyPrefix r.residual, ?_, ?_, ?_⟩
    · refine List.mem_append_right _ (mem_longPasses.mpr ⟨r, hr, hside, ?_⟩)
      rw [if_pos (unresolved_empty.mpr hcovers)]
    · rw [(flattenOne_about r).1, hside]
    · rw [flattenOne_submitted]
      exact hreached

theorem shortsGone_iff :
    ShortsGone chargeTotal keyPrefix residuals ↔ ∀ r ∈ residuals, r.residual.side = .sell →
      outstandingAfter chargeTotal keyPrefix (flattenOneResidual r.desk keyPrefix r.residual) = .fin 0 := by
  constructor
  · intro h r hr hside
    refine h _ (List.mem_append_left _ (mem_shortPasses.mpr ⟨r, hr, hside, rfl⟩)) ?_
    rw [(flattenOne_about r).1, hside]
  · intro h pass hpass hsell
    rcases List.mem_append.mp hpass with hshort | hlong
    · obtain ⟨r, hr, hside, rfl⟩ := mem_shortPasses.mp hshort
      exact h r hr hside
    · obtain ⟨r, -, hside, rfl⟩ := mem_longPasses.mp hlong
      have hbuy : r.residual.side = .sell := by
        split at hsell
        · rwa [(flattenOne_about r).1] at hsell
        · exact hsell
      rw [hside] at hbuy
      cases hbuy

/-- **Cover released.** A submitted long means that every short is gone, exactly when no short could be taken for
finished without its order covering it. -/
theorem cover_released_iff (chargeTotal : ChargeTotal) (residuals : List DeskedResidual) :
    (LongSubmitted keyPrefix residuals → ShortsGone chargeTotal keyPrefix residuals) ↔
      (∃ r ∈ residuals, r.residual.side = .sell ∧ ¬ Covers keyPrefix r) ∨
      (∀ r ∈ residuals, r.residual.side = .buy → reachedRequest keyPrefix r = none) ∨
      (∀ r ∈ residuals, r.residual.side = .sell → ∀ order, shownOrder keyPrefix r = some order →
        CreditsAll keyPrefix r order) := by
  constructor
  · intro h
    by_cases hcovers : ∀ r ∈ residuals, r.residual.side = .sell → Covers keyPrefix r
    · by_cases hreached : ∃ r ∈ residuals, r.residual.side = .buy ∧ (reachedRequest keyPrefix r).isSome = true
      · have hgone := shortsGone_iff.mp (h (longSubmitted_iff.mpr ⟨hcovers, hreached⟩))
        refine .inr (.inr ?_)
        intro r hr hside order hshown
        exact (outstanding_zero_iff r (seenOrder_of_shown hshown)).mp (hgone r hr hside)
      · refine .inr (.inl ?_)
        intro r hr hside
        by_contra hsome
        exact hreached ⟨r, hr, hside, Option.isSome_iff_ne_none.mpr hsome⟩
    · push Not at hcovers
      exact .inl hcovers
  · intro h hsubmitted
    obtain ⟨hcovers, long, hlong, hbuy, hreached⟩ := longSubmitted_iff.mp hsubmitted
    rcases h with ⟨r, hr, hside, hnot⟩ | hnone | hcredits
    · exact absurd (hcovers r hr hside) hnot
    · rw [hnone long hlong hbuy] at hreached
      cases hreached
    · refine shortsGone_iff.mpr ?_
      intro r hr hside
      obtain ⟨order, hshown, -⟩ := hcovers r hr hside
      exact (outstanding_zero_iff r (seenOrder_of_shown hshown)).mpr (hcredits r hr hside order hshown)

end

def legResidual (role : BoxLegRole) (side : OrderSide) (quantity : ℚ) (outstanding : 0 < quantity)
    (filled charges : Option Number) : ResidualLegExposure where
  token := .fin 1002
  tradingsymbol := "NIFTY26SEP20000CE"
  exchange := none
  role
  side
  quantity
  averagePrice := .fin 10
  source := .partialEntry
  createdAt := .fin 1
  flattenAttempt := some (.fin 1)
  flattenAccountedFilled := filled
  flattenAccountedCharges := charges
  flattenBrokerRejections := none
  outstanding

def openDesk (journal : Option BoxOrderIntent) (answer : SubmitAnswer) : FlattenDesk where
  findDurableIntent := some fun _ => .ok journal
  quote := some ⟨some (.fin 10), .fin 1⟩
  isTokenWarm := none
  now := .fin 2
  quoteMaxAgeMs := .fin 1000
  buildOrderPricing touch := .ok ⟨touch, .fin (1 / 20), .fin 4, touch⟩
  precheck _ := .ok ()
  submit _ := answer

def cancelledBuyBack : List DeskedResidual :=
  [⟨legResidual .k2Ce .sell 25 (by norm_num) (some (.fin 50)) (some (.fin 0)),
      openDesk (some (legIntent .cancelled .k2Ce .buy 75 50)) (.error (.other ""))⟩,
    ⟨legResidual .k1Ce .buy 75 (by norm_num) none none, openDesk none (.error (.other ""))⟩]

/-- 25 of the short are still open and its cover is sold. -/
theorem cover_released_early :
    LongSubmitted "T1" cancelledBuyBack ∧ ¬ ShortsGone none "T1" cancelledBuyBack := by
  constructor
  · refine longSubmitted_iff.mpr ⟨?_, _, .tail _ (List.mem_singleton_self _), rfl, rfl⟩
    intro r hr hside
    rcases List.mem_cons.mp hr with rfl | hr
    · exact ⟨_, rfl, .inr rfl, by decide +kernel⟩
    · obtain rfl := List.mem_singleton.mp hr
      cases hside
  · intro h
    have hgone := shortsGone_iff.mp h _ (.head _) rfl
    rw [outstanding_zero_iff _ rfl] at hgone
    exact absurd hgone.1 (by decide +kernel)

end BoxEngine
