import BoxEngine.DepthWalk
import BoxEngine.Lib.GreedyFill

/-!
# The depth walk is the greedy fill

The walk is `GreedyFill.fill` over the admissible levels in price order; what it fills is the lesser of what was asked
and a sum over the book.
-/

namespace BoxEngine

open Js

theorem takeWhile_eq_filter {α : Type*} {p : α → Bool} {l : List α} (h : l.Pairwise fun a b => p b = true → p a = true) :
    l.takeWhile p = l.filter p := by
  induction l with
  | nil => rfl
  | cons a l ih =>
    obtain ⟨hfirst, hrest⟩ := List.pairwise_cons.mp h
    by_cases ha : p a = true
    · simp [ha, ih hrest]
    · have hnone : l.filter p = [] := List.filter_eq_nil_iff.mpr fun b hb hpb => ha (hfirst b hb hpb)
      simp [ha, hnone]

namespace DepthWalk

variable (order : DepthWalk)

def admissible (lv : BoxDepthLevel) : Bool := lv.usable && withinLimit order.side lv.price order.limitPrice

def cost (lv : BoxDepthLevel) : ℚ :=
  match order.side with
  | .buy => lv.price.value
  | .sell => -lv.price.value

def slice (a : BoxDepthLevel × ℕ) : PaperFillSlice :=
  ⟨round2 a.1.price.value, a.2, a.1.qty, order.effective a.1, order.at_, order.quoteVersion⟩

def slices (alloc : List (BoxDepthLevel × ℕ)) : List PaperFillSlice := (alloc.filter fun a => 0 < a.2).map order.slice

def spent (alloc : List (BoxDepthLevel × ℕ)) : ℚ := GreedyFill.value (fun lv : BoxDepthLevel => lv.price.value) alloc

def wanted : ℕ := if order.limitPrice.isFinite ∧ .fin 0 < order.limitPrice then usableQty order.remainingQty else 0

variable (levels : List BoxDepthLevel)

def ordered : List BoxDepthLevel :=
  (levels.filter BoxDepthLevel.usable).insertionSort (BoxDepthLevel.ranks order.side)

def allocation : List (BoxDepthLevel × ℕ) :=
  GreedyFill.fill order.effective order.wanted
    ((order.ordered levels).takeWhile fun lv => withinLimit order.side lv.price order.limitPrice)

def capacity : ℕ := ((levels.filter order.admissible).map order.effective).sum

theorem visit_eq (lv : BoxDepthLevel) (state : WalkState) :
    order.visit lv state =
      let take := min state.remaining (order.effective lv)
      { remaining := state.remaining - order.effective lv
        filled := state.filled + take
        valueSum := state.valueSum + lv.price.value * take
        executableWithinLimit := min maxSafeInteger (state.executableWithinLimit + order.effective lv)
        slices := state.slices ++ order.slices [(lv, take)] } := by
  unfold visit slices
  dsimp only
  by_cases hremaining : state.remaining = 0
  · simp [hremaining]
  · by_cases heffective : order.effective lv = 0
    · simp [heffective]
    · have hpos : 0 < min state.remaining (order.effective lv) := by omega
      have hsub : state.remaining - min state.remaining (order.effective lv) =
          state.remaining - order.effective lv := by omega
      rw [if_neg (by simp [hremaining, heffective]), if_neg hpos.ne', hsub]
      simp only [List.filter_cons, hpos, decide_true, if_true, List.filter_nil, List.map_cons, List.map_nil, slice]

theorem walk_eq (items : List BoxDepthLevel) (state : WalkState) (hmax : state.executableWithinLimit ≤ maxSafeInteger) :
    let within := items.takeWhile fun lv => withinLimit order.side lv.price order.limitPrice
    let alloc := GreedyFill.fill order.effective state.remaining within
    order.walk items state =
      { remaining := state.remaining - (within.map order.effective).sum
        filled := state.filled + GreedyFill.total alloc
        valueSum := state.valueSum + spent alloc
        executableWithinLimit := min maxSafeInteger (state.executableWithinLimit + (within.map order.effective).sum)
        slices := state.slices ++ order.slices alloc } := by
  induction items generalizing state with
  | nil => simp [walk, GreedyFill.fill, spent, slices, hmax]
  | cons lv rest ih =>
    by_cases hwithin : withinLimit order.side lv.price order.limitPrice = true
    · have hstep := ih (order.visit lv state) (by rw [visit_eq]; exact min_le_left _ _)
      simp only [walk, hwithin, if_true, List.takeWhile_cons, List.map_cons, List.sum_cons]
      rw [hstep, visit_eq]
      simp only [GreedyFill.fill, GreedyFill.total_cons, spent, GreedyFill.value_cons, slices, List.filter_cons,
        WalkState.mk.injEq]
      refine ⟨by omega, by omega, by ring, by omega, ?_⟩
      split <;> simp
    · simp [walk, hwithin, GreedyFill.fill, spent, slices, hmax]

/-! ## The book in order -/

theorem usable_price {lv : BoxDepthLevel} (h : lv.usable = true) : ∃ p : ℚ, lv.price = .fin p ∧ 0 < p := by
  unfold BoxDepthLevel.usable at h
  cases hprice : lv.price with
  | fin p => exact ⟨p, rfl, by simp [hprice] at h; tauto⟩
  | _ => simp [hprice, Number.isFinite] at h

theorem withinLimit_of_ranks {side : OrderSide} {a b : BoxDepthLevel} {limit : Number} (ha : a.usable = true)
    (hb : b.usable = true) (h : BoxDepthLevel.ranks side a b) (hwithin : withinLimit side b.price limit = true) :
    withinLimit side a.price limit = true := by
  obtain ⟨p, hp, hpos⟩ := usable_price ha
  obtain ⟨q, hq, _⟩ := usable_price hb
  rw [hq] at hwithin
  cases limit with
  | fin l =>
    cases side with
    | buy =>
      have hle : p ≤ q := by simpa [BoxDepthLevel.ranks, hp, hq] using h
      simp only [withinLimit, hp, Bool.and_eq_true, decide_eq_true_eq] at hwithin ⊢
      exact ⟨⟨hpos, hwithin.1.2⟩, hle.trans hwithin.2⟩
    | sell =>
      have hle : q ≤ p := by simpa [BoxDepthLevel.ranks, hp, hq] using h
      simp only [withinLimit, hp, Bool.and_eq_true, decide_eq_true_eq] at hwithin ⊢
      exact ⟨⟨hpos, hwithin.1.2⟩, hwithin.2.trans hle⟩
  | _ => simp [withinLimit] at hwithin

variable (levels : List BoxDepthLevel)

theorem ordered_pairwise : (order.ordered levels).Pairwise (BoxDepthLevel.ranks order.side) := by
  unfold ordered
  cases order.side with
  | buy =>
    have : Std.Total (BoxDepthLevel.ranks .buy) := ⟨fun a b => le_total a.price.value b.price.value⟩
    have : IsTrans BoxDepthLevel (BoxDepthLevel.ranks .buy) := ⟨fun _ _ _ hab hbc => Rat.le_trans hab hbc⟩
    exact List.pairwise_insertionSort _ _
  | sell =>
    have : Std.Total (BoxDepthLevel.ranks .sell) := ⟨fun a b => le_total b.price.value a.price.value⟩
    have : IsTrans BoxDepthLevel (BoxDepthLevel.ranks .sell) := ⟨fun _ _ _ hab hbc => Rat.le_trans hbc hab⟩
    exact List.pairwise_insertionSort _ _

theorem ordered_perm : (order.ordered levels).Perm (levels.filter BoxDepthLevel.usable) :=
  List.perm_insertionSort _ _

theorem visited_eq :
    ((order.ordered levels).takeWhile fun lv => withinLimit order.side lv.price order.limitPrice) =
      (order.ordered levels).filter fun lv => withinLimit order.side lv.price order.limitPrice := by
  refine takeWhile_eq_filter ?_
  refine (order.ordered_pairwise levels).imp_of_mem fun ha hb h hwithin => ?_
  have husable : ∀ {lv}, lv ∈ order.ordered levels → lv.usable = true := fun hlv =>
    (List.mem_filter.mp ((order.ordered_perm levels).mem_iff.mp hlv)).2
  exact withinLimit_of_ranks (husable ha) (husable hb) h hwithin

theorem visited_perm :
    ((order.ordered levels).takeWhile fun lv => withinLimit order.side lv.price order.limitPrice).Perm
      (levels.filter order.admissible) := by
  rw [visited_eq]
  refine ((order.ordered_perm levels).filter _).trans ?_
  have hsame : (fun lv : BoxDepthLevel => withinLimit order.side lv.price order.limitPrice && lv.usable) = order.admissible :=
    funext fun lv => Bool.and_comm _ _
  rw [List.filter_filter, hsame]

theorem visited_sum :
    ((((order.ordered levels).takeWhile fun lv => withinLimit order.side lv.price order.limitPrice)).map
      order.effective).sum = order.capacity levels :=
  ((order.visited_perm levels).map _).sum_eq

/-! ## The result -/

theorem usableQty_le (q : Number) : usableQty q ≤ maxSafeInteger := by
  unfold usableQty maxSafeInteger
  cases q with
  | fin q =>
    simp only
    split
    · rename_i h
      obtain ⟨hsafe, hpos⟩ := h
      simp only [isSafeInteger, Bool.and_eq_true, decide_eq_true_eq] at hsafe
      have hnum : (q.num : ℚ) = q := Rat.coe_int_num_of_den_eq_one hsafe.1
      have hle : (q.num : ℚ) ≤ 9007199254740991 := by
        rw [hnum]
        exact (le_abs_self q).trans hsafe.2
      have : q.num ≤ 9007199254740991 := by exact_mod_cast hle
      omega
    · exact Nat.zero_le _
  | _ => exact Nat.zero_le _

theorem usableQty_eq_zero_iff (q : Number) : usableQty q = 0 ↔ isSafeInteger q = false ∨ q ≤ .fin 0 := by
  unfold usableQty
  cases q with
  | fin q =>
    by_cases hpos : 0 < q
    · have hnum : 0 < q.num := Rat.num_pos.mpr hpos
      by_cases hsafe : isSafeInteger (.fin q) = true
      · simp [hsafe, hpos]
      · simp [hsafe]
    · simp [hpos, not_lt.mp hpos]
  | _ => simp [isSafeInteger]

theorem walkDepth_eq : let alloc := order.allocation levels
    walkDepth order levels =
      { filledQty := GreedyFill.total alloc
        averagePrice := if 0 < GreedyFill.total alloc then some (round2 (spent alloc / GreedyFill.total alloc)) else none
        slices := order.slices alloc
        executableWithinLimit := if order.wanted = 0 then 0 else min maxSafeInteger (order.capacity levels) } := by
  have hnothing : order.wanted = 0 → GreedyFill.total (order.allocation levels) = 0 ∧
      order.slices (order.allocation levels) = [] := by
    intro hzero
    have hall : ∀ a ∈ order.allocation levels, a.2 = 0 := by
      unfold allocation
      rw [hzero]
      exact fun a ha => GreedyFill.fill_zero _ ha
    refine ⟨by unfold allocation; rw [hzero, GreedyFill.total_fill, Nat.zero_min], ?_⟩
    unfold slices
    rw [List.filter_eq_nil_iff.mpr fun a ha => by simp [hall a ha]]
    rfl
  unfold walkDepth
  dsimp only
  -- the two early returns of the walk fill nothing, as the allocation of nothing does
  by_cases hlimit : order.limitPrice.isFinite = true ∧ .fin 0 < order.limitPrice
  · by_cases hqty : usableQty order.remainingQty = 0
    · have hzero : order.wanted = 0 := by simp [wanted, hqty]
      obtain ⟨htotal, hslices⟩ := hnothing hzero
      rw [if_pos, htotal, hslices, if_pos hzero]
      · simp
      · rcases (usableQty_eq_zero_iff _).mp hqty with h | h
        · exact .inl h
        · exact .inr (.inl h)
    · have hwanted : order.wanted = usableQty order.remainingQty := by simp [wanted, hlimit]
      rw [if_neg, walk_eq _ _ _ (Nat.zero_le _)]
      · have hne : ¬ order.wanted = 0 := by rw [hwanted]; exact hqty
        simp only [zero_add, List.nil_append, ← hwanted, if_neg hne]
        have hsum := order.visited_sum levels
        unfold ordered at hsum
        rw [hsum]
        rfl
      · have hq := (usableQty_eq_zero_iff order.remainingQty).not.mp hqty
        obtain ⟨l, hl, hpos⟩ : ∃ l : ℚ, order.limitPrice = .fin l ∧ 0 < l := by
          obtain ⟨hfinite, hpos⟩ := hlimit
          cases hl : order.limitPrice with
          | fin l => exact ⟨l, rfl, by simpa [hl] using hpos⟩
          | _ => simp [hl, Number.isFinite] at hfinite
        simp only [not_or] at hq ⊢
        simp [hq, hl, hpos]
  · have hzero : order.wanted = 0 := if_neg hlimit
    obtain ⟨htotal, hslices⟩ := hnothing hzero
    rw [if_pos, htotal, hslices, if_pos hzero]
    · simp
    · cases hl : order.limitPrice with
      | fin l => simp_all
      | _ => simp [Number.isFinite]

theorem wanted_le : order.wanted ≤ maxSafeInteger := by
  unfold wanted
  split
  · exact usableQty_le _
  · exact Nat.zero_le _

theorem allocation_spec :
    GreedyFill.Allocation order.effective (levels.filter order.admissible) (order.allocation levels) :=
  (GreedyFill.fill_allocation _ _ _).perm (order.visited_perm levels)

theorem allocation_levels : ((order.allocation levels).map Prod.fst).Pairwise (BoxDepthLevel.ranks order.side) := by
  unfold allocation
  rw [GreedyFill.map_fst_fill]
  exact (order.ordered_pairwise levels).sublist (List.takeWhile_sublist _)

theorem total_allocation : GreedyFill.total (order.allocation levels) = min order.wanted (order.capacity levels) := by
  unfold allocation
  rw [GreedyFill.total_fill, visited_sum]

theorem value_cost (alloc : List (BoxDepthLevel × ℕ)) :
    (order.side = .buy → GreedyFill.value order.cost alloc = spent alloc) ∧
      (order.side = .sell → GreedyFill.value order.cost alloc = -spent alloc) := by
  refine ⟨fun h => ?_, fun h => ?_⟩
  · simp only [GreedyFill.value, cost, h, spent]
  · have hcost : order.cost = fun lv => -lv.price.value := by
      funext lv
      simp [cost, h]
    rw [hcost, GreedyFill.value_neg, spent]

theorem allocation_cheapest {other : List (BoxDepthLevel × ℕ)}
    (h : GreedyFill.Allocation order.effective (levels.filter order.admissible) other)
    (htotal : GreedyFill.total other = GreedyFill.total (order.allocation levels)) :
    GreedyFill.value order.cost (order.allocation levels) ≤ GreedyFill.value order.cost other := by
  refine GreedyFill.value_fill_le _ _ ?_ (h.perm (order.visited_perm levels).symm) htotal
  refine ((order.ordered_pairwise levels).sublist (List.takeWhile_sublist _)).imp fun h => ?_
  unfold BoxDepthLevel.ranks at h
  unfold cost
  cases hside : order.side with
  | buy => simpa [hside] using h
  | sell => simpa [hside] using h

/-! ## Asking for more of a deeper book -/

structure Raises (order order' : DepthWalk) (levels levels' : List BoxDepthLevel) : Prop where
  side : order'.side = order.side
  remainingQty : order'.remainingQty = order.remainingQty
  queueModel : order'.queueModel = order.queueModel
  haircutPct : order'.haircutPct = order.haircutPct
  quoteVersion : order'.quoteVersion = order.quoteVersion
  reserved : order'.reserved = order.reserved
  usable : order'.limitPrice.isFinite = true ∧ .fin 0 < order'.limitPrice
  buy : order.side = .buy → order.limitPrice ≤ order'.limitPrice
  sell : order.side = .sell → order'.limitPrice ≤ order.limitPrice
  levels : List.Forall₂ (fun lv lv' => lv' = lv ∨
    lv'.price = lv.price ∧ isSafeInteger lv'.qty = true ∧ lv.qty ≤ lv'.qty) levels levels'

theorem usableQty_mono {q q' : Number} (hsafe : isSafeInteger q' = true) (h : q ≤ q') : usableQty q ≤ usableQty q' := by
  cases q with
  | fin x =>
    cases q' with
    | fin y =>
      have hle : x ≤ y := by simpa using h
      by_cases hx : isSafeInteger (.fin x) = true ∧ 0 < x
      · have hy : isSafeInteger (.fin y) = true ∧ 0 < y := ⟨hsafe, hx.2.trans_le hle⟩
        simp only [usableQty, if_pos hx, if_pos hy]
        have hden : ∀ {z : ℚ}, isSafeInteger (.fin z) = true → (z.num : ℚ) = z := fun hz => by
          simp only [isSafeInteger, Bool.and_eq_true, decide_eq_true_eq] at hz
          exact Rat.coe_int_num_of_den_eq_one hz.1
        have hnum : (x.num : ℚ) ≤ (y.num : ℚ) := by rwa [hden hx.1, hden hy.1]
        have : x.num ≤ y.num := by exact_mod_cast hnum
        omega
      · simp [usableQty, if_neg hx]
    | _ => simp [isSafeInteger] at hsafe
  | _ => exact Nat.zero_le _

theorem haircutFactor_nonneg (pct : ℚ) : 0 ≤ haircutFactor pct := by
  have hone : Binary64.rounded 1 = 1 := by decide +kernel
  have hhigh : min 100 (max 0 pct) / 100 ≤ 1 := by
    have := min_le_left (100 : ℚ) (max 0 pct)
    linarith
  have hlow : 0 ≤ min 100 (max 0 pct) / 100 := by positivity
  have hrounded := Binary64.rounded_mono hlow hhigh
  exact Binary64.rounded_nonneg (by linarith)

/-- More shown is never less to take, whatever the doubles round to. -/
theorem effectiveQty_mono {q q' : Number} (h : usableQty q ≤ usableQty q') (model : BoxQueueModel) (haircutPct : Number) :
    effectiveQty q model haircutPct ≤ effectiveQty q' model haircutPct := by
  cases model with
  | none => exact h
  | haircut =>
    cases haircutPct with
    | fin pct =>
      have hfactor := haircutFactor_nonneg pct
      have hcast : (usableQty q : ℚ) ≤ (usableQty q' : ℚ) := by exact_mod_cast h
      have hproduct := mul_le_mul_of_nonneg_right hcast hfactor
      exact Nat.floor_mono (Binary64.rounded_mono (mul_nonneg (Nat.cast_nonneg _) hfactor) hproduct)
    | _ => exact le_rfl

section
variable {order} {order' : DepthWalk} {levels levels' : List BoxDepthLevel}

theorem Raises.within (h : order.Raises order' levels levels') {price : Number}
    (hwithin : withinLimit order.side price order.limitPrice = true) :
    withinLimit order'.side price order'.limitPrice = true := by
  obtain ⟨hfinite, hpos⟩ := h.usable
  rw [h.side]
  cases price with
  | fin p =>
    cases hl : order.limitPrice with
    | fin l =>
      cases hl' : order'.limitPrice with
      | fin l' =>
        rw [hl] at hwithin
        rw [hl', Number.fin_lt_fin] at hpos
        cases hside : order.side with
        | buy =>
          have hle : l ≤ l' := by simpa [hl, hl'] using h.buy hside
          simp only [hside, withinLimit, Bool.and_eq_true, decide_eq_true_eq] at hwithin ⊢
          exact ⟨⟨hwithin.1.1, hpos⟩, by linarith [hwithin.2]⟩
        | sell =>
          have hle : l' ≤ l := by simpa [hl, hl'] using h.sell hside
          simp only [hside, withinLimit, Bool.and_eq_true, decide_eq_true_eq] at hwithin ⊢
          exact ⟨⟨hwithin.1.1, hpos⟩, by linarith [hwithin.2]⟩
      | _ => simp [hl', Number.isFinite] at hfinite
    | _ => simp [hl, withinLimit] at hwithin
  | _ => simp [withinLimit] at hwithin

theorem Raises.level (h : order.Raises order' levels levels') {lv lv' : BoxDepthLevel} (hlv : lv' = lv ∨
    lv'.price = lv.price ∧ isSafeInteger lv'.qty = true ∧ lv.qty ≤ lv'.qty) :
    (if order.admissible lv then order.effective lv else 0) ≤ if order'.admissible lv' then order'.effective lv' else 0 := by
  by_cases hadmissible : order.admissible lv = true
  · obtain ⟨husable, hwithin⟩ := (Bool.and_eq_true _ _).mp hadmissible
    have hprice : lv'.price = lv.price := hlv.elim (fun he => by rw [he]) And.left
    have hwithin' : withinLimit order'.side lv'.price order'.limitPrice = true := by
      rw [hprice]
      exact h.within hwithin
    have husable' : lv'.usable = true := by
      rcases hlv with rfl | ⟨_, hsafe, hle⟩
      · exact husable
      · obtain ⟨p, hp, _⟩ := usable_price husable
        cases hq : lv.qty with
        | fin q =>
          cases hq' : lv'.qty with
          | fin q' =>
            rw [hq, hq', Number.fin_le_fin] at hle
            rw [hq'] at hsafe
            simp only [BoxDepthLevel.usable, hp, hq, hprice, hq', Number.isFinite_fin, Number.mul_fin, Number.fin_lt_fin,
              Bool.and_eq_true, decide_eq_true_eq, hsafe] at husable ⊢
            have hpos : 0 < q' := by linarith [husable.1.2]
            simp [husable.1.1.1.1, hpos]
          | _ => simp [hq', isSafeInteger] at hsafe
        | _ => simp [BoxDepthLevel.usable, hq, isSafeInteger] at husable
    have hadmissible' : order'.admissible lv' = true := (Bool.and_eq_true _ _).mpr ⟨husable', hwithin'⟩
    have hqty : usableQty lv.qty ≤ usableQty lv'.qty := by
      rcases hlv with rfl | ⟨_, hsafe, hle⟩
      · exact le_rfl
      · exact usableQty_mono hsafe hle
    rw [if_pos hadmissible, if_pos hadmissible']
    unfold effective
    rw [h.queueModel, h.haircutPct, h.reserved, h.quoteVersion, hprice]
    exact Nat.sub_le_sub_right (effectiveQty_mono hqty _ _) _
  · rw [if_neg hadmissible]
    exact Nat.zero_le _

theorem capacity_eq (order : DepthWalk) (levels : List BoxDepthLevel) :
    order.capacity levels = (levels.map fun lv => if order.admissible lv then order.effective lv else 0).sum := by
  unfold capacity
  induction levels with
  | nil => rfl
  | cons lv levels ih =>
    by_cases hlv : order.admissible lv = true
    · simp [hlv, ih]
    · simp [hlv, ih]

theorem Raises.capacity (h : order.Raises order' levels levels') : order.capacity levels ≤ order'.capacity levels' := by
  rw [capacity_eq, capacity_eq]
  have hlevels := h.levels
  have hlevel := @Raises.level order order' levels levels' h
  clear h
  induction hlevels with
  | nil => exact le_rfl
  | cons hlv _ ih =>
    simp only [List.map_cons, List.sum_cons]
    exact Nat.add_le_add (hlevel hlv) ih

theorem Raises.wanted (h : order.Raises order' levels levels') : order.wanted ≤ order'.wanted := by
  unfold DepthWalk.wanted
  rw [if_pos h.usable, h.remainingQty]
  split
  · exact le_rfl
  · exact Nat.zero_le _

end

end DepthWalk

/-- The walk fills the lesser of what is wanted and offered, best first, at the least cost, and no less of a deeper
book or at a better limit. -/
theorem depth_walk_sound (order : DepthWalk) (levels : List BoxDepthLevel) :
    let result := walkDepth order levels
    result.filledQty = min order.wanted result.executableWithinLimit ∧
    (0 < order.wanted → result.executableWithinLimit = min maxSafeInteger (order.capacity levels)) ∧
    (∃ alloc, GreedyFill.Allocation order.effective (levels.filter order.admissible) alloc ∧
      (alloc.map Prod.fst).Pairwise (BoxDepthLevel.ranks order.side) ∧ result.slices = order.slices alloc ∧
      result.filledQty = GreedyFill.total alloc ∧
      (0 < result.filledQty → result.averagePrice = some (round2 (DepthWalk.spent alloc / result.filledQty))) ∧
      ∀ other, GreedyFill.Allocation order.effective (levels.filter order.admissible) other →
        GreedyFill.total other = result.filledQty →
        (order.side = .buy → DepthWalk.spent alloc ≤ DepthWalk.spent other) ∧
        (order.side = .sell → DepthWalk.spent other ≤ DepthWalk.spent alloc)) ∧
    ∀ order' levels', order.Raises order' levels levels' → result.filledQty ≤ (walkDepth order' levels').filledQty := by
  have hresult := fun o l => DepthWalk.walkDepth_eq o l
  have htotal := order.total_allocation levels
  have hmax := order.wanted_le
  dsimp only
  refine ⟨?_, fun hpos => ?_, ⟨order.allocation levels, order.allocation_spec levels, order.allocation_levels levels, ?_, ?_,
    fun hpos => ?_, fun other hother hsame => ?_⟩, fun order' levels' hraises => ?_⟩
  · rw [hresult]
    dsimp only
    split <;> omega
  · rw [hresult]
    exact if_neg hpos.ne'
  · rw [hresult]
  · rw [hresult]
  · rw [hresult] at hpos ⊢
    exact if_pos hpos
  · rw [hresult] at hsame
    have hle := order.allocation_cheapest levels hother hsame
    refine ⟨fun hside => ?_, fun hside => ?_⟩
    · rwa [(order.value_cost _).1 hside, (order.value_cost _).1 hside] at hle
    · rw [(order.value_cost _).2 hside, (order.value_cost _).2 hside] at hle
      linarith
  · rw [hresult, hresult]
    have htotal' := order'.total_allocation levels'
    have hwanted := hraises.wanted
    have hcapacity := hraises.capacity
    dsimp only
    omega

/-- A level a hair beyond the limit is taken; a limit or quantity raised to an unusable one fills less. -/
theorem depth_walk_edges :
    let order : DepthWalk := ⟨.buy, .fin 75, .fin 100, .none, .fin 0, .fin 0, none, none⟩
    let selling : DepthWalk := { order with side := .sell, limitPrice := .fin 1 }
    let book : List BoxDepthLevel := [⟨.fin 100, .fin 75⟩]
    (walkDepth order [⟨.fin (100 + priceEps), .fin 75⟩]).filledQty = 75 ∧
    ((walkDepth { order with remainingQty := .fin (-5) } book).filledQty = 0 ∧
      (walkDepth { order with remainingQty := .fin (-5) } book).executableWithinLimit = 0) ∧
    ((walkDepth order book).filledQty = 75 ∧ (walkDepth order [⟨.fin 100, .fin (151 / 2)⟩]).filledQty = 0) ∧
    ((walkDepth selling book).filledQty = 75 ∧ (walkDepth { selling with limitPrice := .fin 0 } book).filledQty = 0) := by
  decide +kernel

end BoxEngine
