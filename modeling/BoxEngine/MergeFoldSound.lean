import BoxEngine.Lib.HighWater
import BoxEngine.OrderMerge

/-!
# Folding observations of one order

On raw-faithful observations the merge is a high-water register. `fold_law` is the statement for any arrival order and
any repetition.
-/

namespace BoxEngine

open Js HighWater

theorem safeCumulative_nonneg (v : Number) : 0 ≤ safeCumulative v := by
  unfold safeCumulative
  split
  · split
    · rename_i h; exact h.le
    · exact le_refl _
  · exact le_refl _

theorem safeCumulative_fin {q : ℚ} (hq : 0 ≤ q) : safeCumulative (.fin q) = q := by
  simp only [safeCumulative]
  split
  · rfl
  · rename_i h; exact le_antisymm hq (not_lt.mp h)

def acceptedQuantity (current candidate : BrokerOrder) : ℚ :=
  max (safeCumulative current.filledQuantity) (safeCumulative candidate.filledQuantity)

theorem acceptedQuantity_nonneg (current candidate : BrokerOrder) : 0 ≤ acceptedQuantity current candidate :=
  (safeCumulative_nonneg _).trans (le_max_left _ _)

section
variable (current candidate : BrokerOrder) (options : BrokerOrderMergeOptions)

@[simp] theorem mergeSnapshots_filledQuantity :
    (mergeSnapshots current candidate options).order.filledQuantity =
      .fin (acceptedQuantity current candidate) := rfl

theorem mergeBrokerOrderSnapshot_same (h : candidate.clientOrderId = current.clientOrderId) :
    mergeBrokerOrderSnapshot (some current) candidate options = mergeSnapshots current candidate options := by
  simp [mergeBrokerOrderSnapshot, h]

end

/-! ## Raw-faithful observations -/

/-- What one payload said: a finite non-negative cumulative quantity, and no price without a fill. -/
structure RawFaithful (order : BrokerOrder) : Prop where
  quantity : ∃ q : ℚ, 0 ≤ q ∧ order.filledQuantity = .fin q
  price : order.filledQuantity = .fin 0 → order.averagePrice = none

def reading (order : BrokerOrder) : Reading ℚ Number :=
  ⟨safeCumulative order.filledQuantity, order.averagePrice⟩

variable {o : BrokerOrder}

theorem RawFaithful.filledQuantity (ho : RawFaithful o) : o.filledQuantity = .fin (reading o).quantity := by
  obtain ⟨q, hq, h⟩ := ho.quantity
  rw [reading, h, safeCumulative_fin hq]

theorem RawFaithful.price_of_zero (ho : RawFaithful o) (h : (reading o).quantity = 0) : o.averagePrice = none :=
  ho.price (by rw [ho.filledQuantity, h])

theorem reading_mergeSnapshots {o c : BrokerOrder} (ho : RawFaithful o) (hc : RawFaithful c) :
    reading (mergeSnapshots o c .omitted).order = keep (reading o) (reading c) := by
  have hprice : (mergeSnapshots o c .omitted).order.averagePrice = (keep (reading o) (reading c)).price := by
    simp only [mergeSnapshots, resolvePrice, compareObservation, sub_pos, sub_neg, decide_eq_true_eq]
    have ho0 := ho.price_of_zero
    have hc0 := hc.price_of_zero
    have hon : 0 ≤ (reading o).quantity := safeCumulative_nonneg _
    have hcn : 0 ≤ (reading c).quantity := safeCumulative_nonneg _
    change (if max (reading o).quantity (reading c).quantity = 0 then none
      else if (reading o).quantity < (reading c).quantity then c.averagePrice
      else if (reading c).quantity < (reading o).quantity then o.averagePrice
      else c.averagePrice.or o.averagePrice) = _
    unfold keep
    by_cases hz : max (reading o).quantity (reading c).quantity = 0
    · -- nothing filled on either side, so neither carries a price
      have h1 : (reading o).quantity = 0 := le_antisymm (hz ▸ le_max_left _ _) hon
      have h2 : (reading c).quantity = 0 := le_antisymm (hz ▸ le_max_right _ _) hcn
      have p1 : (reading o).price = none := ho0 h1
      have p2 : (reading c).price = none := hc0 h2
      rw [if_pos hz, if_neg (by rw [h1, h2]; exact lt_irrefl _), if_neg (by rw [h1, h2]; exact lt_irrefl _)]
      simp [p1, p2]
    · rw [if_neg hz]
      by_cases h1 : (reading o).quantity < (reading c).quantity
      · rw [if_pos h1, if_pos h1]; rfl
      · rw [if_neg h1, if_neg h1]
        by_cases h2 : (reading c).quantity < (reading o).quantity
        · rw [if_pos h2, if_pos h2]; rfl
        · rw [if_neg h2, if_neg h2]; rfl
  have hqty : (reading (mergeSnapshots o c .omitted).order).quantity = (keep (reading o) (reading c)).quantity := by
    rw [keep_quantity]
    exact safeCumulative_fin (acceptedQuantity_nonneg o c)
  calc reading (mergeSnapshots o c .omitted).order
      = ⟨(reading (mergeSnapshots o c .omitted).order).quantity,
          (mergeSnapshots o c .omitted).order.averagePrice⟩ := rfl
    _ = keep (reading o) (reading c) := by rw [hqty, hprice]

theorem keep_price_of_zero {o c : BrokerOrder} (ho : RawFaithful o) (hc : RawFaithful c)
    (h : (keep (reading o) (reading c)).quantity = 0) : (keep (reading o) (reading c)).price = none := by
  have hmax : max (reading o).quantity (reading c).quantity = 0 := by rw [← keep_quantity, h]
  have h1 : (reading o).quantity = 0 :=
    le_antisymm (hmax ▸ le_max_left _ _) (safeCumulative_nonneg _)
  have h2 : (reading c).quantity = 0 :=
    le_antisymm (hmax ▸ le_max_right _ _) (safeCumulative_nonneg _)
  have p1 : (reading o).price = none := ho.price_of_zero h1
  have p2 : (reading c).price = none := hc.price_of_zero h2
  simp [keep, h1, h2, p1, p2]

theorem RawFaithful.merge {o c : BrokerOrder} (ho : RawFaithful o) (hc : RawFaithful c) :
    RawFaithful (mergeSnapshots o c .omitted).order := by
  constructor
  · exact ⟨_, acceptedQuantity_nonneg o c, rfl⟩
  · intro h
    have hr := reading_mergeSnapshots ho hc
    have hq : (keep (reading o) (reading c)).quantity = 0 := by
      rw [← hr, reading, h]; exact safeCumulative_fin le_rfl
    have := keep_price_of_zero ho hc hq
    rwa [← hr] at this

/-! ## The fold -/

def foldSnapshots (observations : List BrokerOrder) : Option BrokerOrder :=
  observations.foldl (fun cached o => some (mergeBrokerOrderSnapshot cached o .omitted).order) none

theorem foldl_merge (o : BrokerOrder) (ho : RawFaithful o) : ∀ (os : List BrokerOrder),
    (∀ x ∈ os, RawFaithful x ∧ x.clientOrderId = o.clientOrderId) →
    ∃ m, os.foldl (fun cached o => some (mergeBrokerOrderSnapshot cached o .omitted).order) (some o) = some m ∧
      RawFaithful m ∧ reading m = (os.map reading).foldl keep (reading o) := by
  intro os
  induction os generalizing o with
  | nil => intro _; exact ⟨o, rfl, ho, rfl⟩
  | cons c os ih =>
    intro hos
    obtain ⟨hc, hid⟩ := hos c (by simp)
    simp only [List.foldl_cons, List.map_cons]
    rw [mergeBrokerOrderSnapshot_same _ _ _ hid, ← reading_mergeSnapshots ho hc]
    exact ih _ (ho.merge hc) fun x hx => hos x (.tail _ hx)

/-- **Fold law.** The greatest quantity observed and the last price at it, in whatever order they arrive. -/
theorem fold_law (o : BrokerOrder) (os : List BrokerOrder)
    (h : ∀ x ∈ o :: os, RawFaithful x ∧ x.clientOrderId = o.clientOrderId) :
    ∃ m q, foldSnapshots (o :: os) = some m ∧ m.filledQuantity = .fin q ∧
      IsGreatest {r | ∃ x ∈ o :: os, x.filledQuantity = .fin r} q ∧
      m.averagePrice =
        (((o :: os).filter fun x => x.filledQuantity = .fin q).filterMap BrokerOrder.averagePrice).getLast? := by
  have hraw : ∀ x ∈ o :: os, RawFaithful x := fun x hx => (h x hx).1
  obtain ⟨m, hm, hmr, hread⟩ := foldl_merge o (hraw o (by simp)) os
    fun x hx => ⟨hraw x (.tail _ hx), (h x (.tail _ hx)).2⟩
  have hsum : Summary (reading m) ((o :: os).map reading) := by
    rw [hread]
    simpa using (Summary.single (reading o)).foldl (os.map reading)
  refine ⟨m, (reading m).quantity, hm, hmr.filledQuantity, ?_, ?_⟩
  · have hset : {r | ∃ x ∈ o :: os, x.filledQuantity = .fin r} =
        {r | ∃ s ∈ (o :: os).map reading, s.quantity = r} := by
      ext r
      simp only [Set.mem_ofPred_eq, List.mem_map, exists_exists_and_eq_and]
      refine exists_congr fun x => and_congr_right fun hx => ?_
      rw [(hraw x hx).filledQuantity, Number.fin.injEq]
    rw [hset]; exact hsum.greatest
  · have hfil : (((o :: os).map reading).filter fun s => decide (s.quantity = (reading m).quantity)) =
        ((o :: os).filter fun x => decide (x.filledQuantity = .fin (reading m).quantity)).map reading := by
      rw [List.filter_map]
      congr 1
      refine List.filter_congr fun x hx => ?_
      simp [(hraw x hx).filledQuantity]
    have hp := hsum.price
    rw [lastPrice, hfil, List.filterMap_map] at hp
    exact hp

theorem rawFaithful_legOrder (state : BrokerOrderState) (quantity : ℚ) {filled : ℚ} (h : 0 < filled)
    (averagePrice : Option Number) : RawFaithful (legOrder state quantity filled averagePrice) where
  quantity := ⟨filled, h.le, rfl⟩
  price hz := absurd (Number.fin.inj hz) h.ne'

theorem fold_law_overtaken : ∃ m q,
    foldSnapshots [legOrder .partiallyFilled 100 75 (some (.fin 12)), legOrder .cancelled 100 30 (some (.fin 10)),
      legOrder .partiallyFilled 100 75 none] = some m ∧ m.filledQuantity = .fin q ∧
      IsGreatest {r | ∃ x ∈ [legOrder .partiallyFilled 100 75 (some (.fin 12)),
        legOrder .cancelled 100 30 (some (.fin 10)), legOrder .partiallyFilled 100 75 none],
        x.filledQuantity = .fin r} q ∧
      m.averagePrice = (([legOrder .partiallyFilled 100 75 (some (.fin 12)),
        legOrder .cancelled 100 30 (some (.fin 10)), legOrder .partiallyFilled 100 75 none].filter
        fun x => x.filledQuantity = .fin q).filterMap BrokerOrder.averagePrice).getLast? :=
  fold_law _ _ (by
    have hraw : ∀ {state filled price}, 0 < filled → RawFaithful (legOrder state 100 filled price) :=
      fun h => rawFaithful_legOrder _ _ h _
    intro x hx
    simp only [List.mem_cons, List.not_mem_nil, or_false] at hx
    rcases hx with rfl | rfl | rfl <;> exact ⟨hraw (by norm_num), rfl⟩)

end BoxEngine
