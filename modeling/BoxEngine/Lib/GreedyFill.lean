import Mathlib.Algebra.Order.BigOperators.Group.List
import Mathlib.Algebra.BigOperators.Ring.List
import Mathlib.Algebra.Order.Field.Basic
import Mathlib.Tactic.Linarith
import Mathlib.Tactic.Ring

/-!
# Filling a quantity greedily

Items taken in order until a quantity is reached. In the order of their cost no allocation is cheaper: below a
marginal cost everything is taken, above it nothing.
-/

namespace GreedyFill

variable {ι : Type*} (cap : ι → ℕ)

/-- As much of each item as it holds, until the quantity is reached. -/
def fill : ℕ → List ι → List (ι × ℕ)
  | _, [] => []
  | n, i :: items => (i, min n (cap i)) :: fill (n - cap i) items

def total (alloc : List (ι × ℕ)) : ℕ := (alloc.map Prod.snd).sum

/-- Amounts of the items, each within what the item holds. -/
structure Allocation (items : List ι) (alloc : List (ι × ℕ)) : Prop where
  items : (alloc.map Prod.fst).Perm items
  within : ∀ a ∈ alloc, a.2 ≤ cap a.1

@[simp] theorem total_nil : total ([] : List (ι × ℕ)) = 0 := rfl

@[simp] theorem total_cons (a : ι × ℕ) (alloc : List (ι × ℕ)) : total (a :: alloc) = a.2 + total alloc := rfl

variable (n : ℕ) (items : List ι)

@[simp] theorem map_fst_fill : (fill cap n items).map Prod.fst = items := by
  induction items generalizing n with
  | nil => rfl
  | cons i items ih => simp [fill, ih]

theorem total_fill : total (fill cap n items) = min n (items.map cap).sum := by
  induction items generalizing n with
  | nil => simp [fill]
  | cons i items ih =>
    simp only [fill, total_cons, ih, List.map_cons, List.sum_cons]
    omega

variable {a : ι × ℕ}

theorem le_of_mem_fill {n : ℕ} {items : List ι} (h : a ∈ fill cap n items) : a.2 ≤ min n (cap a.1) := by
  induction items generalizing n with
  | nil => simp [fill] at h
  | cons i items ih =>
    rw [fill, List.mem_cons] at h
    rcases h with rfl | h
    · simp
    · have := ih h
      omega

theorem fill_allocation : Allocation cap items (fill cap n items) where
  items := by rw [map_fst_fill]
  within a h := (le_of_mem_fill cap h).trans (min_le_right _ _)

theorem Allocation.perm {cap : ι → ℕ} {items items' : List ι} {alloc : List (ι × ℕ)} (h : Allocation cap items alloc)
    (hperm : items.Perm items') : Allocation cap items' alloc :=
  ⟨h.items.trans hperm, h.within⟩

theorem fill_zero {items : List ι} (h : a ∈ fill cap 0 items) : a.2 = 0 := by
  simpa using le_of_mem_fill cap h

theorem fill_append (items items' : List ι) :
    fill cap n (items ++ items') = fill cap n items ++ fill cap (n - (items.map cap).sum) items' := by
  induction items generalizing n with
  | nil => simp [fill]
  | cons i items ih =>
    have hrest : n - cap i - (items.map cap).sum = n - (cap i + (items.map cap).sum) := by omega
    simp [fill, ih, hrest]

theorem mem_of_fill_append {n : ℕ} {items items' : List ι} (h : n ≤ (items.map cap).sum)
    (ha : a ∈ fill cap n (items ++ items')) (hpos : 0 < a.2) : a.1 ∈ items := by
  rw [fill_append, List.mem_append, Nat.sub_eq_zero_of_le h] at ha
  by_cases hfirst : a ∈ fill cap n items
  · rw [← map_fst_fill cap n items]
    exact List.mem_map_of_mem hfirst
  · have hzero := fill_zero cap (ha.resolve_left hfirst)
    omega

/-! ## Cost -/

section
variable {R : Type*} [Field R] (cost : ι → R)

def value (alloc : List (ι × ℕ)) : R := (alloc.map fun a => cost a.1 * (a.2 : R)).sum

@[simp] theorem value_nil : value cost [] = 0 := rfl

@[simp] theorem value_cons (a : ι × ℕ) (alloc : List (ι × ℕ)) :
    value cost (a :: alloc) = cost a.1 * (a.2 : R) + value cost alloc := rfl

theorem value_neg (alloc : List (ι × ℕ)) : value (fun i => -cost i) alloc = -value cost alloc := by
  induction alloc with
  | nil => simp
  | cons a alloc ih =>
    simp only [value_cons, ih]
    ring

/-- The value over a marginal cost, and the cost of the whole at it. -/
theorem value_eq_margin (c : R) (alloc : List (ι × ℕ)) :
    value cost alloc = c * (total alloc : R) + (alloc.map fun a => (cost a.1 - c) * (a.2 : R)).sum := by
  induction alloc with
  | nil => simp
  | cons a alloc ih =>
    simp only [value_cons, ih, total_cons, List.map_cons, List.sum_cons, Nat.cast_add]
    ring

variable [LinearOrder R]
variable {alloc : List (ι × ℕ)}

theorem value_le_of_forall [IsStrictOrderedRing R] {c : R} (h : ∀ a ∈ alloc, 0 < a.2 → cost a.1 ≤ c) :
    value cost alloc ≤ c * (total alloc : R) := by
  induction alloc with
  | nil => simp
  | cons a alloc ih =>
    have hrest := ih fun b hb => h b (.tail _ hb)
    have hnonneg : (0 : R) ≤ (a.2 : R) := Nat.cast_nonneg _
    have hfirst : cost a.1 * (a.2 : R) ≤ c * (a.2 : R) := by
      by_cases hpos : 0 < a.2
      · exact mul_le_mul_of_nonneg_right (h a (.head _) hpos) hnonneg
      · simp [Nat.eq_zero_of_not_pos hpos]
    rw [value_cons, total_cons, Nat.cast_add, mul_add]
    exact add_le_add hfirst hrest

variable {items : List ι}

/-- A sorted fill has a marginal cost: all below it is taken, nothing above. -/
theorem exists_margin (h : items.Pairwise fun i j => cost i ≤ cost j) (n : ℕ) :
    ∃ c : R, ∀ a ∈ fill cap n items, (cost a.1 < c → a.2 = cap a.1) ∧ (c < cost a.1 → a.2 = 0) := by
  induction items generalizing n with
  | nil => exact ⟨0, by simp [fill]⟩
  | cons i items ih =>
    obtain ⟨hfirst, hrest⟩ := List.pairwise_cons.mp h
    have hmem : ∀ a ∈ fill cap (n - cap i) items, cost i ≤ cost a.1 := by
      intro a ha
      refine hfirst a.1 ?_
      rw [← map_fst_fill cap (n - cap i) items]
      exact List.mem_map_of_mem ha
    by_cases hn : n ≤ cap i
    · refine ⟨cost i, fun a ha => ?_⟩
      rw [fill, List.mem_cons] at ha
      rcases ha with rfl | ha
      · simp
      · have hle := hmem a ha
        rw [Nat.sub_eq_zero_of_le hn] at ha
        exact ⟨fun hlt => absurd hlt (not_lt.mpr hle), fun _ => fill_zero cap ha⟩
    · obtain ⟨c, hc⟩ := ih hrest (n - cap i)
      refine ⟨max c (cost i), fun a ha => ?_⟩
      rw [fill, List.mem_cons] at ha
      rcases ha with rfl | ha
      · exact ⟨fun _ => min_eq_right (not_le.mp hn).le, fun hlt => absurd (le_max_right c (cost i)) (not_le.mpr hlt)⟩
      · refine ⟨fun hlt => (hc a ha).1 ?_, fun hlt => (hc a ha).2 (lt_of_le_of_lt (le_max_left _ _) hlt)⟩
        exact (lt_max_iff.mp hlt).resolve_right (not_lt.mpr (hmem a ha))

def saving (c : R) (items : List ι) : R := (items.map fun i => min (cost i - c) 0 * (cap i : R)).sum

theorem saving_perm (c : R) {items items' : List ι} (h : items.Perm items') :
    saving cap cost c items = saving cap cost c items' :=
  (h.map _).sum_eq

variable [IsStrictOrderedRing R]

theorem saving_le (c : R) (h : Allocation cap items alloc) :
    c * (total alloc : R) + saving cap cost c items ≤ value cost alloc := by
  rw [value_eq_margin cost c, ← saving_perm cap cost c h.items, saving, List.map_map]
  refine add_le_add le_rfl (List.sum_le_sum fun a ha => ?_)
  have hle : (a.2 : R) ≤ (cap a.1 : R) := by exact_mod_cast h.within a ha
  have hnonneg : (0 : R) ≤ (a.2 : R) := Nat.cast_nonneg _
  by_cases hc : cost a.1 ≤ c
  · have hneg : cost a.1 - c ≤ 0 := by linarith
    rw [Function.comp_apply, min_eq_left hneg]
    exact mul_le_mul_of_nonpos_left hle hneg
  · have hpos : 0 ≤ cost a.1 - c := by linarith
    rw [Function.comp_apply, min_eq_right hpos, zero_mul]
    exact mul_nonneg hpos hnonneg

theorem value_fill {c : R} {n : ℕ}
    (h : ∀ a ∈ fill cap n items, (cost a.1 < c → a.2 = cap a.1) ∧ (c < cost a.1 → a.2 = 0)) :
    value cost (fill cap n items) = c * (total (fill cap n items) : R) + saving cap cost c items := by
  rw [value_eq_margin cost c, ← saving_perm cap cost c (fill_allocation cap n items).items, saving, List.map_map]
  congr 2
  refine List.map_congr_left fun a ha => ?_
  rw [Function.comp_apply]
  rcases lt_trichotomy (cost a.1) c with hlt | heq | hgt
  · rw [(h a ha).1 hlt, min_eq_left (by linarith)]
  · simp [heq]
  · rw [(h a ha).2 hgt, min_eq_right (by linarith)]
    simp

/-- **No allocation of the same quantity costs less.** -/
theorem value_fill_le (hsorted : items.Pairwise fun i j => cost i ≤ cost j) {n : ℕ} (h : Allocation cap items alloc)
    (htotal : total alloc = total (fill cap n items)) : value cost (fill cap n items) ≤ value cost alloc := by
  obtain ⟨c, hc⟩ := exists_margin cap cost hsorted n
  rw [value_fill cap cost hc, ← htotal]
  exact saving_le cap cost c h

end

end GreedyFill
