import Mathlib.Algebra.BigOperators.Ring.List
import Mathlib.Algebra.Order.BigOperators.Group.List
import Mathlib.Data.List.Nodup
import Mathlib.Tactic.FieldSimp
import Mathlib.Tactic.Ring

/-!
# Weighted means by key

The entries of a key have a weight and a moment, and a sum over all entries is a sum over the keys.
-/

namespace WeightedMean

variable {α κ K : Type*} [DecidableEq κ] [Field K] (key : α → κ) (weight value : α → K)

def total (l : List α) (k : κ) : K := ((l.filter fun a => key a = k).map weight).sum

def moment (l : List α) (k : κ) : K := ((l.filter fun a => key a = k).map fun a => weight a * value a).sum

/-- The weighted mean of a key's entries. -/
def mean (l : List α) (k : κ) : K := moment key weight value l k / total key weight l k

variable {key weight value}

@[simp] theorem total_nil (k : κ) : total key weight [] k = 0 := rfl

@[simp] theorem moment_nil (k : κ) : moment key weight value [] k = 0 := rfl

theorem total_append (l l' : List α) (k : κ) :
    total key weight (l ++ l') k = total key weight l k + total key weight l' k := by
  simp [total]

theorem moment_append (l l' : List α) (k : κ) :
    moment key weight value (l ++ l') k = moment key weight value l k + moment key weight value l' k := by
  simp [moment]

theorem total_pos [LinearOrder K] [IsStrictOrderedRing K] {l : List α} (hpos : ∀ a ∈ l, 0 < weight a) {a : α} {k : κ}
    (ha : a ∈ l) (hk : key a = k) : 0 < total key weight l k := by
  refine List.sum_pos _ ?_ ?_
  · intro w hw
    obtain ⟨b, hb, rfl⟩ := List.mem_map.mp hw
    exact hpos b (List.mem_of_mem_filter hb)
  · simp only [ne_eq, List.map_eq_nil_iff, List.filter_eq_nil_iff, not_forall]
    exact ⟨a, ha, by simp [hk]⟩

theorem sum_by_key (f : α → K) {keys : List κ} (hnodup : keys.Nodup) :
    ∀ l : List α, (∀ a ∈ l, key a ∈ keys) →
      (l.map f).sum = (keys.map fun k => ((l.filter fun a => key a = k).map f).sum).sum
  | [], _ => by simp
  | a :: l, h => by
    have hrest := sum_by_key f hnodup l fun b hb => h b (.tail _ hb)
    have hsplit : ∀ k, (((a :: l).filter fun b => key b = k).map f).sum =
        (if k = key a then f a else 0) + ((l.filter fun b => key b = k).map f).sum := by
      intro k
      by_cases hk : key a = k
      · simp [hk]
      · simp [hk, Ne.symm hk]
    simp only [hsplit, List.sum_map_add, ← hrest]
    rw [List.map_cons, List.sum_cons, List.sum_map_ite_eq, List.count_eq_one_of_mem hnodup (h a (.head _))]
    simp

variable (value) in
/-- What the means differ from a base by, in one sum over the entries. -/
theorem sum_difference [LinearOrder K] [IsStrictOrderedRing K] (sign base : κ → K) {keys : List κ} (hnodup : keys.Nodup)
    {l : List α} (hkeys : ∀ a ∈ l, key a ∈ keys) (hpos : ∀ a ∈ l, 0 < weight a) :
    (l.map fun a => sign (key a) * (value a - base (key a)) * weight a).sum =
      (keys.map fun k => sign k * (mean key weight value l k - base k) * total key weight l k).sum := by
  rw [sum_by_key _ hnodup l hkeys]
  refine congrArg List.sum (List.map_congr_left ?_)
  intro k _
  have hparts : ((l.filter fun a => key a = k).map fun a => sign (key a) * (value a - base (key a)) * weight a).sum =
      sign k * (moment key weight value l k - base k * total key weight l k) := by
    have hsplit : ((l.filter fun a => key a = k).map fun a => sign (key a) * (value a - base (key a)) * weight a) =
        (l.filter fun a => key a = k).map fun a => sign k * (weight a * value a) + -(sign k * base k) * weight a := by
      refine List.map_congr_left ?_
      intro a ha
      rw [of_decide_eq_true (List.mem_filter.mp ha).2]
      ring
    rw [hsplit, List.sum_map_add, List.sum_map_mul_left, List.sum_map_mul_left, moment, total]
    ring
  rw [hparts]
  by_cases hnone : ∀ a ∈ l, key a ≠ k
  · have hempty : (l.filter fun a => key a = k) = [] := by
      rw [List.filter_eq_nil_iff]
      simpa using hnone
    simp [mean, moment, total, hempty]
  · have hne : total key weight l k ≠ 0 := by
      push Not at hnone
      obtain ⟨a, ha, hk⟩ := hnone
      exact (total_pos hpos ha hk).ne'
    rw [mean]
    field_simp

end WeightedMean
