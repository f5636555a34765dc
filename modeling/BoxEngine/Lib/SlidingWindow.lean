import Mathlib.Algebra.Order.Group.Defs
import Mathlib.Algebra.Order.Sub.Basic
import Mathlib.Data.List.Count
import Mathlib.Data.List.TakeWhile

/-!
# Stamps in a sliding window

The entries whose stamp lies in a half-open window that ends at an instant. A bound checked when an entry is added at
the end is a bound for every window.
-/

namespace SlidingWindow

variable {α β : Type*} [AddCommGroup β] [LinearOrder β] {stamp : α → β} {l : List α} {span now t : β}

/-- The entries in the window that ends at `t`. -/
def count (stamp : α → β) (l : List α) (span t : β) : ℕ := l.countP fun a => t - span < stamp a ∧ stamp a ≤ t

theorem count_snoc (a : α) :
    count stamp (l ++ [a]) span t = count stamp l span t + if t - span < stamp a ∧ stamp a ≤ t then 1 else 0 := by
  simp [count, List.countP_append, List.countP_singleton]

theorem count_filter_add (p : α → Bool) :
    count stamp (l.filter p) span t + count stamp (l.filter fun a => !p a) span t = count stamp l span t := by
  unfold count
  induction l with
  | nil => rfl
  | cons a l ih =>
    simp only [List.filter_cons, List.countP_cons] at ih ⊢
    cases hp : p a with
    | true =>
      simp only [Bool.not_true, if_true, Bool.false_eq_true, if_false, List.countP_cons]
      omega
    | false =>
      simp only [Bool.not_false, if_true, Bool.false_eq_true, if_false, List.countP_cons]
      omega

theorem count_filter_le (p : α → Bool) : count stamp (l.filter p) span t ≤ count stamp l span t := by
  exact List.filter_sublist.countP_le

theorem count_eq_recent (hpast : ∀ a ∈ l, stamp a ≤ now) :
    count stamp l span now = l.countP fun a => now - span < stamp a := by
  unfold count
  apply List.countP_congr
  intro a ha
  simp [hpast a ha]

variable [IsOrderedAddMonoid β]

theorem count_le_of_past (hpast : ∀ a ∈ l, stamp a ≤ now) (hle : now ≤ t) :
    count stamp l span t ≤ count stamp l span now := by
  rw [count_eq_recent hpast, count_eq_recent fun a ha => (hpast a ha).trans hle]
  apply List.countP_mono_left
  intro a _ ha
  simp only [decide_eq_true_eq] at ha ⊢
  exact (sub_le_sub_right hle span).trans_lt ha

/-- A bound checked as an entry comes in holds of every window. -/
theorem bounded_snoc {n : ℤ} (h : ∀ t, (count stamp l span t : ℤ) ≤ n) {a : α} (ha : stamp a = now)
    (hpast : ∀ b ∈ l, stamp b ≤ now) (hroom : (count stamp l span now : ℤ) < n) (t : β) :
    (count stamp (l ++ [a]) span t : ℤ) ≤ n := by
  subst ha
  rw [count_snoc]
  by_cases hin : t - span < stamp a ∧ stamp a ≤ t
  · have hfall : count stamp l span t ≤ count stamp l span (stamp a) := count_le_of_past hpast hin.2
    rw [if_pos hin]
    push_cast
    omega
  · rw [if_neg hin]
    exact h t

theorem exists_aged (hpast : ∀ a ∈ l, stamp a ≤ now) (hle : now ≤ t)
    (hfewer : count stamp l span t < count stamp l span now) :
    ∃ a ∈ l, now - span < stamp a ∧ stamp a + span ≤ t := by
  by_contra hnone
  push Not at hnone
  apply hfewer.not_ge
  rw [count_eq_recent hpast, count_eq_recent fun a ha => (hpast a ha).trans hle]
  apply List.countP_mono_left
  intro a ha hrecent
  simp only [decide_eq_true_eq] at hrecent ⊢
  exact sub_lt_iff_lt_add.mpr (hnone a ha hrecent)

/-! ## Pruned lists -/

section

variable {β : Type*} [LinearOrder β] {stamp : α → β}

/-- `times` is what `l` keeps when a first part, all of it stamped up to the cutoff, is dropped. -/
def Prunes (stamp : α → β) (l : List α) (cutoff : β) (times : List β) : Prop :=
  ∃ dropped, l.map stamp = dropped ++ times ∧ ∀ at_ ∈ dropped, at_ ≤ cutoff

variable {cutoff : β}

theorem Prunes.nil : Prunes stamp [] cutoff [] := ⟨[], rfl, by simp⟩

variable {times : List β}

theorem Prunes.snoc (h : Prunes stamp l cutoff times) (a : α) :
    Prunes stamp (l ++ [a]) cutoff (times ++ [stamp a]) := by
  obtain ⟨dropped, heq, hold⟩ := h
  exact ⟨dropped, by simp [heq], hold⟩

theorem Prunes.mono {cutoff cutoff' : β} (h : Prunes stamp l cutoff times) (hle : cutoff ≤ cutoff') :
    Prunes stamp l cutoff' times := by
  obtain ⟨dropped, heq, hold⟩ := h
  exact ⟨dropped, heq, fun at_ hat => (hold at_ hat).trans hle⟩

theorem Prunes.dropWhile (h : Prunes stamp l cutoff times) :
    Prunes stamp l cutoff (times.dropWhile fun at_ => at_ ≤ cutoff) := by
  obtain ⟨dropped, heq, hold⟩ := h
  refine ⟨dropped ++ times.takeWhile fun at_ => at_ ≤ cutoff, ?_, ?_⟩
  · rw [List.append_assoc, List.takeWhile_append_dropWhile, heq]
  · intro at_ hat
    rcases List.mem_append.mp hat with hat | hat
    · exact hold at_ hat
    · simpa using List.mem_takeWhile_imp hat

theorem Prunes.countP {cutoff start : β} (h : Prunes stamp l cutoff times) (hle : cutoff ≤ start) :
    (times.countP fun at_ => start < at_) = l.countP fun a => start < stamp a := by
  obtain ⟨dropped, heq, hold⟩ := h
  have hall : (l.map stamp).countP (fun at_ => start < at_) = times.countP fun at_ => start < at_ := by
    rw [heq, List.countP_append]
    have hnone : dropped.countP (fun at_ => start < at_) = 0 := by
      rw [List.countP_eq_zero]
      intro at_ hat
      simpa using (hold at_ hat).trans hle
    omega
  rw [← hall, List.countP_map]
  rfl

theorem Prunes.mem (h : Prunes stamp l cutoff times) {a : α} (ha : a ∈ l) (hrecent : cutoff < stamp a) :
    stamp a ∈ times := by
  obtain ⟨dropped, heq, hold⟩ := h
  have hmem : stamp a ∈ dropped ++ times := heq ▸ List.mem_map_of_mem ha
  rcases List.mem_append.mp hmem with hdropped | hkept
  · exact absurd (hold _ hdropped) hrecent.not_ge
  · exact hkept

end

end SlidingWindow
