import BoxEngine.Lib.Number
import Mathlib.Algebra.Order.BigOperators.Group.List
import Mathlib.Data.Finset.Max
import Mathlib.Data.Real.Basic

/-!
# The peak margin, replayed

What is blocked at an instant is blocked at the last start before it, so the starts are all that need looking at.
-/

namespace BoxEngine

open Js

structure MarginRow where
  «from» : Number
  «to» : Number
  margin : Option Number

structure MarginInterval where
  «from» : ℚ
  «to» : ℚ
  margin : ℚ
  deriving DecidableEq

def MarginRow.usable (row : MarginRow) : Option MarginInterval :=
  match row.margin, row.from, row.«to» with
  | some (.fin margin), .fin start, .fin stop =>
    if margin ≤ 0 then none else if stop ≤ start then none else some ⟨start, stop, margin⟩
  | _, _, _ => none

def usableMarginIntervals (rows : List MarginRow) : List MarginInterval := rows.filterMap MarginRow.usable

variable (intervals : List MarginInterval)

def concurrentMargin (probe : MarginInterval) : ℚ :=
  intervals.foldl (fun concurrent other =>
    if other.from ≤ probe.from ∧ probe.from < other.«to» then concurrent + other.margin else concurrent) 0

def peakConcurrentMargin : Option ℚ :=
  if intervals = [] then none
  else
    let peak := intervals.foldl (fun peak probe =>
      if peak < concurrentMargin intervals probe then concurrentMargin intervals probe else peak) 0
    if 0 < peak then some peak else none

/-- What is blocked at a real instant. -/
noncomputable def blockedAt (t : ℝ) : ℚ :=
  (intervals.map fun i => if (i.from : ℝ) ≤ t ∧ t < i.«to» then i.margin else 0).sum

def replayedPeak (rows : List MarginRow) : Option ℚ := peakConcurrentMargin (usableMarginIntervals rows)

variable {intervals : List MarginInterval}

theorem concurrentMargin_eq (probe : MarginInterval) : concurrentMargin intervals probe = blockedAt intervals probe.from := by
  have hfold : ∀ concurrent, intervals.foldl (fun concurrent other => if other.from ≤ probe.from ∧ probe.from < other.«to»
      then concurrent + other.margin else concurrent) concurrent = concurrent + blockedAt intervals probe.from := by
    induction intervals with
    | nil => simp [blockedAt]
    | cons other rest ih =>
      intro concurrent
      rw [List.foldl_cons, ih]
      simp only [blockedAt, List.map_cons, List.sum_cons, Rat.cast_le, Rat.cast_lt]
      split <;> ring
  simpa [concurrentMargin] using hfold 0

theorem usable_spec {row : MarginRow} {i : MarginInterval} (h : row.usable = some i) : 0 < i.margin ∧ i.from < i.«to» := by
  unfold MarginRow.usable at h
  split at h
  · split_ifs at h with hmargin hempty
    cases h
    exact ⟨not_le.mp hmargin, not_le.mp hempty⟩
  · cases h

theorem mem_usable {rows : List MarginRow} : ∀ i ∈ usableMarginIntervals rows, 0 < i.margin ∧ i.from < i.«to» := by
  intro i hi
  obtain ⟨row, -, hrow⟩ := List.mem_filterMap.mp hi
  exact usable_spec hrow

section

variable (h : ∀ i ∈ intervals, 0 < i.margin ∧ i.from < i.«to»)
include h

theorem blocked_nonneg (t : ℝ) :
    ∀ blocked ∈ intervals.map fun i => if (i.from : ℝ) ≤ t ∧ t < i.«to» then i.margin else 0, 0 ≤ blocked := by
  intro blocked hmem
  obtain ⟨i, hi, rfl⟩ := List.mem_map.mp hmem
  split
  · exact (h i hi).1.le
  · exact le_rfl

theorem blockedAt_own {i : MarginInterval} (hi : i ∈ intervals) : 0 < blockedAt intervals i.from := by
  refine (h i hi).1.trans_le (List.single_le_sum (blocked_nonneg h i.from) _ (List.mem_map.mpr ⟨i, hi, ?_⟩))
  exact if_pos ⟨le_rfl, Rat.cast_lt.mpr (h i hi).2⟩

/-- The last start among what is blocked blocks at least as much. -/
theorem exists_start {t : ℝ} (ht : 0 < blockedAt intervals t) :
    ∃ probe ∈ intervals, blockedAt intervals t ≤ blockedAt intervals probe.from := by
  classical
  have hactive : (intervals.toFinset.filter fun i => (i.from : ℝ) ≤ t ∧ t < i.«to»).Nonempty := by
    by_contra hnone
    refine ht.ne' (List.sum_eq_zero fun blocked hmem => ?_)
    obtain ⟨i, hi, rfl⟩ := List.mem_map.mp hmem
    exact if_neg fun hi' => hnone ⟨i, Finset.mem_filter.mpr ⟨List.mem_toFinset.mpr hi, hi'⟩⟩
  obtain ⟨probe, hprobe, hlast⟩ := Finset.exists_max_image _ MarginInterval.from hactive
  obtain ⟨hmem, hstarted, -⟩ := Finset.mem_filter.mp hprobe
  refine ⟨probe, List.mem_toFinset.mp hmem, List.sum_le_sum fun i hi => ?_⟩
  by_cases hi' : (i.from : ℝ) ≤ t ∧ t < i.«to»
  · have hfrom := hlast i (Finset.mem_filter.mpr ⟨List.mem_toFinset.mpr hi, hi'⟩)
    rw [if_pos hi', if_pos ⟨Rat.cast_le.mpr hfrom, hstarted.trans_lt hi'.2⟩]
  · rw [if_neg hi']
    split
    · exact (h i hi).1.le
    · exact le_rfl

theorem peak_spec :
    (∀ t, blockedAt intervals t ≤ (peakConcurrentMargin intervals).getD 0) ∧
      (intervals ≠ [] → ∃ t, peakConcurrentMargin intervals = some (blockedAt intervals t)) := by
  have hfold : ∀ (probes : List MarginInterval) (peak : ℚ),
      let found := probes.foldl (fun peak probe => if peak < concurrentMargin intervals probe then
        concurrentMargin intervals probe else peak) peak
      peak ≤ found ∧ (∀ probe ∈ probes, concurrentMargin intervals probe ≤ found) ∧
        (found = peak ∨ ∃ probe ∈ probes, found = concurrentMargin intervals probe) := by
    intro probes
    induction probes with
    | nil => simp
    | cons probe probes ih =>
      intro peak
      obtain ⟨hle, hall, hfound⟩ := ih (if peak < concurrentMargin intervals probe then concurrentMargin intervals probe
        else peak)
      rw [List.foldl_cons]
      split at hle
      next hlt =>
        rw [if_pos hlt] at hall hfound ⊢
        exact ⟨hlt.le.trans hle, List.forall_mem_cons.mpr ⟨hle, hall⟩,
          .inr (hfound.elim (fun heq => ⟨probe, by simp, heq⟩) fun ⟨p, hp, heq⟩ => ⟨p, by simp [hp], heq⟩)⟩
      next hlt =>
        rw [if_neg hlt] at hall hfound ⊢
        exact ⟨hle, List.forall_mem_cons.mpr ⟨(not_lt.mp hlt).trans hle, hall⟩,
          hfound.imp_right fun ⟨p, hp, heq⟩ => ⟨p, by simp [hp], heq⟩⟩
  obtain ⟨-, hall, hfound⟩ := hfold intervals 0
  by_cases hne : intervals = []
  · simp [hne, peakConcurrentMargin, blockedAt]
  -- the first interval blocks its own margin at its start
  obtain ⟨first, hfirst⟩ := List.exists_mem_of_ne_nil _ hne
  have hpos : 0 < concurrentMargin intervals first := by
    rw [concurrentMargin_eq]
    exact blockedAt_own h hfirst
  have hpeak : peakConcurrentMargin intervals = some _ := (if_neg hne).trans (if_pos (hpos.trans_le (hall first hfirst)))
  rw [hpeak]
  refine ⟨fun t => ?_, fun _ => ?_⟩
  · rcases (List.sum_nonneg (blocked_nonneg h t)).eq_or_lt with hzero | ht
    · exact hzero.ge.trans (hpos.trans_le (hall first hfirst)).le
    · obtain ⟨probe, hmem, hle⟩ := exists_start h ht
      exact hle.trans (concurrentMargin_eq probe ▸ hall probe hmem)
  · rcases hfound with hzero | ⟨probe, -, heq⟩
    · have hle := hall first hfirst
      rw [hzero] at hle
      exact absurd hle hpos.not_ge
    · exact ⟨probe.from, by rw [heq, concurrentMargin_eq]⟩

end

/-- **The replayed peak is the true one**, monotone in the rows and at most the sum over two parts. -/
theorem peak_replayed (rows : List MarginRow) :
    (replayedPeak rows = none ↔ usableMarginIntervals rows = []) ∧
    (∀ peak, replayedPeak rows = some peak → IsGreatest (Set.range (blockedAt (usableMarginIntervals rows))) peak) ∧
    (∀ kept, kept.Sublist rows → (replayedPeak kept).getD 0 ≤ (replayedPeak rows).getD 0) ∧
    ∀ part rest, rows.Perm (part ++ rest) →
      (replayedPeak rows).getD 0 ≤ (replayedPeak part).getD 0 + (replayedPeak rest).getD 0 := by
  have hle : ∀ rows t, blockedAt (usableMarginIntervals rows) t ≤ (replayedPeak rows).getD 0 :=
    fun rows => (peak_spec mem_usable).1
  have hattained : ∀ rows, usableMarginIntervals rows ≠ [] →
      ∃ t, replayedPeak rows = some (blockedAt (usableMarginIntervals rows) t) := fun rows => (peak_spec mem_usable).2
  have hlevel : ∀ rows, ∃ t, (replayedPeak rows).getD 0 = blockedAt (usableMarginIntervals rows) t := by
    intro rows
    by_cases hne : usableMarginIntervals rows = []
    · exact ⟨0, by simp [replayedPeak, peakConcurrentMargin, blockedAt, hne]⟩
    · obtain ⟨t, ht⟩ := hattained rows hne
      exact ⟨t, by rw [ht, Option.getD_some]⟩
  have hparts : ∀ {rows part rest : List MarginRow} (t : ℝ), rows.Perm (part ++ rest) → blockedAt (usableMarginIntervals rows) t =
      blockedAt (usableMarginIntervals part) t + blockedAt (usableMarginIntervals rest) t := by
    intro rows part rest t hperm
    have husable := (hperm.filterMap MarginRow.usable).map fun i => if (i.from : ℝ) ≤ t ∧ t < i.«to» then i.margin else 0
    simpa [blockedAt, usableMarginIntervals] using husable.sum_eq
  refine ⟨⟨fun hnone => ?_, fun hnone => ?_⟩, fun peak hpeak => ?_, fun kept hkept => ?_, fun part rest hperm => ?_⟩
  · by_contra hne
    obtain ⟨t, ht⟩ := hattained rows hne
    cases hnone.symm.trans ht
  · simp [replayedPeak, peakConcurrentMargin, hnone]
  · obtain ⟨t, ht⟩ := hlevel rows
    rw [hpeak, Option.getD_some] at ht
    refine ⟨⟨t, ht.symm⟩, ?_⟩
    rintro _ ⟨t', rfl⟩
    simpa [hpeak] using hle rows t'
  · obtain ⟨rest, hperm⟩ := hkept.exists_perm_append
    obtain ⟨t, ht⟩ := hlevel kept
    have hrest := List.sum_nonneg (@blocked_nonneg (usableMarginIntervals rest) mem_usable t)
    rw [ht]
    calc blockedAt (usableMarginIntervals kept) t ≤ blockedAt (usableMarginIntervals rows) t := by
          rw [hparts t hperm]
          exact le_add_of_nonneg_right hrest
      _ ≤ (replayedPeak rows).getD 0 := hle rows t
  · obtain ⟨t, ht⟩ := hlevel rows
    rw [ht, hparts t hperm]
    exact add_le_add (hle part t) (hle rest t)

end BoxEngine
