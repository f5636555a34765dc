import BoxEngine.PartialEntryRecovery
import Mathlib.Data.List.Induction

/-!
# The recovery plan against the conservation check

The plan counts the last submitted outcome of every expected role, the check every outcome. With one outcome a role
they agree.
-/

namespace BoxEngine

open Js

@[simp] theorem ByRole.set_self {α : Type} (map : ByRole α) (role : BoxLegRole) (value : α) :
    map.set role value role = some value := if_pos rfl

theorem ByRole.set_of_ne {α : Type} (map : ByRole α) {role other : BoxLegRole} (value : α) (h : other ≠ role) :
    map.set role value other = map other := if_neg h

namespace EntryLegOutcome

variable {leg : EntryLegOutcome}

def reading (leg : EntryLegOutcome) : Number :=
  if leg.confirmedFilled.isFinite then leg.confirmedFilled else .fin 0

def Overfilled (leg : EntryLegOutcome) : Prop := leg.requested < leg.reading

def Negative (leg : EntryLegOutcome) : Prop := leg.reading < .fin 0

theorem reading_eq (leg : EntryLegOutcome) : leg.reading = .fin leg.reading.value := by
  unfold reading
  cases leg.confirmedFilled <;> simp [Number.isFinite]

theorem filled_eq (leg : EntryLegOutcome) : leg.filled = .fin (max 0 leg.reading.value) := by
  unfold filled reading
  cases leg.confirmedFilled <;> simp [Number.isFinite, Number.max]
  rename_i q
  by_cases hq : 0 < q
  · simp [hq, hq.le]
  · simp [hq, not_lt.mp hq]

theorem negative_iff : leg.Negative ↔ leg.reading.value < 0 := by
  rw [Negative, reading_eq, Number.fin_lt_fin, Number.value_fin]

theorem reading_pos_iff : .fin 0 < leg.reading ↔ 0 < leg.reading.value := by
  rw [reading_eq, Number.fin_lt_fin, Number.value_fin]

theorem filled_of_pos (h : 0 < leg.reading.value) :
    leg.filled = leg.confirmedFilled ∧ .fin 0 < leg.confirmedFilled ∧ leg.confirmedFilled.isFinite = true := by
  rw [filled_eq, max_eq_right h.le]
  revert h
  unfold reading
  cases leg.confirmedFilled <;> simp [Number.isFinite]

end EntryLegOutcome

open EntryLegOutcome

theorem legByRole_append (legs : List EntryLegOutcome) (leg : EntryLegOutcome) :
    legByRole (legs ++ [leg]) = (legByRole legs).set leg.role leg := by
  simp [legByRole]

variable {role : BoxLegRole}

theorem mem_of_legByRole {legs : List EntryLegOutcome} {leg : EntryLegOutcome} (h : legByRole legs role = some leg) :
    leg ∈ legs ∧ leg.role = role := by
  induction legs using List.reverseRecOn with
  | nil => simp [legByRole] at h
  | append_singleton legs last ih =>
    rw [legByRole_append] at h
    by_cases hrole : role = last.role
    · subst hrole
      obtain rfl : last = leg := by simpa using h
      simp
    · rw [ByRole.set_of_ne _ _ hrole] at h
      have hold := ih h
      simp [hold]

theorem legByRole_of_mem {legs : List EntryLegOutcome} (hroles : (legs.map EntryLegOutcome.role).Nodup)
    {leg : EntryLegOutcome} (h : leg ∈ legs) : legByRole legs leg.role = some leg := by
  induction legs using List.reverseRecOn with
  | nil => simp at h
  | append_singleton legs last ih =>
    rw [legByRole_append]
    rw [List.map_append, List.nodup_append] at hroles
    rcases List.mem_append.mp h with hold | hlast
    · have hne : leg.role ≠ last.role := hroles.2.2 _ (List.mem_map_of_mem hold) _ (by simp)
      rw [ByRole.set_of_ne _ _ hne, ih hroles.1 hold]
    · obtain rfl : leg = last := by simpa using hlast
      simp

/-- The plan goes by the last record of a role, if it was submitted. -/
structure Counted (legs : List EntryLegOutcome) (expectedRoles : List BoxLegRole) (leg : EntryLegOutcome) : Prop where
  expected : leg.role ∈ expectedRoles
  last : legByRole legs leg.role = some leg
  submitted : leg.submitted = true

/-! ## The scan -/

structure Scanned (byRole : ByRole EntryLegOutcome) (done : List BoxLegRole) (scan : RecoveryScan) : Prop where
  confirmed : ∀ role ∈ done, scan.confirmedByRole role =
    some (((byRole role).filter EntryLegOutcome.submitted).elim (.fin 0) EntryLegOutcome.filled)
  total : ∃ total : ℚ, scan.totalConfirmed = .fin total ∧ 0 ≤ total ∧
    ∀ role ∈ done, ∀ leg ∈ (byRole role).filter EntryLegOutcome.submitted, max 0 leg.reading.value ≤ total
  known : scan.quantityUnknown = false →
    ∀ role ∈ done, ∀ leg ∈ (byRole role).filter EntryLegOutcome.submitted, leg.brokerStateKnown = true
  terminal : scan.awaitTerminalRoles = [] →
    ∀ role ∈ done, ∀ leg ∈ (byRole role).filter EntryLegOutcome.submitted, leg.brokerStateKnown = true → leg.terminal = true
  met : scan.allRequestedMet = true →
    ∀ role ∈ done, ∃ leg ∈ (byRole role).filter EntryLegOutcome.submitted,
      leg.brokerStateKnown = true ∧ leg.terminal = true ∧ ¬ leg.filled < leg.requested

theorem Scanned.start (byRole : ByRole EntryLegOutcome) : Scanned byRole [] .start where
  confirmed := by simp
  total := ⟨0, rfl, le_rfl, by simp⟩
  known := by simp
  terminal := by simp
  met := by simp

section
variable {byRole : ByRole EntryLegOutcome} {done : List BoxLegRole} {scan : RecoveryScan} {role : BoxLegRole}

theorem Scanned.skipped (h : Scanned byRole done scan) (hnone : (byRole role).filter EntryLegOutcome.submitted = none) :
    Scanned byRole (done ++ [role]) (scan.leg role (byRole role)) := by
  unfold RecoveryScan.leg
  rw [hnone]
  obtain ⟨total, htotal, hpos, hle⟩ := h.total
  refine ⟨fun r hr => ?_, ⟨total, htotal, hpos, fun r hr leg hleg => ?_⟩, fun hknown r hr leg hleg => ?_,
    fun hwait r hr leg hleg => ?_, by simp⟩
  · by_cases hrole : r = role
    · subst hrole; simp [hnone]
    · simp only [ByRole.set_of_ne _ _ hrole]
      exact h.confirmed r (by simpa [hrole] using hr)
  all_goals
    have hrole : r ≠ role := by rintro rfl; simp [hnone] at hleg
    have hold : r ∈ done := by simpa [hrole] using hr
  · exact hle r hold leg hleg
  · exact h.known hknown r hold leg hleg
  · exact h.terminal hwait r hold leg hleg

theorem Scanned.counted {leg : EntryLegOutcome} (h : Scanned byRole done scan)
    (hleg : (byRole role).filter EntryLegOutcome.submitted = some leg) :
    Scanned byRole (done ++ [role]) (scan.leg role (byRole role)) := by
  obtain ⟨total, htotal, hpos, hle⟩ := h.total
  have hconfirmed : ∀ r ∈ done ++ [role], (scan.confirmedByRole.set role leg.filled) r =
      some (((byRole r).filter EntryLegOutcome.submitted).elim (.fin 0) EntryLegOutcome.filled) := by
    intro r hr
    by_cases hrole : r = role
    · subst hrole; simp [hleg]
    · rw [ByRole.set_of_ne _ _ hrole]
      exact h.confirmed r (by simpa [hrole] using hr)
  have hsum : ∃ total : ℚ, scan.totalConfirmed.add leg.filled = .fin total ∧ 0 ≤ total ∧
      ∀ r ∈ done ++ [role], ∀ seen ∈ (byRole r).filter EntryLegOutcome.submitted, max 0 seen.reading.value ≤ total := by
    have hfilled : 0 ≤ max 0 leg.reading.value := le_max_left _ _
    refine ⟨total + max 0 leg.reading.value, by rw [htotal, filled_eq, Number.add_fin], by linarith,
      fun r hr seen hseen => ?_⟩
    by_cases hrole : r = role
    · subst hrole
      obtain rfl : leg = seen := by simpa [hleg] using hseen
      linarith
    · have := hle r (by simpa [hrole] using hr) seen hseen
      linarith
  have hboth : ∀ {P : EntryLegOutcome → Prop}, P leg →
      (∀ r ∈ done, ∀ seen ∈ (byRole r).filter EntryLegOutcome.submitted, P seen) →
      ∀ r ∈ done ++ [role], ∀ seen ∈ (byRole r).filter EntryLegOutcome.submitted, P seen := by
    intro P hP hold r hr seen hseen
    by_cases hrole : r = role
    · subst hrole
      obtain rfl : leg = seen := by simpa [hleg] using hseen
      exact hP
    · exact hold r (by simpa [hrole] using hr) seen hseen
  unfold RecoveryScan.leg
  rw [hleg]
  -- in the order of the scan: the state known, the order terminal, the fill short
  by_cases hknown : leg.brokerStateKnown = true
  · by_cases hterminal : leg.terminal = true
    · by_cases hless : leg.filled < leg.requested
      · simp only [hknown, hterminal, hless, if_true, if_false, Bool.true_eq_false]
        exact ⟨hconfirmed, hsum, fun hu => hboth hknown (h.known hu), fun hw => hboth (fun _ => hterminal) (h.terminal hw),
          by simp⟩
      · simp only [hknown, hterminal, hless, if_false, Bool.true_eq_false]
        refine ⟨hconfirmed, hsum, fun hu => hboth hknown (h.known hu), fun hw => hboth (fun _ => hterminal) (h.terminal hw),
          fun hmet r hr => ?_⟩
        by_cases hrole : r = role
        · subst hrole; exact ⟨leg, hleg, hknown, hterminal, hless⟩
        · exact h.met hmet r (by simpa [hrole] using hr)
    · rw [Bool.not_eq_true] at hterminal
      simp only [hknown, hterminal, if_true, if_false, Bool.true_eq_false]
      exact ⟨hconfirmed, hsum, fun hu => hboth hknown (h.known hu), by simp, by simp⟩
  · rw [Bool.not_eq_true] at hknown
    simp only [hknown, if_true]
    exact ⟨hconfirmed, hsum, by simp, fun hw => hboth (fun hk => by simp [hknown] at hk) (h.terminal hw), by simp⟩

theorem Scanned.leg (h : Scanned byRole done scan) : Scanned byRole (done ++ [role]) (scan.leg role (byRole role)) := by
  cases hleg : (byRole role).filter EntryLegOutcome.submitted with
  | none => exact h.skipped hleg
  | some leg => exact h.counted hleg

end

theorem scanned (byRole : ByRole EntryLegOutcome) (expectedRoles : List BoxLegRole) :
    Scanned byRole expectedRoles
      (expectedRoles.foldl (fun (scan : RecoveryScan) role => scan.leg role (byRole role)) RecoveryScan.start) := by
  induction expectedRoles using List.reverseRecOn with
  | nil => exact .start byRole
  | append_singleton done role ih =>
    rw [List.foldl_append]
    exact ih.leg

/-! ## The plan -/

section
variable {legs : List EntryLegOutcome} {expectedRoles : List BoxLegRole}

theorem counted_iff {leg : EntryLegOutcome} : Counted legs expectedRoles leg ↔
    ∃ role ∈ expectedRoles, (legByRole legs role).filter EntryLegOutcome.submitted = some leg := by
  constructor
  · intro h
    exact ⟨leg.role, h.expected, by simp [h.last, Option.filter, h.submitted]⟩
  · rintro ⟨role, hrole, hleg⟩
    rw [Option.filter_eq_some_iff] at hleg
    obtain rfl := (mem_of_legByRole hleg.1).2
    exact ⟨hrole, hleg.1, hleg.2⟩

structure Planned (legs : List EntryLegOutcome) (expectedRoles : List BoxLegRole) (plan : PartialEntryPlan) : Prop where
  qualify : plan.action = .qualifyCompleteBox →
    ∀ role ∈ expectedRoles, ∃ leg, Counted legs expectedRoles leg ∧ leg.role = role ∧
      leg.brokerStateKnown = true ∧ leg.terminal = true ∧ ¬ leg.filled < leg.requested
  nothing : plan.action = .noExposure → ∀ leg, Counted legs expectedRoles leg → leg.filled = .fin 0
  settled : plan.action = .noExposure ∨ plan.action = .unwindConfirmedExposure →
    ∀ leg, Counted legs expectedRoles leg → leg.terminal = true ∧ leg.brokerStateKnown = true
  unwinds : plan.action = .unwindConfirmedExposure →
    plan.unwind = plannedUnwinds (legByRole legs) plan.confirmedByRole expectedRoles
  otherwise : plan.action ≠ .unwindConfirmedExposure → plan.unwind = []
  confirmed : ∀ role ∈ expectedRoles, plan.confirmedByRole role =
    some (((legByRole legs role).filter EntryLegOutcome.submitted).elim (.fin 0) EntryLegOutcome.filled)

theorem planned (legs : List EntryLegOutcome) (expectedRoles : List BoxLegRole) :
    Planned legs expectedRoles (planPartialEntryRecovery legs expectedRoles) := by
  have h := scanned (legByRole legs) expectedRoles
  unfold planPartialEntryRecovery
  dsimp only
  set scan := expectedRoles.foldl (fun (scan : RecoveryScan) role => scan.leg role (legByRole legs role)) .start
  by_cases hmet : scan.allRequestedMet = true ∧ expectedRoles ≠ []
  · rw [if_pos hmet]
    refine ⟨fun _ role hrole => ?_, by simp, by simp, by simp, by simp, h.confirmed⟩
    obtain ⟨leg, hleg, hseen⟩ := h.met hmet.1 role hrole
    exact ⟨leg, counted_iff.mpr ⟨role, hrole, hleg⟩, (mem_of_legByRole (Option.filter_eq_some_iff.mp hleg).1).2, hseen⟩
  · rw [if_neg hmet]
    by_cases hunknown : scan.quantityUnknown = true
    · rw [if_pos hunknown]
      exact ⟨by simp, by simp, by simp, by simp, by simp, h.confirmed⟩
    · rw [if_neg hunknown]
      by_cases hwait : scan.awaitTerminalRoles = []
      · have hsettled : ∀ leg, Counted legs expectedRoles leg → leg.terminal = true ∧ leg.brokerStateKnown = true := by
          intro leg hleg
          obtain ⟨role, hrole, hfilter⟩ := counted_iff.mp hleg
          have hknown := h.known (by simpa using hunknown) role hrole leg hfilter
          exact ⟨h.terminal hwait role hrole leg hfilter hknown, hknown⟩
        simp only [hwait, List.isEmpty_nil, not_true, if_false]
        by_cases hzero : scan.totalConfirmed = .fin 0
        · rw [if_pos hzero]
          refine ⟨by simp, fun _ leg hleg => ?_, fun _ => hsettled, by simp, by simp, h.confirmed⟩
          obtain ⟨role, hrole, hfilter⟩ := counted_iff.mp hleg
          obtain ⟨total, htotal, _, hle⟩ := h.total
          obtain rfl : total = 0 := by simpa [htotal] using hzero
          rw [filled_eq, le_antisymm (hle role hrole leg hfilter) (le_max_left _ _)]
        · rw [if_neg hzero]
          exact ⟨by simp, by simp, fun _ => hsettled, fun _ => rfl, by simp, h.confirmed⟩
      · have hsome : ¬ scan.awaitTerminalRoles.isEmpty = true := by simpa using hwait
        rw [if_pos hsome]
        exact ⟨by simp, by simp, by simp, by simp, by simp, h.confirmed⟩

theorem mem_plannedUnwinds {confirmedByRole : ByRole Number}
    (h : ∀ role ∈ expectedRoles, confirmedByRole role =
      some (((legByRole legs role).filter EntryLegOutcome.submitted).elim (.fin 0) EntryLegOutcome.filled))
    {item : PlannedUnwind} : item ∈ plannedUnwinds (legByRole legs) confirmedByRole expectedRoles ↔
      ∃ leg, Counted legs expectedRoles leg ∧ 0 < leg.reading.value ∧
        item = ⟨leg.role, leg.side.reverse, leg.confirmedFilled⟩ := by
  unfold plannedUnwinds
  rw [List.mem_filterMap]
  constructor
  · rintro ⟨role, hrole, hitem⟩
    obtain ⟨leg, hleg, hitem⟩ := Option.bind_eq_some_iff.mp hitem
    rw [h role hrole, Option.getD_some] at hitem
    obtain rfl := (mem_of_legByRole hleg).2
    by_cases hsubmitted : leg.submitted = true
    · simp only [hleg, Option.filter, hsubmitted, if_true, Option.elim_some, filled_eq, Number.fin_le_fin] at hitem
      by_cases hpos : 0 < leg.reading.value
      · have hmax : ¬ max 0 leg.reading.value ≤ 0 := by simpa using hpos
        rw [if_neg hmax, ← filled_eq, (filled_of_pos hpos).1] at hitem
        exact ⟨leg, ⟨hrole, hleg, hsubmitted⟩, hpos, (Option.some_inj.mp hitem).symm⟩
      · simp [not_lt.mp hpos] at hitem
    · simp [hleg, Option.filter, hsubmitted] at hitem
  · rintro ⟨leg, hleg, hpos, rfl⟩
    refine ⟨leg.role, hleg.expected, ?_⟩
    have hnot : ¬ leg.confirmedFilled ≤ .fin 0 := by
      rw [← (filled_of_pos hpos).1, filled_eq, Number.fin_le_fin]
      simpa using hpos
    rw [h leg.role hleg.expected]
    simp [hleg.last, Option.filter, hleg.submitted, hnot, (filled_of_pos hpos).1]

theorem plannedUnwinds_roles (confirmedByRole : ByRole Number) (hroles : expectedRoles.Nodup) :
    ((plannedUnwinds (legByRole legs) confirmedByRole expectedRoles).map PlannedUnwind.role).Nodup := by
  refine List.Nodup.sublist ?_ hroles
  unfold plannedUnwinds
  induction expectedRoles with
  | nil => simp
  | cons role roles ih =>
    rw [List.filterMap_cons]
    split
    · exact (ih (List.nodup_cons.mp hroles).2).cons role
    · rename_i item hitem
      obtain ⟨leg, _, hitem⟩ := Option.bind_eq_some_iff.mp hitem
      have hrole : item.role = role := by
        split at hitem
        · cases hitem
        · obtain rfl := Option.some_inj.mp hitem; rfl
      rw [List.map_cons, hrole]
      exact (ih (List.nodup_cons.mp hroles).2).cons_cons role

end

/-! ## The check -/

def executed (unwind : List PlannedUnwind) : ByRole Number :=
  unwind.foldl (fun (byRole : ByRole Number) item =>
    byRole.set item.role (((byRole item.role).getD (.fin 0)).add item.quantity)) fun _ => none

variable {unwind : List PlannedUnwind}

theorem executed_of_not_mem (h : role ∉ unwind.map PlannedUnwind.role) : executed unwind role = none := by
  induction unwind using List.reverseRecOn with
  | nil => rfl
  | append_singleton unwind item ih =>
    have hne : role ≠ item.role ∧ role ∉ unwind.map PlannedUnwind.role := by
      simp only [List.map_append, List.mem_append, not_or] at h
      exact ⟨by simpa using h.2, h.1⟩
    have hold := ih hne.2
    unfold executed at hold ⊢
    rw [List.foldl_append, List.foldl_cons, List.foldl_nil, ByRole.set_of_ne _ _ hne.1, hold]

theorem executed_of_mem (hroles : (unwind.map PlannedUnwind.role).Nodup)
    {item : PlannedUnwind} (h : item ∈ unwind) : executed unwind item.role = some item.quantity := by
  induction unwind using List.reverseRecOn with
  | nil => simp at h
  | append_singleton unwind last ih =>
    rw [List.map_append, List.nodup_append] at hroles
    have hlast : last.role ∉ unwind.map PlannedUnwind.role := fun hmem => hroles.2.2 _ hmem last.role (by simp) rfl
    have hbefore : executed unwind last.role = none := executed_of_not_mem hlast
    unfold executed at ih hbefore ⊢
    rw [List.foldl_append, List.foldl_cons, List.foldl_nil]
    rcases List.mem_append.mp h with hold | hnew
    · have hne : item.role ≠ last.role := fun heq => hlast (heq ▸ List.mem_map_of_mem hold)
      rw [ByRole.set_of_ne _ _ hne, ih hroles.1 hold]
    · obtain rfl : item = last := by simpa using hnew
      rw [hbefore]
      simp [Number.zero_add]

section
variable {legs : List EntryLegOutcome} {unwoundByRole : ByRole Number}

theorem legViolations_eq_nil {leg : EntryLegOutcome} {unwound : ℚ} :
    legViolations leg (.fin unwound) = [] ↔ ¬ leg.Overfilled ∧ unwound ≤ leg.reading.value := by
  unfold legViolations
  dsimp only
  have hreading : (if leg.confirmedFilled.isFinite then leg.confirmedFilled else .fin 0) = Number.fin leg.reading.value :=
    reading_eq leg
  rw [hreading, Number.sub_fin, Overfilled, reading_eq]
  by_cases hover : leg.requested < .fin leg.reading.value
  · simp [hover]
  · by_cases hless : leg.reading.value < unwound
    · simp [hover, hless]
    · simp [hover, hless, not_lt.mp hless]

theorem conserved_iff (hfinite : ∀ leg ∈ legs, ∃ q : ℚ, (unwoundByRole leg.role).getD (.fin 0) = .fin q) :
    (verifyQuantityConservation legs unwoundByRole).conserved = true ↔
      ∀ leg ∈ legs, ¬ leg.Overfilled ∧ ((unwoundByRole leg.role).getD (.fin 0)).value ≤ leg.reading.value := by
  unfold verifyQuantityConservation
  dsimp only
  rw [List.isEmpty_iff, List.flatMap_eq_nil_iff]
  refine forall₂_congr fun leg hleg => ?_
  obtain ⟨q, hq⟩ := hfinite leg hleg
  rw [hq, legViolations_eq_nil, Number.value_fin]

theorem residualByRole_of_mem (hroles : (legs.map EntryLegOutcome.role).Nodup) {leg : EntryLegOutcome} (h : leg ∈ legs)
    {q : ℚ} (hq : (unwoundByRole leg.role).getD (.fin 0) = .fin q) :
    (verifyQuantityConservation legs unwoundByRole).residualByRole leg.role =
      some (.fin (max 0 (leg.reading.value - q))) := by
  unfold verifyQuantityConservation
  dsimp only
  induction legs using List.reverseRecOn with
  | nil => simp at h
  | append_singleton legs last ih =>
    rw [List.map_append, List.nodup_append] at hroles
    rw [List.foldl_append, List.foldl_cons, List.foldl_nil]
    rcases List.mem_append.mp h with hold | hnew
    · have hne : leg.role ≠ last.role := hroles.2.2 _ (List.mem_map_of_mem hold) _ (by simp)
      rw [ByRole.set_of_ne _ _ hne]
      exact ih hroles.1 hold
    · obtain rfl : leg = last := by simpa using hnew
      have hreading : (if leg.confirmedFilled.isFinite then leg.confirmedFilled else .fin 0) =
          Number.fin leg.reading.value := reading_eq leg
      rw [ByRole.set_self, hq, hreading, Number.sub_fin]
      by_cases hpos : 0 < leg.reading.value - q
      · simp [Number.max, hpos, max_eq_right hpos.le]
      · simp [Number.max, hpos, max_eq_left (not_lt.mp hpos)]

theorem conserved_unwinding_nothing (legs : List EntryLegOutcome) :
    (verifyQuantityConservation legs fun _ => none).conserved = true ↔ ∀ leg ∈ legs, ¬ leg.Overfilled ∧ ¬ leg.Negative := by
  rw [conserved_iff fun leg _ => ⟨0, rfl⟩]
  refine forall₂_congr fun leg _ => ?_
  rw [negative_iff, not_lt]
  rfl

end

/-! ## The plan executed -/

section
variable {legs : List EntryLegOutcome} {expectedRoles : List BoxLegRole} {plan : PartialEntryPlan}

variable (h : Planned legs expectedRoles plan)

include h

theorem Planned.mem_unwind (haction : plan.action = .unwindConfirmedExposure)
    {item : PlannedUnwind} : item ∈ plan.unwind ↔ ∃ leg, Counted legs expectedRoles leg ∧ 0 < leg.reading.value ∧
      item = ⟨leg.role, leg.side.reverse, leg.confirmedFilled⟩ := by
  rw [h.unwinds haction, mem_plannedUnwinds h.confirmed]

theorem Planned.executed (haction : plan.action = .unwindConfirmedExposure)
    (hexpected : expectedRoles.Nodup) (hroles : (legs.map EntryLegOutcome.role).Nodup) {leg : EntryLegOutcome}
    (hleg : leg ∈ legs) :
    (Counted legs expectedRoles leg → (executed plan.unwind leg.role).getD (.fin 0) = .fin (max 0 leg.reading.value)) ∧
      (¬ Counted legs expectedRoles leg → (executed plan.unwind leg.role).getD (.fin 0) = .fin 0) := by
  have hlast := legByRole_of_mem hroles hleg
  have hnone : (¬ Counted legs expectedRoles leg ∨ ¬ 0 < leg.reading.value) →
      leg.role ∉ plan.unwind.map PlannedUnwind.role := by
    intro hnot hmem
    obtain ⟨item, hitem, hrole⟩ := List.mem_map.mp hmem
    obtain ⟨seen, hseen, hpos, rfl⟩ := (h.mem_unwind haction).mp hitem
    obtain rfl : leg = seen := by
      have hsame := hseen.last
      rw [show seen.role = leg.role from hrole, hlast] at hsame
      exact Option.some_inj.mp hsame
    exact hnot.elim (fun hc => hc hseen) fun hp => hp hpos
  have hunwinds : (plan.unwind.map PlannedUnwind.role).Nodup := by
    rw [h.unwinds haction]
    exact plannedUnwinds_roles _ hexpected
  refine ⟨fun hcounted => ?_, fun hcounted => by rw [executed_of_not_mem (hnone (.inl hcounted))]; rfl⟩
  by_cases hpos : 0 < leg.reading.value
  · have hmem := (h.mem_unwind haction).mpr ⟨leg, hcounted, hpos, rfl⟩
    have hunwound := executed_of_mem hunwinds hmem
    simp only at hunwound
    rw [hunwound, Option.getD_some, ← (filled_of_pos hpos).1, filled_eq]
  · rw [executed_of_not_mem (hnone (.inr hpos)), max_eq_left (not_lt.mp hpos)]
    rfl

theorem Planned.conserved (haction : plan.action = .unwindConfirmedExposure)
    (hexpected : expectedRoles.Nodup) (hroles : (legs.map EntryLegOutcome.role).Nodup) :
    (verifyQuantityConservation legs (BoxEngine.executed plan.unwind)).conserved = true ↔
      ∀ leg ∈ legs, ¬ leg.Overfilled ∧ ¬ leg.Negative := by
  have hunwound := fun leg hleg => @Planned.executed legs expectedRoles plan h haction hexpected hroles leg hleg
  rw [conserved_iff fun leg hleg => ?_]
  · refine forall₂_congr fun leg hleg => and_congr_right fun _ => ?_
    rw [negative_iff, not_lt]
    by_cases hcounted : Counted legs expectedRoles leg
    · rw [(hunwound leg hleg).1 hcounted, Number.value_fin, max_le_iff]
      exact and_iff_left le_rfl
    · rw [(hunwound leg hleg).2 hcounted, Number.value_fin]
  · by_cases hcounted : Counted legs expectedRoles leg
    · exact ⟨_, (hunwound leg hleg).1 hcounted⟩
    · exact ⟨_, (hunwound leg hleg).2 hcounted⟩

theorem Planned.residual (haction : plan.action = .unwindConfirmedExposure)
    (hexpected : expectedRoles.Nodup) (hroles : (legs.map EntryLegOutcome.role).Nodup) {leg : EntryLegOutcome}
    (hleg : leg ∈ legs) (hcounted : Counted legs expectedRoles leg ∨ ¬ .fin 0 < leg.reading) :
    (verifyQuantityConservation legs (BoxEngine.executed plan.unwind)).residualByRole leg.role = some (.fin 0) := by
  have hunwound := h.executed haction hexpected hroles hleg
  by_cases hc : Counted legs expectedRoles leg
  · rw [residualByRole_of_mem hroles hleg (hunwound.1 hc)]
    simp
  · have hnothing : leg.reading.value ≤ 0 := by simpa [reading_pos_iff] using hcounted.resolve_left hc
    rw [residualByRole_of_mem hroles hleg (hunwound.2 hc), sub_zero, max_eq_left hnothing]

end

/-- What each action says of the counted legs, what the unwind reverses, and what the check says afterwards. -/
theorem recovery_plan_sound (legs : List EntryLegOutcome) (expectedRoles : List BoxLegRole) :
    let plan := planPartialEntryRecovery legs expectedRoles
    (plan.action = .noExposure → ∀ leg, Counted legs expectedRoles leg → leg.filled = .fin 0) ∧
    (plan.action = .unwindConfirmedExposure →
      (∀ leg, Counted legs expectedRoles leg → leg.terminal = true ∧ leg.brokerStateKnown = true) ∧
      (∀ item, item ∈ plan.unwind ↔ ∃ leg, Counted legs expectedRoles leg ∧ .fin 0 < leg.reading ∧
        item = ⟨leg.role, leg.side.reverse, leg.confirmedFilled⟩) ∧
      (expectedRoles.Nodup → (legs.map EntryLegOutcome.role).Nodup →
        let result := verifyQuantityConservation legs (executed plan.unwind)
        (result.conserved = true ↔ ∀ leg ∈ legs, ¬ leg.Overfilled ∧ ¬ leg.Negative) ∧
        ∀ leg ∈ legs, (Counted legs expectedRoles leg ∨ ¬ .fin 0 < leg.reading) →
          result.residualByRole leg.role = some (.fin 0))) ∧
    (plan.action ≠ .unwindConfirmedExposure → plan.unwind = []) ∧
    (plan.action = .qualifyCompleteBox →
      (∀ role ∈ expectedRoles, ∃ leg, Counted legs expectedRoles leg ∧ leg.role = role ∧
        leg.brokerStateKnown = true ∧ leg.terminal = true ∧ ¬ leg.filled < leg.requested) ∧
      ((verifyQuantityConservation legs fun _ => none).conserved = true ↔
        ∀ leg ∈ legs, ¬ leg.Overfilled ∧ ¬ leg.Negative)) := by
  have h := planned legs expectedRoles
  refine ⟨h.nothing, fun haction => ⟨h.settled (.inr haction), fun item => ?_, fun hexpected hroles => ?_⟩, h.otherwise,
    fun haction => ⟨h.qualify haction, conserved_unwinding_nothing legs⟩⟩
  · simp only [reading_pos_iff]
    exact h.mem_unwind haction
  · exact ⟨h.conserved haction hexpected hroles, fun leg hleg => h.residual haction hexpected hroles hleg⟩

theorem recovery_plan_filters :
    let filled : EntryLegOutcome := ⟨.k1Ce, .buy, .fin 75, .fin 50, true, true, true⟩
    let unsubmitted : EntryLegOutcome := ⟨.k2Ce, .sell, .fin 75, .fin 50, false, false, true⟩
    let negative : EntryLegOutcome := ⟨.k2Ce, .sell, .fin 75, .fin (-5), true, true, true⟩
    let earlier : EntryLegOutcome := ⟨.k1Ce, .buy, .fin 75, .fin 25, true, true, true⟩
    let infinite : EntryLegOutcome := ⟨.k1Ce, .buy, .fin 75, .posInf, true, true, true⟩
    let excess : BoxLegRole → EntryLegOutcome := fun role => ⟨role, .buy, .fin 75, .fin 80, true, true, true⟩
    let plan := fun legs => planPartialEntryRecovery legs boxLegRoles
    let afterUnwind := fun legs => verifyQuantityConservation legs (executed (plan legs).unwind)
    ((plan [unsubmitted]).action = .noExposure ∧ .fin 0 < unsubmitted.confirmedFilled) ∧
    ((plan [infinite]).action = .noExposure ∧ .fin 0 < infinite.confirmedFilled) ∧
    ((plan [filled, unsubmitted]).action = .unwindConfirmedExposure ∧ unsubmitted.terminal = false ∧
      (afterUnwind [filled, unsubmitted]).residualByRole .k2Ce = some (.fin 50)) ∧
    ((plan [filled, negative]).action = .unwindConfirmedExposure ∧
      (afterUnwind [filled, negative]).conserved = false) ∧
    ((plan [earlier, filled]).action = .unwindConfirmedExposure ∧ (afterUnwind [earlier, filled]).conserved = false) ∧
    ((plan (boxLegRoles.map excess)).action = .qualifyCompleteBox ∧
      (verifyQuantityConservation (boxLegRoles.map excess) fun _ => none).conserved = false) := by
  decide +kernel

end BoxEngine
