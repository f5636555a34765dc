import BoxEngine.CoverSound

/-!
# The exit and the unwind keep their cover
-/

namespace BoxEngine

open Js

/-! ## Outstanding quantities -/

/-- A role bought on entry is held long, one sold is held short, each by what remains. -/
def BoxOpenPosition.holding (position : BoxOpenPosition) : Holding where
  long role := if entrySideFor role position.entryDirection = .buy then (position.remainingQtyByRole role).value else 0
  short role := if entrySideFor role position.entryDirection = .sell then (position.remainingQtyByRole role).value else 0

variable {position : BoxOpenPosition} {out : List (BoxLegRole × Number)}

/-- Every remaining quantity is readable, and the outstanding roles are those with something left. -/
theorem outstandingRoles_mem {roles : List BoxLegRole} (h : outstandingRoles position roles = .ok out) :
    (∀ role ∈ roles, ∃ q : ℚ, position.remainingQtyByRole role = .fin q ∧ 0 ≤ q) ∧
      ∀ entry, entry ∈ out ↔ entry.1 ∈ roles ∧ entry.2 = position.remainingQtyByRole entry.1 ∧ .fin 0 < entry.2 := by
  induction roles generalizing out with
  | nil =>
    cases h
    simp
  | cons role roles ih =>
    dsimp only [outstandingRoles] at h
    split at h
    · cases h
    · rename_i husable
      rw [not_or, Bool.not_eq_false] at husable
      cases hrest : outstandingRoles position roles with
      | error message => rw [hrest] at h; cases h
      | ok rest =>
        rw [hrest] at h
        obtain ⟨hfinite, hmem⟩ := ih hrest
        have hq : ∃ q : ℚ, position.remainingQtyByRole role = .fin q ∧ 0 ≤ q := by
          cases hrole : position.remainingQtyByRole role with
          | fin q =>
            rw [hrole] at husable
            exact ⟨q, rfl, by simpa using husable.2⟩
          | _ => rw [hrole] at husable; simp [isSafeInteger] at husable
        refine ⟨?_, ?_⟩
        · intro r hr
          rcases List.mem_cons.mp hr with rfl | hr
          · exact hq
          · exact hfinite r hr
        · intro entry
          cases h
          by_cases hpos : Number.fin 0 < position.remainingQtyByRole role
          · simp only [if_pos hpos, List.mem_cons, hmem]
            constructor
            · rintro (rfl | ⟨hin, heq, hgt⟩)
              · exact ⟨.inl rfl, rfl, hpos⟩
              · exact ⟨.inr hin, heq, hgt⟩
            · rintro ⟨rfl | hin, heq, hgt⟩
              · exact .inl (Prod.ext rfl heq)
              · exact .inr ⟨hin, heq, hgt⟩
          · simp only [if_neg hpos, List.mem_cons, hmem]
            constructor
            · rintro ⟨hin, heq, hgt⟩
              exact ⟨.inr hin, heq, hgt⟩
            · rintro ⟨rfl | hin, heq, hgt⟩
              · exact absurd (heq ▸ hgt) hpos
              · exact ⟨hin, heq, hgt⟩

theorem byRoleOf_eq (h : outstandingRoles position boxLegRoles = .ok out) (role : BoxLegRole) :
    ∃ q : ℚ, position.remainingQtyByRole role = .fin q ∧ planQty (byRoleOf out) role = q ∧
      (byRoleOf out role).getD (.fin 0) = .fin q := by
  obtain ⟨hfinite, hmem⟩ := outstandingRoles_mem h
  obtain ⟨q, hq, hnonneg⟩ := hfinite role role.mem_boxLegRoles
  refine ⟨q, hq, ?_⟩
  unfold planQty byRoleOf
  cases hfind : out.find? fun entry => entry.1 = role with
  | none =>
    have hzero : q = 0 := by
      by_contra hne
      have hpos : 0 < q := lt_of_le_of_ne hnonneg (Ne.symm hne)
      have hin := (hmem (role, .fin q)).mpr ⟨role.mem_boxLegRoles, hq.symm, by simpa using hpos⟩
      simpa using List.find?_eq_none.mp hfind _ hin
    simp [hzero]
  | some entry =>
    have hrole : entry.1 = role := by simpa using List.find?_some hfind
    obtain ⟨-, hvalue, hpos⟩ := (hmem entry).mp (List.mem_of_find?_eq_some hfind)
    rw [hrole, hq] at hvalue
    rw [hvalue] at hpos
    simp only [Option.map_some, hvalue, Option.getD_some]
    have : 0 < q := by simpa using hpos
    simp [this]

variable {role : BoxLegRole} {direction : BoxDirection}

theorem exitSide_sell (h : exitSideFor role direction = .sell) : entrySideFor role direction = .buy := by
  unfold exitSideFor at h
  by_contra hne
  rw [if_neg hne] at h
  cases h

theorem holding_long (h : exitSideFor role position.entryDirection = .sell) :
    position.holding.long role = (position.remainingQtyByRole role).value ∧
      position.holding.short (verticalPartner role) = (position.remainingQtyByRole (verticalPartner role)).value := by
  have hbuy := exitSide_sell h
  exact ⟨if_pos hbuy, if_pos ((partner_side position.entryDirection role).mpr hbuy)⟩

/-! ## The two waves -/

theorem slots_roles (direction : BoxDirection) (outstanding : BoxLegRole → Option Number) (roles : List BoxLegRole) :
    ((roles.filterMap (exitSlot direction outstanding)).map ExitDependencySlot.role).Sublist roles := by
  induction roles with
  | nil => simp
  | cons role roles ih =>
    cases hslot : exitSlot direction outstanding role with
    | none =>
      rw [List.filterMap_cons_none hslot]
      exact ih.cons role
    | some slot =>
      rw [List.filterMap_cons_some hslot, List.map_cons, (exitSlot_cases hslot).1]
      exact ih.cons_cons role

theorem plan_slots_nodup (direction : BoxDirection) (outstanding : BoxLegRole → Option Number) :
    ((planExitDependencies direction outstanding).slots.map ExitDependencySlot.role).Nodup :=
  (slots_roles direction outstanding boxLegRoles).nodup boxLegRoles_nodup

variable {slot : ExitDependencySlot}

theorem slot_of_plan {outstanding : BoxLegRole → Option Number}
    (h : slot ∈ (planExitDependencies direction outstanding).slots) :
    exitSlot direction outstanding slot.role = some slot := by
  obtain ⟨role, -, hslot⟩ := List.mem_filterMap.mp h
  rw [(exitSlot_cases hslot).1]
  exact hslot

/-- The two waves share no role, so no leg is sent twice. -/
theorem waves_disjoint {outstanding : BoxLegRole → Option Number} {slot slot' : ExitDependencySlot}
    (h : slot ∈ (planExitDependencies direction outstanding).wave0)
    (h' : slot' ∈ (planExitDependencies direction outstanding).wave1) : slot.role ≠ slot'.role := by
  obtain ⟨hin, hwave⟩ := List.mem_filter.mp h
  obtain ⟨hin', hwave'⟩ := List.mem_filter.mp h'
  intro hrole
  have hslot := slot_of_plan hin
  rw [hrole, slot_of_plan hin'] at hslot
  cases hslot
  simp only [decide_eq_true_eq] at hwave hwave'
  rw [hwave] at hwave'
  cases hwave'

theorem wave0_free (hout : outstandingRoles position boxLegRoles = .ok out)
    (h : slot ∈ (planExitDependencies position.entryDirection (byRoleOf out)).wave0) :
    WaveLeg.Free position.holding position.entryDirection [] ⟨slot.role, slot.outstanding⟩ := by
  intro hsell
  obtain ⟨hin, hwave⟩ := List.mem_filter.mp h
  obtain ⟨-, hqty, hcases⟩ := exitSlot_cases (slot_of_plan hin)
  obtain ⟨hlong, hshort⟩ := holding_long hsell
  obtain ⟨q, hq, hplan, -⟩ := byRoleOf_eq hout slot.role
  obtain ⟨p, hp, hplan', -⟩ := byRoleOf_eq hout (verticalPartner slot.role)
  refine ⟨rfl, ?_⟩
  have hpartner : planQty (byRoleOf out) (verticalPartner slot.role) = 0 := by
    rcases hcases with ⟨hside, -⟩ | ⟨-, hzero, -⟩ | ⟨-, -, hone⟩
    · have hbuy : boxEntrySidesByDirection position.entryDirection slot.role = .buy := exitSide_sell hsell
      rw [hside] at hbuy
      cases hbuy
    · exact hzero
    · simp only [decide_eq_true_eq] at hwave
      rw [hwave] at hone
      cases hone
  have hopen : position.holding.mayBeOpen (verticalPartner slot.role) [] = 0 := by
    rw [Holding.mayBeOpen, hshort, hp, Number.value_fin, ← hplan', hpartner]
    simp [closedOn]
  rw [hopen, hlong, hq, add_zero, hqty, hplan]
  exact le_refl q

variable {trace : List Moment}
variable {byRole : ByRole ExitWaveOutcome}

/-- The evidence of a short says no more was bought back than the trace shows. -/
theorem coverEvidence_closed (h : Honest byRole trace) (role : BoxLegRole)
    (number : Number) {outstanding : ℚ} (hnonneg : 0 ≤ outstanding) :
    (coverEvidence number (byRole role)).closed outstanding ≤ closedOn role trace ∧
      (coverEvidence number (byRole role)).closed outstanding ≤ outstanding := by
  unfold ShortCloseEvidence.closed
  split
  · rename_i q hq
    split
    · rename_i hcertain
      refine ⟨?_, min_le_right _ _⟩
      cases hrole : byRole role with
      | none =>
        rw [hrole] at hcertain
        simp [coverEvidence] at hcertain
      | some outcome =>
        rw [hrole] at hq hcertain
        have hfilled : outcome.filled = .fin q := by simpa [coverEvidence] using hq
        have := h role outcome hrole (by simpa [coverEvidence] using hcertain.1)
        rw [hfilled] at this
        exact (min_le_left _ _).trans this
    · exact ⟨closedOn_nonneg role trace, hnonneg⟩
  · exact ⟨closedOn_nonneg role trace, hnonneg⟩

/-- Selling what is releasable leaves the partner's short covered. -/
theorem releasable_covered (held : Holding) (h : Honest byRole trace)
    {hedgeOutstanding shortOutstanding : Number} (hlong : hedgeOutstanding.value = held.long role)
    (hshort : ∀ q, shortOutstanding = .fin q → q = held.short (verticalPartner role) ∧ 0 ≤ q)
    (hpos : 0 < releasableHedgeQuantity hedgeOutstanding (coverEvidence shortOutstanding (byRole (verticalPartner role)))) :
    releasableHedgeQuantity hedgeOutstanding (coverEvidence shortOutstanding (byRole (verticalPartner role))) +
      held.mayBeOpen (verticalPartner role) trace ≤ held.long role := by
  obtain ⟨hedge, outstanding, hhedge, hout, -, hle⟩ := releasable_le hpos
  obtain ⟨heq, hnonneg⟩ := hshort outstanding hout
  obtain ⟨hclosed, hbound⟩ := coverEvidence_closed h (verticalPartner role) shortOutstanding hnonneg
  rw [hhedge, Number.value_fin] at hlong
  have hopen : held.mayBeOpen (verticalPartner role) trace ≤
      outstanding - (coverEvidence shortOutstanding (byRole (verticalPartner role))).closed outstanding := by
    rw [Holding.mayBeOpen, ← heq]
    exact max_le (by linarith) (by linarith)
  linarith

def ReleasedFrom (outstanding : BoxLegRole → Option Number) (wave0 : ByRole ExitWaveOutcome)
    (slot : ExitDependencySlot) (leg : WaveLeg) : Prop :=
  leg.role = slot.role ∧ ∃ short, slot.covers = some short ∧ 0 < leg.quantity ∧
    leg.quantity = releasableHedgeQuantity (.fin slot.outstanding)
      (coverEvidence ((outstanding short).getD (.fin 0)) (wave0 short))

/-- What the release of the hedges asks for and leaves untouched. -/
structure ReleasesFrom (outstanding : BoxLegRole → Option Number) (wave0 : ByRole ExitWaveOutcome)
    (slots : List ExitDependencySlot) (r r' : Releases) : Prop where
  trace : r'.log.trace = r.log.trace
  legs : ∀ leg ∈ r'.legs, leg ∈ r.legs ∨ ∃ slot ∈ slots, ReleasedFrom outstanding wave0 slot leg
  roles : (r'.legs.map WaveLeg.role).Sublist
    (r.legs.map WaveLeg.role ++ slots.map ExitDependencySlot.role)

variable (outstanding : BoxLegRole → Option Number)

theorem releaseHedge_releases (wave0 : ByRole ExitWaveOutcome) (r : Releases) (slot : ExitDependencySlot) :
    ReleasesFrom outstanding wave0 [slot] r (releaseHedge outstanding wave0 r slot) := by
  unfold releaseHedge
  split
  · exact ⟨rfl, fun _ h => .inl h, List.sublist_append_left _ _⟩
  · rename_i short hcovers
    dsimp only
    split
    · exact ⟨rfl, fun _ h => .inl h, List.sublist_append_left _ _⟩
    · rename_i hpos
      refine ⟨by dsimp only; split <;> rfl, ?_, by simp⟩
      intro leg hleg
      rcases List.mem_append.mp hleg with hleg | hleg
      · exact .inl hleg
      · obtain rfl := List.mem_singleton.mp hleg
        exact .inr ⟨slot, by simp, rfl, short, hcovers, not_le.mp hpos, rfl⟩

theorem releaseHedges_releases (wave0 : ByRole ExitWaveOutcome) (slots : List ExitDependencySlot) (r : Releases) :
    ReleasesFrom outstanding wave0 slots r (slots.foldl (releaseHedge outstanding wave0) r) := by
  induction slots generalizing r with
  | nil => exact ⟨rfl, fun _ h => .inl h, by simp⟩
  | cons slot slots ih =>
    have hfirst := releaseHedge_releases outstanding wave0 r slot
    have hrest := ih (releaseHedge outstanding wave0 r slot)
    refine ⟨hrest.trace.trans hfirst.trace, ?_, ?_⟩
    · intro leg hleg
      rcases hrest.legs leg hleg with hmid | ⟨s, hs, hreleased⟩
      · rcases hfirst.legs leg hmid with hr | ⟨s, hs, hreleased⟩
        · exact .inl hr
        · obtain rfl := List.mem_singleton.mp hs
          exact .inr ⟨s, by simp, hreleased⟩
      · exact .inr ⟨s, by simp [hs], hreleased⟩
    · refine hrest.roles.trans ?_
      have := hfirst.roles.append (List.Sublist.refl (slots.map ExitDependencySlot.role))
      simpa using this

variable {wave0 : ByRole ExitWaveOutcome}

theorem wave1_free (hout : outstandingRoles position boxLegRoles = .ok out)
    (hhonest : Honest wave0 trace) {leg : WaveLeg}
    (hslot : slot ∈ (planExitDependencies position.entryDirection (byRoleOf out)).wave1)
    (hleg : ReleasedFrom (byRoleOf out) wave0 slot leg) (hnone : soldOn leg.role trace = 0) :
    leg.Free position.holding position.entryDirection trace := by
  intro hsell
  refine ⟨hnone, ?_⟩
  obtain ⟨hin, hwave⟩ := List.mem_filter.mp hslot
  simp only [decide_eq_true_eq] at hwave
  obtain ⟨hrole, short, hcovers, hpos, hquantity⟩ := hleg
  obtain ⟨-, hqty, hcases⟩ := exitSlot_cases (slot_of_plan hin)
  rw [hrole] at hsell ⊢
  obtain ⟨hlong, hshort⟩ := holding_long hsell
  have hpartner : short = verticalPartner slot.role := by
    rcases hcases with ⟨-, hzero⟩ | ⟨-, -, hzero⟩ | ⟨-, hcov, -⟩
    · rw [hzero] at hwave; cases hwave
    · rw [hzero] at hwave; cases hwave
    · rw [hcovers] at hcov
      exact Option.some.inj hcov
  subst hpartner
  obtain ⟨q, hq, hplan, -⟩ := byRoleOf_eq hout slot.role
  obtain ⟨p, hp, hplan', hget⟩ := byRoleOf_eq hout (verticalPartner slot.role)
  rw [hquantity] at hpos ⊢
  refine releasable_covered _ hhonest ?_ ?_ hpos
  · rw [hlong, hq, Number.value_fin, Number.value_fin, hqty, hplan]
  · intro x hx
    rw [hget] at hx
    cases hx
    rw [hshort, hp]
    exact ⟨rfl, hplan' ▸ planQty_nonneg _ _⟩

theorem releaseWave_covered {ctx : ExitContext} (hdirection : ctx.direction = position.entryDirection)
    (hout : outstandingRoles position boxLegRoles = .ok out) (venue : Venue)
    {log : ExitLog} (h : AlwaysCovered position.holding log.trace) (hhonest : Honest wave0 log.trace)
    (hnone : ∀ slot ∈ (planExitDependencies position.entryDirection (byRoleOf out)).wave1, soldOn slot.role log.trace = 0) :
    AlwaysCovered position.holding (releaseWave ctx venue (byRoleOf out)
      (planExitDependencies position.entryDirection (byRoleOf out)).wave1 wave0 log).trace := by
  have hreleases := releaseHedges_releases (byRoleOf out) wave0
    (planExitDependencies position.entryDirection (byRoleOf out)).wave1 ⟨log, []⟩
  have hroles : ((planExitDependencies position.entryDirection (byRoleOf out)).wave1.map
      ExitDependencySlot.role).Nodup :=
    (List.Sublist.map _ List.filter_sublist).nodup (plan_slots_nodup position.entryDirection (byRoleOf out))
  have hwave := runWave_sound position.holding ctx venue _ (by rw [hreleases.trace]; exact h)
    (hreleases.roles.nodup (by simpa using hroles)) (by
      intro leg hleg
      obtain hno | ⟨slot, hslot, hreleased⟩ := hreleases.legs leg hleg
      · simp at hno
      · rw [hdirection, hreleases.trace]
        exact wave1_free hout hhonest hslot hreleased (by rw [hreleased.1]; exact hnone slot hslot))
  unfold releaseWave
  dsimp only
  split
  · rename_i log' byRole heq
    rw [heq] at hwave
    exact hwave.covered
  · rename_i log' thrown heq
    rw [heq] at hwave
    exact hwave.covered

def exitTrace (result : Except String ExitResult) : List Moment :=
  match result with
  | .ok result => result.log.trace
  | .error _ => []

theorem finishExit_log (attemptId : String) (outstanding : List (BoxLegRole × Number)) (log : ExitLog) :
    (finishExit attemptId outstanding log).log = log := by
  unfold finishExit
  dsimp only
  split <;> rfl

/-- An exit keeps its cover, whatever is answered and in whichever order. -/
theorem exit_covered (position : BoxOpenPosition) (detectedAt : Number) (first second : Venue) :
    AlwaysCovered position.holding (exitTrace (simulateLeggingExit position detectedAt first second)) := by
  unfold simulateLeggingExit
  cases hout : outstandingRoles position boxLegRoles with
  | error message => exact alwaysCovered_nil
  | ok out =>
    dsimp only
    by_cases hempty : out.isEmpty = true
    · rw [if_pos hempty]
      exact alwaysCovered_nil
    · rw [if_neg hempty]
      let plan := planExitDependencies position.entryDirection (byRoleOf out)
      let legs0 := plan.wave0.map fun slot => WaveLeg.mk slot.role slot.outstanding
      have hlegs0 : legs0.map WaveLeg.role = plan.wave0.map ExitDependencySlot.role := by
        simp [legs0]
      have hroles0 : (legs0.map WaveLeg.role).Nodup := by
        rw [hlegs0]
        exact (List.Sublist.map _ List.filter_sublist).nodup (plan_slots_nodup position.entryDirection (byRoleOf out))
      have hwave0 := runWave_sound position.holding
        ⟨position, position.entryDirection, stableAttemptId position.id detectedAt "EXIT"⟩ first .empty alwaysCovered_nil hroles0 fun leg hleg => by
          obtain ⟨slot, hslot, rfl⟩ := List.mem_map.mp hleg
          exact wave0_free hout hslot
      split
      · rename_i log thrown heq
        rw [heq] at hwave0
        exact hwave0.covered
      · rename_i log wave0 heq
        rw [heq] at hwave0
        show AlwaysCovered position.holding (finishExit _ _ _).log.trace
        rw [finishExit_log]
        refine releaseWave_covered rfl hout second hwave0.covered (hwave0.honest wave0 rfl) ?_
        intro slot hslot
        refine (hwave0.sold slot.role ?_).trans rfl
        rw [hlegs0]
        intro hmem
        obtain ⟨slot', hslot', hrole⟩ := List.mem_map.mp hmem
        exact waves_disjoint hslot' hslot hrole

end BoxEngine
