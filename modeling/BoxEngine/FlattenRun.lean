import BoxEngine.ReleaseSound
import BoxEngine.Lib.Keyed
import BoxEngine.Lib.Run
import Mathlib.Data.List.Induction

/-!
# Runs of the flatten loop

Call after call, each on what the call before left. The history keeps every pass with what it was
asked under. Residuals are told apart by the stable part of their identity.
-/

namespace BoxEngine

open Js

/-- A pass of the loop with the residual and the desk it was asked under. -/
structure FlattenEntry where
  asked : DeskedResidual
  pass : ResidualFlattenPass

def flattenEntries (keyPrefix : String) (residuals : List DeskedResidual) : List FlattenEntry :=
  let unresolved := unresolvedShorts keyPrefix residuals
  (residuals.filter fun r => r.residual.side = .sell).map
      (fun r => ⟨r, flattenOneResidual r.desk keyPrefix r.residual⟩) ++
    (residuals.filter fun r => ¬ r.residual.side = .sell).map fun r =>
      ⟨r, if unresolved.isEmpty then flattenOneResidual r.desk keyPrefix r.residual
        else heldPass unresolved r.residual⟩

variable (keyPrefix : String)

theorem flattenEntries_passes (residuals : List DeskedResidual) :
    (flattenEntries keyPrefix residuals).map FlattenEntry.pass = flattenPasses keyPrefix residuals := by
  simp only [flattenEntries, flattenPasses, shortPasses, longPasses, List.map_append, List.map_map]
  rfl

/-- The residuals that are left and every pass so far. -/
structure FlattenState where
  residuals : List ResidualLegExposure
  history : List FlattenEntry

def desked (residuals : List ResidualLegExposure) (desks : ℕ → FlattenDesk) : List DeskedResidual :=
  residuals.zipIdx.map fun entry => ⟨entry.1, desks entry.2⟩

variable (chargeTotal : ChargeTotal)

def FlattenState.call (keyPrefix : String) (s : FlattenState) (desks : ℕ → FlattenDesk) : FlattenState :=
  let asked := desked s.residuals desks
  { residuals := (flattenResidual chargeTotal keyPrefix asked).remaining
    history := s.history ++ flattenEntries keyPrefix asked }

def flattenRun (keyPrefix : String) (initial : List ResidualLegExposure)
    (calls : List (ℕ → FlattenDesk)) : FlattenState :=
  calls.foldl (FlattenState.call chargeTotal keyPrefix) ⟨initial, []⟩

theorem flattenRun_snoc (keyPrefix : String) (initial : List ResidualLegExposure)
    (calls : List (ℕ → FlattenDesk)) (desks : ℕ → FlattenDesk) :
    flattenRun chargeTotal keyPrefix initial (calls ++ [desks]) =
      (flattenRun chargeTotal keyPrefix initial calls).call chargeTotal keyPrefix desks := by
  simp [flattenRun]

/-- The ids of two attempts differ, so an order names its attempt. -/
theorem residualClientOrderId_inj {keyPrefix : String} {residual : ResidualLegExposure} {m n : ℕ} (hm : 0 < m)
    (hn : 0 < n) (h : residualClientOrderId keyPrefix residual m = residualClientOrderId keyPrefix residual n) :
    m = n := by
  have hm' : max 1 m = m := max_eq_right hm
  have hn' : max 1 n = n := max_eq_right hn
  unfold residualClientOrderId boxClientOrderId residualFlattenAttemptId firstResidualFlattenAttempt at h
  rw [hm', hn'] at h
  have hdigits : Nat.toDigits 10 m = Nat.toDigits 10 n := by
    simpa [toString, String.append_assoc, String.append_right_inj, Nat.repr, String.ofList_inj] using h
  rw [← @Nat.ofDigitChars_ten_toDigits m, hdigits, Nat.ofDigitChars_ten_toDigits]

/-! ## One residual along a run -/

def FlattenEntry.base (keyPrefix : String) (entry : FlattenEntry) : String := residualBase keyPrefix entry.asked.residual

/-- The passes of the residual with this base. -/
def passesOf (keyPrefix base : String) (history : List FlattenEntry) : List FlattenEntry :=
  history.filter fun entry => entry.base keyPrefix = base

def residualOf (keyPrefix base : String) (residuals : List ResidualLegExposure) : Option ResidualLegExposure :=
  residuals.find? fun residual => residualBase keyPrefix residual = base

/-- The pass is what the flatten makes of its residual on its desk, or a pass that was held. -/
def FlattenEntry.Sound (keyPrefix : String) (entry : FlattenEntry) : Prop :=
  entry.pass = flattenOneResidual entry.asked.desk keyPrefix entry.asked.residual ∨
    ∃ unresolved, entry.pass = heldPass unresolved entry.asked.residual

variable {entry : FlattenEntry}

theorem sound_of_mem {keyPrefix : String} {residuals : List DeskedResidual}
    (h : entry ∈ flattenEntries keyPrefix residuals) : entry.Sound keyPrefix ∧ entry.asked ∈ residuals := by
  rcases List.mem_append.mp h with h | h
  · obtain ⟨r, hr, rfl⟩ := List.mem_map.mp h
    exact ⟨.inl rfl, (List.mem_filter.mp hr).1⟩
  · obtain ⟨r, hr, rfl⟩ := List.mem_map.mp h
    refine ⟨?_, (List.mem_filter.mp hr).1⟩
    dsimp only [FlattenEntry.Sound]
    split
    · exact .inl rfl
    · exact .inr ⟨_, rfl⟩

theorem entries_perm (residuals : List DeskedResidual) :
    ((flattenEntries keyPrefix residuals).map FlattenEntry.asked).Perm residuals := by
  simp only [flattenEntries, List.map_append, List.map_map, Function.comp_def, List.map_id']
  have hnot : (fun r : DeskedResidual => decide (¬ r.residual.side = .sell)) =
      fun r => !decide (r.residual.side = .sell) := by
    funext r
    simp
  rw [hnot]
  exact List.filter_append_perm _ residuals

variable (residuals : List ResidualLegExposure)

theorem desked_residuals (desks : ℕ → FlattenDesk) :
    (desked residuals desks).map DeskedResidual.residual = residuals := by
  simp only [desked, List.map_map, Function.comp_def]
  exact List.zipIdx_map_fst ..

theorem entries_bases (desks : ℕ → FlattenDesk) :
    ((flattenEntries keyPrefix (desked residuals desks)).map (FlattenEntry.base keyPrefix)).Perm
      (residuals.map (residualBase keyPrefix)) := by
  have h := (entries_perm keyPrefix (desked residuals desks)).map fun r => residualBase keyPrefix r.residual
  rw [List.map_map] at h
  refine h.trans ?_
  have hmap : (desked residuals desks).map (fun r => residualBase keyPrefix r.residual) =
      ((desked residuals desks).map DeskedResidual.residual).map (residualBase keyPrefix) := by
    rw [List.map_map]
    rfl
  rw [hmap, desked_residuals]

theorem carryResidualForward_base (residual : ResidualLegExposure) (quantity : ℚ) (held : 0 < quantity) (attempt : ℕ)
    (disposition : ResidualFlattenDisposition) (accounting : ResidualFlattenAccounting)
    (failure : Option ResidualFlattenFailureKind) :
    residualBase keyPrefix
        (carryResidualForward residual quantity held attempt disposition accounting failure) =
      residualBase keyPrefix residual := rfl

theorem carryPass_base {chargeTotal : ChargeTotal} {keyPrefix : String} {pass : ResidualFlattenPass}
    {residual : ResidualLegExposure} (h : carryPass chargeTotal keyPrefix pass = some residual) :
    residualBase keyPrefix residual = residualBase keyPrefix pass.residual := by
  unfold carryPass at h
  dsimp only at h
  split at h
  · split at h
    · cases h
      exact carryResidualForward_base ..
    · cases h
  · cases h

theorem FlattenEntry.Sound.residual {keyPrefix : String} (h : entry.Sound keyPrefix) :
    entry.pass.residual = entry.asked.residual := by
  rcases h with h | ⟨unresolved, h⟩
  · rw [h]
    exact (flattenOne_about entry.asked).1
  · rw [h]
    rfl

theorem probeAttempts_le (find : String → Except Unit (Option BoxOrderIntent)) (idOf : ℕ → String)
    (fuel attempt : ℕ) : attempt ≤ (probeAttempts find idOf fuel attempt).attempt := by
  induction fuel generalizing attempt with
  | zero => exact le_refl attempt
  | succ fuel ih =>
    unfold probeAttempts
    split
    · exact le_refl attempt
    · exact le_refl attempt
    · split
      · split
        · exact (Nat.le_succ attempt).trans (ih (attempt + 1))
        · exact le_refl attempt
      · split <;> exact le_refl attempt

theorem FlattenEntry.Sound.attempt_le {keyPrefix : String} (h : entry.Sound keyPrefix) :
    residualFlattenAttempt entry.asked.residual ≤ entry.pass.attempt := by
  rcases h with h | ⟨unresolved, h⟩
  · rw [h, (flattenOne_about entry.asked).2.1]
    unfold selectedAttempt firstAdoptableResidualAttempt
    split
    · exact le_refl _
    · exact probeAttempts_le ..
  · rw [h]
    exact le_refl _

/-! ## One call -/

section

variable {chargeTotal : ChargeTotal} {keyPrefix : String} {s : FlattenState} {desks : ℕ → FlattenDesk}

/-- No two residuals share a base. -/
def Distinct (keyPrefix : String) (residuals : List ResidualLegExposure) : Prop :=
  (residuals.map (residualBase keyPrefix)).Nodup

theorem entries_distinct (h : Distinct keyPrefix s.residuals) :
    ((flattenEntries keyPrefix (desked s.residuals desks)).map (FlattenEntry.base keyPrefix)).Nodup :=
  (entries_bases keyPrefix s.residuals desks).nodup_iff.mpr h

theorem call_remaining : (s.call chargeTotal keyPrefix desks).residuals =
    (flattenEntries keyPrefix (desked s.residuals desks)).filterMap
      fun entry => carryPass chargeTotal keyPrefix entry.pass := by
  show (flattenPasses keyPrefix _).filterMap _ = _
  rw [← flattenEntries_passes, List.filterMap_map]
  rfl

theorem carried_base {chargeTotal : ChargeTotal} : ∀ entry ∈ flattenEntries keyPrefix (desked s.residuals desks),
    ∀ residual, carryPass chargeTotal keyPrefix entry.pass = some residual →
      residualBase keyPrefix residual = entry.base keyPrefix := by
  intro entry hentry residual h
  rw [carryPass_base h, (sound_of_mem hentry).1.residual]
  rfl

theorem call_distinct (h : Distinct keyPrefix s.residuals) :
    Distinct keyPrefix (s.call chargeTotal keyPrefix desks).residuals := by
  unfold Distinct
  rw [call_remaining]
  exact (Keyed.sublist_filterMap carried_base).nodup (entries_distinct h)

theorem passesOf_call (base : String) : passesOf keyPrefix base (s.call chargeTotal keyPrefix desks).history =
    passesOf keyPrefix base s.history ++
      passesOf keyPrefix base (flattenEntries keyPrefix (desked s.residuals desks)) :=
  List.filter_append _ _

theorem residualOf_call (base : String) : residualOf keyPrefix base (s.call chargeTotal keyPrefix desks).residuals =
    ((passesOf keyPrefix base (flattenEntries keyPrefix (desked s.residuals desks))).filterMap
      fun entry => carryPass chargeTotal keyPrefix entry.pass).head? := by
  unfold residualOf
  rw [call_remaining]
  exact Keyed.find?_filterMap carried_base base

theorem call_of_some (h : Distinct keyPrefix s.residuals) {base : String} {residual : ResidualLegExposure}
    (hresidual : residualOf keyPrefix base s.residuals = some residual) :
    ∃ entry : FlattenEntry, entry.Sound keyPrefix ∧ entry.asked.residual = residual ∧
      passesOf keyPrefix base (s.call chargeTotal keyPrefix desks).history =
        passesOf keyPrefix base s.history ++ [entry] ∧
      residualOf keyPrefix base (s.call chargeTotal keyPrefix desks).residuals =
        carryPass chargeTotal keyPrefix entry.pass := by
  have hmem := List.mem_of_find?_eq_some hresidual
  have hbase : residualBase keyPrefix residual = base := by simpa using List.find?_some hresidual
  have hasked : residual ∈ ((flattenEntries keyPrefix (desked s.residuals desks)).map FlattenEntry.asked).map
      DeskedResidual.residual := by
    rw [((entries_perm keyPrefix (desked s.residuals desks)).map DeskedResidual.residual).mem_iff, desked_residuals]
    exact hmem
  simp only [List.map_map, List.mem_map, Function.comp_apply] at hasked
  obtain ⟨entry, hentry, hentryResidual⟩ := hasked
  have hkey : entry.base keyPrefix = base := by rw [FlattenEntry.base, hentryResidual, hbase]
  have hpasses : passesOf keyPrefix base (flattenEntries keyPrefix (desked s.residuals desks)) = [entry] := by
    rw [← hkey]
    exact Keyed.filter_of_mem (entries_distinct h) hentry
  refine ⟨entry, (sound_of_mem hentry).1, hentryResidual, ?_, ?_⟩
  · rw [passesOf_call, hpasses]
  · rw [residualOf_call, hpasses]
    cases hcarry : carryPass chargeTotal keyPrefix entry.pass <;> simp [hcarry]

theorem call_of_none {base : String} (hnone : residualOf keyPrefix base s.residuals = none) :
    passesOf keyPrefix base (s.call chargeTotal keyPrefix desks).history = passesOf keyPrefix base s.history ∧
      residualOf keyPrefix base (s.call chargeTotal keyPrefix desks).residuals = none := by
  have hkey : base ∉ (flattenEntries keyPrefix (desked s.residuals desks)).map (FlattenEntry.base keyPrefix) := by
    rw [(entries_bases keyPrefix s.residuals desks).mem_iff]
    intro hmem
    obtain ⟨residual, hresidual, rfl⟩ := List.mem_map.mp hmem
    simpa using List.find?_eq_none.mp hnone residual hresidual
  have hpasses : passesOf keyPrefix base (flattenEntries keyPrefix (desked s.residuals desks)) = [] :=
    Keyed.filter_of_not_mem hkey
  rw [passesOf_call, residualOf_call, hpasses, List.append_nil]
  exact ⟨rfl, rfl⟩

end

/-- The property holds of the residual with this base and of its passes. -/
def TrackedAt (keyPrefix base : String) (P : ResidualLegExposure → List FlattenEntry → Prop)
    (Q : List FlattenEntry → Prop) (s : FlattenState) : Prop :=
  match residualOf keyPrefix base s.residuals with
  | some residual => P residual (passesOf keyPrefix base s.history)
  | none => Q (passesOf keyPrefix base s.history)

section

variable {chargeTotal : ChargeTotal} {keyPrefix : String} {initial : List ResidualLegExposure}

theorem run_distinct (h : Distinct keyPrefix initial) (calls : List (ℕ → FlattenDesk)) :
    Distinct keyPrefix (flattenRun chargeTotal keyPrefix initial calls).residuals := by
  induction calls using List.reverseRecOn with
  | nil => exact h
  | append_singleton calls desks ih =>
    rw [flattenRun_snoc]
    exact call_distinct ih

/-- What one call keeps of a residual and its passes, every run keeps. -/
theorem run_tracked (hdistinct : Distinct keyPrefix initial) {P : ResidualLegExposure → List FlattenEntry → Prop}
    {Q : List FlattenEntry → Prop} {ok : List FlattenEntry → Prop}
    (hok : ∀ past entry, ok (past ++ [entry]) → ok past)
    (hstep : ∀ residual past entry, P residual past → entry.Sound keyPrefix → entry.asked.residual = residual →
      ok (past ++ [entry]) →
        (∀ next, carryPass chargeTotal keyPrefix entry.pass = some next → P next (past ++ [entry])) ∧
        (carryPass chargeTotal keyPrefix entry.pass = none → Q (past ++ [entry])))
    {first : ResidualLegExposure} (hfirst : first ∈ initial) (hP : P first []) (calls : List (ℕ → FlattenDesk))
    (hcalls : ok (passesOf keyPrefix (residualBase keyPrefix first)
      (flattenRun chargeTotal keyPrefix initial calls).history)) :
    TrackedAt keyPrefix (residualBase keyPrefix first) P Q (flattenRun chargeTotal keyPrefix initial calls) := by
  induction calls using List.reverseRecOn with
  | nil =>
    have hfind : residualOf keyPrefix (residualBase keyPrefix first) initial = some first :=
      Keyed.find?_of_mem hdistinct hfirst
    show TrackedAt _ _ P Q ⟨initial, []⟩
    unfold TrackedAt
    rw [hfind]
    exact hP
  | append_singleton calls desks ih =>
    rw [flattenRun_snoc] at hcalls ⊢
    set s := flattenRun chargeTotal keyPrefix initial calls with hs
    unfold TrackedAt at ih ⊢
    cases hresidual : residualOf keyPrefix (residualBase keyPrefix first) s.residuals with
    | none =>
      obtain ⟨hpasses, hnext⟩ := @call_of_none chargeTotal keyPrefix s desks _ hresidual
      rw [hpasses] at hcalls
      have hold := ih hcalls
      rw [hresidual] at hold
      rw [hnext, hpasses]
      exact hold
    | some residual =>
      obtain ⟨entry, hsound, hasked, hpasses, hnext⟩ :=
        @call_of_some chargeTotal keyPrefix s desks (run_distinct hdistinct calls) _ _ hresidual
      rw [hpasses] at hcalls
      have hold := ih (hok _ _ hcalls)
      rw [hresidual] at hold
      obtain ⟨hsome, hnone⟩ := hstep residual _ entry hold hsound hasked hcalls
      rw [hnext, hpasses]
      cases hcarry : carryPass chargeTotal keyPrefix entry.pass with
      | none => exact hnone hcarry
      | some next => exact hsome next hcarry

end

theorem shortResidual_held : (0 : ℚ) < 75 := by norm_num

def shortResidual : ResidualLegExposure := legResidual .k2Ce .sell 75 shortResidual_held none none

def partialDesk : FlattenDesk :=
  openDesk none (.ok (brokerOrderFromDurableIntent (legIntent .cancelled .k2Ce .buy 75 50)))

def partialEntry : FlattenEntry :=
  ⟨⟨shortResidual, partialDesk⟩, flattenOneResidual partialDesk "T1" shortResidual⟩

end BoxEngine
