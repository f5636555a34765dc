import BoxEngine.OperatorConfig

/-!
# A deployment bound is absolute

Resolver and gate are read in one strict order of values, so that what the one clamps the other refuses.
-/

namespace BoxEngine

namespace OperatorConfig

open Js

/-! ## Stricter values -/

def Stricter (spec : SettingSpec) : SettingValue → SettingValue → Prop
  | .boolean a, .boolean b =>
    (spec.safeDirection = .enabledIsSafer ∧ a = true ∧ b = false) ∨
      (spec.safeDirection = .disabledIsSafer ∧ a = false ∧ b = true)
  | .number a, .number b =>
    (spec.safeDirection = .lowerIsSafer ∧ toComparable a spec.zeroMeans < toComparable b spec.zeroMeans) ∨
      (spec.safeDirection = .higherIsSafer ∧ toComparable b spec.zeroMeans < toComparable a spec.zeroMeans)
  | _, _ => False

/-- One of the two is a 0 that might be the strictest value and might be the loosest. -/
def Ambiguous (spec : SettingSpec) : SettingValue → SettingValue → Prop
  | .number a, .number b => spec.zeroMeans = some .disabled ∧ (a = .fin 0 ∨ b = .fin 0)
  | _, _ => False

def Comparable : SettingValue → SettingValue → Prop
  | .boolean _, .boolean _ => True
  | .number _, .number _ => True
  | _, _ => False

variable {spec : SettingSpec} {a b c e r v : SettingValue}

theorem stricter_irrefl (spec : SettingSpec) (a : SettingValue) : ¬ Stricter spec a a := by
  cases a with
  | boolean b => cases b <;> simp [Stricter]
  | number n => simp [Stricter, Number.lt_irrefl]
  | text s => simp [Stricter]

theorem Stricter.trans (hab : Stricter spec a b) (hbc : Stricter spec b c) : Stricter spec a c := by
  cases a with
  | boolean x =>
    cases b <;> cases c <;> simp only [Stricter] at hab hbc ⊢
    rcases hab with ⟨_, _, hy⟩ | ⟨_, _, hy⟩ <;> rcases hbc with ⟨_, hy', _⟩ | ⟨_, hy', _⟩ <;> simp_all
  | number x =>
    cases b <;> cases c <;> simp only [Stricter] at hab hbc ⊢
    rcases hab with ⟨hdir, hxy⟩ | ⟨hdir, hxy⟩
    · rcases hbc with ⟨_, hyz⟩ | ⟨hdir', _⟩
      · exact .inl ⟨hdir, Number.lt_trans hxy hyz⟩
      · simp [hdir] at hdir'
    · rcases hbc with ⟨hdir', _⟩ | ⟨_, hyz⟩
      · simp [hdir] at hdir'
      · exact .inr ⟨hdir, Number.lt_trans hyz hxy⟩
  | text s => simp [Stricter] at hab

theorem isSafer_iff : isSafer spec a b = true ↔ Stricter spec b a ∧ ¬ Ambiguous spec a b := by
  cases a with
  | boolean x =>
    cases b with
    | boolean y => cases hdir : spec.safeDirection <;> simp [isSafer, Stricter, Ambiguous, hdir]
    | _ => simp [isSafer, Stricter]
  | number x =>
    cases b with
    | number y =>
      by_cases hzero : spec.zeroMeans = some .disabled ∧ (x = .fin 0 ∨ y = .fin 0)
      · simp [isSafer, Ambiguous, zeroDirectionIsAmbiguous, hzero]
      · cases hdir : spec.safeDirection <;> simp [isSafer, Stricter, Ambiguous, zeroDirectionIsAmbiguous, hzero, hdir]
    | _ => simp [isSafer, Stricter]
  | text s => simp [isSafer, Stricter]

theorem SettingValue.eq_of_same (h : a.same b = true) : a = b := by
  cases a <;> cases b <;> simp_all [SettingValue.same]

theorem Ambiguous.split (h : Ambiguous spec a c) (hab : Comparable a b) (hac : Comparable a c) :
    Ambiguous spec a b ∨ Ambiguous spec b c := by
  cases a <;> cases b <;> cases c <;> simp_all [Ambiguous, Comparable]
  tauto

section Space

variable {x y : Number} {z : Option ZeroMeaning}

theorem toComparable_cases (x : Number) (z : Option ZeroMeaning) :
    toComparable x z = x ∨ (x = .fin 0 ∧ toComparable x z = .posInf) := by
  unfold toComparable
  split
  · rename_i h
    exact .inr ⟨h.1, rfl⟩
  · exact .inl rfl

theorem toComparable_ne_nan (h : x.isFinite = true) : toComparable x z ≠ .nan := by
  rcases toComparable_cases x z with hx | ⟨-, hx⟩
  · rw [hx]
    rintro rfl
    exact Bool.noConfusion h
  · rw [hx]
    exact Number.noConfusion

theorem toComparable_inj (hx : x.isFinite = true) (hy : y.isFinite = true) (h : toComparable x z = toComparable y z) :
    x = y := by
  rcases toComparable_cases x z with hx' | ⟨rfl, hx'⟩ <;> rcases toComparable_cases y z with hy' | ⟨rfl, hy'⟩
  · rw [← hx', h, hy']
  · rw [hx', hy'] at h
    rw [h] at hx
    exact Bool.noConfusion hx
  · rw [hx', hy'] at h
    rw [← h] at hy
    exact Bool.noConfusion hy
  · rfl

theorem fromComparable_toComparable (h : x ≠ .posInf ∨ z = none) : fromComparable (toComparable x z) z = x := by
  by_cases hz : z = some .unlimited ∨ z = some .disabled
  · have hx : x ≠ .posInf := h.resolve_right (by rintro rfl; simp at hz)
    by_cases hzero : x = .fin 0 <;> simp [toComparable, fromComparable, hz, hzero, hx]
  · simp [toComparable, fromComparable, hz]

end Space

/-! ## Values in bounds -/

def InBounds (spec : SettingSpec) : SettingValue → Prop
  | .boolean _ => spec.type = .boolean
  | .number n =>
    (spec.type = .integer ∨ spec.type = .number) ∧ n.isFinite = true ∧ belowMin spec n = none ∧ aboveMax spec n = none
  | .text s => spec.type = .enum ∧ s ∈ spec.enumValues.getD []

theorem InBounds.of_validateOne {raw : RawValue} (h : validateOne spec raw = .ok v) : InBounds spec v := by
  unfold validateOne at h
  split at h
  · cases h
  split at h
  · rename_i htype
    split at h <;> cases h
    exact htype
  · rename_i htype
    split at h
    · split at h <;> cases h
      exact ⟨htype, ‹_›⟩
    · cases h
  · rename_i hbool henum
    split at h
    · rename_i n _
      by_cases hfin : n.isFinite
      · rw [if_neg (by simpa using hfin)] at h
        split at h
        · cases h
        split at h
        · cases h
        split at h <;> cases h
        refine ⟨?_, hfin, ‹_›, ‹_›⟩
        cases htype : spec.type <;> simp_all
      · rw [if_pos (by simpa using hfin)] at h
        cases h
    · cases h

theorem InBounds.same_iff (h : InBounds spec a) : a.same b = true ↔ a = b := by
  cases a with
  | number n =>
    have hne : n ≠ .nan := by
      rintro rfl
      exact Bool.noConfusion h.2.1
    cases b <;> simp [SettingValue.same, hne]
  | _ => simp [SettingValue.same]

theorem InBounds.comparable (hspec : spec.Contained) (ha : InBounds spec a) (hb : InBounds spec b) : Comparable a b := by
  cases a <;> cases b <;> simp_all [SettingSpec.Contained, InBounds, Comparable]

theorem InBounds.eq_of_not_stricter (hspec : spec.Contained) (ha : InBounds spec a) (hb : InBounds spec b)
    (hab : ¬ Stricter spec a b) (hba : ¬ Stricter spec b a) : a = b := by
  cases a with
  | boolean x =>
    cases b with
    | boolean y =>
      rcases hspec with ⟨-, hdir⟩ | ⟨htype, -⟩
      · cases x <;> cases y <;> rcases hdir with hdir | hdir <;> simp_all [Stricter]
      · simp_all [InBounds]
    | _ => simp_all [SettingSpec.Contained, InBounds]
  | number x =>
    cases b with
    | number y =>
      refine congrArg _ (@toComparable_inj _ _ spec.zeroMeans ha.2.1 hb.2.1 (Number.eq_of_not_lt ?_ ?_ ?_ ?_))
      · exact toComparable_ne_nan ha.2.1
      · exact toComparable_ne_nan hb.2.1
      all_goals
        intro hlt
        rcases hspec with ⟨htype, -⟩ | ⟨-, ⟨-, hdir⟩ | ⟨-, hdir, -⟩⟩ <;> simp_all [InBounds, Stricter]
    | _ => simp_all [SettingSpec.Contained, InBounds]
  | text s => simp_all [SettingSpec.Contained, InBounds]

/-! ## Overshooting the bound, and composing with it -/

theorem overshoots_iff (hspec : spec.Contained) (hbound : spec.containment ≠ .replace) (he : InBounds spec e) :
    overshootsDeploymentBound spec e r = true ↔
      e ≠ r ∧ (¬ Comparable e r ∨ Ambiguous spec e r ∨ Stricter spec e r) := by
  unfold overshootsDeploymentBound
  rw [if_neg hbound]
  by_cases hsame : e = r
  · rw [if_pos (he.same_iff.mpr hsame)]
    simp [hsame]
  rw [if_neg (fun h => hsame (he.same_iff.mp h))]
  cases e with
  | boolean x =>
    cases r with
    | boolean y =>
      rcases hspec with ⟨-, hdir | hdir⟩ | ⟨htype, -⟩
      · cases x <;> cases y <;> simp_all [Stricter, Comparable, Ambiguous]
      · cases x <;> cases y <;> simp_all [Stricter, Comparable, Ambiguous]
      · simp_all [InBounds]
    | _ => simp [Comparable]
  | number x =>
    cases r with
    | number y =>
      by_cases hzero : spec.zeroMeans = some .disabled ∧ (x = .fin 0 ∨ y = .fin 0)
      · simp [Ambiguous, hzero, hsame]
      · rcases hspec with ⟨htype, -⟩ | ⟨-, ⟨hcont, hdir⟩ | ⟨hcont, hdir, -⟩⟩
        · simp_all [InBounds]
        · simp_all [Stricter, Comparable, Ambiguous]
        · simp_all [Stricter, Comparable, Ambiguous]
    | _ => simp [Comparable]
  | text s => simp_all [SettingSpec.Contained, InBounds]

theorem Stricter.ne_zero (hspec : spec.Contained) {x y : Number} (hx : InBounds spec (.number x))
    (h : Stricter spec (.number y) (.number x)) (hzero : spec.zeroMeans = some .disabled) : y ≠ .fin 0 := by
  rintro rfl
  rcases hspec with ⟨htype, -⟩ | ⟨-, ⟨-, hdir⟩ | ⟨-, -, hnone⟩⟩
  · simp_all [InBounds]
  · simp only [Stricter, hdir] at h
    have hlt := (h.resolve_right (by simp)).2
    refine Number.ne_posInf_of_lt hlt ?_
    simp [toComparable, hzero]
  · simp [hnone] at hzero

theorem not_stricter_nan (x : Number) : ¬ Stricter spec (.number x) (.number .nan) := by
  have hnan : toComparable .nan spec.zeroMeans = .nan := by simp [toComparable]
  rintro (⟨-, h⟩ | ⟨-, h⟩) <;> rw [hnan] at h
  · exact Number.not_lt_nan _ h
  · exact Number.not_nan_lt _ h

theorem composeNumber_cases (hspec : spec.Contained) {x : Number} (hx : InBounds spec (.number x))
    (hzero : ¬ (spec.zeroMeans = some .disabled ∧ x = .fin 0)) (y : Number) :
    (composeNumber spec.containment spec.zeroMeans x y = y ∧ y = .nan) ∨
      (composeNumber spec.containment spec.zeroMeans x y = y ∧ Stricter spec (.number y) (.number x)) ∨
      (composeNumber spec.containment spec.zeroMeans x y = x ∧ ¬ Stricter spec (.number y) (.number x)) := by
  have hnan : toComparable x spec.zeroMeans ≠ .nan := toComparable_ne_nan hx.2.1
  have hinf : x ≠ .posInf := by
    rintro rfl
    exact Bool.noConfusion hx.2.1
  have hof : toComparable y spec.zeroMeans = .nan → y = .nan := by
    intro h
    rcases toComparable_cases y spec.zeroMeans with hy | ⟨-, hy⟩ <;> rw [hy] at h
    · exact h
    · exact Number.noConfusion h
  have hamb : ¬ (zeroDirectionIsAmbiguous spec.zeroMeans = true ∧ x = .fin 0) := by
    simpa [zeroDirectionIsAmbiguous] using hzero
  unfold composeNumber
  rw [if_neg hamb]
  rcases hspec with ⟨htype, -⟩ | ⟨-, ⟨hcont, hdir⟩ | ⟨hcont, hdir, hnone⟩⟩
  · simp_all [InBounds]
  · simp only [if_pos hcont]
    rcases Number.min_cases (toComparable x spec.zeroMeans) (toComparable y spec.zeroMeans) with h | h | h <;> rw [h.1]
    · have hy := hof (h.2.resolve_left hnan)
      exact .inl ⟨by simp [hy, fromComparable], hy⟩
    · refine .inr (.inl ⟨fromComparable_toComparable (.inl ?_), .inl ⟨hdir, h.2⟩⟩)
      rintro rfl
      exact Number.ne_posInf_of_lt h.2 rfl
    · refine .inr (.inr ⟨fromComparable_toComparable (.inl hinf), ?_⟩)
      simpa [Stricter, hdir] using h.2
  · simp only [if_neg (show ¬ spec.containment = .ceiling by simp [hcont])]
    rcases Number.max_cases (toComparable x spec.zeroMeans) (toComparable y spec.zeroMeans) with h | h | h <;> rw [h.1]
    · have hy := hof (h.2.resolve_left hnan)
      exact .inl ⟨by simp [hy, fromComparable], hy⟩
    · exact .inr (.inl ⟨fromComparable_toComparable (.inr hnone), .inr ⟨hdir, h.2⟩⟩)
    · refine .inr (.inr ⟨fromComparable_toComparable (.inl hinf), ?_⟩)
      simpa [Stricter, hdir] using h.2

theorem composeValue_cases (hspec : spec.Contained) (he : InBounds spec e) (v : SettingValue) :
    (composeValue spec e v = e ∧ (Comparable e v → ¬ Ambiguous spec e v → ¬ Stricter spec v e)) ∨
      (composeValue spec e v = v ∧ Comparable e v ∧ ¬ Ambiguous spec e v ∧ ¬ Stricter spec e v) := by
  cases e with
  | boolean x =>
    cases v with
    | boolean y =>
      rcases hspec with ⟨-, hdir⟩ | ⟨htype, -⟩
      · rcases hdir with hdir | hdir <;> cases x <;> cases y <;>
          simp [composeValue, composeBoolean, Stricter, Comparable, Ambiguous, hdir]
      · simp_all [InBounds]
    | _ => exact .inl ⟨rfl, False.elim⟩
  | number x =>
    cases v with
    | number y =>
      by_cases hzero : spec.zeroMeans = some .disabled ∧ x = .fin 0
      · refine .inl ⟨?_, fun _ h => absurd ⟨hzero.1, .inl hzero.2⟩ h⟩
        simp [composeValue, composeNumber, zeroDirectionIsAmbiguous, hzero]
      have hclear : y ≠ .fin 0 ∨ spec.zeroMeans ≠ some .disabled → ¬ Ambiguous spec (.number x) (.number y) := by
        rintro hy ⟨hdis, hx | hx⟩
        · exact hzero ⟨hdis, hx⟩
        · exact hy.elim (· hx) (· hdis)
      rcases composeNumber_cases hspec he hzero y with ⟨h, rfl⟩ | ⟨h, hlt⟩ | ⟨h, hlt⟩
      · exact .inr ⟨congrArg _ h, trivial, hclear (.inl Number.noConfusion), not_stricter_nan x⟩
      · refine .inr ⟨congrArg _ h, trivial, hclear ?_, fun hback => stricter_irrefl _ _ (hlt.trans hback)⟩
        exact or_iff_not_imp_right.mpr fun hdis => hlt.ne_zero hspec he (not_not.mp hdis)
      · exact .inl ⟨congrArg _ h, fun _ _ => hlt⟩
    | _ => exact .inl ⟨rfl, False.elim⟩
  | text s => simp_all [SettingSpec.Contained, InBounds]

/-! ## The value in force -/

theorem overshoots_compose (hspec : spec.Contained) (hbound : spec.containment ≠ .replace) (he : InBounds spec e)
    (v : SettingValue) : overshootsDeploymentBound spec e (composeValue spec e v) = false := by
  rw [← Bool.not_eq_true, overshoots_iff hspec hbound he]
  rintro ⟨hne, hover⟩
  rcases composeValue_cases hspec he v with ⟨h, -⟩ | ⟨h, hcomp, hamb, hnot⟩
  · exact hne h.symm
  · rw [h] at hover
    rcases hover with hover | hover | hover
    · exact hover hcomp
    · exact hamb hover
    · exact hnot hover

theorem same_compose_iff (hspec : spec.Contained) (hbound : spec.containment ≠ .replace) (he : InBounds spec e)
    (hr : InBounds spec r) : composeValue spec e r = r ↔ overshootsDeploymentBound spec e r = false := by
  constructor
  · intro h
    rw [← h]
    exact overshoots_compose hspec hbound he r
  · intro h
    rw [← Bool.not_eq_true, overshoots_iff hspec hbound he] at h
    have hcomp := he.comparable hspec hr
    rcases composeValue_cases hspec he r with ⟨hcompose, hnot⟩ | ⟨hcompose, -⟩
    · by_contra hne
      have her : e ≠ r := fun heq => hne (hcompose.trans heq)
      have hamb : ¬ Ambiguous spec e r := fun hamb => h ⟨her, .inr (.inl hamb)⟩
      have hstrict : ¬ Stricter spec e r := fun hstrict => h ⟨her, .inr (.inr hstrict)⟩
      exact her (he.eq_of_not_stricter hspec hr hstrict (hnot hcomp hamb))
    · exact hcompose

theorem safer_compose (hspec : spec.Contained) (he : InBounds spec e) (v : SettingValue) :
    isSafer spec (composeValue spec e v) e = false := by
  rw [← Bool.not_eq_true, isSafer_iff]
  rintro ⟨hsafer, -⟩
  rcases composeValue_cases hspec he v with ⟨h, -⟩ | ⟨h, -, -, hnot⟩ <;> rw [h] at hsafer
  · exact stricter_irrefl spec e hsafer
  · exact hnot hsafer

theorem widening_of_overshoots (hspec : spec.Contained) (hbound : spec.containment ≠ .replace) (he : InBounds spec e)
    (hr : InBounds spec r) (hover : overshootsDeploymentBound spec e r = true) (v : SettingValue) :
    isSafer spec (composeValue spec e v) r = false ∧ (composeValue spec e v).same r = false := by
  constructor
  · rw [← Bool.not_eq_true, isSafer_iff]
    rintro ⟨hsafer, hclear⟩
    obtain ⟨-, hout⟩ := (overshoots_iff hspec hbound he).mp hover
    have hcomp := he.comparable hspec hr
    rcases composeValue_cases hspec he v with ⟨h, -⟩ | ⟨h, hcomp', hamb, hnot⟩ <;> rw [h] at hsafer hclear
    · rcases hout with hout | hout | hout
      · exact hout hcomp
      · exact hclear hout
      · exact stricter_irrefl spec e (hout.trans hsafer)
    · rcases hout with hout | hout | hout
      · exact hout hcomp
      · rcases hout.split hcomp' hcomp with hout | hout
        · exact hamb hout
        · exact hclear hout
      · exact hnot (hout.trans hsafer)
  · rw [← Bool.not_eq_true]
    intro hsame
    have heq := SettingValue.eq_of_same hsame
    have hwithin := overshoots_compose hspec hbound he v
    rw [heq, hover] at hwithin
    exact Bool.noConfusion hwithin

variable {state : SystemState}

theorem code_of_notFlat {b : Blocker} (h : b ∈ notFlatBlockers state) : b.code ≠ "deployment_bound" := by
  simp only [notFlatBlockers, List.mem_append] at h
  rcases h with (((h | h) | h) | h) | h <;> split at h <;> simp_all

theorem deploymentBound_iff {current : SettingValue} :
    (∃ b ∈ mutationBlockers spec current r state (some e), b.code = "deployment_bound") ↔
      isSafer spec current r = false ∧ current.same r = false ∧ overshootsDeploymentBound spec e r = true := by
  constructor
  · rintro ⟨b, hb, hcode⟩
    simp only [mutationBlockers, List.mem_append] at hb
    rcases hb with ((hb | hb) | hb) | hb
    · split at hb <;> simp_all
    · split at hb
      · rename_i hover
        simpa [and_assoc] using hover
      · cases hb
    · split at hb
      · split at hb <;> simp_all
      · cases hb
    · exfalso
      split at hb
      · rcases List.mem_append.mp hb with hb | hb
        · split at hb <;> simp_all
        · exact code_of_notFlat hb hcode
      · split at hb
        · rcases List.mem_cons.mp hb with rfl | hb
          · simp at hcode
          · split at hb
            · exact code_of_notFlat hb hcode
            · cases hb
        · cases hb
      · cases hb
  · rintro ⟨hsafer, hsame, hover⟩
    refine ⟨⟨"deployment_bound", deploymentBoundMessage spec e⟩, ?_, rfl⟩
    simp only [mutationBlockers, List.mem_append]
    refine .inl (.inl (.inr ?_))
    simp [hsafer, hsame, hover]

theorem mem_validateKeys {specs : List SettingSpec} {key : String} (patch : List (String × RawValue)) :
    ∀ {found : List ValidationProblem × List (String × SettingValue)},
      (key, v) ∈ (validateKeys specs patch found).2 →
        (key, v) ∈ found.2 ∨ ∃ raw, validateKey specs key raw = .ok v := by
  induction patch with
  | nil => exact fun h => .inl h
  | cons entry patch ih =>
    obtain ⟨key', raw⟩ := entry
    rintro ⟨problems, values⟩ h
    unfold validateKeys at h
    cases hkey : validateKey specs key' raw with
    | ok value =>
      simp only [hkey] at h
      rcases ih h with h | h
      · rcases Keyed.mem_put h with heq | h
        · cases heq
          exact .inr ⟨raw, hkey⟩
        · exact .inl h
      · exact .inr h
    | error problem =>
      simp only [hkey] at h
      rcases ih h with h | h
      · exact .inl h
      · exact .inr h

theorem inBounds_of_validatePatch {patch : List (String × RawValue)} {values : List (String × SettingValue)}
    (hspec : spec ∈ OPERATOR_SETTINGS) (h : validatePatch patch OPERATOR_SETTINGS = .ok values)
    (hr : (spec.key, r) ∈ values) : InBounds spec r := by
  unfold validatePatch at h
  split at h
  · cases h
  have hfound : values = (validateKeys OPERATOR_SETTINGS patch ([], [])).2 := by
    split at h <;> cases h
    rename_i hkeys
    rw [hkeys]
  rw [hfound] at hr
  obtain ⟨raw, hkey⟩ := (mem_validateKeys patch hr).resolve_left List.not_mem_nil
  have hnodup : (OPERATOR_SETTINGS.reverse.map SettingSpec.key).Nodup := by
    rw [List.map_reverse]
    exact List.nodup_reverse.mpr nodup_keys
  have hfind := Keyed.find?_of_mem hnodup (List.mem_reverse.mpr hspec)
  unfold validateKey at hkey
  rw [hfind] at hkey
  simp only [if_neg (mutable_of_mem spec hspec)] at hkey
  exact InBounds.of_validateOne hkey

/-! ## The bound -/

def MutationDecision.Refuses (code : String) : MutationDecision → Prop
  | .allowed _ _ => False
  | .refused blockers => ∃ b ∈ blockers, b.code = code

theorem refuses_iff {current : SettingValue} (hspec : spec.policy ≠ .restartRequired) :
    (evaluateMutation spec current r state (some e)).Refuses "deployment_bound" ↔
      isSafer spec current r = false ∧ current.same r = false ∧ overshootsDeploymentBound spec e r = true := by
  rw [← deploymentBound_iff]
  unfold evaluateMutation
  rw [if_neg hspec]
  cases mutationBlockers spec current r state (some e) <;> simp [MutationDecision.Refuses]

def resolved (spec : SettingSpec) (codeDefault e : SettingValue) (runtimePresent : Bool)
    (runtimeValue : Option SettingValue) : ResolvedSetting :=
  resolveSetting spec codeDefault ⟨true, some e, runtimePresent, runtimeValue⟩

theorem resolved_cases (hbound : spec.containment ≠ .replace) (codeDefault e : SettingValue) (present : Bool)
    (runtime : Option SettingValue) :
    ((∀ v, ¬ (present = true ∧ runtime = some v)) ∧ (resolved spec codeDefault e present runtime).effective = e) ∨
      ∃ v, present = true ∧ runtime = some v ∧
        (resolved spec codeDefault e present runtime).effective = composeValue spec e v ∧
        (resolved spec codeDefault e present runtime).clampedByDeployment = !(composeValue spec e v).same v := by
  cases present with
  | false => exact .inl ⟨by simp, rfl⟩
  | true =>
    cases runtime with
    | none => exact .inl ⟨by simp, rfl⟩
    | some v =>
      refine .inr ⟨v, rfl, rfl, ?_⟩
      simp [resolved, resolveSetting, hbound]

theorem clamped_iff (hspec : spec.Contained) (hbound : spec.containment ≠ .replace) (he : InBounds spec e)
    (hr : InBounds spec r) (codeDefault : SettingValue) :
    (resolved spec codeDefault e true (some r)).clampedByDeployment = true ↔
      overshootsDeploymentBound spec e r = true := by
  obtain ⟨hnone, -⟩ | ⟨v, -, hv, -, hclamped⟩ := resolved_cases hbound codeDefault e true (some r)
  · exact absurd ⟨rfl, rfl⟩ (hnone r)
  cases hv
  have hsame : (composeValue spec e r).same r = true ↔ overshootsDeploymentBound spec e r = false := by
    rw [← same_compose_iff hspec hbound he hr]
    refine ⟨SettingValue.eq_of_same, ?_⟩
    intro h
    rw [h, hr.same_iff]
  rw [hclamped, Bool.not_eq_true', ← Bool.not_eq_true, hsame, Bool.not_eq_false]

/-- The value in force is never less safe than the deployment's, and a change is refused where it would be clamped. -/
theorem bound_absolute (hspec : spec ∈ OPERATOR_SETTINGS) (hbound : spec.containment ≠ .replace)
    (he : InBounds spec e) (codeDefault : SettingValue) (present : Bool) (runtime : Option SettingValue) :
    isSafer spec (resolved spec codeDefault e present runtime).effective e = false ∧
    (∀ v, present = true → runtime = some v →
      (resolved spec codeDefault e present runtime).clampedByDeployment = false →
        (resolved spec codeDefault e present runtime).effective = v) ∧
    ∀ patch values r state, validatePatch patch OPERATOR_SETTINGS = .ok values → (spec.key, r) ∈ values →
      ((evaluateMutation spec (resolved spec codeDefault e present runtime).effective r state (some e)).Refuses
          "deployment_bound" ↔
        (resolved spec codeDefault e true (some r)).clampedByDeployment = true) ∧
      ∀ takesEffect tightening,
        evaluateMutation spec (resolved spec codeDefault e present runtime).effective r state (some e) =
            .allowed takesEffect tightening →
          (resolved spec codeDefault e true (some r)).effective = r := by
  have hcontained := contained_of_mem spec hspec hbound
  have hcompose : ∃ v, (resolved spec codeDefault e present runtime).effective = composeValue spec e v := by
    obtain ⟨-, heff⟩ | ⟨v, -, -, heff, -⟩ := resolved_cases hbound codeDefault e present runtime
    · refine ⟨e, heff.trans ?_⟩
      rcases composeValue_cases hcontained he e with h | h <;> exact h.1.symm
    · exact ⟨v, heff⟩
  obtain ⟨w, heff⟩ := hcompose
  refine ⟨heff ▸ safer_compose hcontained he w, ?_, ?_⟩
  · rintro v hpresent hruntime hclamped
    obtain ⟨hnone, -⟩ | ⟨v', -, hv', heff', hclamped'⟩ := resolved_cases hbound codeDefault e present runtime
    · exact absurd ⟨hpresent, hruntime⟩ (hnone v)
    · rw [hruntime] at hv'
      cases hv'
      rw [hclamped', Bool.not_eq_false'] at hclamped
      rw [heff']
      exact SettingValue.eq_of_same hclamped
  · intro patch values r state hpatch hmem
    have hr := inBounds_of_validatePatch hspec hpatch hmem
    have hrefuses : (evaluateMutation spec (resolved spec codeDefault e present runtime).effective r state
        (some e)).Refuses "deployment_bound" ↔
          (resolved spec codeDefault e true (some r)).clampedByDeployment = true := by
      rw [refuses_iff (mutable_of_mem spec hspec), clamped_iff hcontained hbound he hr, heff]
      constructor
      · exact fun h => h.2.2
      · intro hover
        obtain ⟨hsafer, hsame⟩ := widening_of_overshoots hcontained hbound he hr hover w
        exact ⟨hsafer, hsame, hover⟩
    refine ⟨hrefuses, ?_⟩
    intro takesEffect tightening hallowed
    have hnot : ¬ (resolved spec codeDefault e true (some r)).clampedByDeployment = true := by
      rw [← hrefuses, hallowed]
      exact id
    rw [clamped_iff hcontained hbound he hr, Bool.not_eq_true, ← same_compose_iff hcontained hbound he hr] at hnot
    obtain ⟨hnone, -⟩ | ⟨v, -, hv, heff', -⟩ := resolved_cases hbound codeDefault e true (some r)
    · exact absurd ⟨rfl, rfl⟩ (hnone r)
    · cases hv
      rw [heff', hnot]

def maxOpenBoxes : SettingSpec :=
  { key := "maxOpenBoxes", envVar := "BOX_MAX_OPEN_BOXES"
    label := "Maximum Box inventory"
    type := .integer, min := some 0, max := some 50, zeroMeans := some .unlimited
    containment := .ceiling, safeDirection := .lowerIsSafer, policy := .tightenOnlyWhileArmed
    requiresFullAdmin := true }

theorem maxOpenBoxes_five : InBounds maxOpenBoxes (.number (.fin 5)) := ⟨.inl rfl, rfl, by decide, by decide⟩

/-- A request for no limit at all, where the deployment's is 5 and the operator's is 3. -/
theorem bound_absolute_maxOpenBoxes :
    (evaluateMutation maxOpenBoxes
      (resolved maxOpenBoxes (.number (.fin 0)) (.number (.fin 5)) true (some (.number (.fin 3)))).effective
      (.number (.fin 0)) ⟨"live", false, false, 0, 0, 0, 0, true, some .full⟩ (some (.number (.fin 5)))).Refuses
        "deployment_bound" :=
  ((bound_absolute (by decide) (by decide) maxOpenBoxes_five (.number (.fin 0)) true
      (some (.number (.fin 3)))).2.2
    [("maxOpenBoxes", .value (.number (.fin 0)))] [("maxOpenBoxes", .number (.fin 0))] (.number (.fin 0))
    ⟨"live", false, false, 0, 0, 0, 0, true, some .full⟩ (by decide) (by decide)).1.mpr (by decide)

/-! ## When a change may widen risk -/

def widens (spec : SettingSpec) (current requested : SettingValue) : Bool :=
  !isSafer spec current requested && !current.same requested

def WellTyped (spec : SettingSpec) : SettingValue → Prop := InBounds { spec with min := none, max := none }

section Resolver

variable {spec : SettingSpec} {cur e r w : SettingValue}

theorem WellTyped.same_iff (h : WellTyped spec e) : e.same r = true ↔ e = r := InBounds.same_iff h

theorem same_comm (a b : SettingValue) : a.same b = b.same a := by
  cases a <;> cases b <;> simp only [SettingValue.same, reduceCtorEq, decide_false]
  · simp [eq_comm]
  · rename_i x y
    by_cases h : x = y
    · simp [h]
    · simp [h, Ne.symm h]
  · simp [eq_comm]

theorem Stricter.of_not (he : WellTyped spec e) (hew : Comparable e w) (hnot : ¬Stricter spec e w)
    (h : Stricter spec r w) : Stricter spec r e := by
  cases w with
  | boolean y =>
    cases e <;> cases r <;> simp only [Stricter, Comparable] at *
    rename_i x z
    cases x <;> cases y <;> simp_all
  | number y =>
    cases e <;> cases r <;> simp only [Stricter, Comparable] at *
    rename_i x z
    have hx : toComparable x spec.zeroMeans ≠ .nan := toComparable_ne_nan he.2.1
    have hy : ∀ {a b : Number}, a < b → a ≠ .nan ∧ b ≠ .nan := fun hab => Number.ne_nan_of_le (Number.le_of_lt hab)
    rcases h with ⟨hdir, hlt⟩ | ⟨hdir, hlt⟩
    · have hnlt : ¬toComparable x spec.zeroMeans < toComparable y spec.zeroMeans := fun hxy => hnot (.inl ⟨hdir, hxy⟩)
      exact .inl ⟨hdir, Number.lt_of_lt_of_le hlt (Number.le_of_not_lt_of_ne_nan (hy hlt).2 hx hnlt)⟩
    · have hnlt : ¬toComparable y spec.zeroMeans < toComparable x spec.zeroMeans := fun hxy => hnot (.inr ⟨hdir, hxy⟩)
      exact .inr ⟨hdir, Number.lt_of_le_of_lt (Number.le_of_not_lt_of_ne_nan hx (hy hlt).1 hnlt) hlt⟩
  | text s => cases r <;> simp [Stricter] at h

theorem compose_cases (hspec : spec.Contained) (he : WellTyped spec e) (v : SettingValue) :
    (composeValue spec e v = e ∧ (Comparable e v → ¬Ambiguous spec e v → ¬Stricter spec v e)) ∨
      (composeValue spec e v = v ∧ Comparable e v ∧ ¬Ambiguous spec e v ∧ ¬Stricter spec e v) :=
  @composeValue_cases { spec with min := none, max := none } e hspec he v

theorem same_or_safer_of_compose (hspec : spec.Contained) (he : WellTyped spec e)
    (hcur : cur = e ∨ ∃ v, cur = composeValue spec e v) (h : widens spec cur r = false) :
    cur.same (composeValue spec e r) = true ∨ isSafer spec cur (composeValue spec e r) = true := by
  have hhow : cur = e ∨ (Comparable e cur ∧ ¬Ambiguous spec e cur ∧ ¬Stricter spec e cur ∧
      composeValue spec e cur = cur) := by
    rcases hcur with hcur | ⟨v, hv⟩
    · exact .inl hcur
    · rcases compose_cases hspec he v with ⟨hbound, -⟩ | ⟨hown, hrest⟩
      · exact .inl (hv.trans hbound)
      · rw [hv, hown]
        exact .inr ⟨hrest.1, hrest.2.1, hrest.2.2, hown⟩
  by_cases hsame : cur.same r = true
  · refine .inl ?_
    rw [← SettingValue.eq_of_same hsame]
    have hself : composeValue spec e cur = cur := by
      rcases hhow with rfl | hown
      · rcases compose_cases hspec he cur with hbound | hbound <;> exact hbound.1
      · exact hown.2.2.2
    rw [hself, same_comm]
    rwa [← SettingValue.eq_of_same hsame] at hsame
  · have hsafer : isSafer spec cur r = true := by simpa [widens, hsame] using h
    refine .inr ?_
    obtain ⟨hstrict, hclear⟩ := isSafer_iff.mp hsafer
    rcases compose_cases hspec he r with ⟨hbound, hnot⟩ | ⟨hown, -⟩
    · have hcontra : ∀ hcomp : Comparable e r, ¬Ambiguous spec e r → Stricter spec r e → False :=
        fun hcomp hamb hs => hnot hcomp hamb hs
      exfalso
      rcases hhow with rfl | ⟨hcomp, hamb, hnotless, -⟩
      · refine hcontra ?_ hclear hstrict
        cases cur <;> cases r <;> simp_all [Stricter, Comparable]
      · have hcomp' : Comparable e r := by
          cases e <;> cases cur <;> cases r <;> simp_all [Stricter, Comparable]
        refine hcontra hcomp' (fun hamb' => ?_) (hstrict.of_not he hcomp hnotless)
        rcases hamb'.split hcomp hcomp' with h | h
        · exact hamb h
        · exact hclear h
    · rw [hown]
      exact hsafer

theorem widens_compose (hspec : spec.Contained) (hbound : spec.containment ≠ .replace) (he : WellTyped spec e)
    (hr : WellTyped spec r) (hcur : cur = e ∨ ∃ v, cur = composeValue spec e v) (h : widens spec cur r = true) :
    widens spec cur (composeValue spec e r) = false ↔ cur = e ∧ overshootsDeploymentBound spec e r = true := by
  have hover := @same_compose_iff { spec with min := none, max := none } e r hspec hbound he hr
  change composeValue spec e r = r ↔ overshootsDeploymentBound spec e r = false at hover
  have hpick : composeValue spec e r = e ∨ composeValue spec e r = r := by
    rcases compose_cases hspec he r with hbound | hown
    · exact .inl hbound.1
    · exact .inr hown.1
  constructor
  · intro hnot
    have hclamped : overshootsDeploymentBound spec e r = true := by
      by_contra hwithin
      rw [hover.mpr (Bool.not_eq_true _ ▸ hwithin), h] at hnot
      cases hnot
    have hto : composeValue spec e r = e :=
      hpick.resolve_right fun hown => by simp [hover.mp hown] at hclamped
    refine ⟨?_, hclamped⟩
    rw [hto] at hnot
    by_cases hsame : cur.same e = true
    · exact SettingValue.eq_of_same hsame
    · have hsafer : isSafer spec cur e = true := by simpa [widens, hsame] using hnot
      obtain ⟨hstrict, -⟩ := isSafer_iff.mp hsafer
      rcases hcur with hcur | ⟨v, hv⟩
      · exact hcur
      · rcases compose_cases hspec he v with ⟨hbound, -⟩ | ⟨hown, -, -, hnotless⟩
        · exact hv.trans hbound
        · rw [hv, hown] at hstrict
          exact absurd hstrict hnotless
  · rintro ⟨hcur, hclamped⟩
    have hto : composeValue spec e r = e :=
      hpick.resolve_right fun hown => by simp [hover.mp hown] at hclamped
    have hself : e.same e = true := he.same_iff.mpr rfl
    simp [hto, hcur, widens, hself]

end Resolver

section Gate

variable {spec : SettingSpec} {cur r : SettingValue} {state : SystemState} {bound : Option SettingValue}

def Barred (spec : SettingSpec) (requested : SettingValue) (state : SystemState) (deploymentBound : Option SettingValue) :
    Prop :=
  (spec.requiresFullAdmin = true ∧ state.operatorRole ≠ some .full) ∨
    (∃ bound, deploymentBound = some bound ∧ overshootsDeploymentBound spec bound requested = true) ∨
    ∃ forbidden value, spec.forbiddenValuesInLive = some forbidden ∧ requested = .text value ∧
      state.executionMode = "live" ∧ value ∈ forbidden

theorem notFlatBlockers_eq_nil : notFlatBlockers state = [] ↔ isFlat state = true := by
  have hpos : ∀ n : ℕ, ¬0 < n ↔ n = 0 := by omega
  cases hclean : state.reconciliationClean <;> simp [notFlatBlockers, isFlat, hclean, hpos, and_assoc]

theorem allowed_of_widens (hpolicy : spec.policy = .tightenOnlyWhileArmed ∨ spec.policy = .flatAndDisarmed)
    (h : widens spec cur r = true) : (∃ effect tightening, evaluateMutation spec cur r state bound = .allowed effect tightening) ↔
      ¬Barred spec r state bound ∧ isArmed state = false ∧ (spec.policy = .flatAndDisarmed → isFlat state = true) := by
  have hrestart : spec.policy ≠ .restartRequired := by rcases hpolicy with h | h <;> simp [h]
  have hallowed : (∃ effect tightening, evaluateMutation spec cur r state bound = .allowed effect tightening) ↔
      mutationBlockers spec cur r state bound = [] := by
    unfold evaluateMutation
    rw [if_neg hrestart]
    cases mutationBlockers spec cur r state bound <;> simp
  rw [hallowed]
  unfold widens at h
  simp only [mutationBlockers, h, Bool.true_and, Bool.and_true, List.append_eq_nil_iff]
  refine and_congr ?_ ?_
  · rw [and_assoc, Barred, not_or, not_or]
    refine and_congr ?_ (and_congr ?_ ?_)
    · simp
    · cases bound <;> simp
    · cases hforbidden : spec.forbiddenValuesInLive <;> cases r <;> simp
  · rcases hpolicy with hpolicy | hpolicy
    · cases harmed : isArmed state <;> simp [hpolicy]
    · cases harmed : isArmed state <;> simp [hpolicy, notFlatBlockers_eq_nil]

end Gate

/-! ## What the request comes to -/

section Change

variable {spec : SettingSpec} {input : ResolveInput} {r : SettingValue}

def bindingBound (spec : SettingSpec) (input : ResolveInput) : Option SettingValue :=
  if spec.containment = .replace ∨ input.envPresent = false then none else input.envValue

def ResolveInput.request (input : ResolveInput) (requested : SettingValue) : ResolveInput :=
  { input with runtimePresent := true, runtimeValue := some requested }

theorem effective_request (spec : SettingSpec) (codeDefault : SettingValue) (input : ResolveInput) (r : SettingValue) :
    (resolveSetting spec codeDefault (input.request r)).effective =
      ((bindingBound spec input).map fun e => composeValue spec e r).getD r := by
  by_cases hreplace : spec.containment = .replace
  · cases hpresent : input.envPresent <;> cases henv : input.envValue <;>
      simp [resolveSetting, ResolveInput.request, bindingBound, hreplace, hpresent, henv]
  · cases hpresent : input.envPresent <;> cases henv : input.envValue <;>
      simp [resolveSetting, ResolveInput.request, bindingBound, hreplace, hpresent, henv]

theorem effective_bound {codeDefault e : SettingValue} (h : bindingBound spec input = some e) :
    (resolveSetting spec codeDefault input).effective = e ∨
      ∃ v, (resolveSetting spec codeDefault input).effective = composeValue spec e v := by
  unfold bindingBound at h
  by_cases hfree : spec.containment = .replace ∨ input.envPresent = false
  · simp [hfree] at h
  · rw [if_neg hfree] at h
    rw [not_or, Bool.not_eq_false] at hfree
    cases hruntime : (if input.runtimePresent then input.runtimeValue else none) with
    | none => exact .inl (by simp [resolveSetting, hruntime, h, hfree.2])
    | some v => exact .inr ⟨v, by simp [resolveSetting, hruntime, h, hfree.1, hfree.2]⟩

/-- A request to raise what the deployment's own value, which is in force, holds down. -/
def Clamped (spec : SettingSpec) (input : ResolveInput) (current requested : SettingValue) : Prop :=
  ∃ e, bindingBound spec input = some e ∧ current = e ∧ overshootsDeploymentBound spec e requested = true

theorem widens_effective (hspec : spec ∈ OPERATOR_SETTINGS) (codeDefault : SettingValue)
    (henv : ∀ e, bindingBound spec input = some e → WellTyped spec e) (hr : WellTyped spec r) :
    widens spec (resolveSetting spec codeDefault input).effective
        (resolveSetting spec codeDefault (input.request r)).effective = true ↔
      widens spec (resolveSetting spec codeDefault input).effective r = true ∧
        ¬Clamped spec input (resolveSetting spec codeDefault input).effective r := by
  rw [effective_request]
  cases hbound : bindingBound spec input with
  | none => simp [Clamped, hbound]
  | some e =>
    have hcontained : spec.containment ≠ .replace := by
      intro hreplace
      simp [bindingBound, hreplace] at hbound
    have hspec' := contained_of_mem spec hspec hcontained
    have hcur : (resolveSetting spec codeDefault input).effective = e ∨
        ∃ v, (resolveSetting spec codeDefault input).effective = composeValue spec e v := effective_bound hbound
    simp only [Clamped, hbound, Option.map_some, Option.getD_some, Option.some.injEq, exists_eq_left']
    by_cases hw : widens spec (resolveSetting spec codeDefault input).effective r = true
    · have hiff := widens_compose hspec' hcontained (henv e hbound) hr hcur hw
      rw [← hiff, Bool.not_eq_false]
      simp [hw]
    · have hsafe := same_or_safer_of_compose hspec' (henv e hbound) hcur (Bool.not_eq_true _ ▸ hw)
      simp only [hw]
      rcases hsafe with hsame | hsafer
      · simp [widens, hsame]
      · simp [widens, hsafer]

end Change

/-- An allowed change that widens finds the system disarmed and flat, and the operator entitled. -/
def RiskGated (spec : SettingSpec) (codeDefault : SettingValue) (input : ResolveInput) (requested : SettingValue)
    (state : SystemState) (deploymentBound : Option SettingValue) : Prop :=
  let current := (resolveSetting spec codeDefault input).effective
  let next := (resolveSetting spec codeDefault (input.request requested)).effective
  ∀ effect tightening, evaluateMutation spec current requested state deploymentBound = .allowed effect tightening →
    current.same next = false → isSafer spec current next = false →
      isArmed state = false ∧ isFlat state = true ∧
        (spec.requiresFullAdmin = true → state.operatorRole = some .full)

/-- Risk is widened only when flat and disarmed, except by a disarmed system under a policy that asks for it only
while armed. -/
theorem risk_gated_iff {spec : SettingSpec} (hspec : spec ∈ OPERATOR_SETTINGS)
    (hpolicy : spec.policy = .tightenOnlyWhileArmed ∨ spec.policy = .flatAndDisarmed) (codeDefault : SettingValue)
    (input : ResolveInput) (henv : ∀ e, input.envValue = some e → WellTyped spec e) (requested : SettingValue)
    (hrequested : WellTyped spec requested) (state : SystemState) (deploymentBound : Option SettingValue) :
    RiskGated spec codeDefault input requested state deploymentBound ↔
      spec.policy = .flatAndDisarmed ∨ isArmed state = true ∨ isFlat state = true ∨
        Barred spec requested state deploymentBound ∨
        widens spec (resolveSetting spec codeDefault input).effective requested = false ∨
        Clamped spec input (resolveSetting spec codeDefault input).effective requested := by
  have hbound : ∀ e, bindingBound spec input = some e → WellTyped spec e := by
    intro e he
    by_cases hfree : spec.containment = .replace ∨ input.envPresent = false
    · simp [bindingBound, hfree] at he
    · rw [bindingBound, if_neg hfree] at he
      exact henv e he
  have hwidens := widens_effective hspec codeDefault hbound hrequested
  constructor
  · intro hgated
    by_contra hnot
    simp only [not_or, Bool.not_eq_true, Bool.not_eq_false] at hnot
    obtain ⟨hpolicy', hdisarmed, hnotflat, hbarred, hw, hclamped⟩ := hnot
    obtain ⟨effect, tightening, hallowed⟩ := (allowed_of_widens hpolicy hw).mpr
      ⟨hbarred, hdisarmed, fun hflat => absurd hflat hpolicy'⟩
    have hnext := hwidens.mpr ⟨hw, hclamped⟩
    simp only [widens, Bool.and_eq_true, Bool.not_eq_true'] at hnext
    have hflat := (hgated effect tightening hallowed hnext.2 hnext.1).2.1
    rw [hnotflat] at hflat
    cases hflat
  · intro hwhen effect tightening hallowed hdiffers hnotsafer
    obtain ⟨hw, hclamped⟩ := hwidens.mp (by simp [widens, hdiffers, hnotsafer])
    obtain ⟨hbarred, hdisarmed, hflat⟩ := (allowed_of_widens hpolicy hw).mp ⟨effect, tightening, hallowed⟩
    refine ⟨hdisarmed, ?_, fun hfull => ?_⟩
    · rcases hwhen with hwhen | harmed | hwhen | hwhen | hwhen | hwhen
      · exact hflat hwhen
      · simp [hdisarmed] at harmed
      · exact hwhen
      · exact absurd hwhen hbarred
      · simp [hw] at hwhen
      · exact absurd hwhen hclamped
    · by_contra hrole
      exact hbarred (.inl ⟨hfull, hrole⟩)

theorem risk_gated_iff_armed : RiskGated maxOpenBoxes (.number (.fin 0)) ⟨true, some (.number (.fin 5)), true,
    some (.number (.fin 2))⟩ (.number (.fin 5)) ⟨"live", true, false, 1, 0, 0, 0, true, some .full⟩ none := by
  have hfive : WellTyped maxOpenBoxes (.number (.fin 5)) := ⟨.inl rfl, rfl, rfl, rfl⟩
  have hspec : maxOpenBoxes ∈ OPERATOR_SETTINGS := by decide
  exact (risk_gated_iff hspec (.inl rfl) _ _ (fun e he => by cases he; exact hfive) _ hfive _ _).mpr (.inr (.inl rfl))

theorem risk_widened_with_open_box : ¬∀ spec ∈ OPERATOR_SETTINGS, spec.policy = .tightenOnlyWhileArmed →
    ∀ codeDefault input requested state bound, RiskGated spec codeDefault input requested state bound := by
  intro h
  have hgated := h maxOpenBoxes (by decide) rfl (.number (.fin 0))
    ⟨true, some (.number (.fin 5)), true, some (.number (.fin 2))⟩ (.number (.fin 5))
    ⟨"live", false, false, 1, 0, 0, 0, true, some .full⟩ (some (.number (.fin 5)))
  exact absurd (hgated .nextCandidate false (by decide) (by decide) (by decide)).2.1 (by decide)

end OperatorConfig

end BoxEngine
