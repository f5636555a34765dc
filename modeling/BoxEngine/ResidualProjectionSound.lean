import BoxEngine.Lib.CompareAndSet
import BoxEngine.ResidualProjection

/-!
# A residual projection is applied exactly once

A command takes effect on the version it was made for, so a replay finds the version moved on. Store and model agree
unless a row has a version and no identity.
-/

namespace BoxEngine

open Js

namespace ProjectionSnapshot

variable (row : ProjectionSnapshot)

def version : ℕ := readVersion row.projectionVersion

def charges : Number := readCharges row.flattenCharges

structure Checked (row : ProjectionSnapshot) : Prop where
  charges : ∀ c ∈ row.flattenCharges, .fin 0 ≤ c
  chargesForDay : ∀ c ∈ row.flattenChargesForDay, .fin 0 ≤ c

def InPaise : Prop := ∃ paise : ℕ, row.charges = .fin (paise / 100)

def Current : Prop :=
  (row.residualProjectionIdentity ≠ none ∨ row.version = 0) ∧ row.version < 9007199254740991

instance (row : ProjectionSnapshot) : Decidable row.Current := inferInstanceAs (Decidable (_ ∧ _))

end ProjectionSnapshot

def projectOnce (sha256 : Sha256) (row : ProjectionSnapshot) (args : ProjectionArgs) : ProjectionSnapshot × Bool :=
  let (result, after) := applyBoxExecutionAttemptProjection sha256 (some row) (createResidualProjectionCommand sha256 args)
  (after.getD row, result.status = .applied)

theorem readVersion_nat {n : ℕ} (h : n ≤ 9007199254740991) : readVersion (some (.fin n)) = n := by
  have hle : (n : ℚ) ≤ 9007199254740991 := by exact_mod_cast h
  simp [readVersion, isSafeInteger, hle]

theorem readCharges_of_nonneg {c : Option Number} (h : ∀ n ∈ c, .fin 0 ≤ n) : readCharges c = c.getD (.fin 0) := by
  cases c with
  | none => rfl
  | some n =>
    have hn := h n rfl
    cases n with
    | nan => cases hn
    | negInf => cases hn
    | posInf => rfl
    | fin q =>
      simp only [readCharges, Option.getD_some, Number.max, Number.fin_lt_fin]
      split
      · rfl
      · rename_i hnot
        rw [le_antisymm (not_lt.mp hnot) (Number.fin_le_fin.mp hn)]

theorem chargeDelta_paise (delta : Number) : ∃ paise : ℕ, (chargeDelta delta).1 = paise / 100 := by
  unfold chargeDelta
  split
  · rename_i q
    split
    · rename_i hpos
      have hfloor : 0 ≤ ⌊q * 100 + 1 / 2⌋ := Int.floor_nonneg.mpr (by linarith)
      refine ⟨⌊q * 100 + 1 / 2⌋.toNat, ?_⟩
      change round2 q = _
      rw [round2]
      congr 1
      exact_mod_cast (Int.toNat_of_nonneg hfloor).symm
    · exact ⟨0, by simp⟩
  · exact ⟨0, by simp⟩

theorem round2Price_paise (m n : ℕ) :
    round2Price ((Number.fin (m / 100)).add (.fin (n / 100))) = .fin (m / 100 + n / 100) := by
  have hsum : (m : ℚ) / 100 + n / 100 = ((m + n : ℕ) : ℤ) / 100 := by push_cast; ring
  rw [Number.add_fin, round2Price, hsum, round2_of_int]

/-! ## What a command does -/

section

variable (sha256 : Sha256)
variable (row : ProjectionSnapshot)

theorem applyProjection_cases (command : ProjectionCommand) :
    let answered := applyBoxExecutionAttemptProjection sha256 (some row) command
    (answered.1.status ≠ .applied ∧ answered.2 = some row) ∨
      (answered.1.status = .applied ∧ command.expectedVersion = row.version ∧ ∃ after, answered.2 = some after ∧
        after.projectionVersion = some (.fin (row.version + 1)) ∧
        after.residualProjectionIdentity = some command.nextProjectionIdentity ∧
        after.residualExposure = some command.residualExposure ∧
        after.flattenCharges = some (round2Price (row.charges.add (.fin command.flattenChargeDelta))) ∧
        (command.flattenChargeDelta = 0 → after.flattenChargesForDay = some (readCharges row.flattenChargesForDay)) ∧
        (0 < command.flattenChargeDelta → after.flattenChargesForDay = some (round2Price <| Number.add
          (if row.flattenChargeDay = some command.flattenChargeDay then readCharges row.flattenChargesForDay else .fin 0)
          (.fin command.flattenChargeDelta)))) := by
  intro answered
  simp only [answered, applyBoxExecutionAttemptProjection]
  split
  · exact .inl ⟨by simp [snapshotResult], rfl⟩
  · split
    · exact .inl ⟨by simp [snapshotResult], rfl⟩
    · rename_i hmatch
      rw [not_or, not_not, not_not] at hmatch
      have hversion : command.expectedVersion = row.version := by
        rcases hmatch.1 with h | ⟨hzero, hnone⟩
        · exact h.symm
        · rw [hzero, ProjectionSnapshot.version, hnone]
          rfl
      refine .inr ⟨rfl, hversion, _, rfl, rfl, rfl, rfl, rfl, ?_, ?_⟩
      · intro hzero
        simp [hzero]
      · intro hpos
        simp [hpos]

theorem apply_eq_transition (hchecked : row.Checked) (hcurrent : row.Current) (command : ProjectionCommand) :
    applyBoxExecutionAttemptProjection sha256 (some row) command =
      transitionResidualProjectionSnapshot sha256 (some row) command := by
  have hforDay := readCharges_of_nonneg hchecked.chargesForDay
  have hversion : (readVersion row.projectionVersion = command.expectedVersion ∨
      (command.expectedVersion = 0 ∧ row.projectionVersion = none)) ↔
      readVersion row.projectionVersion = command.expectedVersion := by
    constructor
    · rintro (h | ⟨hzero, hnone⟩)
      · exact h
      · rw [hzero, hnone]
        rfl
    · exact .inl
  have hidentity : readVersion row.projectionVersion = command.expectedVersion →
      ((row.residualProjectionIdentity = some command.expectedProjectionIdentity ∨
        (command.expectedVersion = 0 ∧ row.residualProjectionIdentity = none ∧
          residualProjectionIdentity sha256 (row.residualExposure.getD []) = command.expectedProjectionIdentity)) ↔
      row.residualProjectionIdentity.getD (residualProjectionIdentity sha256 (row.residualExposure.getD [])) =
        command.expectedProjectionIdentity) := by
    intro hsame
    cases hstored : row.residualProjectionIdentity with
    | some identity => simp
    | none =>
      have hzero : row.version = 0 := hcurrent.1.resolve_left (not_not.mpr hstored)
      rw [ProjectionSnapshot.version, hsame] at hzero
      simp [hzero]
  simp only [applyBoxExecutionAttemptProjection, transitionResidualProjectionSnapshot, hversion, hforDay]
  by_cases hring : command.applicationId ∈ row.appliedFlattenApplications.getD []
  · rw [if_pos hring, if_pos hring]
  · rw [if_neg hring, if_neg hring]
    by_cases hsame : readVersion row.projectionVersion = command.expectedVersion
    · simp only [hidentity hsame]
    · rw [if_pos (.inl hsame), if_pos (.inl hsame)]

/-! ## Runs of commands -/

theorem projectOnce_cases (args : ProjectionArgs) :
    (projectOnce sha256 row args = (row, false)) ∨
      ((projectOnce sha256 row args).2 = true ∧ readVersion (some args.expectedVersion) = row.version ∧
        (projectOnce sha256 row args).1.projectionVersion = some (.fin (row.version + 1)) ∧
        (projectOnce sha256 row args).1.residualProjectionIdentity =
          some (createResidualProjectionCommand sha256 args).nextProjectionIdentity ∧
        (projectOnce sha256 row args).1.residualExposure = some args.nextResidual ∧
        (projectOnce sha256 row args).1.flattenCharges =
          some (round2Price (row.charges.add (.fin (chargeDelta args.flattenChargeDelta).1))) ∧
        ((projectOnce sha256 row args).1.flattenChargesForDay = some (readCharges row.flattenChargesForDay) ∨
          ∃ prior, (prior = readCharges row.flattenChargesForDay ∨ prior = .fin 0) ∧
            (projectOnce sha256 row args).1.flattenChargesForDay =
              some (round2Price (prior.add (.fin (chargeDelta args.flattenChargeDelta).1))))) := by
  have hcases := applyProjection_cases sha256 row (createResidualProjectionCommand sha256 args)
  simp only [projectOnce]
  rcases hcases with ⟨hstatus, hafter⟩ | ⟨hstatus, hversion, after, hafter, hnext, hidentity, hresidual, hcharges, hzero, hpos⟩
  · exact .inl (by simp [hafter, hstatus])
  · simp only [hafter, hstatus, Option.getD_some]
    refine .inr ⟨by simp, hversion, hnext, hidentity, hresidual, hcharges, ?_⟩
    rcases (chargeDelta args.flattenChargeDelta).2.lt_or_eq with hlt | heq
    · refine .inr ⟨_, ?_, hpos hlt⟩
      split
      · exact .inl rfl
      · exact .inr rfl
    · exact .inl (hzero heq.symm)

theorem projectOnce_versioned : CompareAndSet.Versioned (projectOnce sha256) (fun row _ => row.Current)
    ProjectionSnapshot.version (fun args => readVersion (some args.expectedVersion)) := by
  constructor
  case idle =>
    intro row args _ hfalse
    rcases projectOnce_cases sha256 row args with h | ⟨htrue, -⟩
    · rw [h]
    · rw [htrue] at hfalse
      cases hfalse
  case expected =>
    intro row args _ htrue
    rcases projectOnce_cases sha256 row args with h | ⟨-, hversion, -⟩
    · rw [h] at htrue
      cases htrue
    · exact hversion
  case raised =>
    intro row args hcurrent htrue
    rcases projectOnce_cases sha256 row args with h | ⟨-, -, hnext, -⟩
    · rw [h] at htrue
      cases htrue
    · have hnat := readVersion_nat (Nat.succ_le_of_lt hcurrent.2)
      push_cast at hnat
      rw [ProjectionSnapshot.version, hnext, hnat]

theorem inPaise_projectOnce {row : ProjectionSnapshot} (h : row.InPaise) (args : ProjectionArgs) :
    (projectOnce sha256 row args).1.InPaise := by
  rcases projectOnce_cases sha256 row args with hsame | ⟨-, -, -, -, -, hcharges, -⟩
  · rw [hsame]
    exact h
  · obtain ⟨m, hm⟩ := h
    obtain ⟨n, hn⟩ := chargeDelta_paise args.flattenChargeDelta
    refine ⟨m + n, ?_⟩
    have hnonneg : (0 : ℚ) ≤ ((m + n : ℕ) : ℚ) / 100 := by positivity
    rw [ProjectionSnapshot.charges, hcharges, hm, hn, round2Price_paise, readCharges_of_nonneg]
    · simp only [Option.getD_some]
      push_cast
      rw [add_div]
    · intro c hc
      rw [← Option.mem_some_iff.mp hc, Number.fin_le_fin]
      push_cast at hnonneg
      rwa [add_div] at hnonneg

theorem charges_projectOnce {row : ProjectionSnapshot} (h : row.InPaise) {args : ProjectionArgs}
    (happlied : (projectOnce sha256 row args).2 = true) :
    (projectOnce sha256 row args).1.charges.value = row.charges.value + (chargeDelta args.flattenChargeDelta).1 := by
  rcases projectOnce_cases sha256 row args with hsame | ⟨-, -, -, -, -, hcharges, -⟩
  · rw [hsame] at happlied
    cases happlied
  · obtain ⟨m, hm⟩ := h
    obtain ⟨n, hn⟩ := chargeDelta_paise args.flattenChargeDelta
    have hnonneg : (0 : ℚ) ≤ (m : ℚ) / 100 + n / 100 := by positivity
    rw [ProjectionSnapshot.charges, hcharges, hm, hn, round2Price_paise, readCharges_of_nonneg]
    · simp
    · intro c hc
      rw [← Option.mem_some_iff.mp hc, Number.fin_le_fin]
      exact hnonneg

theorem nonneg_round2Price {prior : Number} (h : .fin 0 ≤ prior) {delta : ℚ} (hdelta : 0 ≤ delta) :
    .fin 0 ≤ round2Price (prior.add (.fin delta)) := by
  cases prior with
  | nan => cases h
  | negInf => cases h
  | posInf => rfl
  | fin q =>
    rw [Number.add_fin, round2Price, Number.fin_le_fin]
    rcases (add_nonneg (Number.fin_le_fin.mp h) hdelta).lt_or_eq with hlt | heq
    · exact round2_nonneg hlt.le
    · rw [← heq]
      have hzero := round2_of_int 0
      simp only [Int.cast_zero, zero_div] at hzero
      rw [hzero]

theorem checked_projectOnce {row : ProjectionSnapshot} (h : row.Checked) (args : ProjectionArgs) :
    (projectOnce sha256 row args).1.Checked := by
  rcases projectOnce_cases sha256 row args with hsame | ⟨-, -, -, -, -, hcharges, hforDay⟩
  · rw [hsame]
    exact h
  · have hread : ∀ {c : Option Number}, (∀ n ∈ c, .fin 0 ≤ n) → .fin 0 ≤ readCharges c := by
      intro c hc
      rw [readCharges_of_nonneg hc]
      cases c with
      | none => exact Number.fin_le_fin.mpr le_rfl
      | some n => exact hc n rfl
    constructor
    · intro c hc
      rw [hcharges] at hc
      rw [← Option.mem_some_iff.mp hc]
      exact nonneg_round2Price (hread h.charges) (chargeDelta _).2
    · intro c hc
      rcases hforDay with hforDay | ⟨prior, hprior, hforDay⟩
      · rw [hforDay] at hc
        rw [← Option.mem_some_iff.mp hc]
        exact hread h.chargesForDay
      · rw [hforDay] at hc
        rw [← Option.mem_some_iff.mp hc]
        refine nonneg_round2Price ?_ (chargeDelta _).2
        rcases hprior with rfl | rfl
        · exact hread h.chargesForDay
        · exact Number.fin_le_fin.mpr le_rfl

end

/-- **Applied exactly once** to a row that states its identity or is at version 0, and the store agrees with the pure
model. -/
theorem projection_applied_once (sha256 : Sha256) (row : ProjectionSnapshot) (hchecked : row.Checked) (hpaise : row.InPaise)
    (commands : List ProjectionArgs)
    (h : Run.Guarded (projectOnce sha256) (fun row _ => row.Current) row commands) :
    let final := Run.finish (projectOnce sha256) row commands
    let applied := CompareAndSet.effects (projectOnce sha256) row commands
    (applied.map (createResidualProjectionCommand sha256)).Nodup ∧
      final.version = row.version + applied.length ∧ final.InPaise ∧
      final.charges.value = row.charges.value +
        (applied.map fun args => (createResidualProjectionCommand sha256 args).flattenChargeDelta).sum ∧
      final.residualExposure = (applied.getLast?.map fun args => some args.nextResidual).getD row.residualExposure ∧
      ∀ before args after, commands = before ++ args :: after →
        applyBoxExecutionAttemptProjection sha256 (some (Run.finish (projectOnce sha256) row before))
            (createResidualProjectionCommand sha256 args) =
          transitionResidualProjectionSnapshot sha256 (some (Run.finish (projectOnce sha256) row before))
            (createResidualProjectionCommand sha256 args) := by
  have hversioned := projectOnce_versioned sha256
  refine ⟨?_, hversioned.version_finish h, ?_, ?_, ?_, ?_⟩
  · have honce := hversioned.once h
    refine List.Nodup.of_map ProjectionCommand.expectedVersion ?_
    rw [List.map_map]
    exact honce
  · exact h.invariant ProjectionSnapshot.InPaise (fun row args hrow _ => inPaise_projectOnce sha256 hrow args) hpaise
  · have hguard := Run.Guarded.also ProjectionSnapshot.InPaise
      (fun row args hrow _ => inPaise_projectOnce sha256 hrow args) hpaise h
    have hpaised : CompareAndSet.Versioned (projectOnce sha256) (fun row _ => row.InPaise ∧ row.Current)
        ProjectionSnapshot.version (fun args => readVersion (some args.expectedVersion)) :=
      { idle := fun row args hok => hversioned.idle row args hok.2
        expected := fun row args hok => hversioned.expected row args hok.2
        raised := fun row args hok => hversioned.raised row args hok.2 }
    exact hpaised.sum_effects (fun row => row.charges.value) (fun args => (chargeDelta args.flattenChargeDelta).1)
      (fun row args hok happlied => charges_projectOnce sha256 hok.1 happlied) hguard
  · refine hversioned.last_effect ProjectionSnapshot.residualExposure (fun args => some args.nextResidual)
      ?_ h
    intro row args _ happlied
    rcases projectOnce_cases sha256 row args with hsame | ⟨-, -, -, -, hresidual, -⟩
    · rw [hsame] at happlied
      cases happlied
    · exact hresidual
  · rintro before args after rfl
    obtain ⟨hbefore, hafter⟩ := h.append
    refine apply_eq_transition sha256 _ ?_ hafter.1 _
    exact hbefore.invariant ProjectionSnapshot.Checked (fun row args hrow _ => checked_projectOnce sha256 hrow args) hchecked

/-! ## A row with a version and no identity -/

def spelledOut : Sha256 where
  textAtMost a b := decide (a.quantity ≤ b.quantity)
  ofResidual legs := String.join (legs.map fun leg => leg.role.label ++ (Number.fin leg.quantity).toText)
  ofApplication id := toString id.expectedVersion ++ id.nextProjectionIdentity

def shortLeg (quantity : ℚ) (held : 0 < quantity) : ResidualLegExposure where
  token := .fin 1002
  tradingsymbol := "NIFTY26SEP20000CE"
  exchange := none
  role := .k2Ce
  side := .sell
  quantity
  averagePrice := .fin 10
  source := .partialEntry
  createdAt := .fin 1
  flattenAttempt := none
  flattenAccountedFilled := none
  flattenAccountedCharges := none
  flattenBrokerRejections := none
  outstanding := held

theorem whole_held : (0 : ℚ) < 75 := by norm_num

theorem rest_held : (0 : ℚ) < 25 := by norm_num

variable (version : Option Number)

def legacyRow : ProjectionSnapshot :=
  ⟨version, none, some [shortLeg 75 whole_held], none, none, none, none, some false⟩

def partialFlatten (version : ℚ) : ProjectionArgs :=
  ⟨"a", .fin version, [shortLeg 75 whole_held], [shortLeg 25 rest_held], .fin 2, "2026-09-07"⟩

def lastFlatten (version : ℚ) : ProjectionArgs :=
  ⟨"a", .fin version, [shortLeg 25 rest_held], [], .fin 2, "2026-09-07"⟩

theorem legacyRow_checked : (legacyRow version).Checked := by
  constructor <;> simp [legacyRow]

theorem legacyRow_inPaise : (legacyRow version).InPaise := by
  refine ⟨0, ?_⟩
  simp [ProjectionSnapshot.charges, legacyRow, readCharges, Number.max]

/-- A retry, a second worker's command for the same version, and the rest. -/
theorem projection_applied_once_retried :
    (Run.finish (projectOnce spelledOut) (legacyRow none) [partialFlatten 0, partialFlatten 0, lastFlatten 0,
      lastFlatten 1]).version =
      (legacyRow none).version + (CompareAndSet.effects (projectOnce spelledOut) (legacyRow none)
        [partialFlatten 0, partialFlatten 0, lastFlatten 0, lastFlatten 1]).length := by
  refine (projection_applied_once spelledOut (legacyRow none) (legacyRow_checked none) (legacyRow_inPaise none)
    [partialFlatten 0, partialFlatten 0, lastFlatten 0, lastFlatten 1] ?_).2.1
  decide +kernel

theorem stale_without_identity : (legacyRow (some (.fin 1))).Checked ∧ (legacyRow (some (.fin 1))).InPaise ∧
    (applyBoxExecutionAttemptProjection spelledOut (some (legacyRow (some (.fin 1))))
      (createResidualProjectionCommand spelledOut (partialFlatten 1))).1.status = .stale ∧
    (transitionResidualProjectionSnapshot spelledOut (some (legacyRow (some (.fin 1))))
      (createResidualProjectionCommand spelledOut (partialFlatten 1))).1.status = .applied := by
  refine ⟨legacyRow_checked _, legacyRow_inPaise _, ?_, ?_⟩
  · decide +kernel
  · decide +kernel

end BoxEngine
