import BoxEngine.Lib.Watermark
import BoxEngine.ResidualProjection
import BoxEngine.ResidualProjectionSound
import Mathlib.Algebra.Order.BigOperators.Group.List
import Mathlib.Data.String.Basic

/-!
# The flatten charges a process has seen

Two maps keep the highest lifetime total and the highest bucket of each charge day that the process was shown.
-/

namespace BoxEngine

open Js

def nul : Char := Char.ofNat 0

structure StoredId where
  text : String
  noNul : nul ∉ text.toList

structure FlattenChargeDayObservation where
  chargeDay : String
  previousChargesForDay : ℚ
  chargesForDay : ℚ

structure NewCharge where
  charge : ℚ
  observation : Option FlattenChargeDayObservation

/-- The highest charge seen of each attempt, and of each attempt on each day. -/
structure ObservedCharges where
  byAttempt : List (String × ℚ)
  byAttemptDay : Option (List (String × ℚ))

structure ChargesSeen where
  observed : ObservedCharges
  emitted : Option NewCharge
  returned : ℚ

def finiteCharge? (charges : Option Number) : Option ℚ :=
  match charges with
  | some (.fin q) => some (round2 (max 0 q))
  | _ => none

def seedObservedFlattenCharges (byAttempt : List (String × ℚ)) (attemptId : String) (cumulative : Option Number) :
    List (String × ℚ) :=
  Watermark.raise byAttempt attemptId ((finiteCharge? cumulative).getD 0)

def observedDayKey (attemptId chargeDay : String) : String := attemptId ++ String.singleton nul ++ chargeDay

def dayOf (chargeDay : Option String) : Option String := chargeDay.filter fun day => day ≠ ""

def seedObservedFlattenChargesForDay (byAttemptDay : List (String × ℚ)) (attemptId : String) (chargeDay : Option String)
    (chargesForDay : Option Number) : List (String × ℚ) :=
  match dayOf chargeDay, finiteCharge? chargesForDay with
  | some day, some charges => Watermark.raise byAttemptDay (observedDayKey attemptId day) charges
  | _, _ => byAttemptDay

def keyAttempt (key : String) : String := String.ofList (key.toList.takeWhile (· ≠ nul))

def keyDay (key : String) : String := String.ofList ((key.toList.dropWhile (· ≠ nul)).drop 1)

def compactDays (byAttemptDay : List (String × ℚ)) (retainAttemptIds : List String) (currentDay : String) :
    List (String × ℚ) :=
  byAttemptDay.filter fun e => keyAttempt e.1 ∈ retainAttemptIds && keyDay e.1 = currentDay

variable (observed : ObservedCharges)

def compactObservedFlattenChargeWatermarks (retainAttemptIds : List String)
    (currentDay : String) : ObservedCharges × ℕ × ℕ :=
  let byAttempt := observed.byAttempt.filter fun e => e.1 ∈ retainAttemptIds
  let byAttemptDay := observed.byAttemptDay.map fun days => compactDays days retainAttemptIds currentDay
  (⟨byAttempt, byAttemptDay⟩, byAttempt.length, (byAttemptDay.getD []).length)

variable (attemptId : String)

/-- Charges are emitted by day where the day is known, else by attempt. -/
def reconcileObservedFlattenCharges (cumulativeCharges : Option Number)
    (chargeDay : Option String) (chargesForDay : Option Number) : ChargesSeen :=
  match finiteCharge? cumulativeCharges with
  | none => ⟨observed, none, 0⟩
  | some cumulative =>
    let observedLifetime := Watermark.level observed.byAttempt attemptId
    let lifetimeDelta := if observedLifetime < cumulative then round2 (cumulative - observedLifetime) else 0
    let byAttempt :=
      if observedLifetime < cumulative then Watermark.set observed.byAttempt attemptId cumulative else observed.byAttempt
    match observed.byAttemptDay, dayOf chargeDay, finiteCharge? chargesForDay with
    | some days, some day, some charges =>
      let previousChargesForDay := Watermark.level days (observedDayKey attemptId day)
      if charges ≤ previousChargesForDay then ⟨{ observed with byAttempt }, none, 0⟩
      else
        let delta := round2 (charges - previousChargesForDay)
        ⟨⟨byAttempt, some (Watermark.set days (observedDayKey attemptId day) charges)⟩,
          some ⟨delta, some ⟨day, previousChargesForDay, charges⟩⟩, delta⟩
    | _, _, _ =>
      ⟨{ observed with byAttempt }, if 0 < lifetimeDelta then some ⟨lifetimeDelta, none⟩ else none, lifetimeDelta⟩

def adoptObservedFlattenCharges (cumulativeCharges : Option Number)
    (currentDay : String) (chargeDay : Option String) (chargesForDay : Option Number) : ChargesSeen :=
  let cumulative := (finiteCharge? cumulativeCharges).getD 0
  match Watermark.get? observed.byAttempt attemptId with
  | some _ => reconcileObservedFlattenCharges observed attemptId (some (.fin cumulative)) chargeDay chargesForDay
  | none =>
    let today := if chargeDay = some currentDay then (finiteCharge? chargesForDay).getD 0 else 0
    ⟨⟨Watermark.set observed.byAttempt attemptId cumulative,
        observed.byAttemptDay.map fun days => seedObservedFlattenChargesForDay days attemptId chargeDay chargesForDay⟩,
      if 0 < today then some ⟨today, some ⟨currentDay, 0, today⟩⟩ else none, today⟩

def persistOwnedResidualProjection (command : ProjectionCommand)
    (persist : ProjectionCommand → ProjectionResult) : ProjectionResult × ChargesSeen :=
  let result := persist command
  (result,
    if result.status ≠ .notFound ∧ result.flattenCharges ≠ none then
      reconcileObservedFlattenCharges observed attemptId result.flattenCharges result.flattenChargeDay
        result.flattenChargesForDay
    else ⟨observed, none, 0⟩)

/-! ## The row -/

def ProjectionSnapshot.bucketOf (day : String) (row : ProjectionSnapshot) : ℚ :=
  if row.flattenChargeDay = some day then (finiteCharge? row.flattenChargesForDay).getD 0 else 0

def ProjectionSnapshot.Uncharged (row : ProjectionSnapshot) : Prop :=
  row.charges = .fin 0 ∧ readCharges row.flattenChargesForDay = .fin 0

structure ProjectionSnapshot.InBuckets (row : ProjectionSnapshot) (total bucket : ℕ) : Prop where
  charges : row.charges = .fin (total / 100)
  forDay : readCharges row.flattenChargesForDay = .fin (bucket / 100)
  within : bucket ≤ total

def InWholePaise (q : ℚ) : Prop := ∃ paise : ℕ, q = paise / 100

variable {q : ℚ}

theorem paise_nonneg (h : InWholePaise q) : 0 ≤ q := by
  obtain ⟨n, rfl⟩ := h
  positivity

theorem round2_of_paise (h : InWholePaise q) : round2 q = q := by
  obtain ⟨n, rfl⟩ := h
  simpa using round2_of_int (n : ℤ)

theorem round2_sub_paise {a b : ℚ} (ha : InWholePaise a) (hb : InWholePaise b) : round2 (a - b) = a - b := by
  obtain ⟨m, rfl⟩ := ha
  obtain ⟨n, rfl⟩ := hb
  have h := round2_of_int (m - n)
  push_cast [sub_div] at h
  exact h

theorem readCharges_fin (h : 0 ≤ q) : readCharges (some (.fin q)) = .fin q := by
  rw [readCharges_of_nonneg]
  · rfl
  · intro c hc
    rw [← Option.mem_some_iff.mp hc, Number.fin_le_fin]
    exact h

theorem finiteCharge_of_read {charges : Option Number} (h : readCharges charges = .fin q) (hpaise : InWholePaise q) :
    (finiteCharge? charges).getD 0 = q := by
  cases charges with
  | none =>
    have hzero : (0 : ℚ) = q := by simpa [readCharges, Number.max] using h
    simp [finiteCharge?, hzero]
  | some c =>
    cases c with
    | fin r =>
      have hmax : max 0 r = q := by
        simp only [readCharges, Option.getD_some, Number.max, Number.fin_lt_fin] at h
        split at h
        next hlt => rw [max_eq_right hlt.le]; exact Number.fin.inj h
        next hnot => rw [max_eq_left (not_lt.mp hnot)]; exact Number.fin.inj h
      simp [finiteCharge?, hmax, round2_of_paise hpaise]
    | negInf =>
      have hzero : (0 : ℚ) = q := Number.fin.inj h
      simp [finiteCharge?, hzero]
    | posInf => cases h
    | nan => cases h

theorem finiteCharge_fin (h : InWholePaise q) : finiteCharge? (some (.fin q)) = some q := by
  rw [finiteCharge?, max_eq_right (paise_nonneg h), round2_of_paise h]

/-! ## What a command does to the buckets -/

def projectSnapshot (sha256 : Sha256) (row : ProjectionSnapshot) (command : ProjectionCommand) :
    ProjectionSnapshot × Bool :=
  let (result, after) := transitionResidualProjectionSnapshot sha256 (some row) command
  (after.getD row, result.status = .applied)

def chargedOn (day : String) (applied : List ProjectionCommand) : ℚ :=
  (applied.map fun command => if command.flattenChargeDay = day then command.flattenChargeDelta else 0).sum

variable (attemptId : StoredId) (day : String)

theorem chargedOn_snoc (applied : List ProjectionCommand) (command : ProjectionCommand) :
    chargedOn day (applied ++ [command]) =
      chargedOn day applied + if command.flattenChargeDay = day then command.flattenChargeDelta else 0 := by
  simp [chargedOn]

theorem chargedOn_le_append (applied later : List ProjectionCommand) :
    chargedOn day applied ≤ chargedOn day (applied ++ later) := by
  have hnonneg : 0 ≤ chargedOn day later := by
    apply List.sum_nonneg
    intro q hq
    obtain ⟨command, -, rfl⟩ := List.mem_map.mp hq
    split
    · exact command.chargeNonneg
    · exact le_rfl
  have hsum : chargedOn day (applied ++ later) = chargedOn day applied + chargedOn day later := by
    simp [chargedOn]
  rw [hsum]
  exact le_add_of_nonneg_right hnonneg

section

variable {sha256 : Sha256} {row : ProjectionSnapshot} {command : ProjectionCommand}

theorem projectSnapshot_cases (sha256 : Sha256) (row : ProjectionSnapshot) (command : ProjectionCommand) :
    projectSnapshot sha256 row command = (row, false) ∨
      ((projectSnapshot sha256 row command).2 = true ∧
        (projectSnapshot sha256 row command).1.flattenCharges =
          some (round2Price (row.charges.add (.fin command.flattenChargeDelta))) ∧
        (command.flattenChargeDelta = 0 →
          (projectSnapshot sha256 row command).1.flattenChargeDay = row.flattenChargeDay ∧
          (projectSnapshot sha256 row command).1.flattenChargesForDay = some (row.flattenChargesForDay.getD (.fin 0))) ∧
        (0 < command.flattenChargeDelta →
          (projectSnapshot sha256 row command).1.flattenChargeDay = some command.flattenChargeDay ∧
          (projectSnapshot sha256 row command).1.flattenChargesForDay = some (round2Price <| Number.add
            (if row.flattenChargeDay = some command.flattenChargeDay then readCharges row.flattenChargesForDay else .fin 0)
            (.fin command.flattenChargeDelta)))) := by
  simp only [projectSnapshot, transitionResidualProjectionSnapshot]
  split
  · exact .inl (by simp [snapshotResult])
  · split
    · exact .inl (by simp [snapshotResult])
    · refine .inr ⟨by simp [snapshotResult], rfl, ?_, ?_⟩
      · intro hzero
        simp [hzero]
      · intro hpos
        simp [hpos]

theorem ProjectionSnapshot.InBuckets.bucketOf {total bucket : ℕ} (h : row.InBuckets total bucket) (day : String) :
    row.bucketOf day = if row.flattenChargeDay = some day then (bucket : ℚ) / 100 else 0 := by
  unfold ProjectionSnapshot.bucketOf
  rw [finiteCharge_of_read h.forDay ⟨bucket, rfl⟩]

theorem ProjectionSnapshot.InBuckets.project {total bucket : ℕ} (h : row.InBuckets total bucket)
    (hpaise : InWholePaise command.flattenChargeDelta) (happlied : (projectSnapshot sha256 row command).2 = true) :
    ∃ total' bucket' : ℕ, (projectSnapshot sha256 row command).1.InBuckets total' bucket' ∧
      (command.flattenChargeDelta = 0 → bucket' = bucket) ∧
      (0 < command.flattenChargeDelta →
        (bucket' : ℚ) / 100 = row.bucketOf command.flattenChargeDay + command.flattenChargeDelta) := by
  obtain ⟨n, hn⟩ := hpaise
  rcases projectSnapshot_cases sha256 row command with hsame | ⟨-, hcharges, hzero, hpos⟩
  · rw [hsame] at happlied
    cases happlied
  · have htotal : (projectSnapshot sha256 row command).1.charges = .fin ((total + n : ℕ) / 100) := by
      rw [ProjectionSnapshot.charges, hcharges, h.charges, hn, round2Price_paise, readCharges_fin (by positivity)]
      push_cast
      rw [add_div]
    rcases command.chargeNonneg.eq_or_lt with hδ | hδ
    · refine ⟨total + n, bucket, ⟨htotal, ?_, h.within.trans (Nat.le_add_right ..)⟩, fun _ => rfl, fun hlt => ?_⟩
      · rw [(hzero hδ.symm).2]
        exact h.forDay
      · exact absurd hδ.symm hlt.ne'
    · rw [h.bucketOf]
      by_cases hday : row.flattenChargeDay = some command.flattenChargeDay
      · have hsum : ((bucket + n : ℕ) : ℚ) / 100 = bucket / 100 + n / 100 := by
          push_cast
          rw [add_div]
        refine ⟨total + n, bucket + n, ⟨htotal, ?_, Nat.add_le_add_right h.within n⟩, fun hzero' => ?_, fun _ => ?_⟩
        · rw [(hpos hδ).2, if_pos hday, h.forDay, hn, round2Price_paise, readCharges_fin (by positivity), hsum]
        · exact absurd hzero' hδ.ne'
        · rw [if_pos hday, hn, hsum]
      · have hsum := round2Price_paise 0 n
        simp only [Nat.cast_zero, zero_div, zero_add] at hsum
        refine ⟨total + n, n, ⟨htotal, ?_, Nat.le_add_left ..⟩, fun hzero' => ?_, fun _ => ?_⟩
        · rw [(hpos hδ).2, if_neg hday, hn, hsum, readCharges_fin (by positivity)]
        · exact absurd hzero' hδ.ne'
        · rw [if_neg hday, hn, zero_add]

end

/-! ## The row's run -/

/-- The row's charges are whole paise and those of the commands applied. -/
structure Charged (row : ProjectionSnapshot) (applied : List ProjectionCommand) : Prop where
  inBuckets : ∃ total bucket, row.InBuckets total bucket
  latest : (∀ command ∈ applied, command.flattenChargeDelta = 0) ∨ ∃ command ∈ applied,
    row.flattenChargeDay = some command.flattenChargeDay ∧ 0 < command.flattenChargeDelta ∧
      ∀ command' ∈ applied, 0 < command'.flattenChargeDelta → command'.flattenChargeDay ≤ command.flattenChargeDay
  bucket : ∀ day, row.flattenChargeDay = some day → row.bucketOf day = chargedOn day applied

variable {row : ProjectionSnapshot}

theorem Charged.uncharged (h : row.Uncharged) : Charged row [] where
  inBuckets := ⟨0, 0, by simpa using h.1, by simpa using h.2, le_rfl⟩
  latest := .inl (by simp)
  bucket := by
    intro day _
    have hzero : row.InBuckets 0 0 := ⟨by simpa using h.1, by simpa using h.2, le_rfl⟩
    rw [hzero.bucketOf]
    simp [chargedOn]

section

variable {sha256 : Sha256} {row : ProjectionSnapshot} {applied : List ProjectionCommand} {command : ProjectionCommand}

theorem Charged.project (h : Charged row applied) (hpaise : InWholePaise command.flattenChargeDelta)
    (happlied : (projectSnapshot sha256 row command).2 = true)
    (hday : ∀ command' ∈ applied, 0 < command'.flattenChargeDelta → 0 < command.flattenChargeDelta →
      command'.flattenChargeDay ≤ command.flattenChargeDay) :
    Charged (projectSnapshot sha256 row command).1 (applied ++ [command]) := by
  obtain ⟨total, bucket, hin⟩ := h.inBuckets
  obtain ⟨total', bucket', hin', hsame, hrise⟩ := hin.project hpaise happlied
  rcases projectSnapshot_cases sha256 row command with heq | ⟨-, -, hzero, hpos⟩
  · rw [heq] at happlied
    cases happlied
  rcases command.chargeNonneg.eq_or_lt with hδ | hδ
  · obtain ⟨hstays, -⟩ := hzero hδ.symm
    constructor
    case inBuckets => exact ⟨total', bucket', hin'⟩
    case latest =>
      rw [hstays]
      rcases h.latest with hnone | ⟨last, hlast, hdayOf, hpositive, hmost⟩
      · exact .inl (Run.forall_mem_snoc hnone hδ.symm)
      · refine .inr ⟨last, List.mem_append_left _ hlast, hdayOf, hpositive, ?_⟩
        exact Run.forall_mem_snoc hmost fun hlt => absurd hδ.symm hlt.ne'
    case bucket =>
      intro day hat
      rw [hstays] at hat
      rw [chargedOn_snoc, ← hδ, ite_self, add_zero, ← h.bucket day hat, hin'.bucketOf, hin.bucketOf, hstays, hsame hδ.symm]
  · obtain ⟨hmoves, -⟩ := hpos hδ
    constructor
    case inBuckets => exact ⟨total', bucket', hin'⟩
    case latest =>
      refine .inr ⟨command, List.mem_append_right _ (List.mem_singleton_self _), hmoves, hδ, ?_⟩
      exact Run.forall_mem_snoc (fun command' hmem hlt => hday command' hmem hlt hδ) fun _ => le_rfl
    case bucket =>
      intro day hat
      obtain rfl : command.flattenChargeDay = day := Option.some_inj.mp (hmoves.symm.trans hat)
      rw [hin'.bucketOf, if_pos hat, hrise hδ, chargedOn_snoc, if_pos rfl]
      congr 1
      by_cases hold : row.flattenChargeDay = some command.flattenChargeDay
      · exact h.bucket _ hold
      · rw [hin.bucketOf, if_neg hold]
        -- A charge of this day would be the last one, and the row would be at the day.
        symm
        apply List.sum_eq_zero
        intro q hq
        obtain ⟨command', hmem, rfl⟩ := List.mem_map.mp hq
        split
        next heq =>
          rcases command'.chargeNonneg.eq_or_lt with hnone | hlt
          · exact hnone.symm
          · rcases h.latest with hall | ⟨last, hlast, hdayOf, hpositive, hmost⟩
            · exact hall command' hmem
            · have hle : command.flattenChargeDay ≤ last.flattenChargeDay := heq ▸ hmost command' hmem hlt
              have hge := hday last hlast hpositive hδ
              exact absurd (hdayOf.trans (congrArg some (le_antisymm hge hle))) hold
        next => rfl

end

def DaysAscend (applied : List ProjectionCommand) : Prop :=
  applied.Pairwise fun command command' => 0 < command.flattenChargeDelta → 0 < command'.flattenChargeDelta →
    command.flattenChargeDay ≤ command'.flattenChargeDay

theorem Charged.run (sha256 : Sha256) (h : row.Uncharged) (commands : List ProjectionCommand)
    (hpaise : ∀ command ∈ CompareAndSet.effects (projectSnapshot sha256) row commands, InWholePaise command.flattenChargeDelta)
    (hdays : DaysAscend (CompareAndSet.effects (projectSnapshot sha256) row commands)) :
    Charged (Run.finish (projectSnapshot sha256) row commands)
      (CompareAndSet.effects (projectSnapshot sha256) row commands) := by
  induction commands using List.reverseRecOn with
  | nil => exact .uncharged h
  | append_singleton commands command ih =>
    rw [CompareAndSet.effects_append] at hpaise hdays ⊢
    rw [Run.finish_append, Run.finish_cons, Run.finish_nil]
    obtain ⟨hbefore, -, hacross⟩ := List.pairwise_append.mp hdays
    have hcharged := ih (fun command' hmem => hpaise command' (List.mem_append_left _ hmem)) hbefore
    rw [CompareAndSet.effects_cons, CompareAndSet.effects_nil] at hpaise hacross ⊢
    cases happlied : (projectSnapshot sha256 (Run.finish (projectSnapshot sha256) row commands) command).2 with
    | true =>
      simp only [happlied, if_true] at hpaise hacross ⊢
      refine hcharged.project (hpaise command (by simp)) happlied fun command' hmem => ?_
      exact hacross command' hmem command (List.mem_singleton_self _)
    | false =>
      rcases projectSnapshot_cases sha256 (Run.finish (projectSnapshot sha256) row commands) command with hsame | ⟨htrue, -⟩
      · simpa [hsame] using hcharged
      · rw [htrue] at happlied
        cases happlied

inductive ChargeDelivery where
  | adopted (currentDay : String) (row : ProjectionSnapshot)
  | persisted (command : ProjectionCommand) (status : ProjectionStatus) (row : ProjectionSnapshot)
  | compacted (retainAttemptIds : List String) (currentDay : String)

def ChargeDelivery.shown : ChargeDelivery → Option ProjectionSnapshot
  | adopted _ row => some row
  | persisted _ _ row => some row
  | compacted _ _ => none

namespace ObservedCharges

variable (sha256 : Sha256) (attemptId : StoredId)
variable (observed : ObservedCharges)

def deliver (delivery : ChargeDelivery) : ObservedCharges × Option NewCharge :=
  match delivery with
  | .adopted currentDay row =>
    let seen := adoptObservedFlattenCharges observed attemptId.text row.flattenCharges currentDay row.flattenChargeDay
      row.flattenChargesForDay
    (seen.observed, seen.emitted)
  | .persisted command status row =>
    let seen := (persistOwnedResidualProjection observed attemptId.text command fun _ => snapshotResult sha256 status row).2
    (seen.observed, seen.emitted)
  | .compacted retainAttemptIds currentDay =>
    ((compactObservedFlattenChargeWatermarks observed retainAttemptIds currentDay).1, none)

def seed (row : Option ProjectionSnapshot) : ObservedCharges :=
  match row with
  | none => observed
  | some row =>
    ⟨seedObservedFlattenCharges observed.byAttempt attemptId.text row.flattenCharges,
      observed.byAttemptDay.map fun days =>
        seedObservedFlattenChargesForDay days attemptId.text row.flattenChargeDay row.flattenChargesForDay⟩

def dayLevel (day : String) : ℚ :=
  Watermark.level (observed.byAttemptDay.getD []) (observedDayKey attemptId.text day)

end ObservedCharges

variable (day : String)

def chargeOn : Option NewCharge → ℚ
  | some ⟨charge, some observation⟩ => if observation.chargeDay = day then charge else 0
  | _ => 0

/-! ## One snapshot -/

theorem observedDayKey_inj {attemptId day day' : String} (h : observedDayKey attemptId day = observedDayKey attemptId day') :
    day = day' := by
  have hlist := congrArg String.toList h
  simp only [observedDayKey, String.toList_append, List.append_cancel_left_eq] at hlist
  exact String.toList_inj.mp hlist

theorem separated : ∀ c ∈ attemptId.text.toList, (!decide (c = nul)) = true := by
  intro c hc
  rw [Bool.not_eq_true', decide_eq_false_iff_not]
  rintro rfl
  exact attemptId.noNul hc

theorem keyAttempt_observedDayKey : keyAttempt (observedDayKey attemptId.text day) = attemptId.text := by
  simp [keyAttempt, observedDayKey, List.takeWhile_append_of_pos (separated attemptId)]

theorem keyDay_observedDayKey : keyDay (observedDayKey attemptId.text day) = day := by
  simp [keyDay, observedDayKey, List.dropWhile_append_of_pos (separated attemptId)]

theorem level_set_day {days : List (String × ℚ)} {attemptId day day' : String} {charges : ℚ} :
    Watermark.level (Watermark.set days (observedDayKey attemptId day') charges) (observedDayKey attemptId day) =
      if day' = day then charges else Watermark.level days (observedDayKey attemptId day) := by
  split
  next heq => rw [heq, Watermark.level_set_self]
  next hne => exact Watermark.level_set_of_ne fun hkey => hne (observedDayKey_inj hkey).symm

/-- The watermark of this attempt and day is in use. -/
structure Watching (attemptId : StoredId) (day : String) (observed : ObservedCharges) : Prop where
  supplied : ∃ days, observed.byAttemptDay = some days
  paise : InWholePaise (observed.dayLevel attemptId day)
  lifetime : Watermark.get? observed.byAttempt attemptId.text = none → observed.dayLevel attemptId day = 0

structure Rises (attemptId : StoredId) (day : String) (before : ObservedCharges) (value : ℚ) (after : ObservedCharges)
    (emitted : Option NewCharge) : Prop where
  watching : Watching attemptId day after
  level : after.dayLevel attemptId day = max (before.dayLevel attemptId day) value
  emitted : chargeOn day emitted + before.dayLevel attemptId day = after.dayLevel attemptId day

section

variable {attemptId : StoredId} {day : String} {observed after : ObservedCharges} {value cumulative : ℚ}
variable {chargeDay : Option String} {chargesForDay : Option Number}

theorem paise_max {a b : ℚ} (ha : InWholePaise a) (hb : InWholePaise b) : InWholePaise (max a b) := by
  rcases max_choice a b with h | h
  · rwa [h]
  · rwa [h]

theorem get?_lifetime {marks : List (String × ℚ)} {k : String}
    (h : Watermark.get? (if Watermark.level marks k < cumulative then Watermark.set marks k cumulative else marks) k = none) :
    Watermark.get? marks k = none ∧ cumulative ≤ 0 := by
  split at h
  · rw [Watermark.get?_set_self] at h
    cases h
  next hnot =>
    rw [Watermark.level_of_get?_none h] at hnot
    exact ⟨h, not_lt.mp hnot⟩

theorem Watching.rises (h : Watching attemptId day observed) (hvalue : InWholePaise value) (hle : value ≤ cumulative)
    {emitted : Option NewCharge} (hsupplied : ∃ days, after.byAttemptDay = some days)
    (hlifetime : Watermark.get? after.byAttempt attemptId.text = none →
      Watermark.get? observed.byAttempt attemptId.text = none ∧ cumulative ≤ 0)
    (hlevel : after.dayLevel attemptId day = max (observed.dayLevel attemptId day) value)
    (hemitted : chargeOn day emitted + observed.dayLevel attemptId day = max (observed.dayLevel attemptId day) value) :
    Rises attemptId day observed value after emitted where
  watching := by
    refine ⟨hsupplied, ?_, ?_⟩
    · rw [hlevel]
      exact paise_max h.paise hvalue
    · intro hnone
      obtain ⟨hold, hzero⟩ := hlifetime hnone
      rw [hlevel, h.lifetime hold]
      exact max_eq_left (hle.trans hzero)
  level := hlevel
  emitted := by rw [hlevel, hemitted]

def bucketShown (day : String) (chargeDay : Option String) (chargesForDay : Option Number) : ℚ :=
  if chargeDay = some day then (finiteCharge? chargesForDay).getD 0 else 0

theorem paise_bucketShown (hpaise : InWholePaise ((finiteCharge? chargesForDay).getD 0)) :
    InWholePaise (bucketShown day chargeDay chargesForDay) := by
  unfold bucketShown
  split
  · exact hpaise
  · exact ⟨0, by simp⟩

theorem bucketShown_le (hcumulative : InWholePaise cumulative) (hle : (finiteCharge? chargesForDay).getD 0 ≤ cumulative) :
    bucketShown day chargeDay chargesForDay ≤ cumulative := by
  unfold bucketShown
  split
  · exact hle
  · exact paise_nonneg hcumulative

theorem bucketShown_eq_zero (hday : day ≠ "")
    (hnone : ∀ day' charges, dayOf chargeDay = some day' → finiteCharge? chargesForDay = some charges → False) :
    bucketShown day chargeDay chargesForDay = 0 := by
  unfold bucketShown
  split
  next heq =>
    cases hcharges : finiteCharge? chargesForDay with
    | none => rfl
    | some charges => exact (hnone day charges (by simp [dayOf, heq, hday]) hcharges).elim
  next => rfl

theorem reconcile_rises (h : Watching attemptId day observed) (hday : day ≠ "") (hcumulative : InWholePaise cumulative)
    (hpaise : InWholePaise ((finiteCharge? chargesForDay).getD 0)) (hle : (finiteCharge? chargesForDay).getD 0 ≤ cumulative) :
    Rises attemptId day observed (bucketShown day chargeDay chargesForDay)
      (reconcileObservedFlattenCharges observed attemptId.text (some (.fin cumulative)) chargeDay chargesForDay).observed
      (reconcileObservedFlattenCharges observed attemptId.text (some (.fin cumulative)) chargeDay chargesForDay).emitted := by
  obtain ⟨days, hdays⟩ := h.supplied
  have hvalue : InWholePaise (bucketShown day chargeDay chargesForDay) := paise_bucketShown hpaise
  have hvalueLe : bucketShown day chargeDay chargesForDay ≤ cumulative := bucketShown_le hcumulative hle
  -- the level of a day is the watermark under its key
  have hlevel : observed.dayLevel attemptId day = Watermark.level days (observedDayKey attemptId.text day) := by
    simp [ObservedCharges.dayLevel, hdays]
  have hnonneg := paise_nonneg h.paise
  simp only [reconcileObservedFlattenCharges, finiteCharge_fin hcumulative, hdays]
  split
  next days' day' charges hsome hday' hcharges =>
    cases hsome
    obtain ⟨hchargeDay, -⟩ := Option.filter_eq_some_iff.mp hday'
    have hshown : bucketShown day chargeDay chargesForDay = if day' = day then charges else 0 := by
      simp [bucketShown, hchargeDay, hcharges]
    rw [hcharges, Option.getD_some] at hpaise
    split
    next hseen =>
      have hmax : max (observed.dayLevel attemptId day) (bucketShown day chargeDay chargesForDay) =
          observed.dayLevel attemptId day := by
        rw [hshown]
        split
        next heq => exact max_eq_left (hlevel ▸ heq ▸ hseen)
        next => exact max_eq_left hnonneg
      apply h.rises hvalue hvalueLe ⟨days, rfl⟩ get?_lifetime
      · rw [hmax, hlevel, ObservedCharges.dayLevel]
        simp
      · rw [hmax]
        exact zero_add _
    next hnew =>
      have hmax : max (observed.dayLevel attemptId day) (bucketShown day chargeDay chargesForDay) =
          if day' = day then charges else observed.dayLevel attemptId day := by
        rw [hshown]
        split
        next heq => exact max_eq_right (hlevel ▸ heq ▸ (not_le.mp hnew).le)
        next => exact max_eq_left hnonneg
      apply h.rises hvalue hvalueLe ⟨_, rfl⟩ get?_lifetime
      · rw [hmax, ObservedCharges.dayLevel, Option.getD_some, level_set_day, hlevel]
      · rw [hmax, chargeOn]
        split
        next heq =>
          obtain rfl : day' = day := heq
          rw [hlevel, round2_sub_paise hpaise (hlevel ▸ h.paise), sub_add_cancel]
        next => exact zero_add _
  next hnone =>
    have hshown : bucketShown day chargeDay chargesForDay = 0 := bucketShown_eq_zero hday fun day' charges => hnone _ _ _ rfl
    apply h.rises hvalue hvalueLe ⟨days, by simp⟩ get?_lifetime
    · rw [hshown, max_eq_left hnonneg, hlevel, ObservedCharges.dayLevel]
      simp
    · rw [hshown, max_eq_left hnonneg]
      have hzero : ∀ delta : ℚ, chargeOn day (if 0 < delta then some ⟨delta, none⟩ else none) = 0 := by
        intro delta
        split <;> rfl
      rw [hzero, zero_add]

theorem level_seedDay (hday : day ≠ "") {days : List (String × ℚ)}
    (hnonneg : 0 ≤ Watermark.level days (observedDayKey attemptId.text day)) :
    Watermark.level (seedObservedFlattenChargesForDay days attemptId.text chargeDay chargesForDay)
        (observedDayKey attemptId.text day) =
      max (Watermark.level days (observedDayKey attemptId.text day)) (bucketShown day chargeDay chargesForDay) := by
  unfold seedObservedFlattenChargesForDay
  split
  next day' charges hday' hcharges =>
    obtain ⟨hchargeDay, -⟩ := Option.filter_eq_some_iff.mp hday'
    rw [Watermark.raise, level_set_day, bucketShown, hchargeDay, hcharges]
    by_cases heq : day' = day
    · simp [heq]
    · simp [heq, hnonneg]
  next hnone =>
    rw [bucketShown_eq_zero hday hnone, max_eq_left hnonneg]

theorem adopt_rises (h : Watching attemptId day observed) (hday : day ≠ "") {currentDay : String}
    (htimely : currentDay = day ∨ chargeDay ≠ some day) {cumulativeCharges : Option Number}
    (hcumulative : InWholePaise ((finiteCharge? cumulativeCharges).getD 0))
    (hpaise : InWholePaise ((finiteCharge? chargesForDay).getD 0))
    (hle : (finiteCharge? chargesForDay).getD 0 ≤ (finiteCharge? cumulativeCharges).getD 0) :
    Rises attemptId day observed (bucketShown day chargeDay chargesForDay)
      (adoptObservedFlattenCharges observed attemptId.text cumulativeCharges currentDay chargeDay chargesForDay).observed
      (adoptObservedFlattenCharges observed attemptId.text cumulativeCharges currentDay chargeDay chargesForDay).emitted := by
  unfold adoptObservedFlattenCharges
  split
  next => exact reconcile_rises h hday hcumulative hpaise hle
  next hnone =>
    obtain ⟨days, hdays⟩ := h.supplied
    have hzero := h.lifetime hnone
    have hlevel : Watermark.level days (observedDayKey attemptId.text day) = 0 := by
      rw [← hzero]
      simp [ObservedCharges.dayLevel, hdays]
    have hvalue : InWholePaise (bucketShown day chargeDay chargesForDay) := paise_bucketShown hpaise
    have hvalueLe : bucketShown day chargeDay chargesForDay ≤ (finiteCharge? cumulativeCharges).getD 0 :=
      bucketShown_le hcumulative hle
    have hemitted : ∀ today : ℚ, today = (if chargeDay = some currentDay then (finiteCharge? chargesForDay).getD 0 else 0) →
        chargeOn day (if 0 < today then some ⟨today, some ⟨currentDay, 0, today⟩⟩ else none) =
          bucketShown day chargeDay chargesForDay := by
      rintro today htoday
      have hnonneg : 0 ≤ today := by
        rw [htoday]
        split
        · exact paise_nonneg hpaise
        · exact le_rfl
      -- A bucket of the day is today's, or nothing was charged to it.
      rcases htimely with rfl | hother
      · split
        next hpos => rw [bucketShown, ← htoday]; exact if_pos rfl
        next hnot => rw [bucketShown, ← htoday, le_antisymm (not_lt.mp hnot) hnonneg]; rfl
      · rw [bucketShown, if_neg hother]
        split
        next hpos =>
          apply if_neg
          rintro rfl
          rw [if_neg hother] at htoday
          exact absurd htoday hpos.ne'
        next => rfl
    apply h.rises hvalue hvalueLe ⟨_, by simp only [hdays]; rfl⟩
    · intro hget
      rw [Watermark.get?_set_self] at hget
      cases hget
    · rw [hzero, ObservedCharges.dayLevel]
      simp only [hdays, Option.map_some, Option.getD_some]
      rw [level_seedDay hday hlevel.ge, hlevel]
    · rw [hzero, add_zero, hemitted _ rfl]
      exact (max_eq_right (paise_nonneg hvalue)).symm

theorem compacted_rises (h : Watching attemptId day observed) {retainAttemptIds : List String}
    (hretain : attemptId.text ∈ retainAttemptIds) :
    Rises attemptId day observed 0 (compactObservedFlattenChargeWatermarks observed retainAttemptIds day).1 none := by
  obtain ⟨days, hdays⟩ := h.supplied
  have hsame : (compactObservedFlattenChargeWatermarks observed retainAttemptIds day).1.dayLevel attemptId day =
      observed.dayLevel attemptId day := by
    simp only [ObservedCharges.dayLevel, compactObservedFlattenChargeWatermarks, hdays, Option.map_some, Option.getD_some,
      compactDays, Watermark.level]
    rw [Watermark.get?_filter]
    intro charges
    simp [keyAttempt_observedDayKey, keyDay_observedDayKey, hretain]
  have hmax : max (observed.dayLevel attemptId day) 0 = observed.dayLevel attemptId day := max_eq_left (paise_nonneg h.paise)
  constructor
  case watching =>
    refine ⟨⟨_, by simp only [compactObservedFlattenChargeWatermarks, hdays]; rfl⟩, ?_, ?_⟩
    · rw [hsame]
      exact h.paise
    · intro hnone
      rw [hsame]
      apply h.lifetime
      rw [← hnone, compactObservedFlattenChargeWatermarks, Watermark.get?_filter]
      simp [hretain]
  case level => rw [hsame, hmax]
  case emitted => rw [hsame]; exact zero_add _

end

/-! ## Deliveries -/

def ChargeDelivery.Of (attemptId : StoredId) (day : String) (states : ProjectionSnapshot → Prop) : ChargeDelivery → Prop
  | adopted currentDay row => states row ∧ (currentDay = day ∨ row.flattenChargeDay ≠ some day)
  | persisted _ status row => states row ∧ status ≠ .notFound
  | compacted retainAttemptIds currentDay => attemptId.text ∈ retainAttemptIds ∧ currentDay = day

def bucketsOf (shown : List ProjectionSnapshot) : Set ℚ := insert 0 {q | ∃ row ∈ shown, row.bucketOf day = q}

theorem bucketsOf_snoc (shown : List ProjectionSnapshot) (row : ProjectionSnapshot) :
    bucketsOf day (shown ++ [row]) = insert (row.bucketOf day) (bucketsOf day shown) := by
  have hset : {q | ∃ row' ∈ shown ++ [row], row'.bucketOf day = q} =
      insert (row.bucketOf day) {q | ∃ row' ∈ shown, row'.bucketOf day = q} := by
    ext q
    simp [or_and_right, exists_or, or_comm, eq_comm]
  rw [bucketsOf, hset, bucketsOf, Set.insert_comm]

def emittedOn (emitted : List (Option NewCharge)) : ℚ := (emitted.map (chargeOn day)).sum

structure Unseen (attemptId : StoredId) (day : String) (observed : ObservedCharges) : Prop where
  supplied : ∃ days, observed.byAttemptDay = some days
  lifetime : Watermark.get? observed.byAttempt attemptId.text = none
  bucket : observed.dayLevel attemptId day = 0

section

variable (sha256 : Sha256) {attemptId : StoredId} {day : String} (hday : day ≠ "") {states : ProjectionSnapshot → Prop}
variable (hstates : ∀ row, states row → ∃ total bucket, row.InBuckets total bucket)
include hday hstates

variable {observed : ObservedCharges}

theorem deliver_rises (h : Watching attemptId day observed) {delivery : ChargeDelivery}
    (hdelivery : delivery.Of attemptId day states) :
    Rises attemptId day observed ((delivery.shown.map (ProjectionSnapshot.bucketOf day)).getD 0)
      (observed.deliver sha256 attemptId delivery).1 (observed.deliver sha256 attemptId delivery).2 := by
  cases delivery with
  | adopted currentDay row =>
    obtain ⟨hrow, htimely⟩ := hdelivery
    obtain ⟨total, bucket, hin⟩ := hstates row hrow
    have htotal := finiteCharge_of_read hin.charges ⟨total, rfl⟩
    have hbucket := finiteCharge_of_read hin.forDay ⟨bucket, rfl⟩
    refine adopt_rises h hday htimely ?_ ?_ ?_
    · exact ⟨total, htotal⟩
    · exact ⟨bucket, hbucket⟩
    · rw [htotal, hbucket]
      have hwithin : (bucket : ℚ) ≤ total := by exact_mod_cast hin.within
      linarith
  | persisted command status row =>
    obtain ⟨hrow, hstatus⟩ := hdelivery
    obtain ⟨total, bucket, hin⟩ := hstates row hrow
    have htotal : (snapshotResult sha256 status row).flattenCharges = some (.fin (total / 100)) := by
      have hread : readCharges row.flattenCharges = .fin (total / 100) := hin.charges
      simp only [snapshotResult, hread, round2Price, round2_of_paise ⟨total, rfl⟩]
    have hbucket : (snapshotResult sha256 status row).flattenChargesForDay = some (.fin (bucket / 100)) := by
      simp only [snapshotResult, hin.forDay, round2Price, round2_of_paise ⟨bucket, rfl⟩]
    have hfinite : finiteCharge? (some (.fin ((bucket : ℚ) / 100))) = some ((bucket : ℚ) / 100) :=
      finiteCharge_fin ⟨bucket, rfl⟩
    have hshown : row.bucketOf day = bucketShown day row.flattenChargeDay (some (.fin (bucket / 100))) := by
      rw [hin.bucketOf, bucketShown, hfinite, Option.getD_some]
    have hcalled : (snapshotResult sha256 status row).status ≠ .notFound ∧
        (snapshotResult sha256 status row).flattenCharges ≠ none := ⟨hstatus, by simp [htotal]⟩
    simp only [ObservedCharges.deliver, persistOwnedResidualProjection, if_pos hcalled, ChargeDelivery.shown, Option.map_some,
      Option.getD_some, hshown]
    rw [htotal, hbucket]
    apply reconcile_rises h hday ⟨total, rfl⟩
    · exact ⟨bucket, by rw [hfinite, Option.getD_some]⟩
    · rw [hfinite, Option.getD_some]
      have hwithin : (bucket : ℚ) ≤ total := by exact_mod_cast hin.within
      linarith
  | compacted retainAttemptIds currentDay =>
    obtain ⟨hretain, rfl⟩ := hdelivery
    exact compacted_rises h hretain

theorem deliveries_rise (h : Watching attemptId day observed) {shown : List ProjectionSnapshot}
    (hgreatest : IsGreatest (bucketsOf day shown) (observed.dayLevel attemptId day))
    {deliveries : List ChargeDelivery} (hdeliveries : ∀ delivery ∈ deliveries, delivery.Of attemptId day states) :
    IsGreatest (bucketsOf day (shown ++ deliveries.filterMap ChargeDelivery.shown))
        ((Run.finish (ObservedCharges.deliver sha256 attemptId) observed deliveries).dayLevel attemptId day) ∧
      emittedOn day (Run.answers (ObservedCharges.deliver sha256 attemptId) observed deliveries) +
          observed.dayLevel attemptId day =
        (Run.finish (ObservedCharges.deliver sha256 attemptId) observed deliveries).dayLevel attemptId day := by
  induction deliveries generalizing observed shown with
  | nil => exact ⟨by simpa using hgreatest, by simp [emittedOn]⟩
  | cons delivery deliveries ih =>
    have hrises := deliver_rises sha256 hday hstates h (hdeliveries delivery (.head _))
    have hnext : IsGreatest (bucketsOf day (shown ++ delivery.shown.toList))
        ((observed.deliver sha256 attemptId delivery).1.dayLevel attemptId day) := by
      rw [hrises.level]
      cases hshown : delivery.shown with
      | none =>
        have hzero : (0 : ℚ) ≤ observed.dayLevel attemptId day := hgreatest.2 (Set.mem_insert ..)
        simpa [max_eq_left hzero] using hgreatest
      | some row =>
        simp only [Option.toList_some, Option.map_some, Option.getD_some, bucketsOf_snoc]
        rw [max_comm]
        exact hgreatest.insert _
    obtain ⟨hgreatest', hsum⟩ := ih hrises.watching hnext fun delivery' hmem =>
      hdeliveries delivery' (.tail _ hmem)
    constructor
    · have hlist : (delivery :: deliveries).filterMap ChargeDelivery.shown =
          delivery.shown.toList ++ deliveries.filterMap ChargeDelivery.shown := by
        cases hshown : delivery.shown <;> simp [hshown]
      rw [hlist, ← List.append_assoc]
      exact hgreatest'
    · rw [Run.finish_cons, ← hsum, Run.answers_cons, emittedOn, List.map_cons, List.sum_cons, ← hrises.emitted, emittedOn]
      ring

theorem seed_watching (h : Unseen attemptId day observed) {seeded : Option ProjectionSnapshot}
    (hseeded : ∀ row ∈ seeded, states row) :
    Watching attemptId day (observed.seed attemptId seeded) ∧
      (observed.seed attemptId seeded).dayLevel attemptId day =
        (seeded.map (ProjectionSnapshot.bucketOf day)).getD 0 ∧
      IsGreatest (bucketsOf day seeded.toList) ((observed.seed attemptId seeded).dayLevel attemptId day) := by
  cases seeded with
  | none =>
    refine ⟨⟨h.supplied, ⟨0, ?_⟩, fun _ => h.bucket⟩, h.bucket, ?_⟩
    · rw [Nat.cast_zero, zero_div]
      exact h.bucket
    · simp [ObservedCharges.seed, h.bucket, bucketsOf]
  | some row =>
    obtain ⟨total, bucket, hin⟩ := hstates row (hseeded row rfl)
    obtain ⟨days, hdays⟩ := h.supplied
    have hold : Watermark.level days (observedDayKey attemptId.text day) = 0 := by
      rw [← h.bucket]
      simp [ObservedCharges.dayLevel, hdays]
    have hpaise : InWholePaise (row.bucketOf day) := paise_bucketShown ⟨bucket, finiteCharge_of_read hin.forDay ⟨bucket, rfl⟩⟩
    have hlevel : (observed.seed attemptId (some row)).dayLevel attemptId day = row.bucketOf day := by
      simp only [ObservedCharges.seed, ObservedCharges.dayLevel, hdays, Option.map_some, Option.getD_some]
      rw [level_seedDay hday hold.ge, hold]
      exact max_eq_right (paise_nonneg hpaise)
    refine ⟨⟨⟨_, by simp only [ObservedCharges.seed, hdays]; rfl⟩, hlevel ▸ hpaise, ?_⟩, hlevel, ?_⟩
    · intro hnone
      simp [ObservedCharges.seed, seedObservedFlattenCharges, Watermark.raise] at hnone
    · rw [hlevel]
      constructor
      · exact Set.mem_insert_of_mem _ ⟨row, by simp, rfl⟩
      · rintro q (rfl | ⟨row', hmem, rfl⟩)
        · exact paise_nonneg hpaise
        · obtain rfl : row' = row := by simpa using hmem
          exact le_rfl

end

/-! ## Every run -/

def StateOf (sha256 : Sha256) (row : ProjectionSnapshot) (commands : List ProjectionCommand) (state : ProjectionSnapshot) :
    Prop :=
  ∃ earlier, earlier <+: commands ∧ state = Run.finish (projectSnapshot sha256) row earlier

theorem charged_of_state {sha256 : Sha256} (hrow : row.Uncharged) {commands : List ProjectionCommand}
    (hpaise : ∀ command ∈ CompareAndSet.effects (projectSnapshot sha256) row commands, InWholePaise command.flattenChargeDelta)
    (hdays : DaysAscend (CompareAndSet.effects (projectSnapshot sha256) row commands)) {state : ProjectionSnapshot}
    (hstate : StateOf sha256 row commands state) :
    ∃ applied later, CompareAndSet.effects (projectSnapshot sha256) row commands = applied ++ later ∧
      Charged state applied := by
  obtain ⟨earlier, ⟨rest, rfl⟩, rfl⟩ := hstate
  rw [CompareAndSet.effects_append] at hpaise hdays ⊢
  refine ⟨_, _, rfl, .run sha256 hrow earlier (fun command hmem => hpaise command (List.mem_append_left _ hmem)) ?_⟩
  exact (List.pairwise_append.mp hdays).1

/-- A row that starts without charges, its states delivered in any order. -/
theorem charge_debited_once (sha256 : Sha256) {row : ProjectionSnapshot} (hrow : row.Uncharged)
    (commands : List ProjectionCommand)
    (hpaise : ∀ command ∈ CompareAndSet.effects (projectSnapshot sha256) row commands,
      InWholePaise command.flattenChargeDelta)
    (hdays : DaysAscend (CompareAndSet.effects (projectSnapshot sha256) row commands))
    {attemptId : StoredId} {day : String} (hday : day ≠ "") {observed : ObservedCharges}
    (hunseen : Unseen attemptId day observed) {seeded : Option ProjectionSnapshot}
    (hseeded : ∀ state ∈ seeded, StateOf sha256 row commands state) {deliveries : List ChargeDelivery}
    (hdeliveries : ∀ delivery ∈ deliveries, delivery.Of attemptId day (StateOf sha256 row commands)) :
    let emitted := Run.answers (ObservedCharges.deliver sha256 attemptId) (observed.seed attemptId seeded) deliveries
    let debited := emittedOn day emitted + (seeded.map (ProjectionSnapshot.bucketOf day)).getD 0
    let shown := seeded.toList ++ deliveries.filterMap ChargeDelivery.shown
    let final := Run.finish (projectSnapshot sha256) row commands
    IsGreatest (bucketsOf day shown) debited ∧
      (final ∈ shown → final.flattenChargeDay = some day →
        debited = chargedOn day (CompareAndSet.effects (projectSnapshot sha256) row commands)) := by
  have hstates : ∀ state, StateOf sha256 row commands state → ∃ total bucket, state.InBuckets total bucket := by
    intro state hstate
    obtain ⟨applied, -, -, hcharged⟩ := charged_of_state hrow hpaise hdays hstate
    exact hcharged.inBuckets
  obtain ⟨hwatching, hlevel, hgreatest⟩ := seed_watching hday hstates hunseen hseeded
  obtain ⟨hfinal, hsum⟩ := deliveries_rise sha256 hday hstates hwatching hgreatest hdeliveries
  rw [hlevel] at hsum
  rw [← hsum] at hfinal
  refine ⟨hfinal, fun hmem hat => ?_⟩
  have hlast := Charged.run sha256 hrow commands hpaise hdays
  rw [← hlast.bucket day hat]
  apply le_antisymm
  · -- Every bucket of the day that was shown is a sum of some of its charges.
    rcases hfinal.1 with hzero | ⟨state, hshown, hbucket⟩
    · obtain ⟨total, bucket, hin⟩ := hlast.inBuckets
      rw [hzero, hin.bucketOf, if_pos hat]
      positivity
    · have hstate : StateOf sha256 row commands state := by
        rcases List.mem_append.mp hshown with hseed | hdelivered
        · exact hseeded state (Option.mem_toList.mp hseed)
        · obtain ⟨delivery, hdelivery, hof⟩ := List.mem_filterMap.mp hdelivered
          have hvalid := hdeliveries delivery hdelivery
          cases delivery <;> cases hof <;> exact hvalid.1
      obtain ⟨applied, later, heffects, hcharged⟩ := charged_of_state hrow hpaise hdays hstate
      rw [← hbucket, hlast.bucket day hat]
      by_cases hatDay : state.flattenChargeDay = some day
      · rw [hcharged.bucket day hatDay, heffects]
        exact chargedOn_le_append day applied later
      · obtain ⟨total, bucket, hin⟩ := hcharged.inBuckets
        rw [hin.bucketOf, if_neg hatDay]
        exact chargedOn_le_append day [] _
  · exact hfinal.2 (Set.mem_insert_of_mem _ ⟨_, hmem, rfl⟩)

def flattened : List ProjectionCommand :=
  [createResidualProjectionCommand spelledOut (partialFlatten 0), createResidualProjectionCommand spelledOut (lastFlatten 1)]

def closedRow : ProjectionSnapshot := Run.finish (projectSnapshot spelledOut) (legacyRow none) flattened

def partlyClosedRow : ProjectionSnapshot := Run.finish (projectSnapshot spelledOut) (legacyRow none) (flattened.take 1)

def firstAttempt : StoredId := ⟨"a", by decide⟩

def deliveredTwice : List ChargeDelivery :=
  [.adopted "2026-09-07" closedRow, .compacted ["a"] "2026-09-07",
    .persisted (createResidualProjectionCommand spelledOut (partialFlatten 0)) .stale partlyClosedRow,
    .adopted "2026-09-07" closedRow]

theorem charge_debited_once_twice :
    emittedOn "2026-09-07" (Run.answers (ObservedCharges.deliver spelledOut firstAttempt) ⟨[], some []⟩ deliveredTwice) + 0 =
      chargedOn "2026-09-07" (CompareAndSet.effects (projectSnapshot spelledOut) (legacyRow none) flattened) := by
  have hclosed : StateOf spelledOut (legacyRow none) flattened closedRow := ⟨flattened, List.prefix_refl _, rfl⟩
  have hpartly : StateOf spelledOut (legacyRow none) flattened partlyClosedRow := ⟨_, List.take_prefix 1 _, rfl⟩
  have hcharges : ∀ command ∈ CompareAndSet.effects (projectSnapshot spelledOut) (legacyRow none) flattened,
      command.flattenChargeDelta = 2 := by decide +kernel
  have hat : closedRow.flattenChargeDay = some "2026-09-07" := by decide +kernel
  refine (@charge_debited_once spelledOut (legacyRow none) ?_ flattened ?_ ?_ firstAttempt "2026-09-07" (by decide)
    ⟨[], some []⟩ ?_ none ?_ deliveredTwice ?_).2 ?_ hat
  · exact ⟨by decide +kernel, by decide +kernel⟩
  · intro command hmem
    exact ⟨200, by rw [hcharges command hmem]; norm_num⟩
  · unfold DaysAscend
    decide +kernel
  · exact ⟨⟨[], rfl⟩, rfl, rfl⟩
  · simp
  · intro delivery hmem
    simp only [deliveredTwice, List.mem_cons, List.not_mem_nil, or_false] at hmem
    rcases hmem with rfl | rfl | rfl | rfl
    · exact ⟨hclosed, .inl rfl⟩
    · exact ⟨by simp [firstAttempt], rfl⟩
    · exact ⟨hpartly, by decide⟩
    · exact ⟨hclosed, .inl rfl⟩
  · exact List.mem_append_right _ (.head _)

end BoxEngine
