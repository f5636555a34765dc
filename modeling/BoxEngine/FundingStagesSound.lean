import BoxEngine.FundingStages
import Mathlib.Algebra.Order.BigOperators.Group.List

/-!
# What the funding stages come to

A sequence of known stages needs the greatest of the two margins and the whole BUY premium: the premium only grows
along it.
-/

namespace BoxEngine

open Js

theorem mathRound_mono {a b : ℚ} (h : a ≤ b) : mathRound a ≤ mathRound b := by
  unfold mathRound
  exact_mod_cast Int.floor_mono (add_le_add_left h (1 / 2))

theorem mathRound_intCast (n : ℤ) : mathRound n = n := by
  have : ⌊(n : ℚ) + 1 / 2⌋ = n := by
    rw [Int.floor_eq_iff]
    constructor <;> linarith
  unfold mathRound
  exact_mod_cast this

variable {a : ℚ}

theorem mathRound_nonneg (h : 0 ≤ a) : 0 ≤ mathRound a := by
  simpa using mathRound_mono h |>.trans' (mathRound_intCast 0).ge

theorem toPaise_nonneg (h : 0 ≤ a) : 0 ≤ toPaise (.fin a) := mathRound_nonneg (by positivity)

theorem toPaise_mono {a b : ℚ} (h : a ≤ b) : toPaise (.fin a) ≤ toPaise (.fin b) :=
  mathRound_mono (mul_le_mul_of_nonneg_right h (by norm_num))

theorem fromPaise_mono {a b : ℚ} (h : a ≤ b) : fromPaise a ≤ fromPaise b := by
  unfold fromPaise
  exact div_le_div_of_nonneg_right (mathRound_mono h) (by norm_num)

theorem fromPaise_intCast (n : ℤ) : fromPaise n = n / 100 := by rw [fromPaise, mathRound_intCast]

theorem BrokerOrderRequest.pos_of_priced {request : BrokerOrderRequest} (h : request.priced = true) :
    ∃ price quantity : ℚ, request.pricing.limitPrice = .fin price ∧ request.quantity = .fin quantity ∧
      0 < price ∧ 0 < quantity := by
  simp only [priced, boundedPrice, Bool.and_eq_true, decide_eq_true_eq] at h
  obtain ⟨⟨⟨hprice, hpos⟩, hquantity⟩, hqpos⟩ := h
  cases hp : request.pricing.limitPrice <;> simp_all [Number.isFinite]
  cases hq : request.quantity <;> simp_all

theorem legPaise_nonneg (request : BrokerOrderRequest) : 0 ≤ legPaise request := abs_nonneg _

section

variable (byRole : ByRole BrokerOrderRequest) (initialMarginRupees finalMarginRupees : Option Number) (n : ℕ)
variable (slot : EntrySubmissionSlot)

theorem slotPaise_nonneg : 0 ≤ (slotPaise byRole slot).getD 0 := by
  unfold slotPaise
  cases (byRole slot.role).filter BrokerOrderRequest.priced with
  | none => simp
  | some request => simpa using legPaise_nonneg request

def slotDebit (slot : EntrySubmissionSlot) : ℚ := if slot.side = .buy then (slotPaise byRole slot).getD 0 else 0

variable (slots : List EntrySubmissionSlot)

/-- The whole BUY premium of the legs. -/
def duePaise : ℚ := (slots.map (slotDebit byRole)).sum

theorem slotDebit_nonneg : 0 ≤ slotDebit byRole slot := by
  unfold slotDebit
  by_cases h : slot.side = .buy
  · simpa [h] using slotPaise_nonneg byRole slot
  · simp [h]

theorem duePaise_nonneg : 0 ≤ duePaise byRole slots :=
  List.sum_nonneg (by simpa using fun slot _ => slotDebit_nonneg byRole slot)

@[simp] theorem duePaise_cons :
    duePaise byRole (slot :: slots) = slotDebit byRole slot + duePaise byRole slots := by simp [duePaise]

def requirementsFrom : ℕ → ℚ → List EntrySubmissionSlot → List (Option ℚ)
  | _, _, [] => []
  | index, due, slot :: slots =>
    stageRequirement byRole initialMarginRupees finalMarginRupees n slot index (due + slotDebit byRole slot) ::
      requirementsFrom (index + 1) (due + slotDebit byRole slot) slots

theorem debitAfter_eq (scan : StageScan) (slot : EntrySubmissionSlot) :
    scan.debitAfter byRole slot = scan.debitPaise + slotDebit byRole slot := by
  unfold StageScan.debitAfter slotDebit
  by_cases h : slot.side = .buy <;> simp [h]

variable {byRole initialMarginRupees finalMarginRupees n}

/-- The scan lists, leg by leg, what the account must hold by then. -/
theorem scan_requirements (slots : List EntrySubmissionSlot) (scan : StageScan) :
    (slots.foldl (StageScan.step byRole initialMarginRupees finalMarginRupees n) scan).stages.map
        (·.requirementRupees) =
      scan.stages.map (·.requirementRupees) ++
        requirementsFrom byRole initialMarginRupees finalMarginRupees n scan.stages.length scan.debitPaise slots := by
  induction slots generalizing scan with
  | nil => simp [requirementsFrom]
  | cons slot slots ih =>
    rw [List.foldl_cons, ih]
    simp [StageScan.step, requirementsFrom, debitAfter_eq]

theorem scan_unknown (slots : List EntrySubmissionSlot) (scan : StageScan) :
    (slots.foldl (StageScan.step byRole initialMarginRupees finalMarginRupees n) scan).unknown =
      scan.unknown ++ (slots.zipIdx scan.stages.length).flatMap fun entry =>
        stageUnknown byRole initialMarginRupees finalMarginRupees n entry.1 entry.2 := by
  induction slots generalizing scan with
  | nil => simp
  | cons slot slots ih =>
    rw [List.foldl_cons, ih]
    simp [StageScan.step]

variable {index : ℕ}

theorem stageUnknown_eq_nil {slot : EntrySubmissionSlot} :
    stageUnknown byRole initialMarginRupees finalMarginRupees n slot index = [] ↔
      (slotPaise byRole slot).isSome = true ∧
        (stageMargin initialMarginRupees finalMarginRupees n index).isSome = true := by
  unfold stageUnknown
  cases slotPaise byRole slot <;> cases stageMargin initialMarginRupees finalMarginRupees n index <;> simp

/-! ## The worst stage -/

variable {initial final : ℚ}

theorem stageMargin_last (hfinal : usableFigure finalMarginRupees = some final) (h : index + 1 = n) :
    stageMargin initialMarginRupees finalMarginRupees n index = some final := by
  simp [stageMargin, h, hfinal]

theorem stageMargin_earlier (hinitial : usableFigure initialMarginRupees = some initial)
    (h : index + 1 ≠ n) : stageMargin initialMarginRupees finalMarginRupees n index = some initial := by
  simp [stageMargin, h, hinitial]

theorem stageRequirement_eq {slot : EntrySubmissionSlot} {due margin : ℚ}
    (hpriced : (slotPaise byRole slot).isSome = true)
    (hmargin : stageMargin initialMarginRupees finalMarginRupees n index = some margin) :
    stageRequirement byRole initialMarginRupees finalMarginRupees n slot index due =
      some (max margin (fromPaise due)) := by
  obtain ⟨paise, hpaise⟩ := Option.isSome_iff_exists.mp hpriced
  simp [stageRequirement, hpaise, hmargin]

/-- No stage asks for more than the greatest of the margins and the whole premium. -/
theorem requirement_le (hinitial : usableFigure initialMarginRupees = some initial)
    (hfinal : usableFigure finalMarginRupees = some final) {slots : List EntrySubmissionSlot} {due w : ℚ}
    (h : some w ∈ requirementsFrom byRole initialMarginRupees finalMarginRupees n index due slots) :
    w ≤ max (max initial final) (fromPaise (due + duePaise byRole slots)) := by
  induction slots generalizing index due with
  | nil => simp [requirementsFrom] at h
  | cons slot slots ih =>
    rw [duePaise_cons, ← add_assoc]
    obtain h | h := List.mem_cons.mp h
    · have hdue : due + slotDebit byRole slot ≤ due + slotDebit byRole slot + duePaise byRole slots :=
        le_add_of_nonneg_right (duePaise_nonneg byRole slots)
      have hmargin : ∃ margin, stageMargin initialMarginRupees finalMarginRupees n index = some margin ∧
          margin ≤ max initial final := by
        by_cases hlast : index + 1 = n
        · exact ⟨final, stageMargin_last hfinal hlast, le_max_right _ _⟩
        · exact ⟨initial, stageMargin_earlier hinitial hlast, le_max_left _ _⟩
      obtain ⟨margin, hmargin, hle⟩ := hmargin
      unfold stageRequirement at h
      cases hpaise : slotPaise byRole slot with
      | none => simp [hpaise] at h
      | some paise =>
        obtain rfl : w = max margin (fromPaise (due + slotDebit byRole slot)) := by simpa [hpaise, hmargin] using h
        exact max_le_max hle (fromPaise_mono hdue)
    · exact ih h

theorem exists_requirement_last (hfinal : usableFigure finalMarginRupees = some final)
    {slots : List EntrySubmissionSlot} (hne : slots ≠ [])
    (hpriced : ∀ slot ∈ slots, (slotPaise byRole slot).isSome = true) {due : ℚ}
    (hlength : index + slots.length = n) :
    some (max final (fromPaise (due + duePaise byRole slots))) ∈
      requirementsFrom byRole initialMarginRupees finalMarginRupees n index due slots := by
  induction slots generalizing index due with
  | nil => exact absurd rfl hne
  | cons slot slots ih =>
    rw [duePaise_cons, ← add_assoc]
    cases slots with
    | nil =>
      rw [requirementsFrom, stageRequirement_eq (hpriced slot (by simp)) (stageMargin_last hfinal hlength)]
      simp [requirementsFrom, duePaise]
    | cons next slots =>
      refine .tail _ (ih (by simp) (fun slot h => hpriced slot (.tail _ h)) ?_)
      simp only [List.length_cons] at hlength ⊢
      omega

/-- Some stage reaches that bound, so it is the worst one. -/
theorem max?_requirements (hinitial : usableFigure initialMarginRupees = some initial)
    (hfinal : usableFigure finalMarginRupees = some final) {first second : EntrySubmissionSlot}
    {slots : List EntrySubmissionSlot} (hn : (first :: second :: slots).length = n)
    (hpriced : ∀ slot ∈ first :: second :: slots, (slotPaise byRole slot).isSome = true) :
    ((requirementsFrom byRole initialMarginRupees finalMarginRupees n 0 0 (first :: second :: slots)).filterMap
        id).max? =
      some (max (max initial final) (fromPaise (duePaise byRole (first :: second :: slots)))) := by
  have hle {w : ℚ} (hw : some w ∈ requirementsFrom byRole initialMarginRupees finalMarginRupees n 0 0
      (first :: second :: slots)) := requirement_le hinitial hfinal hw
  have hlast : some (max final (fromPaise (0 + duePaise byRole (first :: second :: slots)))) ∈
      requirementsFrom byRole initialMarginRupees finalMarginRupees n 0 0 (first :: second :: slots) :=
    exists_requirement_last hfinal (List.cons_ne_nil first (second :: slots)) hpriced (by rw [Nat.zero_add, hn])
  have hfirst : some (max initial (fromPaise (0 + slotDebit byRole first))) ∈
      requirementsFrom byRole initialMarginRupees finalMarginRupees n 0 0 (first :: second :: slots) := by
    have hearlier : 0 + 1 ≠ n := by
      simp only [List.length_cons] at hn
      omega
    rw [requirementsFrom, stageRequirement_eq (hpriced first (by simp)) (stageMargin_earlier hinitial hearlier)]
    exact List.mem_cons_self
  simp only [zero_add] at hle hlast
  rw [List.max?_eq_some_iff]
  simp only [List.mem_filterMap, id_eq, exists_eq_right]
  refine ⟨?_, fun w hw => hle hw⟩
  -- the first stage is the worst one where the initial margin exceeds the rest, the last one otherwise
  by_cases hinit : initial ≤ max final (fromPaise (duePaise byRole (first :: second :: slots)))
  · rwa [max_assoc, max_eq_right hinit]
  · have hge : max (max initial final) (fromPaise (duePaise byRole (first :: second :: slots))) = initial := by
      rw [max_assoc, max_eq_left (le_of_not_ge hinit)]
    have heq := le_antisymm ((hle hfirst).trans_eq hge) (le_max_left _ _)
    rwa [hge, ← heq]

end

/-! ## The entry's sequence -/

section

variable {requests : List BrokerOrderRequest} {direction : BoxDirection}
variable {initialMarginRupees finalMarginRupees : Option Number}

theorem entrySubmissionOrder_sorted (direction : BoxDirection) :
    ((entrySubmissionOrder direction).insertionSort fun a b => a.rank ≤ b.rank) = entrySubmissionOrder direction := by
  cases direction <;> rfl

theorem entrySubmissionOrder_hedgeFirst (direction : BoxDirection) :
    (entrySubmissionOrder direction).Pairwise fun earlier later => later.side = .buy → earlier.side = .buy := by
  cases direction <;> decide

/-- The order of submission puts the BUYs first. -/
theorem buildFundingStages_hedgeFirstValid :
    (buildFundingStages requests (entrySubmissionOrder direction) initialMarginRupees
      finalMarginRupees).hedgeFirstValid = true := by
  cases direction <;> rfl

theorem slotPaise_isSome (byRole : ByRole BrokerOrderRequest) (slot : EntrySubmissionSlot) :
    (slotPaise byRole slot).isSome = (byRole slot.role).any (·.priced) := by
  unfold slotPaise
  cases byRole slot.role with
  | none => rfl
  | some request => cases h : request.priced <;> simp [Option.filter, h]

theorem stageMargin_isSome {n index : ℕ} :
    (stageMargin initialMarginRupees finalMarginRupees n index).isSome =
      if index + 1 = n then (usableFigure finalMarginRupees).isSome else (usableFigure initialMarginRupees).isSome := by
  unfold stageMargin
  by_cases h : index + 1 = n <;> simp [h]

theorem entrySubmissionOrder_length (direction : BoxDirection) : (entrySubmissionOrder direction).length = 4 := by
  cases direction <;> rfl

theorem mem_entrySubmissionOrder_roles (direction : BoxDirection) (role : BoxLegRole) :
    ∃ slot ∈ entrySubmissionOrder direction, slot.role = role := by
  cases direction <;> cases role <;> decide

theorem buildFundingStages_unknown :
    (buildFundingStages requests (entrySubmissionOrder direction) initialMarginRupees finalMarginRupees).unknown = [] ↔
      (∀ role, (requestsByRole requests role).any (·.priced) = true) ∧
        (usableFigure initialMarginRupees).isSome = true ∧ (usableFigure finalMarginRupees).isSome = true := by
  have hvalid := @buildFundingStages_hedgeFirstValid requests direction initialMarginRupees finalMarginRupees
  simp only [buildFundingStages, entrySubmissionOrder_sorted, entrySubmissionOrder_length] at hvalid ⊢
  rw [hvalid, scan_unknown]
  simp only [StageScan.start, if_true, List.append_nil, List.nil_append, List.length_nil, List.flatMap_eq_nil_iff,
    stageUnknown_eq_nil, slotPaise_isSome, stageMargin_isSome]
  constructor
  · intro h
    refine ⟨fun role => ?_, ?_, ?_⟩
    · obtain ⟨slot, hslot, rfl⟩ := mem_entrySubmissionOrder_roles direction role
      obtain ⟨k, hk⟩ := List.mem_iff_getElem?.mp hslot
      exact (h (slot, k) (List.mk_mem_zipIdx_iff_getElem?.mpr hk)).1
    · obtain ⟨slot, hslot⟩ : ∃ slot, (entrySubmissionOrder direction)[0]? = some slot := by
        cases direction <;> exact ⟨_, rfl⟩
      simpa using (h (slot, 0) (List.mk_mem_zipIdx_iff_getElem?.mpr hslot)).2
    · obtain ⟨slot, hslot⟩ : ∃ slot, (entrySubmissionOrder direction)[3]? = some slot := by
        cases direction <;> exact ⟨_, rfl⟩
      simpa using (h (slot, 3) (List.mk_mem_zipIdx_iff_getElem?.mpr hslot)).2
  · rintro ⟨hpriced, hinitial, hfinal⟩ entry -
    exact ⟨hpriced _, by by_cases h : entry.2 + 1 = 4 <;> simp [h, hinitial, hfinal]⟩

theorem buildFundingStages_worst {initial final : ℚ} (hinitial : usableFigure initialMarginRupees = some initial)
    (hfinal : usableFigure finalMarginRupees = some final)
    (hpriced : ∀ role, (requestsByRole requests role).any (·.priced) = true) :
    ((buildFundingStages requests (entrySubmissionOrder direction) initialMarginRupees
        finalMarginRupees).stages.filterMap (·.requirementRupees)).max? =
      some (max (max initial final)
        (fromPaise (duePaise (requestsByRole requests) (entrySubmissionOrder direction)))) := by
  obtain ⟨first, second, slots, hslots⟩ :
      ∃ first second slots, entrySubmissionOrder direction = first :: second :: slots := by
    cases direction <;> exact ⟨_, _, _, rfl⟩
  have hlegs : ∀ slot ∈ first :: second :: slots, (slotPaise (requestsByRole requests) slot).isSome = true := by
    intro slot _
    rw [slotPaise_isSome]
    exact hpriced slot.role
  have hscan := @scan_requirements (requestsByRole requests) initialMarginRupees finalMarginRupees
    (entrySubmissionOrder direction).length (entrySubmissionOrder direction) .start
  have hknown (stages : List FundingStage) :
      stages.filterMap (·.requirementRupees) = (stages.map (·.requirementRupees)).filterMap id := by
    rw [List.filterMap_map]
    rfl
  simp only [buildFundingStages, entrySubmissionOrder_sorted]
  rw [hknown, hscan, hslots]
  exact max?_requirements hinitial hfinal rfl hlegs

end

end BoxEngine
