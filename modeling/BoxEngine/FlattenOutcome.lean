import BoxEngine.ExitDependencies
import Mathlib.Algebra.Order.BigOperators.Group.List

/-!
# What a flatten achieved

Each close and each residual pass is classified on its own and folded into the published result. An unknown quantity
is absent, never zero.
-/

namespace BoxEngine

open Js

inductive FlattenItemDisposition where
  | flatOnFillEvidence
  | partiallyReduced
  | notReduced
  | unresolved
  deriving DecidableEq

inductive FlattenItemKind where
  | position
  | residual
  deriving DecidableEq

def FlattenItemKind.label : FlattenItemKind → String
  | .position => "position"
  | .residual => "residual"

abbrev QuantityByRole := BoxLegRole → Option Number

structure FlattenItemOutcome where
  kind : FlattenItemKind
  id : String
  label : Option String
  disposition : FlattenItemDisposition
  reason : Option String
  remainingQuantity : Option ℚ
  remainingByRole : Option QuantityByRole

inductive FlattenAggregateOutcome where
  | flatOnFillEvidence
  | partiallyReduced
  | unresolved
  | notReduced
  | nothingToFlatten
  deriving DecidableEq

structure FlattenSettlement where
  cancelled : ℕ
  failures : List String
  blocked : Option String
  reconciled : Bool

structure AttributedFlattenResult where
  requested : ℕ
  attempted : ℕ
  items : List FlattenItemOutcome
  settlement : FlattenSettlement
  outcome : FlattenAggregateOutcome
  ok : Bool
  remainingExposureKnown : Bool
  remainingQuantity : Option ℚ
  blockers : List String
  nextAction : String

/-! ## One item -/

structure ManualCloseLike where
  ok : Bool
  error : Option String
  partly : Option Bool
  remainingQtyByRole : Option QuantityByRole

structure PositionCloseArgs where
  id : String
  label : Option String
  result : Option ManualCloseLike
  thrown : Option String

structure ResidualLeg where
  role : BoxLegRole
  quantity : Number

structure ResidualPassLike where
  remaining : Option (List ResidualLeg)
  flattenedByRole : Option QuantityByRole

structure ResidualFlattenArgs where
  id : String
  label : Option String
  result : Option ResidualPassLike
  thrown : Option String
  requestedQuantity : Option Number

def usableQuantity : Number → Option ℚ
  | .fin q => if q < 0 then none else some q
  | _ => none

def sumUsable : List Number → Option ℚ
  | [] => some 0
  | quantity :: rest => do
    let first ← usableQuantity quantity
    let others ← sumUsable rest
    some (first + others)

def totalOfRoles (byRole : Option QuantityByRole) : Option ℚ :=
  byRole.bind fun quantities => sumUsable (boxLegRoles.filterMap quantities)

/-- A close that threw or returned nothing is unresolved, whatever it may have sent. -/
def classifyPositionClose (args : PositionCloseArgs) : FlattenItemOutcome :=
  match args.thrown, args.result with
  | some thrown, _ =>
    { kind := .position, id := args.id, label := args.label, disposition := .unresolved
      reason := some (s!"the close raised before its outcome was established ({thrown}). Orders may already " ++
        "have reached the broker; treat this exposure as unresolved and verify at the broker terminal.")
      remainingQuantity := none, remainingByRole := none }
  | none, none =>
    { kind := .position, id := args.id, label := args.label, disposition := .unresolved
      reason := some "the close returned no result, so its outcome is not established"
      remainingQuantity := none, remainingByRole := none }
  | none, some result =>
    if result.ok then
      { kind := .position, id := args.id, label := args.label, disposition := .flatOnFillEvidence, reason := none
        remainingQuantity := some 0, remainingByRole := none }
    else if result.partly = some true then
      { kind := .position, id := args.id, label := args.label, disposition := .partiallyReduced
        reason := some (result.error.getD
          "the position was partially closed; the remaining exposure is still being managed")
        remainingQuantity := totalOfRoles result.remainingQtyByRole, remainingByRole := result.remainingQtyByRole }
    else
      { kind := .position, id := args.id, label := args.label, disposition := .notReduced
        reason := some (result.error.getD "the position could not be closed, and it is unchanged")
        remainingQuantity := totalOfRoles result.remainingQtyByRole, remainingByRole := result.remainingQtyByRole }

def residualByRole (legs : List ResidualLeg) : QuantityByRole := fun role =>
  let own := legs.filter fun leg => leg.role = role
  if own.isEmpty then none else some (own.foldl (fun sum leg => sum.add leg.quantity) (.fin 0))

/-- Flat only where the flatten reported that nothing remains; what it did not establish stays unresolved. -/
def classifyResidualFlatten (args : ResidualFlattenArgs) : FlattenItemOutcome :=
  match args.thrown, args.result.bind ResidualPassLike.remaining with
  | some thrown, _ =>
    { kind := .residual, id := args.id, label := args.label, disposition := .unresolved
      reason := some (s!"the residual flatten raised before its outcome was established ({thrown}). Reducing " ++
        "orders may already have reached the broker; verify at the broker terminal.")
      remainingQuantity := none, remainingByRole := none }
  | none, none =>
    { kind := .residual, id := args.id, label := args.label, disposition := .unresolved
      reason := some ("the residual flatten did not report what remains, so the outstanding quantity is not " ++
        "established")
      remainingQuantity := none, remainingByRole := none }
  | none, some legs =>
    match sumUsable (legs.map ResidualLeg.quantity) with
    | none =>
      { kind := .residual, id := args.id, label := args.label, disposition := .unresolved
        reason := some "the residual flatten reported an unusable remaining quantity"
        remainingQuantity := none, remainingByRole := none }
    | some remaining =>
      if remaining = 0 then
        { kind := .residual, id := args.id, label := args.label, disposition := .flatOnFillEvidence, reason := none
          remainingQuantity := some 0, remainingByRole := none }
      else
        let units := (Number.fin remaining).toText
        if args.requestedQuantity.any fun requested => .fin remaining < requested then
          { kind := .residual, id := args.id, label := args.label, disposition := .partiallyReduced
            reason := some
              s!"the residual was partially reduced; {units} unit(s) remain and the watchdog keeps retrying"
            remainingQuantity := some remaining, remainingByRole := some (residualByRole legs) }
        else
          { kind := .residual, id := args.id, label := args.label, disposition := .notReduced
            reason := some
              s!"no part of the residual could be reduced; {units} unit(s) remain and the watchdog keeps retrying"
            remainingQuantity := some remaining, remainingByRole := some (residualByRole legs) }

/-! ## The whole flatten -/

def dedupe (values : List (Option String)) : List String :=
  ((values.filterMap id).filter (· ≠ "")).eraseDups

def nextAction (ok : Bool) (outcome : FlattenAggregateOutcome) (remainingKnown settlementClean : Bool) : String :=
  if ok then
    "No attributed Box exposure remains on this process's fill evidence. Confirm flat at the broker " ++
      "terminal before re-arming — this result is not an independent broker position re-read."
  else if !remainingKnown || outcome = .unresolved then
    "EXPOSURE IS UNRESOLVED. At least one reduction's outcome is not established, so orders may " ++
      "have reached the broker without a known result. Do NOT re-arm. Inspect positions and working " ++
      "orders AT THE BROKER TERMINAL and reduce there if required; pressing flatten again cannot " ++
      "establish what is already outstanding."
  else if outcome = .partiallyReduced || outcome = .notReduced then
    "EXPOSURE REMAINS. Read the per-item reasons below: each names why that item could not be " ++
      "reduced. Exposure is still owned and still monitored. If the reasons are not clearing, reduce " ++
      "at the broker terminal."
  else if !settlementClean then
    "Settlement did not complete cleanly. Working orders may still be live and able to fill. " ++
      "Re-run the working-order cancellation, then inspect positions at the broker terminal."
  else "Inspect positions and working orders at the broker terminal before any further action."

def FlattenItemOutcome.isFlat (item : FlattenItemOutcome) : Bool := item.disposition = .flatOnFillEvidence

def aggregateOutcome (requested attempted : ℕ) (items : List FlattenItemOutcome) : FlattenAggregateOutcome :=
  if requested = 0 then .nothingToFlatten
  else if items.any fun item => item.disposition = .unresolved then .unresolved
  -- items the flatten never got to
  else if attempted < requested then .unresolved
  else if 0 < items.length && items.all FlattenItemOutcome.isFlat then .flatOnFillEvidence
  else if items.any fun item => item.disposition = .partiallyReduced then .partiallyReduced
  else if items.any fun item => item.disposition = .notReduced then .notReduced
  else .unresolved

def FlattenSettlement.clean (settlement : FlattenSettlement) : Bool :=
  settlement.blocked.isNone && settlement.failures.isEmpty && settlement.reconciled

def flattenBlockers (requested attempted : ℕ) (items : List FlattenItemOutcome) (settlement : FlattenSettlement) :
    List String :=
  dedupe
    ([settlement.blocked.map fun blocked =>
        s!"the pre-flatten cancellation sweep was REFUSED and nothing was cancelled: {blocked}"] ++
      settlement.failures.map (fun failure => some s!"settlement: {failure}") ++
      [if settlement.reconciled then none else
        some ("the post-cancellation reconcile did not complete, so the reduction was planned against a " ++
          "snapshot a still-working order could change")] ++
      (items.filter fun item => !item.isFlat).map (fun item =>
        let reason := item.reason.getD "outcome not established"
        some s!"{item.kind.label} {item.id}: {reason}") ++
      [if attempted < requested then some s!"{requested - attempted} item(s) were never attempted" else none])

def buildAttributedFlattenResult (requested attempted : ℕ) (items : List FlattenItemOutcome)
    (settlement : FlattenSettlement) : AttributedFlattenResult :=
  let remainingKnown := items.all fun item => item.remainingQuantity.isSome
  let remainingQuantity :=
    if remainingKnown then some (items.map fun item => item.remainingQuantity.getD 0).sum else none
  let outcome := aggregateOutcome requested attempted items
  let ok := settlement.clean && remainingKnown && remainingQuantity.getD 0 = 0 && requested ≤ attempted &&
    requested ≤ items.length && (outcome = .flatOnFillEvidence || outcome = .nothingToFlatten)
  { requested, attempted, items, settlement, outcome, ok
    remainingExposureKnown := remainingKnown
    remainingQuantity
    blockers := flattenBlockers requested attempted items settlement
    nextAction := nextAction ok outcome remainingKnown settlement.clean }

/-! ## Unknown exposure is not zero -/

inductive FlattenItemArgs where
  | position (args : PositionCloseArgs)
  | residual (args : ResidualFlattenArgs)

namespace FlattenItemArgs

def classify : FlattenItemArgs → FlattenItemOutcome
  | position args => classifyPositionClose args
  | residual args => classifyResidualFlatten args

def ZeroIffFlat (args : FlattenItemArgs) : Prop :=
  args.classify.remainingQuantity = some 0 ↔ args.classify.isFlat = true

/-- A close that returned without success, over a map of roles that adds up to zero. -/
def FailedOverZero : FlattenItemArgs → Prop
  | position args => args.thrown = none ∧
      ∃ result, args.result = some result ∧ result.ok = false ∧ totalOfRoles result.remainingQtyByRole = some 0
  | residual _ => False

theorem usableQuantity_nonneg {quantity : Number} {q : ℚ} (h : usableQuantity quantity = some q) : 0 ≤ q := by
  unfold usableQuantity at h
  split at h
  · split at h
    · cases h
    · rename_i hq
      cases h
      exact not_lt.mp hq
  · cases h

theorem sumUsable_nonneg {quantities : List Number} {total : ℚ} (h : sumUsable quantities = some total) : 0 ≤ total := by
  induction quantities generalizing total with
  | nil =>
    cases h
    exact le_rfl
  | cons quantity rest ih =>
    simp only [sumUsable, Option.bind_eq_bind, Option.bind_eq_some_iff, Option.some.injEq] at h
    obtain ⟨first, hfirst, others, hothers, rfl⟩ := h
    exact add_nonneg (usableQuantity_nonneg hfirst) (ih hothers)

theorem totalOfRoles_nonneg {byRole : Option QuantityByRole} {total : ℚ} (h : totalOfRoles byRole = some total) : 0 ≤ total := by
  obtain ⟨quantities, -, hsum⟩ := Option.bind_eq_some_iff.mp h
  exact sumUsable_nonneg hsum

theorem remaining_nonneg {args : FlattenItemArgs} {q : ℚ} (h : args.classify.remainingQuantity = some q) : 0 ≤ q := by
  cases args with
  | position args =>
    simp only [classify, classifyPositionClose] at h
    split at h
    · cases h
    · cases h
    · split at h
      · cases h
        exact le_rfl
      split at h
      · exact totalOfRoles_nonneg h
      · exact totalOfRoles_nonneg h
  | residual args =>
    simp only [classify, classifyResidualFlatten] at h
    split at h
    · cases h
    · cases h
    · split at h
      · cases h
      rename_i remaining hsum
      split at h
      · cases h
        exact le_rfl
      split at h
      · cases h
        exact sumUsable_nonneg hsum
      · cases h
        exact sumUsable_nonneg hsum

theorem zeroIffFlat_iff (args : FlattenItemArgs) : args.ZeroIffFlat ↔ ¬args.FailedOverZero := by
  cases args with
  | position args =>
    simp only [ZeroIffFlat, FailedOverZero, classify, classifyPositionClose]
    cases hthrown : args.thrown with
    | some thrown => simp [FlattenItemOutcome.isFlat]
    | none =>
      cases hresult : args.result with
      | none => simp [FlattenItemOutcome.isFlat]
      | some result =>
        cases hok : result.ok with
        | true => simp [FlattenItemOutcome.isFlat, hok]
        | false =>
          simp only [hok, Bool.false_eq_true, if_false]
          split <;> simp [FlattenItemOutcome.isFlat, hok]
  | residual args =>
    simp only [ZeroIffFlat, FailedOverZero, classify, classifyResidualFlatten]
    split
    · simp [FlattenItemOutcome.isFlat]
    · simp [FlattenItemOutcome.isFlat]
    · split
      · simp [FlattenItemOutcome.isFlat]
      split
      · simp [FlattenItemOutcome.isFlat]
      · rename_i hremaining
        split <;> simp [FlattenItemOutcome.isFlat, hremaining]

end FlattenItemArgs

section

variable {requested attempted : ℕ} {items : List FlattenItemOutcome} {settlement : FlattenSettlement}

theorem all_flat_of_aggregate (h : aggregateOutcome requested attempted items = .flatOnFillEvidence) :
    ∀ item ∈ items, item.isFlat = true := by
  unfold aggregateOutcome at h
  split at h
  · cases h
  split at h
  · cases h
  split at h
  · cases h
  split at h
  · rename_i hall
    simp only [Bool.and_eq_true] at hall
    exact List.all_eq_true.mp hall.2
  split at h
  · cases h
  split at h <;> cases h

def NothingLeft (requested : ℕ) (items : List FlattenItemOutcome) (settlement : FlattenSettlement) : Prop :=
  (∀ item ∈ items, item.isFlat = true) ∧ requested ≤ items.length ∧ settlement.blocked = none ∧
    settlement.failures = [] ∧ settlement.reconciled = true

theorem ok_parts (h : (buildAttributedFlattenResult requested attempted items settlement).ok = true) :
    settlement.clean = true ∧ (∀ item ∈ items, item.remainingQuantity.isSome = true) ∧
      (items.map fun item => item.remainingQuantity.getD 0).sum = 0 ∧ requested ≤ items.length ∧
      ((∀ item ∈ items, item.isFlat = true) ∨ requested = 0) := by
  simp only [buildAttributedFlattenResult, Bool.and_eq_true, decide_eq_true_eq, Bool.or_eq_true] at h
  obtain ⟨⟨⟨⟨⟨hclean, hknown⟩, hzero⟩, -⟩, hlength⟩, houtcome⟩ := h
  refine ⟨hclean, List.all_eq_true.mp hknown, ?_, hlength, ?_⟩
  · simpa [hknown] using hzero
  · rcases houtcome with hflat | hnothing
    · exact .inl (all_flat_of_aggregate hflat)
    · right
      by_contra hrequested
      unfold aggregateOutcome at hnothing
      rw [if_neg hrequested] at hnothing
      split_ifs at hnothing

end

/-- No item says zero without being flat, exactly when no close failed over zeros. -/
theorem flatten_never_zero (requested attempted : ℕ) (args : List FlattenItemArgs) (settlement : FlattenSettlement) :
    ((∀ a ∈ args, a.ZeroIffFlat) ∧
      ((buildAttributedFlattenResult requested attempted (args.map FlattenItemArgs.classify) settlement).ok = true →
        NothingLeft requested (args.map FlattenItemArgs.classify) settlement)) ↔
    ∀ a ∈ args, ¬a.FailedOverZero := by
  constructor
  · exact fun h a ha => (FlattenItemArgs.zeroIffFlat_iff a).mp (h.1 a ha)
  · intro h
    have hzero : ∀ a ∈ args, a.ZeroIffFlat := fun a ha => (FlattenItemArgs.zeroIffFlat_iff a).mpr (h a ha)
    refine ⟨hzero, ?_⟩
    intro hok
    obtain ⟨hclean, hknown, hsum, hlength, -⟩ := ok_parts hok
    simp only [FlattenSettlement.clean, Bool.and_eq_true, Option.isNone_iff_eq_none, List.isEmpty_iff] at hclean
    refine ⟨?_, hlength, hclean.1.1, hclean.1.2, hclean.2⟩
    -- quantities that are not negative and add up to zero are zero, and zero is only written for what is flat
    have hnonneg : ∀ q ∈ (args.map FlattenItemArgs.classify).map fun item => item.remainingQuantity.getD 0, 0 ≤ q := by
      simp only [List.map_map, List.mem_map, Function.comp_apply, forall_exists_index, and_imp]
      rintro _ a - rfl
      cases hq : a.classify.remainingQuantity with
      | none => exact le_rfl
      | some q => exact FlattenItemArgs.remaining_nonneg hq
    intro item hitem
    obtain ⟨a, ha, rfl⟩ := List.mem_map.mp hitem
    apply (hzero a ha).mp
    obtain ⟨q, hq⟩ := Option.isSome_iff_exists.mp (hknown _ hitem)
    have hmem : q ∈ (args.map FlattenItemArgs.classify).map fun item => item.remainingQuantity.getD 0 :=
      List.mem_map.mpr ⟨_, hitem, by rw [hq]; rfl⟩
    rw [hq, List.all_zero_of_le_zero_le_of_sum_eq_zero hnonneg hsum hmem]

def unclosed : PositionCloseArgs :=
  ⟨"t1", some "NIFTY", some ⟨false, some "market closed", none, some fun _ => none⟩, none⟩

theorem flatten_zero_unclosed :
    (classifyPositionClose unclosed).remainingQuantity = some 0 ∧
      (classifyPositionClose unclosed).disposition = .notReduced ∧
      (buildAttributedFlattenResult 0 0 [classifyPositionClose unclosed] ⟨0, [], none, true⟩).ok = true := by
  decide +kernel

end BoxEngine
