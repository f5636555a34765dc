import BoxEngine.MergeFoldSound
import BoxEngine.StateTable

/-!
# Redelivery, symmetry and coherence of the merge

Redelivery changes nothing (`merge_redelivery`), the order of two observations does not decide whether they contradict
(`merge_symmetric`), label and quantity agree (`merge_coherent`), each under its exact condition.
-/

namespace BoxEngine

open Js

/-! ## The state and the conflict of a merge -/

section
variable (current candidate : BrokerOrder) (options : BrokerOrderMergeOptions)

def isStale : Bool :=
  decide (compareObservation options (safeCumulative candidate.filledQuantity)
    (safeCumulative current.filledQuantity) < 0)

def requestedQuantity : Number :=
  if isStale current candidate options then current.quantity else candidate.quantity

def BrokerIdsDiffer : Prop :=
  ∃ a b, current.brokerOrderId = some a ∧ candidate.brokerOrderId = some b ∧ b ≠ a

def mergeQuantities : Quantities :=
  quantities (acceptedQuantity current candidate) (requestedQuantity current candidate options)

def mergeRow : BrokerOrderState × Bool :=
  stateTable current.state candidate.state (mergeQuantities current candidate options)
    (isStale current candidate options)

theorem resolveBrokerId_conflict :
    (resolveBrokerId current candidate).2.isSome = true ↔ BrokerIdsDiffer current candidate := by
  unfold resolveBrokerId BrokerIdsDiffer
  cases current.brokerOrderId with
  | none => simp
  | some a =>
    cases candidate.brokerOrderId with
    | none => simp
    | some b =>
      simp only [Option.some.injEq]
      split <;> simp_all

theorem resolveBrokerId_cached {a : String} (h : current.brokerOrderId = some a) :
    (resolveBrokerId current candidate).1 = some a := by
  unfold resolveBrokerId
  rw [h]
  cases candidate.brokerOrderId with
  | none => rfl
  | some b => simp only; split <;> rfl

theorem resolveBrokerId_learned (h : current.brokerOrderId = none) :
    (resolveBrokerId current candidate).1 = candidate.brokerOrderId := by
  unfold resolveBrokerId; rw [h]

theorem mergeSnapshots_conflict :
    (mergeSnapshots current candidate options).conflict.isSome = true ↔
      (mergeRow current candidate options).2 = true ∨ BrokerIdsDiffer current candidate := by
  have ht := congrArg Prod.snd (resolveState_table current candidate (acceptedQuantity current candidate)
    (requestedQuantity current candidate options) (isStale current candidate options))
  rw [← resolveBrokerId_conflict]
  change (Option.or _ _).isSome = true ↔ _
  rw [Option.isSome_or, Bool.or_eq_true]
  exact or_congr_left (by rw [mergeRow, mergeQuantities, ← ht]; exact Iff.rfl)

theorem mergeSnapshots_state :
    (mergeSnapshots current candidate options).order.state =
      if (mergeSnapshots current candidate options).conflict.isSome then .reconciliationRequired
      else (mergeRow current candidate options).1 := by
  have ht := congrArg Prod.fst (resolveState_table current candidate (acceptedQuantity current candidate)
    (requestedQuantity current candidate options) (isStale current candidate options))
  rw [mergeRow, mergeQuantities, ← ht]
  rfl

theorem mergeSnapshots_quarantined (h : (mergeSnapshots current candidate options).conflict.isSome = true) :
    (mergeSnapshots current candidate options).order.state = .reconciliationRequired := by
  rw [mergeSnapshots_state, if_pos h]

end

/-! ## Redelivery -/

theorem compareObservation_antitone (options : BrokerOrderMergeOptions) (cand : ℚ) {a b : ℚ} (h : a ≤ b) :
    compareObservation options cand b ≤ compareObservation options cand a := by
  have habsent : (if 0 < b then (-1 : ℚ) else 0) ≤ if 0 < a then -1 else 0 := by
    by_cases ha : 0 < a
    · rw [if_pos ha, if_pos (ha.trans_le h)]
    · rw [if_neg ha]; split <;> norm_num
  cases options with
  | omitted => exact sub_le_sub_left h _
  | absent => exact habsent
  | observed raw =>
    cases raw with
    | fin q => exact sub_le_sub_left h _
    | nan => exact habsent
    | negInf => exact habsent
    | posInf => exact habsent

section
variable (current candidate : BrokerOrder) (options : BrokerOrderMergeOptions)

theorem acceptedQuantity_again :
    acceptedQuantity (mergeSnapshots current candidate options).order candidate =
      acceptedQuantity current candidate := by
  rw [acceptedQuantity, mergeSnapshots_filledQuantity, safeCumulative_fin (acceptedQuantity_nonneg _ _)]
  exact max_eq_left (le_max_right _ _)

theorem compare_again :
    compareObservation options (safeCumulative candidate.filledQuantity)
        (safeCumulative (mergeSnapshots current candidate options).order.filledQuantity) ≤
      compareObservation options (safeCumulative candidate.filledQuantity)
        (safeCumulative current.filledQuantity) := by
  refine compareObservation_antitone _ _ ?_
  rw [mergeSnapshots_filledQuantity, safeCumulative_fin (acceptedQuantity_nonneg _ _)]
  exact le_max_left _ _

theorem isStale_again (h : isStale current candidate options = true) :
    isStale (mergeSnapshots current candidate options).order candidate options = true := by
  rw [isStale, decide_eq_true_eq] at h ⊢
  exact (compare_again current candidate options).trans_lt h

theorem requestedQuantity_again :
    requestedQuantity (mergeSnapshots current candidate options).order candidate options =
      requestedQuantity current candidate options := by
  have hm : (mergeSnapshots current candidate options).order.quantity =
    requestedQuantity current candidate options := rfl
  rw [requestedQuantity, hm]
  cases hs : isStale current candidate options with
  | true => rw [isStale_again _ _ _ hs, if_pos rfl]
  | false => simp [requestedQuantity, hs]

theorem mergeQuantities_again :
    mergeQuantities (mergeSnapshots current candidate options).order candidate options =
      mergeQuantities current candidate options := by
  rw [mergeQuantities, acceptedQuantity_again, requestedQuantity_again]; rfl

theorem brokerOrderId_again :
    (mergeSnapshots (mergeSnapshots current candidate options).order candidate options).order.brokerOrderId =
      (mergeSnapshots current candidate options).order.brokerOrderId := by
  have hm : ∀ c, (mergeSnapshots c candidate options).order.brokerOrderId = (resolveBrokerId c candidate).1 :=
    fun _ => rfl
  rw [hm]
  cases h : (mergeSnapshots current candidate options).order.brokerOrderId with
  | some a => exact resolveBrokerId_cached _ _ h
  | none =>
    rw [resolveBrokerId_learned _ _ h]
    cases hc : current.brokerOrderId with
    | none => rwa [hm, resolveBrokerId_learned _ _ hc] at h
    | some a => rw [hm, resolveBrokerId_cached _ _ hc] at h; cases h

theorem brokerIdsDiffer_again :
    BrokerIdsDiffer (mergeSnapshots current candidate options).order candidate ↔
      BrokerIdsDiffer current candidate := by
  have hm : (mergeSnapshots current candidate options).order.brokerOrderId =
    (resolveBrokerId current candidate).1 := rfl
  unfold BrokerIdsDiffer
  rw [hm]
  cases hc : current.brokerOrderId with
  | some a => rw [resolveBrokerId_cached _ _ hc]
  | none =>
    rw [resolveBrokerId_learned _ _ hc]
    constructor
    · rintro ⟨a, b, ha, hb, hne⟩
      exact absurd (Option.some.inj (hb.symm.trans ha)) hne
    · rintro ⟨a, b, ha, _⟩; cases ha

theorem averagePrice_again :
    (mergeSnapshots (mergeSnapshots current candidate options).order candidate options).order.averagePrice =
      (mergeSnapshots current candidate options).order.averagePrice := by
  have hm : ∀ c, (mergeSnapshots c candidate options).order.averagePrice =
      resolvePrice c candidate (acceptedQuantity c candidate) (isStale c candidate options)
        (decide (0 < compareObservation options (safeCumulative candidate.filledQuantity)
          (safeCumulative c.filledQuantity))) := fun _ => rfl
  have hle := compare_again current candidate options
  have hstale := isStale_again current candidate options
  rw [hm, acceptedQuantity_again]
  unfold resolvePrice
  by_cases hz : acceptedQuantity current candidate = 0
  · rw [if_pos hz, hm, resolvePrice, if_pos hz]
  rw [if_neg hz]
  by_cases hadv : 0 < compareObservation options (safeCumulative candidate.filledQuantity)
      (safeCumulative current.filledQuantity)
  · -- the candidate's own price was adopted, and every branch keeps it
    have hp : (mergeSnapshots current candidate options).order.averagePrice = candidate.averagePrice := by
      rw [hm, resolvePrice, if_neg hz, if_pos (decide_eq_true hadv)]
    rw [hp]
    split
    · rfl
    · split
      · rfl
      · exact Option.or_self
  · rw [if_neg (by rw [decide_eq_true_eq]; exact not_lt.mpr (hle.trans (not_lt.mp hadv)))]
    cases hs : isStale current candidate options with
    | true => rw [if_pos (hstale hs)]
    | false =>
      have hp : (mergeSnapshots current candidate options).order.averagePrice =
          candidate.averagePrice.or current.averagePrice := by
        rw [hm, resolvePrice, if_neg hz, if_neg (by simpa using hadv), hs]; rfl
      split
      · rfl
      · rw [hp]; cases candidate.averagePrice <;> rfl

theorem mergeRow_again :
    mergeRow (mergeSnapshots current candidate options).order candidate options =
      stateTable (mergeSnapshots current candidate options).order.state candidate.state
        (mergeQuantities current candidate options)
        (isStale (mergeSnapshots current candidate options).order candidate options) := by
  rw [mergeRow, mergeQuantities_again]

theorem mergeQuantities_consistent : (mergeQuantities current candidate options).Consistent :=
  quantities_consistent _ _

/-- The verdict on a merge: the state, and whether the observations contradict each other. -/
def SameVerdict (second first : BrokerOrderMerge) : Prop :=
  second.order.state = first.order.state ∧ (second.conflict.isSome = true ↔ first.conflict.isSome = true)

theorem sameVerdict_of_conflicts {c d : BrokerOrder}
    (h1 : (mergeSnapshots c candidate options).conflict.isSome = true)
    (h2 : (mergeSnapshots d candidate options).conflict.isSome = true) :
    SameVerdict (mergeSnapshots d candidate options) (mergeSnapshots c candidate options) :=
  ⟨by rw [mergeSnapshots_quarantined _ _ _ h2, mergeSnapshots_quarantined _ _ _ h1], iff_of_true h2 h1⟩

theorem sameVerdict_settled (hb : ¬ BrokerIdsDiffer current candidate)
    (hc : (mergeRow current candidate options).2 = false) :
    SameVerdict (mergeSnapshots (mergeSnapshots current candidate options).order candidate options)
      (mergeSnapshots current candidate options) := by
  have h1 : ¬ (mergeSnapshots current candidate options).conflict.isSome = true := by
    rw [mergeSnapshots_conflict, hc]; simpa using hb
  have hm : (mergeSnapshots current candidate options).order.state = (mergeRow current candidate options).1 := by
    rw [mergeSnapshots_state, if_neg h1]
  have hrow : mergeRow (mergeSnapshots current candidate options).order candidate options =
      mergeRow current candidate options := by
    rw [mergeRow_again, hm]
    exact stateTable_settled _ _ _ _ _ (mergeQuantities_consistent _ _ _) (isStale_again _ _ _) hc
  have h2 : ¬ (mergeSnapshots (mergeSnapshots current candidate options).order candidate
      options).conflict.isSome = true := by
    rw [mergeSnapshots_conflict, hrow, brokerIdsDiffer_again, hc]; simpa using hb
  refine ⟨?_, iff_of_false h2 h1⟩
  rw [mergeSnapshots_state _ candidate, if_neg h2, hrow, hm]

theorem sameVerdict_quarantined (hb : ¬ BrokerIdsDiffer current candidate)
    (hc : (mergeRow current candidate options).2 = true) :
    SameVerdict (mergeSnapshots (mergeSnapshots current candidate options).order candidate options)
        (mergeSnapshots current candidate options) ↔
      forgotten current.state candidate.state (mergeQuantities current candidate options) = false := by
  have h1 := (mergeSnapshots_conflict _ _ options).mpr (Or.inl hc)
  have h2 : (mergeSnapshots (mergeSnapshots current candidate options).order candidate
      options).conflict.isSome = true ↔
      forgotten current.state candidate.state (mergeQuantities current candidate options) = false := by
    rw [mergeSnapshots_conflict, brokerIdsDiffer_again, or_iff_left hb, mergeRow_again,
      mergeSnapshots_quarantined _ _ _ h1]
    exact stateTable_redelivered _ _ _ _ _ (mergeQuantities_consistent _ _ _) hc
  constructor
  · exact fun h => h2.mp (h.2.mpr h1)
  · exact fun h => sameVerdict_of_conflicts _ _ h1 (h2.mpr h)

theorem sameVerdict_again :
    SameVerdict (mergeSnapshots (mergeSnapshots current candidate options).order candidate options)
        (mergeSnapshots current candidate options) ↔
      BrokerIdsDiffer current candidate ∨
        forgotten current.state candidate.state (mergeQuantities current candidate options) = false := by
  by_cases hb : BrokerIdsDiffer current candidate
  · -- the ids conflict both times
    refine iff_of_true (sameVerdict_of_conflicts _ _ ?_ ?_) (Or.inl hb)
    · exact (mergeSnapshots_conflict _ _ _).mpr (Or.inr hb)
    · exact (mergeSnapshots_conflict _ _ _).mpr (Or.inr ((brokerIdsDiffer_again _ _ _).mpr hb))
  · rw [or_iff_right hb]
    cases hc : (mergeRow current candidate options).2 with
    | true => exact sameVerdict_quarantined _ _ _ hb hc
    | false =>
      refine iff_of_true (sameVerdict_settled _ _ _ hb hc) ?_
      rw [← Bool.not_eq_true]
      intro hf
      have := stateTable_forgotten _ _ _ (isStale current candidate options)
        (mergeQuantities_consistent _ _ _) hf
      rw [mergeRow, this] at hc
      cases hc

end

/-- **Redelivery** changes nothing, exactly unless the labels contradict in a way only the cached one shows. -/
theorem merge_redelivery (current candidate : BrokerOrder) (options : BrokerOrderMergeOptions)
    (hid : candidate.clientOrderId = current.clientOrderId) :
    let first := mergeBrokerOrderSnapshot (some current) candidate options
    let second := mergeBrokerOrderSnapshot (some first.order) candidate options
    (second.order.filledQuantity = first.order.filledQuantity ∧
        second.order.averagePrice = first.order.averagePrice ∧
        second.order.brokerOrderId = first.order.brokerOrderId ∧ SameVerdict second first) ↔
      BrokerIdsDiffer current candidate ∨
        forgotten current.state candidate.state (mergeQuantities current candidate options) = false := by
  intro first second
  have hfirst : first = mergeSnapshots current candidate options := mergeBrokerOrderSnapshot_same _ _ _ hid
  have hsecond : second = mergeSnapshots first.order candidate options :=
    mergeBrokerOrderSnapshot_same _ _ _ (by rw [hfirst]; exact hid)
  have hfill : (mergeSnapshots (mergeSnapshots current candidate options).order candidate
      options).order.filledQuantity = (mergeSnapshots current candidate options).order.filledQuantity := by
    rw [mergeSnapshots_filledQuantity, acceptedQuantity_again]; rfl
  rw [hsecond, hfirst, ← sameVerdict_again]
  simp only [hfill, averagePrice_again, brokerOrderId_again, true_and]

theorem merge_redelivery_agreeing :
    let cached := legOrder .open 100 30 (some (.fin 10))
    let observed := legOrder .cancelled 100 30 (some (.fin 10))
    let first := mergeBrokerOrderSnapshot (some cached) observed .omitted
    let second := mergeBrokerOrderSnapshot (some first.order) observed .omitted
    (second.order.filledQuantity = first.order.filledQuantity ∧
        second.order.averagePrice = first.order.averagePrice ∧
        second.order.brokerOrderId = first.order.brokerOrderId ∧ SameVerdict second first) ↔
      BrokerIdsDiffer cached observed ∨
        forgotten cached.state observed.state (mergeQuantities cached observed .omitted) = false :=
  merge_redelivery _ _ _ rfl

/-- A cached rejection meets a partial cancel: quarantined once, and lifted by the same cancel. -/
theorem merge_redelivery_dissolves :
    let cached := legOrder .rejected 100 0 none
    let observed := legOrder .cancelled 100 30 (some (.fin 10))
    let first := mergeBrokerOrderSnapshot (some cached) observed .omitted
    let second := mergeBrokerOrderSnapshot (some first.order) observed .omitted
    first.order.state = .reconciliationRequired ∧ first.conflict.isSome = true ∧
      second.order.state = .cancelled ∧ second.conflict = none := by decide +kernel

/-! ## Symmetry -/

theorem acceptedQuantity_comm (a b : BrokerOrder) : acceptedQuantity a b = acceptedQuantity b a :=
  max_comm _ _

theorem requestedQuantity_eq {a b : BrokerOrder} (h : b.quantity = a.quantity)
    (options : BrokerOrderMergeOptions) : requestedQuantity a b options = a.quantity := by
  unfold requestedQuantity; split
  · rfl
  · exact h

theorem not_brokerIdsDiffer {a b : BrokerOrder} (h : b.brokerOrderId = a.brokerOrderId) : ¬ BrokerIdsDiffer a b := by
  rintro ⟨x, y, hx, hy, hne⟩
  exact hne (Option.some.inj (hy.symm.trans (h.trans hx)))

theorem quarantined_iff_conflict (current candidate : BrokerOrder) (options : BrokerOrderMergeOptions)
    (hcur : current.state ≠ .reconciliationRequired) (hcand : candidate.state ≠ .reconciliationRequired) :
    (mergeSnapshots current candidate options).order.state = .reconciliationRequired ↔
      (mergeSnapshots current candidate options).conflict.isSome = true := by
  constructor
  · intro h
    by_contra hc
    rw [mergeSnapshots_state, if_neg hc] at h
    rw [mergeSnapshots_conflict, not_or, Bool.not_eq_true] at hc
    exact stateTable_unquarantined _ _ _ _ hcur hcand hc.1 h
  · exact mergeSnapshots_quarantined _ _ _

/-- **Symmetry**, exactly unless one is COMPLETE and the other works on a larger request. -/
theorem merge_symmetric (a b : BrokerOrder) (hid : b.clientOrderId = a.clientOrderId)
    (hbroker : b.brokerOrderId = a.brokerOrderId) (hqty : b.quantity = a.quantity)
    (hpos : Number.fin 0 < a.quantity)
    (ha : a.state ≠ .reconciliationRequired ∧ a.state ≠ .unknown)
    (hb : b.state ≠ .reconciliationRequired ∧ b.state ≠ .unknown) :
    let onA := mergeBrokerOrderSnapshot (some a) b .omitted
    let onB := mergeBrokerOrderSnapshot (some b) a .omitted
    (onA.order.filledQuantity = onB.order.filledQuantity ∧
        (onA.conflict.isSome = true ↔ onB.conflict.isSome = true) ∧
        (onA.order.state = .reconciliationRequired ↔ onB.order.state = .reconciliationRequired)) ↔
      oneSided a.state b.state (mergeQuantities a b .omitted) = false := by
  intro onA onB
  have hA : onA = mergeSnapshots a b .omitted := mergeBrokerOrderSnapshot_same _ _ _ hid
  have hB : onB = mergeSnapshots b a .omitted := mergeBrokerOrderSnapshot_same _ _ _ hid.symm
  have hfill : (mergeSnapshots a b .omitted).order.filledQuantity =
      (mergeSnapshots b a .omitted).order.filledQuantity := by
    rw [mergeSnapshots_filledQuantity, mergeSnapshots_filledQuantity, acceptedQuantity_comm]
  have hq : mergeQuantities b a .omitted = mergeQuantities a b .omitted := by
    rw [mergeQuantities, mergeQuantities, requestedQuantity_eq hqty, requestedQuantity_eq hqty.symm, hqty,
      acceptedQuantity_comm]
  have htotal : (mergeQuantities a b .omitted).covers = !(mergeQuantities a b .omitted).short :=
    quantities_total _ (by rwa [requestedQuantity_eq hqty])
  have hsym := stateTable_symmetric a.state b.state (mergeQuantities a b .omitted) (isStale a b .omitted)
    (isStale b a .omitted) (mergeQuantities_consistent _ _ _) htotal
  have hconfA := mergeSnapshots_conflict a b .omitted
  have hconfB := mergeSnapshots_conflict b a .omitted
  rw [or_iff_left (not_brokerIdsDiffer hbroker)] at hconfA
  rw [or_iff_left (not_brokerIdsDiffer hbroker.symm), mergeRow, hq] at hconfB
  rw [hA, hB, quarantined_iff_conflict a b .omitted ha.1 hb.1, quarantined_iff_conflict b a .omitted hb.1 ha.1,
    and_self, hconfA, hconfB, ← hsym]
  exact and_iff_right hfill

theorem merge_symmetric_cancelled :
    let a := legOrder .cancelled 100 30 (some (.fin 10))
    let b := legOrder .open 100 50 (some (.fin 11))
    let onA := mergeBrokerOrderSnapshot (some a) b .omitted
    let onB := mergeBrokerOrderSnapshot (some b) a .omitted
    (onA.order.filledQuantity = onB.order.filledQuantity ∧
        (onA.conflict.isSome = true ↔ onB.conflict.isSome = true) ∧
        (onA.order.state = .reconciliationRequired ↔ onB.order.state = .reconciliationRequired)) ↔
      oneSided a.state b.state (mergeQuantities a b .omitted) = false :=
  merge_symmetric _ _ rfl rfl rfl (by decide +kernel) (by decide) (by decide)

theorem merge_symmetric_fails :
    let a := legOrder .complete 100 30 (some (.fin 10))
    let b := legOrder .open 100 30 (some (.fin 10))
    (mergeBrokerOrderSnapshot (some a) b .omitted).conflict = none ∧
      (mergeBrokerOrderSnapshot (some a) b .omitted).order.state = .complete ∧
      (mergeBrokerOrderSnapshot (some b) a .omitted).conflict.isSome = true ∧
      (mergeBrokerOrderSnapshot (some b) a .omitted).order.state = .reconciliationRequired := by decide +kernel

/-! ## Coherence -/

structure Coherent (o : BrokerOrder) : Prop where
  complete : o.state = .complete → o.quantity ≤ o.filledQuantity
  cancelled : o.state = .cancelled → o.filledQuantity < o.quantity
  rejected : o.state = .rejected → o.filledQuantity = .fin 0
  working : o.state ∈ [.created, .submitting, .acknowledged, .open] →
    ¬ (Number.fin 0 < o.filledQuantity ∧ o.filledQuantity < o.quantity)

theorem coherent_iff_row {o : BrokerOrder} {filled : ℚ} (hf : o.filledQuantity = .fin filled) (h0 : 0 ≤ filled)
    (hpos : Number.fin 0 < o.quantity) :
    Coherent o ↔ rowCoherent o.state (quantities filled o.quantity) = true := by
  have hcov : (quantities filled o.quantity).covers = true ↔ o.quantity ≤ o.filledQuantity := by
    simp [quantities, hf, hpos]
  have hshort : (quantities filled o.quantity).short = true ↔ o.filledQuantity < o.quantity := by
    simp [quantities, hf]
  have hzero : (!(quantities filled o.quantity).filled) = true ↔ o.filledQuantity = .fin 0 := by
    simp only [quantities, hf, Bool.not_eq_true', decide_eq_false_iff_not, Number.fin.injEq, not_lt]
    exact ⟨fun h => le_antisymm h h0, fun h => h.le⟩
  have hwork : (!((quantities filled o.quantity).filled && (quantities filled o.quantity).short)) = true ↔
      ¬ (Number.fin 0 < o.filledQuantity ∧ o.filledQuantity < o.quantity) := by
    rw [Bool.not_eq_true', ← Bool.not_eq_true, Bool.and_eq_true, hshort]
    simp [quantities, hf]
  constructor
  · intro h
    cases hs : o.state with
    | complete => exact hcov.mpr (h.complete hs)
    | cancelled => exact hshort.mpr (h.cancelled hs)
    | rejected => exact hzero.mpr (h.rejected hs)
    | created | submitting | acknowledged | «open» => exact hwork.mpr (h.working (by rw [hs]; decide))
    | partiallyFilled | cancelRequested | unknown | reconciliationRequired => rfl
  · intro h
    constructor <;> intro hs
    · rw [hs] at h; exact hcov.mp h
    · rw [hs] at h; exact hshort.mp h
    · rw [hs] at h; exact hzero.mp h
    · simp only [List.mem_cons, List.not_mem_nil, or_false] at hs
      rcases hs with hs | hs | hs | hs <;> rw [hs] at h <;> exact hwork.mp h

/-- **Coherence**, exactly unless a cached COMPLETE meets a working observation of a larger request. -/
theorem merge_coherent (current candidate : BrokerOrder) (options : BrokerOrderMergeOptions)
    (hid : candidate.clientOrderId = current.clientOrderId)
    (hcur : Number.fin 0 < current.quantity) (hcand : Number.fin 0 < candidate.quantity) :
    let merged := (mergeBrokerOrderSnapshot (some current) candidate options).order
    (Coherent merged ∧
        merged.pendingQuantity = Number.max (.fin 0) (merged.quantity.sub merged.filledQuantity)) ↔
      BrokerIdsDiffer current candidate ∨
        ¬ (current.state = .complete ∧ isBrokerOrderTerminal candidate.state = false ∧
          Number.fin (acceptedQuantity current candidate) < requestedQuantity current candidate options) := by
  intro merged
  have hm : merged = (mergeSnapshots current candidate options).order := by
    rw [← mergeBrokerOrderSnapshot_same _ _ _ hid]
  have hpos : Number.fin 0 < requestedQuantity current candidate options := by
    unfold requestedQuantity; split
    · exact hcur
    · exact hcand
  have hpending : merged.pendingQuantity = Number.max (.fin 0) (merged.quantity.sub merged.filledQuantity) := by
    rw [hm]; rfl
  have hshort : (mergeQuantities current candidate options).short = true ↔
      Number.fin (acceptedQuantity current candidate) < requestedQuantity current candidate options :=
    decide_eq_true_iff
  have hrow := stateTable_coherent current.state candidate.state (mergeQuantities current candidate options)
    (isStale current candidate options) (mergeQuantities_consistent _ _ _) (quantities_total _ hpos)
  rw [hshort] at hrow
  rw [and_iff_left hpending, hm, coherent_iff_row rfl (acceptedQuantity_nonneg _ _) hpos]
  change rowCoherent (mergeSnapshots current candidate options).order.state
    (mergeQuantities current candidate options) = true ↔ _
  by_cases hc : (mergeSnapshots current candidate options).conflict.isSome = true
  · rw [mergeSnapshots_quarantined _ _ _ hc]
    refine iff_of_true rfl ?_
    -- quarantined: either the ids differ, or the row contradicts, and then it is coherent
    rcases (mergeSnapshots_conflict _ _ _).mp hc with h | h
    · rw [← hrow, stateTable_quarantine _ _ _ _ h]; exact Or.inr rfl
    · exact Or.inl h
  · have hb : ¬ BrokerIdsDiffer current candidate :=
      fun hb => hc ((mergeSnapshots_conflict _ _ _).mpr (Or.inr hb))
    rw [mergeSnapshots_state, if_neg hc, or_iff_right hb]
    exact hrow

theorem merge_coherent_late_fill :
    let cached := legOrder .cancelled 100 30 (some (.fin 10))
    let observed := legOrder .partiallyFilled 200 100 (some (.fin 11))
    let merged := (mergeBrokerOrderSnapshot (some cached) observed (.observed (.fin 100))).order
    (Coherent merged ∧
        merged.pendingQuantity = Number.max (.fin 0) (merged.quantity.sub merged.filledQuantity)) ↔
      BrokerIdsDiffer cached observed ∨
        ¬ (cached.state = .complete ∧ isBrokerOrderTerminal observed.state = false ∧
          Number.fin (acceptedQuantity cached observed) < requestedQuantity cached observed (.observed (.fin 100))) :=
  merge_coherent _ _ _ rfl (by decide +kernel) (by decide +kernel)

theorem merge_coherent_fails :
    let cached := legOrder .complete 100 100 (some (.fin 10))
    let observed := legOrder .partiallyFilled 200 100 (some (.fin 10))
    let merged := (mergeBrokerOrderSnapshot (some cached) observed .omitted).order
    Coherent cached ∧ Coherent observed ∧ ¬ Coherent merged ∧ merged.state = .complete ∧
      merged.quantity = .fin 200 ∧ merged.filledQuantity = .fin 100 := by
  refine ⟨?_, ?_, fun h => ?_, by decide +kernel, by decide +kernel, by decide +kernel⟩
  · exact (coherent_iff_row rfl (by norm_num) (by decide +kernel)).mpr (by decide +kernel)
  · exact (coherent_iff_row rfl (by norm_num) (by decide +kernel)).mpr (by decide +kernel)
  · exact absurd (h.complete (by decide +kernel)) (by decide +kernel)

end BoxEngine
