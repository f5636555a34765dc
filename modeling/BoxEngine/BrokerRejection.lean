import BoxEngine.MergeRecordsSound
import BoxEngine.OrderRequest

/-!
# Reporting a broker rejection

A certificate of zero exposure when the merged snapshot proves it, otherwise an uncertain outcome with the same
snapshot.
-/

namespace BoxEngine

open Js

/-- The broker refused the request, but the snapshot does not support that nothing executed. -/
structure BrokerRejectionContradicted where
  clientOrderId : String
  message : String
  disproof : ZeroExposureDisproof
  rejectedOrder : BrokerOrder
  observedFilledQuantity : Number
  brokerOrderId : Option String
  brokerRejectFamily : Option BrokerRejectFamily
  brokerRejectReason : Option String

def BrokerRejectionContradicted.of (order : BrokerOrder) (verdict : ZeroExposureRefusal) : BrokerRejectionContradicted :=
  let id := order.clientOrderId
  let disproof := verdict.disproof.label
  let detail := verdict.detail
  let state := order.state.label
  let filled := order.filledQuantity.toText
  let brokerId := order.brokerOrderId.getD "none"
  { clientOrderId := id
    message := s!"broker rejected {id} but the outcome is NOT proven to be zero exposure ({disproof}): {detail}. State {state}, cumulative filled {filled}, broker order id {brokerId}. Reconciliation is required and NO retry was attempted."
    disproof := verdict.disproof
    rejectedOrder := order
    observedFilledQuantity := if order.filledQuantity.isFinite then order.filledQuantity else .fin 0
    brokerOrderId := order.brokerOrderId
    brokerRejectFamily := order.rejectFamily
    brokerRejectReason := order.rejectReason }

inductive BrokerRejectionOutcome where
  | rejected (order : BrokerOrder)
  | contradicted (error : BrokerRejectionContradicted)

def brokerRejectionOutcome (order : BrokerOrder) : BrokerRejectionOutcome :=
  match verifyZeroBrokerExposure order with
  | none => .rejected order
  | some verdict => .contradicted (.of order verdict)

variable (cached : BrokerOrder)

def commitSnapshot (seen : BrokerOrder × BrokerOrderMergeOptions) : BrokerOrder :=
  (mergeBrokerOrderSnapshot (some cached) seen.1 seen.2).order

def commitAll (seen : List (BrokerOrder × BrokerOrderMergeOptions)) : BrokerOrder :=
  seen.foldl commitSnapshot cached

def merged (seen : List (BrokerOrder × BrokerOrderMergeOptions)) : List BrokerOrder :=
  cached :: (seen.filter fun s => s.1.clientOrderId = cached.clientOrderId).map Prod.fst

variable (cached : BrokerOrder)
variable (seen : BrokerOrder × BrokerOrderMergeOptions)

theorem commitSnapshot_cases : seen.1.clientOrderId ≠ cached.clientOrderId ∧ commitSnapshot cached seen = cached ∨
      seen.1.clientOrderId = cached.clientOrderId ∧
        commitSnapshot cached seen = (mergeSnapshots cached seen.1 seen.2).order := by
  unfold commitSnapshot
  by_cases h : seen.1.clientOrderId = cached.clientOrderId
  · exact .inr ⟨h, by rw [mergeBrokerOrderSnapshot_same _ _ _ h]⟩
  · exact .inl ⟨h, by simp [mergeBrokerOrderSnapshot, Ne.symm h]⟩

@[simp] theorem commitSnapshot_clientOrderId : (commitSnapshot cached seen).clientOrderId = cached.clientOrderId := by
  rcases commitSnapshot_cases cached seen with ⟨_, h⟩ | ⟨_, h⟩ <;> rw [h]
  rfl

theorem commitAll_append (seen later : List (BrokerOrder × BrokerOrderMergeOptions)) :
    commitAll cached (seen ++ later) = later.foldl commitSnapshot (commitAll cached seen) := by
  simp [commitAll]

/-! ## What the snapshot takes from its observations -/

structure Supported (observations : List BrokerOrder) (order : BrokerOrder) : Prop where
  quantity : ∀ o ∈ observations, safeCumulative o.filledQuantity ≤ safeCumulative order.filledQuantity
  label : order.state = .rejected → ∃ o ∈ observations, o.state = .rejected
  unmarked : order.executionEvidence = none → ∀ o ∈ observations, o.executionEvidence = none
  confirmed : confirms order = true → ∃ o ∈ observations, confirms o = true

theorem Supported.self (order : BrokerOrder) : Supported [order] order where
  quantity o ho := by rw [List.mem_singleton.mp ho]
  label h := ⟨order, by simp, h⟩
  unmarked h o ho := by rwa [List.mem_singleton.mp ho]
  confirmed h := ⟨order, by simp, h⟩

section
variable {current candidate : BrokerOrder} {options : BrokerOrderMergeOptions}

theorem resolveState_rejected {accepted : ℚ} {requested : Number} {stale : Bool}
    (h : (resolveState current candidate accepted requested stale).state = .rejected) :
    current.state = .rejected ∨ candidate.state = .rejected := by
  unfold resolveState at h
  dsimp only at h
  split at h <;> repeat' split at h
  all_goals first
    | exact .inl h
    | exact .inr h
    | simp at h

theorem mergeSnapshots_rejected (h : (mergeSnapshots current candidate options).order.state = .rejected) :
    current.state = .rejected ∨ candidate.state = .rejected := by
  have hstate : (mergeSnapshots current candidate options).order.state =
      if (mergeSnapshots current candidate options).conflict.isSome = true then .reconciliationRequired
      else (resolveState current candidate (acceptedQuantity current candidate)
        (requestedQuantity current candidate options) (isStale current candidate options)).state := rfl
  rw [hstate] at h
  by_cases hconflict : (mergeSnapshots current candidate options).conflict.isSome = true
  · simp [hconflict] at h
  · rw [if_neg hconflict] at h
    exact resolveState_rejected h

theorem mergeSnapshots_unmarked (h : (mergeSnapshots current candidate options).order.executionEvidence = none) :
    current.executionEvidence = none ∧ candidate.executionEvidence = none := by
  rw [mergeSnapshots_evidence] at h
  simp only [resolveEvidence, Option.map_eq_none_iff, Option.or_eq_none_iff] at h
  cases hstale : isStale current candidate options <;> simp_all

theorem Supported.merge {observations : List BrokerOrder} (h : Supported observations current)
    (candidate : BrokerOrder) (options : BrokerOrderMergeOptions) :
    Supported (observations ++ [candidate]) (mergeSnapshots current candidate options).order := by
  have hquantity : safeCumulative (mergeSnapshots current candidate options).order.filledQuantity =
      acceptedQuantity current candidate := by
    rw [mergeSnapshots_filledQuantity, safeCumulative_fin (acceptedQuantity_nonneg _ _)]
  refine ⟨fun o ho => ?_, fun hstate => ?_, fun hnone o ho => ?_, fun hconfirms => ?_⟩
  · rw [hquantity]
    rcases List.mem_append.mp ho with ho | ho
    · exact (h.quantity o ho).trans (le_max_left _ _)
    · rw [List.mem_singleton.mp ho]
      exact le_max_right _ _
  · rcases mergeSnapshots_rejected hstate with hcurrent | hcandidate
    · obtain ⟨o, ho, hrejected⟩ := h.label hcurrent
      exact ⟨o, by simp [ho], hrejected⟩
    · exact ⟨candidate, by simp, hcandidate⟩
  · obtain ⟨hcurrent, hcandidate⟩ := mergeSnapshots_unmarked hnone
    rcases List.mem_append.mp ho with ho | ho
    · exact h.unmarked hcurrent o ho
    · rwa [List.mem_singleton.mp ho]
  · obtain ⟨pair, hpair, hconfirmed⟩ := (confirms_merged current candidate options).mp hconfirms
    rcases mem_lenders current candidate options hpair with rfl | rfl
    · obtain ⟨o, ho, hseen⟩ := h.confirmed hconfirmed
      exact ⟨o, by simp [ho], hseen⟩
    · exact ⟨candidate, by simp, hconfirmed⟩

end

theorem commitAll_supported (seen : List (BrokerOrder × BrokerOrderMergeOptions)) :
    (commitAll cached seen).clientOrderId = cached.clientOrderId ∧
      Supported (merged cached seen) (commitAll cached seen) := by
  induction seen using List.reverseRecOn with
  | nil => exact ⟨rfl, .self cached⟩
  | append_singleton seen last ih =>
    obtain ⟨hid, hsupported⟩ := ih
    rw [commitAll_append, List.foldl_cons, List.foldl_nil]
    refine ⟨by rw [commitSnapshot_clientOrderId, hid], ?_⟩
    rcases commitSnapshot_cases (commitAll cached seen) last with ⟨hother, hsame⟩ | ⟨hsame, hmerge⟩
    · rw [hid] at hother
      rw [hsame]
      simpa [merged, hother] using hsupported
    · rw [hid] at hsame
      rw [hmerge]
      simpa [merged, hsame] using hsupported.merge last.1 last.2

/-! ## The outcome -/

theorem safeCumulative_eq_zero {value : Number} : safeCumulative value = 0 ↔ ¬ ∃ q : ℚ, 0 < q ∧ value = .fin q := by
  cases value with
  | fin q =>
    by_cases hq : 0 < q
    · simp [safeCumulative, hq, hq.ne']
    · simp [safeCumulative, hq]
  | _ => simp [safeCumulative]

theorem unproven_of_positive {order : BrokerOrder} (h : 0 < safeCumulative order.filledQuantity) :
    verifyZeroBrokerExposure order ≠ none := by
  intro hnone
  have hzero := (@provesZeroExposure_spec order (by simp [provesZeroExposure, hnone])).1
  rw [hzero] at h
  simp [safeCumulative] at h

theorem evidence_of_proven {order : BrokerOrder} (h : verifyZeroBrokerExposure order = none) :
    order.executionEvidence = none ∨ confirms order = true := by
  unfold verifyZeroBrokerExposure at h
  dsimp only at h
  cases hevidence : order.executionEvidence with
  | none => exact .inl rfl
  | some evidence =>
    refine .inr ?_
    cases hquantity : evidence.quantity with
    | confirmed => simp [confirms, hevidence, hquantity]
    | missing =>
      exfalso
      revert h
      repeat (first | split | simp [hevidence, evidenceUnproven, hquantity])

/-- A cached fill makes every rejection a contradicted one, and a certificate rests on observations that report no
fill. -/
theorem rejection_never_erases_fill (cached : BrokerOrder) (seen : List (BrokerOrder × BrokerOrderMergeOptions)) :
    (∀ fill : ℚ, 0 < fill → cached.filledQuantity = .fin fill →
      ∃ error, brokerRejectionOutcome (commitAll cached seen) = .contradicted error ∧
        ∃ q, fill ≤ q ∧ error.observedFilledQuantity = .fin q) ∧
    ∀ order, brokerRejectionOutcome (commitAll cached seen) = .rejected order →
      (∀ o ∈ merged cached seen, ¬ ∃ q : ℚ, 0 < q ∧ o.filledQuantity = .fin q) ∧
      (∃ o ∈ merged cached seen, o.state = .rejected) ∧
      ((∀ o ∈ merged cached seen, o.executionEvidence = none) ∨ ∃ o ∈ merged cached seen, confirms o = true) := by
  have hsupported := (commitAll_supported cached seen).2
  unfold brokerRejectionOutcome
  refine ⟨fun fill hfill hcached => ?_, fun order horder => ?_⟩
  · have hle := hsupported.quantity cached (by simp [merged])
    rw [hcached, safeCumulative_fin hfill.le] at hle
    cases hverdict : verifyZeroBrokerExposure (commitAll cached seen) with
    | none => exact absurd hverdict (unproven_of_positive (hfill.trans_le hle))
    | some verdict =>
      refine ⟨_, rfl, ?_⟩
      cases hquantity : (commitAll cached seen).filledQuantity with
      | fin q =>
        rw [hquantity] at hle
        refine ⟨q, ?_, by simp [BrokerRejectionContradicted.of, hquantity]⟩
        by_cases hq : 0 ≤ q
        · rwa [safeCumulative_fin hq] at hle
        · simp only [safeCumulative, if_neg (fun h : 0 < q => hq h.le)] at hle
          linarith
      | _ =>
        rw [hquantity] at hle
        simp only [safeCumulative] at hle
        linarith
  · cases hverdict : verifyZeroBrokerExposure (commitAll cached seen) with
    | some verdict => simp [hverdict] at horder
    | none =>
      obtain ⟨hzero, hstate⟩ := @provesZeroExposure_spec (commitAll cached seen) (by simp [provesZeroExposure, hverdict])
      refine ⟨fun o ho => ?_, hsupported.label hstate,
        (evidence_of_proven hverdict).imp hsupported.unmarked hsupported.confirmed⟩
      have hle := hsupported.quantity o ho
      rw [hzero, safeCumulative_fin le_rfl] at hle
      exact safeCumulative_eq_zero.mp (le_antisymm hle (safeCumulative_nonneg _))

theorem rejection_certified_edges :
    let open_ : BrokerOrder := legOrder .open 75 0 none
    let refused : BrokerOrder := legOrder .rejected 75 0 none
    let certified := fun cached seen => provesZeroExposure (commitAll cached [(seen, .omitted)])
    certified { open_ with filledQuantity := .posInf } refused = true ∧
    certified open_ { refused with filledQuantity := .nan } = true ∧
    certified { open_ with executionEvidence := some ⟨.confirmed, .notApplicable, .complete⟩ }
      { refused with executionEvidence := some ⟨.missing, .notApplicable, .unproven⟩ } = true ∧
    certified open_ { refused with fills := [⟨"f-1", .fin 75, some (.fin 10), .fin 0⟩] } = true := by
  decide +kernel

end BoxEngine
