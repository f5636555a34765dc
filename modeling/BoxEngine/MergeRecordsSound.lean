import BoxEngine.MergeSound

/-!
# The records of a merge

The marker is honest when an order with the merged quantity confirmed it (`evidence_honest_iff`), and the rows never
tell of more than that quantity (`fills_accounted`).
-/

namespace BoxEngine

open Js

/-! ## Evidence -/

def executionAccountingComplete (order : BrokerOrder) : Bool :=
  if order.state = .unknown ∨ order.state = .reconciliationRequired then false
  else match order.executionEvidence with
    | some recorded => recorded.accounting = .complete
    | none => if .fin 0 < order.filledQuantity then order.averagePrice.any fun price => .fin 0 < price else true

section
variable (current candidate : BrokerOrder) (options : BrokerOrderMergeOptions)

def isAdvanced : Bool :=
  decide (0 < compareObservation options (safeCumulative candidate.filledQuantity)
    (safeCumulative current.filledQuantity))

/-- A confirmed marker is one of an order with the merged quantity. -/
def EvidenceHonest : Prop :=
  let merged := (mergeBrokerOrderSnapshot (some current) candidate options).order
  (confirms merged = true →
    ∃ o ∈ [current, candidate], o.filledQuantity = merged.filledQuantity ∧ confirms o = true) ∧
  (executionAccountingComplete merged = true → .fin 0 < merged.filledQuantity → merged.averagePrice.isSome = true)

/-- The order whose marker a merge goes by, beside the other one: of the newer observation where it carries a marker, of
the other where it does not, of each where neither is newer. -/
def lenders : List (BrokerOrder × BrokerOrder) :=
  let comparison := compareObservation options (safeCumulative candidate.filledQuantity) (safeCumulative current.filledQuantity)
  if 0 < comparison then [if candidate.executionEvidence.isSome then (candidate, current) else (current, candidate)]
  else if comparison < 0 then [if current.executionEvidence.isSome then (current, candidate) else (candidate, current)]
  else [(candidate, current), (current, candidate)]

theorem lenders_eq : lenders current candidate options =
    if isAdvanced current candidate options then
      [if candidate.executionEvidence.isSome then (candidate, current) else (current, candidate)]
    else if isStale current candidate options then
      [if current.executionEvidence.isSome then (current, candidate) else (candidate, current)]
    else [(candidate, current), (current, candidate)] := by
  simp only [lenders, isAdvanced, isStale, decide_eq_true_eq]

theorem mem_lenders {pair : BrokerOrder × BrokerOrder} (h : pair ∈ lenders current candidate options) :
    pair = (current, candidate) ∨ pair = (candidate, current) := by
  unfold lenders at h
  dsimp only at h
  split_ifs at h <;> simp at h <;> tauto

theorem mergeSnapshots_evidence : (mergeSnapshots current candidate options).order.executionEvidence =
    resolveEvidence current candidate (acceptedQuantity current candidate)
      (mergeSnapshots current candidate options).order.averagePrice (isStale current candidate options)
      (isAdvanced current candidate options) := by
  change Option.or (resolveEvidence current candidate _ _ (isStale current candidate options)
    (isAdvanced current candidate options)) _ = _
  cases hevidence : resolveEvidence current candidate (acceptedQuantity current candidate)
      (mergeSnapshots current candidate options).order.averagePrice (isStale current candidate options)
      (isAdvanced current candidate options) with
  | some evidence =>
    refine Eq.trans (congrArg (Option.or · _) hevidence) ?_
    rfl
  | none =>
    -- without a marker on either side there is none to fall back to
    have hnone : current.executionEvidence = none ∧ candidate.executionEvidence = none := by
      simp only [resolveEvidence, Option.map_eq_none_iff, Option.or_eq_none_iff] at hevidence
      cases hstale : isStale current candidate options <;> simp_all
    refine Eq.trans (congrArg (Option.or · _) hevidence) ?_
    simp only [hnone.1, Option.none_or]
    split
    · exact hnone.1
    · exact hnone.2

theorem not_isStale_of_isAdvanced (h : isAdvanced current candidate options = true) :
    isStale current candidate options = false := by
  rw [isAdvanced, decide_eq_true_eq] at h
  rw [isStale, decide_eq_false_iff_not]
  exact not_lt.mpr h.le

theorem confirms_merged : confirms (mergeSnapshots current candidate options).order = true ↔
    ∃ pair ∈ lenders current candidate options, confirms pair.1 = true := by
  unfold confirms
  rw [lenders_eq, mergeSnapshots_evidence]
  unfold resolveEvidence
  cases hadvanced : isAdvanced current candidate options with
  | true =>
    rw [not_isStale_of_isAdvanced current candidate options hadvanced]
    cases hcandidate : candidate.executionEvidence with
    | none => cases hcurrent : current.executionEvidence <;> simp [confirms, hcandidate, hcurrent]
    | some evidence => simp [confirms, hcandidate]
  | false =>
    cases hstale : isStale current candidate options with
    | true =>
      cases hcurrent : current.executionEvidence with
      | none => cases hcandidate : candidate.executionEvidence <;> simp [confirms, hcandidate, hcurrent]
      | some evidence => simp [confirms, hcurrent]
    | false =>
      cases hcandidate : candidate.executionEvidence with
      | none => cases hcurrent : current.executionEvidence <;> simp [confirms, hcandidate, hcurrent]
      | some evidence =>
        cases hcurrent : current.executionEvidence with
        | none => simp [confirms, hcandidate, hcurrent]
        | some cached =>
          simp [confirms, hcandidate, hcurrent]
          tauto

theorem resolveEvidence_unpriced {accepted : ℚ} (haccepted : 0 < accepted) {stale advanced : Bool}
    {evidence : ExecutionEvidenceQuality}
    (h : resolveEvidence current candidate accepted none stale advanced = some evidence) :
    evidence.accounting ≠ .complete := by
  unfold resolveEvidence at h
  obtain ⟨recorded, -, hevidence⟩ := Option.map_eq_some_iff.mp h
  rw [← hevidence]
  simp only [haccepted.ne', if_false, if_true]
  split_ifs <;> simp

theorem accounting_priced (hcomplete : executionAccountingComplete (mergeSnapshots current candidate options).order = true)
    (hfilled : 0 < acceptedQuantity current candidate) :
    (mergeSnapshots current candidate options).order.averagePrice.isSome = true := by
  by_contra hprice
  rw [Option.not_isSome_iff_eq_none] at hprice
  unfold executionAccountingComplete at hcomplete
  split at hcomplete
  · cases hcomplete
  split at hcomplete
  · rename_i evidence hevidence
    rw [mergeSnapshots_evidence, hprice] at hevidence
    exact resolveEvidence_unpriced current candidate hfilled hevidence (by simpa using hcomplete)
  · simp [hprice, hfilled] at hcomplete

end

/-! ## Markers lent -/

/-- The order's own quantity can be read and is no smaller than the other's. -/
def reportsMost (o other : BrokerOrder) : Bool :=
  match o.filledQuantity with
  | .fin q => decide (0 ≤ q) && decide (safeCumulative other.filledQuantity ≤ q)
  | _ => false

/-- A confirmed marker goes to a quantity that its order did not report and that the other did not confirm. -/
def LendsMarker (lender other : BrokerOrder) : Prop :=
  confirms lender = true ∧ reportsMost lender other = false ∧ ¬(reportsMost other lender = true ∧ confirms other = true)

theorem reportsMost_iff (o other : BrokerOrder) : reportsMost o other = true ↔
    o.filledQuantity = .fin (max (safeCumulative o.filledQuantity) (safeCumulative other.filledQuantity)) := by
  have hother := safeCumulative_nonneg other.filledQuantity
  unfold reportsMost
  cases hfilled : o.filledQuantity with
  | fin q =>
    simp only [Bool.and_eq_true, decide_eq_true_eq, Number.fin.injEq]
    by_cases hpos : 0 < q
    · have hown : safeCumulative (.fin q) = q := if_pos hpos
      rw [hown]
      exact ⟨fun h => (max_eq_left h.2).symm, fun h => ⟨hpos.le, h ▸ le_max_right _ _⟩⟩
    · have hown : safeCumulative (.fin q) = 0 := if_neg hpos
      rw [hown, max_eq_right hother]
      constructor
      · rintro ⟨hq, hle⟩
        linarith
      · rintro rfl
        exact ⟨hother, le_rfl⟩
  | _ => simp

theorem supplied_iff {current candidate : BrokerOrder} {pair : BrokerOrder × BrokerOrder}
    (h : pair = (current, candidate) ∨ pair = (candidate, current)) :
    (∃ o ∈ [current, candidate], o.filledQuantity = .fin (acceptedQuantity current candidate) ∧ confirms o = true) ↔
      (reportsMost pair.1 pair.2 = true ∧ confirms pair.1 = true) ∨
        (reportsMost pair.2 pair.1 = true ∧ confirms pair.2 = true) := by
  simp only [reportsMost_iff, List.mem_cons, List.not_mem_nil, or_false, exists_eq_or_imp, exists_eq_left, acceptedQuantity]
  rcases h with rfl | rfl
  · rw [max_comm (safeCumulative candidate.filledQuantity)]
  · rw [max_comm (safeCumulative candidate.filledQuantity)]
    exact or_comm

/-- The marker is honest exactly where no order lends a confirmed one to a quantity it did not report. -/
theorem evidence_honest_iff (current candidate : BrokerOrder) (options : BrokerOrderMergeOptions)
    (hid : candidate.clientOrderId = current.clientOrderId) :
    EvidenceHonest current candidate options ↔
      ∀ pair ∈ lenders current candidate options, ¬LendsMarker pair.1 pair.2 := by
  have hparts : EvidenceHonest current candidate options ↔
      ((∃ pair ∈ lenders current candidate options, confirms pair.1 = true) →
        ∃ o ∈ [current, candidate], o.filledQuantity = .fin (acceptedQuantity current candidate) ∧ confirms o = true) := by
    unfold EvidenceHonest
    rw [mergeBrokerOrderSnapshot_same _ _ _ hid]
    simp only [confirms_merged, mergeSnapshots_filledQuantity, Number.fin_lt_fin]
    exact ⟨fun h => h.1, fun h => ⟨h, accounting_priced current candidate options⟩⟩
  rw [hparts]
  constructor
  · rintro h pair hpair ⟨hconfirms, hreports, hother⟩
    rcases (supplied_iff (mem_lenders current candidate options hpair)).mp (h ⟨pair, hpair, hconfirms⟩) with hself | hboth
    · exact absurd hself.1 (by simp [hreports])
    · exact hother hboth
  · rintro h ⟨pair, hpair, hconfirms⟩
    apply (supplied_iff (mem_lenders current candidate options hpair)).mpr
    by_contra hnone
    obtain ⟨hself, hother⟩ := not_or.mp hnone
    exact h pair hpair ⟨hconfirms, by simpa [hconfirms] using hself, hother⟩

def confirmedFive : BrokerOrder :=
  { legOrder .partiallyFilled 10 5 (some (.fin 100)) with
    executionEvidence := some ⟨.confirmed, .confirmed, .complete⟩ }

def unmarkedTen : BrokerOrder := legOrder .complete 10 10 (some (.fin 100))

theorem evidence_honest_fails : ¬EvidenceHonest confirmedFive unmarkedTen .omitted := by
  unfold EvidenceHonest
  decide +kernel

def confirmedTen : BrokerOrder := { unmarkedTen with executionEvidence := some ⟨.confirmed, .confirmed, .complete⟩ }

/-- The larger quantity comes with a marker of its own. -/
theorem evidence_honest_iff_confirmed : EvidenceHonest confirmedFive confirmedTen .omitted := by
  apply (evidence_honest_iff confirmedFive confirmedTen .omitted rfl).mpr
  unfold LendsMarker
  decide +kernel

/-! ## Fill rows -/

theorem sumFilled_nil : sumFilled [] = 0 := rfl

theorem sumFilled_aggregate {accepted : ℚ} (h : 0 < accepted) (fillId : String) (price : Option Number) («at» : Number) :
    sumFilled [⟨fillId, .fin accepted, price, «at»⟩] = accepted := by
  simp [sumFilled, h]

theorem length_pos_of_sumFilled {fills : List BrokerFill} (h : 0 < sumFilled fills) : 0 < fills.length := by
  cases fills with
  | nil => simp [sumFilled_nil] at h
  | cons fill fills => simp

def Lags (fills : List BrokerFill) (accepted : ℚ) : Prop := 1 < fills.length ∧ sumFilled fills < accepted

section
variable (winner other : BrokerOrder) {accepted : ℚ} (averagePrice : Option Number)

theorem resolveFills_zero (h : accepted ≤ 0) : resolveFills winner other accepted averagePrice = [] := by
  unfold resolveFills
  exact if_pos h

theorem resolveFills_exact (h : 0 < accepted)
    (hexact : sumFilled winner.fills = accepted ∨ sumFilled other.fills = accepted) :
    sumFilled (resolveFills winner other accepted averagePrice) = accepted := by
  unfold resolveFills
  simp only [not_le.mpr h, if_false]
  by_cases hwinner : 0 < winner.fills.length ∧ sumFilled winner.fills = accepted
  · rw [if_pos hwinner]
    exact hwinner.2
  rw [if_neg hwinner]
  have hother : sumFilled other.fills = accepted := by
    apply hexact.resolve_left
    intro hsum
    exact hwinner ⟨length_pos_of_sumFilled (hsum ▸ h), hsum⟩
  rw [if_pos ⟨length_pos_of_sumFilled (hother ▸ h), hother⟩]
  exact hother

section

variable (hwinner : sumFilled winner.fills ≠ accepted) (hother : sumFilled other.fills ≠ accepted)
include hwinner hother

theorem resolveFills_inexact (h : 0 < accepted) {richer : BrokerOrder}
    (hricher : richer = if other.fills.length ≤ winner.fills.length then winner else other) :
    (Lags richer.fills accepted ∧ resolveFills winner other accepted averagePrice = richer.fills) ∨
      (¬Lags richer.fills accepted ∧ (resolveFills winner other accepted averagePrice).length = 1 ∧
        sumFilled (resolveFills winner other accepted averagePrice) = accepted) := by
  unfold resolveFills
  simp only [not_le.mpr h, if_false, hwinner, hother, and_false, ← hricher]
  by_cases hlags : Lags richer.fills accepted
  · exact .inl ⟨hlags, if_pos hlags⟩
  · have hshort : ¬(1 < richer.fills.length ∧ sumFilled richer.fills < accepted) := hlags
    simp only [hshort, if_false]
    exact .inr ⟨hlags, rfl, sumFilled_aggregate h _ _ _⟩

end

theorem resolveFills_sum (h : 0 < accepted) :
    sumFilled (resolveFills winner other accepted averagePrice) = accepted ∨
      Lags (resolveFills winner other accepted averagePrice) accepted := by
  by_cases hexact : sumFilled winner.fills = accepted ∨ sumFilled other.fills = accepted
  · exact .inl (resolveFills_exact winner other averagePrice h hexact)
  · obtain ⟨hwinner, hother⟩ := not_or.mp hexact
    rcases resolveFills_inexact winner other averagePrice hwinner hother h rfl with ⟨hlags, hrows⟩ | ⟨-, -, hsum⟩
    · rw [hrows]
      exact .inr hlags
    · exact .inl hsum

theorem resolveFills_within (h : 0 ≤ accepted) :
    sumFilled (resolveFills winner other accepted averagePrice) ≤ accepted ∧
      (sumFilled (resolveFills winner other accepted averagePrice) = accepted ∨
        2 ≤ (resolveFills winner other accepted averagePrice).length) ∧
      (accepted = 0 → resolveFills winner other accepted averagePrice = []) := by
  rcases h.eq_or_lt with hzero | hpos
  · rw [← hzero, resolveFills_zero winner other averagePrice le_rfl]
    exact ⟨le_rfl, .inl rfl, fun _ => rfl⟩
  · rcases resolveFills_sum winner other averagePrice hpos with hsum | ⟨hmany, hlt⟩
    · exact ⟨hsum.le, .inl hsum, fun hzero => absurd hzero hpos.ne'⟩
    · exact ⟨hlt.le, .inr hmany, fun hzero => absurd hzero hpos.ne'⟩

end

section
variable (current candidate : BrokerOrder) (options : BrokerOrderMergeOptions)

theorem mergeSnapshots_fills : (mergeSnapshots current candidate options).order.fills =
    resolveFills (if isStale current candidate options then current else candidate)
      (if isStale current candidate options then candidate else current) (acceptedQuantity current candidate)
      (mergeSnapshots current candidate options).order.averagePrice := rfl

theorem sumFilled_again :
    sumFilled (mergeSnapshots (mergeSnapshots current candidate options).order candidate options).order.fills =
      sumFilled (mergeSnapshots current candidate options).order.fills := by
  rcases (acceptedQuantity_nonneg current candidate).eq_or_lt with hzero | hpos
  · rw [mergeSnapshots_fills, mergeSnapshots_fills current, acceptedQuantity_again, ← hzero,
      resolveFills_zero _ _ _ le_rfl, resolveFills_zero _ _ _ le_rfl]
  have hstale := isStale_again current candidate options
  have hfills := mergeSnapshots_fills current candidate options
  rw [mergeSnapshots_fills _ candidate, acceptedQuantity_again]
  generalize (mergeSnapshots (mergeSnapshots current candidate options).order candidate options).order.averagePrice =
    averagePrice
  generalize isStale (mergeSnapshots current candidate options).order candidate options = staleAgain at hstale ⊢
  generalize (mergeSnapshots current candidate options).order = merged at hfills ⊢
  -- rows that account for the whole quantity decide both merges
  by_cases hexact : sumFilled candidate.fills = acceptedQuantity current candidate ∨
      sumFilled merged.fills = acceptedQuantity current candidate
  · have hmerged : sumFilled merged.fills = acceptedQuantity current candidate := by
      rcases hexact with hcandidate | hmerged
      · rw [hfills]
        apply resolveFills_exact _ _ _ hpos
        cases isStale current candidate options
        · exact .inl hcandidate
        · exact .inr hcandidate
      · exact hmerged
    rw [hmerged]
    apply resolveFills_exact _ _ _ hpos
    cases staleAgain
    · exact .inr hmerged
    · exact .inl hmerged
  obtain ⟨hcandidate, hmerged⟩ := not_or.mp hexact
  -- otherwise the merged rows are the longer ones of the two orders
  have hcurrent : sumFilled current.fills ≠ acceptedQuantity current candidate := by
    intro hcurrent
    apply hmerged
    rw [hfills]
    apply resolveFills_exact _ _ _ hpos
    cases isStale current candidate options
    · exact .inr hcurrent
    · exact .inl hcurrent
  have hrows : Lags merged.fills (acceptedQuantity current candidate) ∧ (merged.fills = candidate.fills ∨
      (candidate.fills.length ≤ merged.fills.length ∧
        (staleAgain = false → candidate.fills.length < merged.fills.length))) := by
    cases hwas : isStale current candidate options with
    | true =>
      simp only [hwas, if_true] at hfills
      rcases resolveFills_inexact current candidate _ hcurrent hcandidate hpos rfl with ⟨hlags, hkept⟩ | ⟨-, -, hsum⟩
      · rw [← hfills] at hkept
        rw [hkept]
        refine ⟨hlags, ?_⟩
        split
        · rename_i hle
          exact .inr ⟨hle, fun hnot => absurd (hstale hwas) (by simp [hnot])⟩
        · exact .inl rfl
      · exact absurd (hfills ▸ hsum) hmerged
    | false =>
      simp only [hwas, Bool.false_eq_true, if_false] at hfills
      rcases resolveFills_inexact candidate current _ hcandidate hcurrent hpos rfl with ⟨hlags, hkept⟩ | ⟨-, -, hsum⟩
      · rw [← hfills] at hkept
        rw [hkept]
        refine ⟨hlags, ?_⟩
        split
        · exact .inl rfl
        · rename_i hlt
          exact .inr ⟨(not_le.mp hlt).le, fun _ => not_le.mp hlt⟩
      · exact absurd (hfills ▸ hsum) hmerged
  obtain ⟨hlags, hlonger⟩ := hrows
  cases staleAgain with
  | true =>
    have hricher : (if candidate.fills.length ≤ merged.fills.length then merged else candidate).fills = merged.fills := by
      split
      · rfl
      · rcases hlonger with hsame | ⟨hle, -⟩
        · exact hsame.symm
        · contradiction
    rcases resolveFills_inexact merged candidate averagePrice hmerged hcandidate hpos rfl with ⟨-, hkept⟩ | ⟨hnot, -⟩
    · exact congrArg sumFilled (hkept.trans hricher)
    · rw [hricher] at hnot
      exact absurd hlags hnot
  | false =>
    have hricher : (if merged.fills.length ≤ candidate.fills.length then candidate else merged).fills = merged.fills := by
      split
      · rename_i hle
        rcases hlonger with hsame | ⟨-, hlt⟩
        · exact hsame.symm
        · exact absurd (hlt rfl) (not_lt.mpr hle)
      · rfl
    rcases resolveFills_inexact candidate merged averagePrice hcandidate hmerged hpos rfl with ⟨-, hkept⟩ | ⟨hnot, -⟩
    · exact congrArg sumFilled (hkept.trans hricher)
    · rw [hricher] at hnot
      exact absurd hlags hnot

end

/-- The rows never tell of more than the quantity; a repeat leaves their total. -/
theorem fills_accounted (current candidate : BrokerOrder) (options : BrokerOrderMergeOptions)
    (hid : candidate.clientOrderId = current.clientOrderId) :
    let merged := (mergeBrokerOrderSnapshot (some current) candidate options).order
    .fin (sumFilled merged.fills) ≤ merged.filledQuantity ∧
      (.fin (sumFilled merged.fills) = merged.filledQuantity ∨ 2 ≤ merged.fills.length) ∧
      (merged.filledQuantity = .fin 0 → merged.fills = []) ∧
      sumFilled (mergeBrokerOrderSnapshot (some merged) candidate options).order.fills = sumFilled merged.fills := by
  intro merged
  have hmerged : merged = (mergeSnapshots current candidate options).order := by
    rw [← mergeBrokerOrderSnapshot_same current candidate options hid]
  have hagain := sumFilled_again current candidate options
  rw [← hmerged] at hagain
  have hsame : candidate.clientOrderId = merged.clientOrderId := by
    rw [hmerged]
    exact hid
  rw [mergeBrokerOrderSnapshot_same merged candidate options hsame]
  have hfilled : merged.filledQuantity = .fin (acceptedQuantity current candidate) := by
    rw [hmerged]
    rfl
  obtain ⟨hle, hall, hnone⟩ := resolveFills_within (if isStale current candidate options then current else candidate)
    (if isStale current candidate options then candidate else current)
    (mergeSnapshots current candidate options).order.averagePrice (acceptedQuantity_nonneg current candidate)
  rw [← mergeSnapshots_fills, ← hmerged] at hle hall hnone
  rw [hfilled]
  refine ⟨Number.fin_le_fin.mpr hle, ?_, ?_, hagain⟩
  · exact hall.imp_left fun hsum => by rw [hsum]
  · intro hzero
    exact hnone (Number.fin.inj hzero)

theorem fills_accounted_once :
    let merged := (mergeBrokerOrderSnapshot (some confirmedFive) unmarkedTen .omitted).order
    .fin (sumFilled merged.fills) ≤ merged.filledQuantity ∧
      (.fin (sumFilled merged.fills) = merged.filledQuantity ∨ 2 ≤ merged.fills.length) ∧
      (merged.filledQuantity = .fin 0 → merged.fills = []) ∧
      sumFilled (mergeBrokerOrderSnapshot (some merged) unmarkedTen .omitted).order.fills = sumFilled merged.fills :=
  fills_accounted confirmedFive unmarkedTen .omitted rfl

end BoxEngine
