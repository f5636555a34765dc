import BoxEngine.DhanBrokerAdapter
import BoxEngine.MergeSound
import BoxEngine.OrderPricingSound

/-!
# What the Dhan adapter makes of a reading

One reading of a cached order over REST and from the stream, the labels that end an order, and the orders a pass over
the remote list finds.
-/

namespace BoxEngine.DhanAdapter

open Js


section
variable {cur S R : BrokerOrderState} {q : Quantities}

theorem stateTable_working (hS : isBrokerOrderTerminal S = false) (hR : isBrokerOrderTerminal R = false)
    (hSr : S ≠ .reconciliationRequired) (hRr : R ≠ .reconciliationRequired) :
    stateTable cur S q true = stateTable cur R q true := by
  cases hcur : isBrokerOrderTerminal cur <;> simp [stateTable, hcur, hS, hR, hSr, hRr]

def Ends (T : BrokerOrderState) : Prop := T = .complete ∨ T = .cancelled

theorem stateTable_lapsed : ∀ cur q, isBrokerOrderTerminal cur = false → q.short = true → q.covers = false →
    isBrokerOrderTerminal (stateTable cur .cancelled q false).1 = true ∧
      isBrokerOrderTerminal (stateTable cur .partiallyFilled q false).1 = false := by
  decide

theorem stateTable_covered (hq : q.filled = true ∧ q.short = false ∧ q.covers = true) (hT : Ends R) :
    stateTable cur .partiallyFilled q true = stateTable cur R q true ↔ isBrokerOrderTerminal cur = true := by
  obtain ⟨filled, short, covers⟩ := q
  obtain ⟨rfl, rfl, rfl⟩ := hq
  rcases hT with rfl | rfl <;> cases cur <;> decide

theorem stateTable_short (hq : q.filled = true ∧ q.short = true ∧ q.covers = false) (hT : Ends S) :
    stateTable cur S q true = stateTable cur .partiallyFilled q true ↔
      cur = .rejected ∨ cur = .cancelled ∧ S = .cancelled := by
  obtain ⟨filled, short, covers⟩ := q
  obtain ⟨rfl, rfl, rfl⟩ := hq
  rcases hT with rfl | rfl <;> cases cur <;> decide

end

section
variable {cur T : BrokerOrderState} {f q : ℚ} {Q : Number}

def partialOr (T : BrokerOrderState) (filled Q : Number) : BrokerOrderState :=
  if .fin 0 < filled ∧ filled < Q then .partiallyFilled else T

theorem partialOr_traded (filled Q : Number) :
    (if .fin 0 < Q ∧ .fin 0 < filled ∧ filled < Q then BrokerOrderState.partiallyFilled else .complete) =
      partialOr .complete filled Q := by
  have h : (.fin 0 < Q ∧ .fin 0 < filled ∧ filled < Q) ↔ .fin 0 < filled ∧ filled < Q :=
    ⟨And.right, fun h => ⟨Number.lt_trans h.1 h.2, h⟩⟩
  simp only [partialOr, h]

theorem partialOr_agree (hT : Ends T) (hq : 0 ≤ q) (hlt : q < f) :
    stateTable cur (partialOr T (.fin q) Q) (quantities f Q) true =
        stateTable cur (partialOr T (.fin f) Q) (quantities f Q) true ↔
      ¬ ((isBrokerOrderTerminal cur = false ∧ 0 < q ∧ .fin q < Q ∧ Q ≤ .fin f) ∨
        (q = 0 ∧ .fin f < Q ∧ ¬ (cur = .rejected ∨ cur = .cancelled ∧ T = .cancelled))) := by
  have hf : 0 < f := hq.trans_lt hlt
  by_cases hshort : Number.fin f < Q
  · have hle : ¬ Q ≤ .fin f := fun h => Number.not_lt_of_le h hshort
    have hqQ : Number.fin q < Q := Number.lt_trans (Number.fin_lt_fin.mpr hlt) hshort
    have hR : partialOr T (.fin f) Q = .partiallyFilled := by simp [partialOr, hf, hshort]
    by_cases hpos : 0 < q
    · have hS : partialOr T (.fin q) Q = .partiallyFilled := by simp [partialOr, hpos, hqQ]
      simp [hS, hR, hle, hpos.ne']
    · have hzero : q = 0 := le_antisymm (not_lt.mp hpos) hq
      have hS : partialOr T (.fin q) Q = T := by simp [partialOr, hpos]
      have hfacts : (quantities f Q).filled = true ∧ (quantities f Q).short = true ∧
          (quantities f Q).covers = false := by simp [quantities, hf, hshort, hle]
      rw [hS, hR, stateTable_short hfacts hT]
      simp only [hzero, hshort, hle, and_false, false_or, true_and, not_not]
  · have hR : partialOr T (.fin f) Q = T := by simp [partialOr, hshort]
    by_cases hS : 0 < q ∧ Number.fin q < Q
    · have hle : Q ≤ .fin f := (Number.lt_or_le_fin hS.2 f).resolve_left hshort
      have hpos : Number.fin 0 < Q := Number.lt_trans (Number.fin_lt_fin.mpr hS.1) hS.2
      have hfacts : (quantities f Q).filled = true ∧ (quantities f Q).short = false ∧
          (quantities f Q).covers = true := by simp [quantities, hf, hshort, hle, hpos]
      have hSq : partialOr T (.fin q) Q = .partiallyFilled := by simp [partialOr, hS]
      rw [hSq, hR, stateTable_covered hfacts hT]
      simp [hS, hle, hshort]
    · have hSq : partialOr T (.fin q) Q = T := by simp [partialOr, hS]
      rw [hSq, hR]
      refine iff_of_true rfl ?_
      rintro (⟨-, hpos, hqQ, -⟩ | ⟨-, h, -⟩)
      · exact hS ⟨hpos, hqQ⟩
      · exact hshort h

end

/-! ## Two descriptions of one reading -/

def plainDeps : DhanDeps := ⟨id, id, fun _ _ => .generic, fun _ => none⟩

def remoteOrder (orderId : String) (correlationId : Option String) (orderStatus : String) (filled : ℚ) : DhanOrder where
  orderId
  correlationId
  orderStatus
  transactionType := .buy
  exchangeSegment := "NSE_FNO"
  tradingSymbol := "NIFTY26SEP19900CE"
  securityId := .fin 1001
  quantity := .fin 75
  price := .fin 10
  remainingQuantity := none
  averageTradedPrice := some (.fin 10)
  filledQty := some (.fin filled)
  omsErrorCode := none
  omsErrorDescription := none
  updateTime := none
  exchangeTime := none

variable {deps : DhanDeps} {known candidate : BrokerOrder} {remote : DhanOrder} {q filled : ℚ}

theorem readNonNegativeInteger_some {raw : Option Number} {n : Number} (h : readNonNegativeInteger raw = some n) :
    ∃ q : ℚ, n = .fin q ∧ 0 ≤ q ∧ (⌊q⌋ : ℚ) = q := by
  obtain ⟨-, hn⟩ := Option.filter_eq_some_iff.mp h
  rw [Bool.and_eq_true, decide_eq_true_eq] at hn
  cases n with
  | fin q =>
    have hden : q.den = 1 := by simpa [Number.isInteger, Rat.isInt] using hn.1
    refine ⟨q, rfl, Number.fin_le_fin.mp hn.2, ?_⟩
    rw [← Rat.coe_int_num_of_den_eq_one hden, Int.floor_intCast]
  | _ => simp [Number.isInteger] at hn

theorem evaluate_present (label : String) (claimed : BrokerOrderState) (prior : Number) (q : ℚ)
    (price : Option Number) :
    (evaluateExecutionEvidence label claimed prior (some (.fin q)) price).sufficient = true ∧
      (evaluateExecutionEvidence label claimed prior (some (.fin q)) price).filledQuantity =
        max (safeCumulative prior) q := by
  unfold evaluateExecutionEvidence
  by_cases hzero : max (safeCumulative prior) q = 0
  · simp [hzero]
  · simp [hzero]

/-- The reading of a remote order, as the stream delivers it. -/
def DhanOrder.asUpdate (remote : DhanOrder) (clientOrderId : String) (at_ : Number) : ExternalOrderUpdate :=
  ⟨clientOrderId, some remote.orderId, remote.filledQty, remote.averageTradedPrice, some remote.orderStatus, at_⟩

structure Reads (deps : DhanDeps) (known : BrokerOrder) (remote : DhanOrder) (filled : ℚ) (candidate : BrokerOrder) :
    Prop where
  id : candidate.clientOrderId = known.clientOrderId
  broker : candidate.brokerOrderId = some remote.orderId
  quantity : candidate.quantity = known.quantity
  filledQuantity : candidate.filledQuantity = .fin filled
  state : candidate.state = dhanOrderState deps remote.orderStatus (.fin filled) known.quantity

theorem project_reads (hq : readCumulativeQuantity remote = some (.fin q)) (fills : List DhanTrade) (tag : String)
    (now : Number) :
    Reads deps known remote (max (safeCumulative known.filledQuantity) q)
      (project deps known remote tag fills now) := by
  obtain ⟨hsufficient, hfilled⟩ := evaluate_present remote.orderStatus
    (dhanOrderState deps remote.orderStatus (.fin q) known.quantity) known.filledQuantity q
    (readPositivePrice remote.averageTradedPrice)
  constructor
  case id => rfl
  case broker => rfl
  case quantity => rfl
  case filledQuantity => simp only [project, hq, Option.getD_some, hfilled]
  case state => simp only [project, hq, Option.getD_some, hsufficient, hfilled, if_true]

theorem stream_reads (hq : readCumulativeQuantity remote = some (.fin q)) (hid : remote.orderId ≠ "") (at_ : Number) :
    Reads deps known remote q
      (DhanBrokerAdapter.streamCandidate deps known (remote.asUpdate known.clientOrderId at_)) := by
  have hq' : readNonNegativeInteger remote.filledQty = some (.fin q) := hq
  have hsufficient := (evaluate_present remote.orderStatus
    (dhanOrderState deps remote.orderStatus (.fin q) known.quantity) known.filledQuantity q
    (readPositivePrice remote.averageTradedPrice)).1
  constructor
  case id => rfl
  case broker => simp [DhanBrokerAdapter.streamCandidate, DhanOrder.asUpdate, Option.filter, hid]
  case quantity => rfl
  case filledQuantity => simp only [DhanBrokerAdapter.streamCandidate, DhanOrder.asUpdate, hq', Option.getD_some]
  case state =>
    simp only [DhanBrokerAdapter.streamCandidate, DhanOrder.asUpdate, hq', Option.getD_some, hsufficient, if_true]

theorem stream_price (fills : List DhanTrade) (tag : String) (now at_ : Number) :
    (DhanBrokerAdapter.streamCandidate deps known (remote.asUpdate known.clientOrderId at_)).averagePrice =
      (project deps known remote tag fills now).averagePrice := rfl

/-! ## Merging a reading -/

def labelRow (deps : DhanDeps) (known : BrokerOrder) (label : String) (q filled : ℚ) : BrokerOrderState × Bool :=
  stateTable known.state (dhanOrderState deps label (.fin filled) known.quantity)
    (quantities (max (safeCumulative known.filledQuantity) q) known.quantity)
    (decide (q < safeCumulative known.filledQuantity))

theorem compareObservation_observed (hint : (⌊q⌋ : ℚ) = q) (hq : 0 ≤ q) (candFilled curFilled : ℚ) :
    compareObservation (.observed (.fin q)) candFilled curFilled = q - curFilled := by
  simp only [compareObservation, hint, max_eq_right hq]

section
variable (h : Reads deps known remote filled candidate)
include h

theorem Reads.merge (options : BrokerOrderMergeOptions) :
    mergeBrokerOrderSnapshot (some known) candidate options = mergeSnapshots known candidate options :=
  mergeBrokerOrderSnapshot_same _ _ _ h.id

theorem Reads.accepted (h0 : 0 ≤ filled) :
    acceptedQuantity known candidate = max (safeCumulative known.filledQuantity) filled := by
  rw [acceptedQuantity, h.filledQuantity, safeCumulative_fin h0]

theorem Reads.brokerIdsDiffer : BrokerIdsDiffer known candidate ↔ ∃ id ∈ known.brokerOrderId, id ≠ remote.orderId := by
  simp only [BrokerIdsDiffer, h.broker, Option.some.injEq, Option.mem_def, ne_comm]
  simp

theorem Reads.row (h0 : 0 ≤ filled) (hint : (⌊q⌋ : ℚ) = q) (hq : 0 ≤ q)
    (hmax : max (safeCumulative known.filledQuantity) filled = max (safeCumulative known.filledQuantity) q) :
    mergeRow known candidate (.observed (.fin q)) = labelRow deps known remote.orderStatus q filled := by
  have hstale : isStale known candidate (.observed (.fin q)) = decide (q < safeCumulative known.filledQuantity) := by
    rw [isStale, compareObservation_observed hint hq]
    simp only [sub_neg]
  rw [mergeRow, mergeQuantities, requestedQuantity_eq h.quantity, h.accepted h0, hmax, h.state, hstale, labelRow]

theorem Reads.other_order (hother : ∃ id ∈ known.brokerOrderId, id ≠ remote.orderId)
    (options : BrokerOrderMergeOptions) :
    (mergeSnapshots known candidate options).order.state = .reconciliationRequired ∧
      (mergeSnapshots known candidate options).conflict.isSome = true := by
  have hconflict := (mergeSnapshots_conflict known candidate options).mpr (.inr (h.brokerIdsDiffer.mpr hother))
  exact ⟨mergeSnapshots_quarantined _ _ _ hconflict, hconflict⟩

theorem Reads.own_order (hown : ¬ ∃ id ∈ known.brokerOrderId, id ≠ remote.orderId)
    (options : BrokerOrderMergeOptions) :
    ((mergeSnapshots known candidate options).order.state, (mergeSnapshots known candidate options).conflict.isSome) =
      mergeRow known candidate options := by
  have hconflict := mergeSnapshots_conflict known candidate options
  rw [h.brokerIdsDiffer, or_iff_left hown, ← Bool.eq_iff_iff] at hconflict
  rw [mergeSnapshots_state, hconflict]
  cases hrow : (mergeRow known candidate options).2 with
  | true => exact Prod.ext (stateTable_quarantine _ _ _ _ hrow).symm hrow.symm
  | false => exact Prod.ext rfl hrow.symm

end

theorem partTraded_agree {cur : BrokerOrderState} {f : ℚ} {Q : Number} (hq : 0 ≤ q) (hlt : q < f) :
    stateTable cur (if Q ≤ .fin q ∧ .fin 0 < Q then .complete else .partiallyFilled) (quantities f Q) true =
        stateTable cur (if Q ≤ .fin f ∧ .fin 0 < Q then .complete else .partiallyFilled) (quantities f Q) true ↔
      ¬ (isBrokerOrderTerminal cur = false ∧ .fin q < Q ∧ Q ≤ .fin f) := by
  have hgrow : Q ≤ .fin q → Q ≤ .fin f := fun h => Number.le_trans h (Number.fin_le_fin.mpr hlt.le)
  by_cases hcovers : Q ≤ .fin f ∧ .fin 0 < Q
  · rw [if_pos hcovers]
    by_cases hqQ : Number.fin q < Q
    · have hfacts : (quantities f Q).filled = true ∧ (quantities f Q).short = false ∧
          (quantities f Q).covers = true := by
        simp [quantities, hq.trans_lt hlt, hcovers, Number.not_lt_of_le hcovers.1]
      rw [if_neg fun h => Number.not_lt_of_le h.1 hqQ, stateTable_covered hfacts (.inl rfl)]
      simp [hqQ, hcovers.1]
    · rw [if_pos ⟨(Number.lt_or_le_fin hcovers.2 q).resolve_left hqQ, hcovers.2⟩]
      simp [hqQ]
  · rw [if_neg hcovers, if_neg fun h => hcovers ⟨hgrow h.1, h.2⟩]
    refine iff_of_true rfl ?_
    intro h
    exact hcovers ⟨h.2.2, Number.lt_of_le_of_lt (Number.fin_le_fin.mpr hq) h.2.1⟩

def Contested (deps : DhanDeps) (known : BrokerOrder) (status : String) (q : ℚ) : Prop :=
  let f := safeCumulative known.filledQuantity
  let label := deps.clean status
  q < f ∧
    ((isBrokerOrderTerminal known.state = false ∧ .fin q < known.quantity ∧ known.quantity ≤ .fin f ∧
        (label = "PART_TRADED" ∨ (label = "TRADED" ∨ label = "EXPIRED") ∧ 0 < q)) ∨
      (q = 0 ∧ .fin f < known.quantity ∧ known.state ≠ .rejected ∧
        (label = "TRADED" ∨ label = "EXPIRED" ∧ known.state ≠ .cancelled)))

theorem labelRow_agree (status : String) (hq : 0 ≤ q) :
    labelRow deps known status q q = labelRow deps known status q (max (safeCumulative known.filledQuantity) q) ↔
      ¬ Contested deps known status q := by
  unfold Contested
  by_cases hlt : q < safeCumulative known.filledQuantity
  swap
  · simp [hlt, max_eq_right (not_lt.mp hlt)]
  simp only [labelRow, max_eq_left hlt.le, hlt, decide_true, true_and]
  unfold dhanOrderState
  split
  case h_2 =>
    -- a pending order works at either quantity
    rename_i hlabel
    refine iff_of_true (stateTable_working ?_ ?_ ?_ ?_) (by simp [hlabel])
    all_goals split <;> decide
  case h_3 =>
    rename_i hlabel
    rw [partTraded_agree hq hlt]
    simp [hlabel]
  case h_4 =>
    rename_i hlabel
    rw [partialOr_traded, partialOr_traded, partialOr_agree (.inl rfl) hq hlt]
    refine not_congr ?_
    simp [hlabel]
    tauto
  case h_8 =>
    rename_i hlabel
    change stateTable _ (partialOr .cancelled _ _) _ _ = stateTable _ (partialOr .cancelled _ _) _ _ ↔ _
    rw [partialOr_agree (.inr rfl) hq hlt]
    refine not_congr ?_
    simp [hlabel]
    tauto
  case h_9 =>
    simp_all
  all_goals simp [*]

theorem Reads.lapsed (h : Reads deps known remote q candidate) (hint : (⌊q⌋ : ℚ) = q) (hq : 0 ≤ q)
    (hworking : isBrokerOrderTerminal known.state = false)
    (hlabel : deps.clean remote.orderStatus ∈ ["CANCELLED", "CLOSED", "EXPIRED"])
    (hfill : safeCumulative known.filledQuantity ≤ q) (hshort : .fin q < known.quantity) :
    isBrokerOrderTerminal (mergeSnapshots known candidate (.observed (.fin q))).order.state = true ↔
      (∀ id ∈ known.brokerOrderId, id = remote.orderId) ∧ (deps.clean remote.orderStatus = "EXPIRED" → q = 0) := by
  by_cases hother : ∃ id ∈ known.brokerOrderId, id ≠ remote.orderId
  · rw [(h.other_order hother _).1]
    refine iff_of_false (by decide) ?_
    intro hall
    obtain ⟨id, hid, hne⟩ := hother
    exact hne (hall.1 id hid)
  · have hrow : (mergeSnapshots known candidate (.observed (.fin q))).order.state = _ :=
      congrArg Prod.fst (h.own_order hother (.observed (.fin q)))
    have hown : ∀ id ∈ known.brokerOrderId, id = remote.orderId := by simpa using hother
    have hle : ¬ known.quantity ≤ .fin q := fun hle => Number.not_lt_of_le hle hshort
    have hfacts : (quantities q known.quantity).short = true ∧ (quantities q known.quantity).covers = false := by
      simp [quantities, hshort, hle]
    obtain ⟨hcancelled, hpartial⟩ := stateTable_lapsed known.state _ hworking hfacts.1 hfacts.2
    rw [hrow, h.row hq hint hq rfl, and_iff_right hown, labelRow, max_eq_right hfill, decide_eq_false hfill.not_gt]
    simp only [List.mem_cons, List.not_mem_nil, or_false] at hlabel
    rcases hlabel with hlabel | hlabel | hlabel
    · simp [dhanOrderState, hlabel, hcancelled]
    · simp [dhanOrderState, hlabel, hcancelled]
    · by_cases hpos : 0 < q
      · simp [dhanOrderState, hlabel, hpos, hshort, hpartial, hpos.ne']
      · obtain rfl : q = 0 := le_antisymm (not_lt.mp hpos) hq
        simp [dhanOrderState, hlabel, hcancelled]

section
variable {streamed read : BrokerOrder} (hs : Reads deps known remote q streamed)
  (hr : Reads deps known remote (max (safeCumulative known.filledQuantity) q) read) (hq : 0 ≤ q)
include hs hr hq

theorem merges_accepted : acceptedQuantity known streamed = acceptedQuantity known read := by
  rw [hs.accepted hq, hr.accepted (hq.trans (le_max_right _ _)), max_eq_right (le_max_left _ _)]

variable (hint : (⌊q⌋ : ℚ) = q)
include hint

theorem merges_state :
    (mergeSnapshots known streamed (.observed (.fin q))).order.state =
          (mergeSnapshots known read (.observed (.fin q))).order.state ∧
        (mergeSnapshots known streamed (.observed (.fin q))).conflict.isSome =
          (mergeSnapshots known read (.observed (.fin q))).conflict.isSome ↔
      (∃ id ∈ known.brokerOrderId, id ≠ remote.orderId) ∨ ¬ Contested deps known remote.orderStatus q := by
  by_cases hother : ∃ id ∈ known.brokerOrderId, id ≠ remote.orderId
  · obtain ⟨hstate, hconflict⟩ := hs.other_order hother (.observed (.fin q))
    obtain ⟨hstate', hconflict'⟩ := hr.other_order hother (.observed (.fin q))
    rw [hstate, hstate', hconflict, hconflict']
    exact iff_of_true ⟨rfl, rfl⟩ (.inl hother)
  · have hown := hs.own_order hother (.observed (.fin q))
    have hown' := hr.own_order hother (.observed (.fin q))
    rw [hs.row hq hint hq rfl] at hown
    rw [hr.row (hq.trans (le_max_right _ _)) hint hq (max_eq_right (le_max_left _ _))] at hown'
    rw [or_iff_right hother, ← labelRow_agree remote.orderStatus hq, ← hown, ← hown', Prod.mk.injEq]

theorem merges_price (hprice : streamed.averagePrice = read.averagePrice) :
    (mergeSnapshots known streamed (.observed (.fin q))).order.averagePrice =
      (mergeSnapshots known read (.observed (.fin q))).order.averagePrice := by
  have haccepted := merges_accepted hs hr hq
  unfold acceptedQuantity at haccepted
  simp only [mergeSnapshots, resolvePrice, compareObservation_observed hint hq, haccepted, hprice]

end

/-! ## The cache -/

namespace DhanBrokerAdapter

variable {s : DhanBrokerAdapter} {id : String}

theorem order?_id (h : s.order? id = some known) : known.clientOrderId = id := by simpa using List.find?_some h

@[simp] theorem register_order? (brokerOrderId : Option String) (owner : String) :
    (s.register brokerOrderId owner).order? id = s.order? id := by
  unfold register; split <;> rfl

theorem commit_known (hs : s.order? candidate.clientOrderId = some known) (options : BrokerOrderMergeOptions) :
    (s.commit candidate options).2 = mergeSnapshots known candidate options ∧
      ∀ id, (s.commit candidate options).1.order? id =
        if id = candidate.clientOrderId then some (mergeSnapshots known candidate options).order else s.order? id := by
  have hid := order?_id hs
  have hmerge := mergeBrokerOrderSnapshot_same known candidate options hid.symm
  refine ⟨by simp only [commit, hs, hmerge], ?_⟩
  intro id
  have hput : (Keyed.put BrokerOrder.clientOrderId s.orders (mergeSnapshots known candidate options).order).find?
      (fun o => o.clientOrderId = id) =
        if id = candidate.clientOrderId then some (mergeSnapshots known candidate options).order else s.order? id := by
    rw [Keyed.find?_put, ← hid]
    rfl
  simp only [commit, hs, hmerge]
  split
  · exact hput
  · rw [register_order?]; exact hput

theorem observe_known (hs : s.order? known.clientOrderId = some known)
    (hq : readCumulativeQuantity remote = some (.fin q)) (correlationId : Option String) (fills : List DhanTrade)
    (now : Number) :
    ∃ tag,
      let merged := mergeSnapshots known (project deps known remote tag fills now) (.observed (.fin q))
      (s.observe deps known remote correlationId fills now).2 = merged ∧
        (s.observe deps known remote correlationId fills now).1.order? known.clientOrderId = some merged.order := by
  have hoptions : observedOptions remote = .observed (.fin q) := by simp only [observedOptions, hq]
  let tag := (correlationId.or known.tag).getD (deps.correlationFor known.clientOrderId)
  have hs' : s.order? (project deps known remote tag fills now).clientOrderId = some known := hs
  unfold observe
  rw [hs, hoptions]
  obtain ⟨hmerged, hcached⟩ := commit_known hs' (.observed (.fin q))
  exact ⟨tag, hmerged, (hcached _).trans (if_pos rfl)⟩

theorem streamMerge_eq (hq : readCumulativeQuantity remote = some (.fin q)) (hid : remote.orderId ≠ "") (at_ : Number) :
    streamMerge deps known (remote.asUpdate known.clientOrderId at_) =
      mergeSnapshots known (streamCandidate deps known (remote.asUpdate known.clientOrderId at_))
        (.observed (.fin q)) := by
  have hqty : readNonNegativeInteger (remote.asUpdate known.clientOrderId at_).cumulativeQty = some (.fin q) := hq
  rw [streamMerge, (stream_reads hq hid at_).merge, hqty]
  rfl

theorem price_behind {options : BrokerOrderMergeOptions} (hopt : options = .observed (.fin q))
    (hint : (⌊q⌋ : ℚ) = q) (hq : 0 ≤ q) (hlt : q < acceptedQuantity known candidate)
    (hfill : Number.fin (acceptedQuantity known candidate) = known.filledQuantity) :
    (mergeSnapshots known candidate options).order.averagePrice = known.averagePrice := by
  have haccepted : acceptedQuantity known candidate = safeCumulative known.filledQuantity := by
    rw [← hfill, safeCumulative_fin (acceptedQuantity_nonneg _ _)]
  have hbehind : q - safeCumulative known.filledQuantity < 0 := by rwa [sub_neg, ← haccepted]
  have hpos : acceptedQuantity known candidate ≠ 0 := (hq.trans_lt hlt).ne'
  unfold acceptedQuantity at hpos
  simp [mergeSnapshots, resolvePrice, hopt, compareObservation_observed hint hq, hbehind, hbehind.not_gt, hpos]

theorem applyOrderUpdate_known (hs : s.order? known.clientOrderId = some known)
    (hq : readCumulativeQuantity remote = some (.fin q)) (hid : remote.orderId ≠ "") (at_ : Number) :
    ∃ a, (s.applyOrderUpdate deps (remote.asUpdate known.clientOrderId at_)).order? known.clientOrderId = some a ∧
      let merged := streamMerge deps known (remote.asUpdate known.clientOrderId at_)
      a.state = merged.order.state ∧ a.filledQuantity = merged.order.filledQuantity ∧
        a.averagePrice = merged.order.averagePrice := by
  obtain ⟨q', hfin, h0, hint⟩ := readNonNegativeInteger_some hq
  obtain rfl := Number.fin.inj hfin
  have hs' : s.order? (remote.asUpdate known.clientOrderId at_).clientOrderId = some known := hs
  have hqty : readNonNegativeInteger (remote.asUpdate known.clientOrderId at_).cumulativeQty = some (.fin q) := hq
  unfold applyOrderUpdate
  simp only [hs']
  split
  case isTrue hsame =>
    refine ⟨known, hs, hsame.2.1.symm, hsame.2.2.symm, ?_⟩
    obtain ⟨⟨n, hn, hlt⟩, -, hfill⟩ := hsame
    obtain rfl : .fin q = n := Option.some.inj (hqty.symm.trans hn)
    rw [streamMerge_eq hq hid, mergeSnapshots_filledQuantity] at hfill
    rw [← hfill, Number.fin_lt_fin] at hlt
    rw [streamMerge_eq hq hid, price_behind rfl hint h0 hlt hfill]
  case isFalse =>
    refine ⟨_, ?_, rfl, rfl, rfl⟩
    rw [register_order?, order?, Keyed.find?_put, if_pos]
    rw [streamMerge_eq hq hid]
    rfl

/-- **REST and stream agree** exactly unless the reading is contested; both quarantine one with another order id. -/
theorem rest_stream_agree (hs : s.order? known.clientOrderId = some known)
    (hq : readCumulativeQuantity remote = some (.fin q)) (hid : remote.orderId ≠ "") (correlationId : Option String)
    (fills : List DhanTrade) (now at_ : Number) :
    let update := remote.asUpdate known.clientOrderId at_
    let streamed := s.applyOrderUpdate deps update
    let read := s.observe deps known remote correlationId fills now
    (∃ a b, streamed.order? known.clientOrderId = some a ∧ read.1.order? known.clientOrderId = some b ∧
        a.state = b.state ∧ a.filledQuantity = b.filledQuantity ∧ a.averagePrice = b.averagePrice ∧
        (streamMerge deps known update).conflict.isSome = read.2.conflict.isSome) ↔
      (∃ id ∈ known.brokerOrderId, id ≠ remote.orderId) ∨ ¬ Contested deps known remote.orderStatus q := by
  intro update streamed read
  obtain ⟨q', hfin, h0, hint⟩ := readNonNegativeInteger_some hq
  obtain rfl := Number.fin.inj hfin
  obtain ⟨tag, (hmerge' : read.2 = _), (hb : read.1.order? _ = _)⟩ := observe_known hs hq correlationId fills now
  obtain ⟨a, (ha : streamed.order? _ = some a), hastate, hafill, haprice⟩ := applyOrderUpdate_known hs hq hid at_
  have hstream : Reads deps known remote q (streamCandidate deps known update) := stream_reads hq hid at_
  have hread : Reads deps known remote _ (project deps known remote tag fills now) := project_reads hq fills tag now
  have hmerge : streamMerge deps known update = _ := streamMerge_eq hq hid at_
  rw [← merges_state hstream hread h0 hint, hmerge, hmerge']
  rw [hmerge] at hastate hafill haprice
  constructor
  · rintro ⟨a', b', ha', hb', hstate, -, -, hconflict⟩
    obtain rfl := Option.some.inj (ha.symm.trans ha')
    obtain rfl := Option.some.inj (hb.symm.trans hb')
    exact ⟨hastate.symm.trans hstate, hconflict⟩
  · rintro ⟨hstate, hconflict⟩
    refine ⟨a, _, ha, hb, hastate.trans hstate, ?_, ?_, hconflict⟩
    · rw [hafill, mergeSnapshots_filledQuantity, mergeSnapshots_filledQuantity, merges_accepted hstream hread h0]
    · exact haprice.trans (merges_price hstream hread h0 hint (stream_price fills tag now at_))

theorem rest_stream_agree_pending :
    let known := legOrder .open 75 30 (some (.fin 10))
    let remote := remoteOrder "B1" none "PENDING" 45
    let s : DhanBrokerAdapter := { orders := [known] }
    let update := remote.asUpdate "C1" (.fin 0)
    let streamed := s.applyOrderUpdate plainDeps update
    let read := s.observe plainDeps known remote none [] (.fin 0)
    (∃ a b, streamed.order? "C1" = some a ∧ read.1.order? "C1" = some b ∧
        a.state = b.state ∧ a.filledQuantity = b.filledQuantity ∧ a.averagePrice = b.averagePrice ∧
        (streamMerge plainDeps known update).conflict.isSome = read.2.conflict.isSome) ↔
      (∃ id ∈ known.brokerOrderId, id ≠ remote.orderId) ∨ ¬ Contested plainDeps known "PENDING" 45 := by
  intro known remote s update streamed read
  have hs : s.order? known.clientOrderId = some known := by decide +kernel
  have hq : readCumulativeQuantity remote = some (.fin 45) := by decide +kernel
  exact rest_stream_agree hs hq (by decide) none [] (.fin 0) (.fin 0)

theorem rest_stream_differ :
    let known := legOrder .partiallyFilled 75 30 (some (.fin 10))
    let remote := remoteOrder "B1" none "TRADED" 0
    let s : DhanBrokerAdapter := { orders := [known] }
    let update := remote.asUpdate "C1" (.fin 0)
    let read := s.observe plainDeps known remote none [] (.fin 0)
    ((s.applyOrderUpdate plainDeps update).order? "C1").map BrokerOrder.state = some .reconciliationRequired ∧
      (read.1.order? "C1").map BrokerOrder.state = some .partiallyFilled ∧
      (streamMerge plainDeps known update).conflict.isSome = true ∧ read.2.conflict = none := by
  decide +kernel

/-! ## The orders a pass finds -/

/-- The cached order a remote one belongs to, by either index. -/
def registered (s : DhanBrokerAdapter) (order : DhanOrder) : Option BrokerOrder :=
  ((order.correlationId.bind s.clientByCorrelation).bind s.order?).or ((s.clientByBroker order.orderId).bind s.order?)

def Forgotten (s : DhanBrokerAdapter) (order : DhanOrder) : Prop :=
  ∃ correlation ∈ order.correlationId, ∃ client ∈ s.clientByCorrelation correlation, s.order? client = none

theorem filter_bind_order? (client : Option String) (x : BrokerOrder) :
    (client.filter (· ≠ "")).bind s.order? = some x ↔ client.bind s.order? = some x ∧ x.clientOrderId ≠ "" := by
  cases client with
  | none => simp
  | some c =>
    by_cases hc : c = ""
    · subst hc
      refine iff_of_false (by simp [Option.filter]) ?_
      rintro ⟨hx, hne⟩
      exact hne (order?_id hx)
    · have hx : s.order? c = some x → x.clientOrderId ≠ "" := fun h => order?_id h ▸ hc
      simpa [Option.filter, hc] using hx

variable {order : DhanOrder} {x : BrokerOrder}

theorem known?_some :
    s.known? order = some x ↔
      s.registered order = some x ∧ order.correlationId ≠ some "" ∧ x.clientOrderId ≠ "" ∧ ¬ s.Forgotten order := by
  unfold known? registered Forgotten
  rw [filter_bind_order?]
  cases order.correlationId with
  | none => simp
  | some correlation =>
    by_cases hempty : correlation = ""
    · subst hempty
      simp only [ne_eq, not_true_eq_false, false_and, and_false, iff_false]
      rintro ⟨hx, hne⟩
      exact hne (order?_id hx)
    · cases hclient : s.clientByCorrelation correlation with
      | none => simp [hempty, hclient]
      | some client =>
        cases hcached : s.order? client with
        | none | some y => simp [hempty, hclient, hcached]

def orphanId (order : DhanOrder) : String := s!"DHAN_ORPHAN:{order.orderId}"

def TakenForOrphan (s : DhanBrokerAdapter) (order : DhanOrder) : Prop :=
  ∃ x, s.registered order = some x ∧
    (order.correlationId = some "" ∨ x.clientOrderId = "" ∨ x.clientOrderId = orphanId order ∨ s.Forgotten order)

structure Listed (deps : DhanDeps) (now : Number) (s : DhanBrokerAdapter) (order : DhanOrder) : Prop where
  merged : ∀ x, s.registered order = some x →
    let merge := mergeBrokerOrderSnapshot (some x) (project deps x order (x.tag.getD "") [] now) (observedOptions order)
    (listOne deps now s order).2 = merge.order ∧
      (listOne deps now s order).1.order? x.clientOrderId = some merge.order
  orphan : (listOne deps now s order).2.clientOrderId = orphanId order ↔ s.registered order = none
  row : s.registered order = none → (listOne deps now s order).2 = orphanOrder deps order now
  others : ∀ id, (∀ x, s.registered order = some x → x.clientOrderId ≠ id) →
    (listOne deps now s order).1.order? id = s.order? id

theorem registered_cached (h : s.registered order = some x) : s.order? x.clientOrderId = some x := by
  rcases Option.or_eq_some_iff.mp h with h | ⟨-, h⟩
  all_goals
    obtain ⟨c, -, hc⟩ := Option.bind_eq_some_iff.mp h
    rwa [order?_id hc]

theorem listOne_known (h : s.known? order = some x) (now : Number) :
    let merge := mergeBrokerOrderSnapshot (some x) (project deps x order (x.tag.getD "") [] now) (observedOptions order)
    (listOne deps now s order).2 = merge.order ∧ ∀ id, (listOne deps now s order).1.order? id =
      if id = x.clientOrderId then some merge.order else s.order? id := by
  intro merge
  have hs : s.order? (project deps x order (x.tag.getD "") [] now).clientOrderId = some x :=
    registered_cached (known?_some.mp h).1
  have hmerge : merge = mergeSnapshots x (project deps x order (x.tag.getD "") [] now) (observedOptions order) :=
    mergeBrokerOrderSnapshot_same _ _ _ rfl
  obtain ⟨hcommit, hcached⟩ := commit_known hs (observedOptions order)
  unfold listOne
  rw [h, hmerge]
  exact ⟨congrArg BrokerOrderMerge.order hcommit, hcached⟩

theorem listOne_clientOrderId (h : s.known? order = some x) (now : Number) :
    (listOne deps now s order).2.clientOrderId = x.clientOrderId := by
  have hid : (project deps x order (x.tag.getD "") [] now).clientOrderId = x.clientOrderId := rfl
  rw [(listOne_known h now).1, mergeBrokerOrderSnapshot_same _ _ _ hid]
  rfl

theorem listOne_unknown (h : s.known? order = none) (now : Number) :
    listOne deps now s order = (s, orphanOrder deps order now) := by
  unfold listOne
  rw [h]

theorem known?_none (h : ¬ s.TakenForOrphan order) (hknown : s.known? order = none) : s.registered order = none := by
  by_contra hne
  obtain ⟨x, hx⟩ := Option.ne_none_iff_exists'.mp hne
  have hall : order.correlationId ≠ some "" ∧ x.clientOrderId ≠ "" ∧ ¬ s.Forgotten order := by
    refine ⟨?_, ?_, ?_⟩
    all_goals
      intro hbad
      exact h ⟨x, hx, by simp [hbad]⟩
  rw [known?_some.mpr ⟨hx, hall⟩] at hknown
  cases hknown

theorem listed_iff (now : Number) (s : DhanBrokerAdapter) (order : DhanOrder) :
    Listed deps now s order ↔ ¬ s.TakenForOrphan order := by
  constructor
  · rintro h ⟨x, hx, htaken⟩
    have hrow : (listOne deps now s order).2.clientOrderId ≠ orphanId order := fun heq => by
      rw [h.orphan.mp heq] at hx
      cases hx
    cases hknown : s.known? order with
    | none =>
      rw [listOne_unknown hknown] at hrow
      exact hrow rfl
    | some y =>
      obtain ⟨hy, hlabel, hclient, hkept⟩ := known?_some.mp hknown
      obtain rfl := Option.some.inj (hx.symm.trans hy)
      rw [listOne_clientOrderId hknown] at hrow
      rcases htaken with h | h | h | h
      · exact hlabel h
      · exact hclient h
      · exact hrow h
      · exact hkept h
  · intro h
    cases hknown : s.known? order with
    | none =>
      have hnone := known?_none h hknown
      refine ⟨fun x hx => ?_, iff_of_true ?_ hnone, fun _ => ?_, fun id _ => ?_⟩
      · rw [hnone] at hx
        cases hx
      all_goals rw [listOne_unknown hknown]
      rfl
    | some x =>
      obtain ⟨hx, -⟩ := known?_some.mp hknown
      obtain ⟨(hrow : (listOne deps now s order).2 = _), hcached⟩ := listOne_known hknown now
      have hid : (listOne deps now s order).2.clientOrderId = x.clientOrderId := listOne_clientOrderId hknown now
      refine ⟨fun y hy => ?_, iff_of_false ?_ ?_, fun hnone => ?_, fun id hne => ?_⟩
      · obtain rfl := Option.some.inj (hx.symm.trans hy)
        exact ⟨hrow, (hcached _).trans (if_pos rfl)⟩
      · intro heq
        exact h ⟨x, hx, by simp [← hid, heq]⟩
      · rw [hx]
        exact Option.some_ne_none x
      · rw [hnone] at hx
        cases hx
      · exact (hcached id).trans (if_neg (hne x hx).symm)

/-- **Own orders in a pass.** Every visit comes out as it should exactly when no registered order is taken for an
orphan. -/
theorem listOrders_own (events : List DhanEvent) (remote : List DhanOrder) (now : Number) :
    let s := Run.finish (step deps) {} events
    let visited := fun before => Run.finish (listOne deps now) s before
    (s.listOrders deps now remote).2.length = remote.length ∧
      (∀ before order after, remote = before ++ order :: after →
        (s.listOrders deps now remote).2[before.length]? = some (listOne deps now (visited before) order).2) ∧
      ((∀ before order after, remote = before ++ order :: after → Listed deps now (visited before) order) ↔
        ∀ before order after, remote = before ++ order :: after → ¬ (visited before).TakenForOrphan order) := by
  intro s visited
  refine ⟨Run.length_answers _ _ _, ?_, by simp only [listed_iff]⟩
  rintro before order after rfl
  exact Run.getElem?_answers _ _ _ _ _

theorem listOrders_empty_correlation :
    let submitted := DhanEvent.submitted none fivePaiseSell (.fin 0)
    let placed := DhanEvent.placed fivePaiseSell.clientOrderId "B1" false (.fin 1)
    let s := Run.finish (step plainDeps) {} [submitted, placed]
    let order := remoteOrder "B1" (some "") "PENDING" 0
    (s.registered order).map BrokerOrder.clientOrderId = some fivePaiseSell.clientOrderId ∧
      (s.listOrders plainDeps (.fin 2) [order]).2.map BrokerOrder.clientOrderId = ["DHAN_ORPHAN:B1"] := by
  decide +kernel

/-! ## Labels that end an order -/

def Finished (s : DhanBrokerAdapter) (clientOrderId : String) (q : ℚ) : Prop :=
  ∃ o, s.order? clientOrderId = some o ∧ isBrokerOrderTerminal o.state = true ∧ o.filledQuantity = .fin q

def PassesBy (deps : DhanDeps) (now : Number) (clientOrderId : String) (s : DhanBrokerAdapter)
    (remote : List DhanOrder) : Prop :=
  Run.Guarded (listOne deps now) (fun s order => ∀ x ∈ s.known? order, x.clientOrderId ≠ clientOrderId) s remote

theorem listOne_other (hother : ∀ x ∈ s.known? order, x.clientOrderId ≠ id) (now : Number) :
    (listOne deps now s order).1.order? id = s.order? id := by
  cases hknown : s.known? order with
  | none => rw [listOne_unknown hknown]
  | some x => exact ((listOne_known hknown now).2 id).trans (if_neg (hother x hknown).symm)

theorem order?_passesBy {now : Number} {remote : List DhanOrder} (h : PassesBy deps now id s remote) :
    (Run.finish (listOne deps now) s remote).order? id = s.order? id :=
  h.invariant (fun s' => s'.order? id = s.order? id) (fun _ _ hs hother => (listOne_other hother now).trans hs) rfl


section
variable (hq : readCumulativeQuantity remote = some (.fin q)) (hworking : isBrokerOrderTerminal known.state = false)
  (hlabel : deps.clean remote.orderStatus ∈ ["CANCELLED", "CLOSED", "EXPIRED"])
  (hfill : safeCumulative known.filledQuantity ≤ q) (hshort : .fin q < known.quantity)
include hq hworking hlabel hfill hshort

theorem finished_iff {s' : DhanBrokerAdapter} {a : BrokerOrder} (ha : s'.order? known.clientOrderId = some a)
    (hread : Reads deps known remote q candidate)
    (hstate : a.state = (mergeSnapshots known candidate (.observed (.fin q))).order.state)
    (hfilled : a.filledQuantity = (mergeSnapshots known candidate (.observed (.fin q))).order.filledQuantity) :
    s'.Finished known.clientOrderId q ↔
      (∀ id ∈ known.brokerOrderId, id = remote.orderId) ∧ (deps.clean remote.orderStatus = "EXPIRED" → q = 0) := by
  obtain ⟨q', hfin, h0, hint⟩ := readNonNegativeInteger_some hq
  obtain rfl := Number.fin.inj hfin
  rw [← hread.lapsed hint h0 hworking hlabel hfill hshort, ← hstate]
  constructor
  · rintro ⟨o, ho, hterminal, -⟩
    obtain rfl := Option.some.inj (ha.symm.trans ho)
    exact hterminal
  · intro hterminal
    refine ⟨a, ha, hterminal, ?_⟩
    rw [hfilled, mergeSnapshots_filledQuantity, hread.accepted h0, max_eq_right hfill]

/-- **A finished order is finished here** exactly when it is read as that order and not as an expiry with a fill. -/
theorem finished_order (hs : s.order? known.clientOrderId = some known) (hid : remote.orderId ≠ "")
    (correlationId : Option String) (fills : List DhanTrade) (before after : List DhanOrder) (now at_ : Number)
    (hvisit : (Run.finish (listOne deps now) s before).known? remote = some known)
    (hafter : PassesBy deps now known.clientOrderId
      (listOne deps now (Run.finish (listOne deps now) s before) remote).1 after) :
    ∀ s' ∈ [(s.observe deps known remote correlationId fills now).1,
        (s.listOrders deps now (before ++ remote :: after)).1,
        s.applyOrderUpdate deps (remote.asUpdate known.clientOrderId at_)],
      s'.Finished known.clientOrderId q ↔
        (∀ id ∈ known.brokerOrderId, id = remote.orderId) ∧ (deps.clean remote.orderStatus = "EXPIRED" → q = 0) := by
  have hread : ∀ tag fills, Reads deps known remote q (project deps known remote tag fills now) := by
    intro tag fills
    have h : Reads deps known remote _ (project deps known remote tag fills now) := project_reads hq fills tag now
    rwa [max_eq_right hfill] at h
  intro s' hs'
  simp only [List.mem_cons, List.not_mem_nil, or_false] at hs'
  rcases hs' with rfl | rfl | rfl
  · obtain ⟨tag, -, hcached⟩ := observe_known hs hq correlationId fills now
    exact finished_iff hq hworking hlabel hfill hshort hcached (hread tag fills) rfl rfl
  · -- the visits before and after are of other orders
    have hfinish : (s.listOrders deps now (before ++ remote :: after)).1.order? known.clientOrderId =
        (listOne deps now (Run.finish (listOne deps now) s before) remote).1.order? known.clientOrderId := by
      rw [listOrders, Run.finish_append, Run.finish_cons, order?_passesBy hafter]
    have hcached := hfinish.trans (((listOne_known hvisit now).2 _).trans (if_pos rfl))
    have hoptions : observedOptions remote = .observed (.fin q) := by simp only [observedOptions, hq]
    have hlisted := hread (known.tag.getD "") []
    rw [hoptions, hlisted.merge] at hcached
    exact finished_iff hq hworking hlabel hfill hshort hcached hlisted rfl rfl
  · obtain ⟨a, ha, hstate, hfilled, -⟩ := applyOrderUpdate_known hs hq hid at_
    rw [streamMerge_eq hq hid] at hstate hfilled
    exact finished_iff hq hworking hlabel hfill hshort ha (stream_reads hq hid at_) hstate hfilled

end

def oneOrder (known : BrokerOrder) : DhanBrokerAdapter where
  orders := [known]
  clientByBroker := Function.update (fun _ => none) "B1" (some known.clientOrderId)

theorem finished_order_cancelled :
    let known := legOrder .open 75 0 none
    let remote := remoteOrder "B1" none "CANCELLED" 30
    let s := oneOrder known
    ∀ s' ∈ [(s.observe plainDeps known remote none [] (.fin 0)).1, (s.listOrders plainDeps (.fin 0) [remote]).1,
        s.applyOrderUpdate plainDeps (remote.asUpdate "C1" (.fin 0))],
      s'.Finished "C1" 30 ↔
        (∀ id ∈ known.brokerOrderId, id = remote.orderId) ∧
          (plainDeps.clean "CANCELLED" = "EXPIRED" → (30 : ℚ) = 0) := by
  intro known remote s
  have hq : readCumulativeQuantity remote = some (.fin 30) := by decide +kernel
  have hs : s.order? known.clientOrderId = some known := by decide +kernel
  have hvisit : (Run.finish (listOne plainDeps (.fin 0)) s []).known? remote = some known := by decide +kernel
  exact finished_order hq rfl (by decide +kernel) (by decide +kernel) (by decide +kernel) hs (by decide) none [] [] []
    (.fin 0) (.fin 0) hvisit trivial

/-- Thirty of seventy-five filled when the order expired. -/
theorem expired_order_stays_working :
    let known := legOrder .open 75 0 none
    let remote := remoteOrder "B1" none "EXPIRED" 30
    let s := oneOrder known
    ∀ s' ∈ [(s.observe plainDeps known remote none [] (.fin 0)).1, (s.listOrders plainDeps (.fin 0) [remote]).1,
        s.applyOrderUpdate plainDeps (remote.asUpdate "C1" (.fin 0))],
      (s'.order? "C1").map BrokerOrder.state = some .partiallyFilled := by
  decide +kernel

end DhanBrokerAdapter

end BoxEngine.DhanAdapter
