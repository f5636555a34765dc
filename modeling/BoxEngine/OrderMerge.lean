import BoxEngine.Order

/-!
# Broker order snapshot merge

Decides, field by field, which of two observations of one order is authoritative. The cumulative quantity decides; a
label may arrive out of order. Contradictions go to `reconciliationRequired`.
-/

namespace BoxEngine

open Js

structure BrokerOrderMerge where
  order : BrokerOrder
  conflict : Option String
  candidateWasStale : Bool
  candidateAdvancedFill : Bool

/-- The cumulative quantity of the candidate's payload: not passed, null, or a number. -/
inductive BrokerOrderMergeOptions where
  | omitted
  | absent
  | observed (raw : Number)

def workingRank : BrokerOrderState → Int
  | .created => 0
  | .submitting => 1
  | .acknowledged => 2
  | .open => 3
  | .partiallyFilled => 4
  | .cancelRequested => 5
  | _ => -1

def sumFilled (fills : List BrokerFill) : ℚ :=
  (fills.map fun fill => match fill.quantity with
    | .fin q => if 0 < q then q else 0
    | _ => 0).sum

def safeCumulative : Number → ℚ
  | .fin q => if 0 < q then q else 0
  | _ => 0

/-- Positive when the candidate advanced the fill, negative when it is provably older. -/
def compareObservation (options : BrokerOrderMergeOptions) (candFilled curFilled : ℚ) : ℚ :=
  match options with
  | .omitted => candFilled - curFilled
  | .observed (.fin raw) => max 0 (⌊raw⌋ : ℚ) - curFilled
  -- no cumulative quantity was reported, or an unusable one
  | _ => if 0 < curFilled then -1 else 0

structure StateVerdict where
  state : BrokerOrderState
  conflict : Option String

/-- The state of the merged order; a label that the confirmed fill contradicts asks for a reconciliation. -/
def resolveState (current candidate : BrokerOrder) (accepted : ℚ) (requested : Number)
    (candidateWasStale : Bool) : StateVerdict :=
  let id := current.clientOrderId
  let cur := current.state
  let cand := candidate.state
  let acc := (Number.fin accepted).toText
  let req := requested.toText
  let short := Number.fin accepted < requested
  let covers := requested ≤ Number.fin accepted ∧ Number.fin 0 < requested
  match isBrokerOrderTerminal cur, isBrokerOrderTerminal cand with
  -- two terminal labels agree, or the fill decides between them
  | true, true =>
    if (cur = .rejected ∨ cand = .rejected) ∧ 0 < accepted then
      ⟨.reconciliationRequired,
        some s!"conflicting terminal evidence for {id}: cached {cur.label} vs observed {cand.label} with a confirmed cumulative fill of {acc}"⟩
    else if (cur = .complete ∨ cand = .complete) ∧ short then
      ⟨.reconciliationRequired,
        some s!"{id} was labelled COMPLETE but the confirmed cumulative fill is {acc} of {req}"⟩
    else if covers then ⟨.complete, none⟩
    else if cur = cand then ⟨cur, none⟩
    else if cur = .cancelled ∨ cand = .cancelled then ⟨.cancelled, none⟩
    else
      ⟨.reconciliationRequired,
        some s!"conflicting terminal evidence for {id}: cached {cur.label} vs observed {cand.label} at cumulative fill {acc}/{req}"⟩
  | true, false =>
    if cur = .rejected ∧ 0 < accepted then
      ⟨.reconciliationRequired,
        some s!"{id} is cached REJECTED but a cumulative fill of {acc} is now confirmed"⟩
    -- a late fill that completes a cancelled order
    else if cur = .cancelled ∧ covers then ⟨.complete, none⟩
    else ⟨cur, none⟩
  | false, true =>
    if cand = .rejected ∧ 0 < accepted then
      ⟨.reconciliationRequired,
        some s!"{id} was observed REJECTED while holding a confirmed cumulative fill of {acc}"⟩
    else if cand = .cancelled ∧ covers then ⟨.complete, none⟩
    else if cand = .complete ∧ short then
      ⟨.reconciliationRequired,
        some s!"{id} was observed COMPLETE but the confirmed cumulative fill is {acc} of {req}"⟩
    else ⟨cand, none⟩
  -- neither is final: the newer observation moves the state forward, or makes it unknown
  | false, false =>
    if cur = .reconciliationRequired ∨ cand = .reconciliationRequired then
      ⟨.reconciliationRequired, none⟩
    else if candidateWasStale then
      if cur = .unknown then ⟨.unknown, none⟩
      else if 0 < accepted ∧ short ∧ workingRank cur < workingRank .partiallyFilled then
        ⟨.partiallyFilled, none⟩
      else ⟨cur, none⟩
    else if cand = .unknown then ⟨.unknown, none⟩
    else if 0 < accepted ∧ short ∧ workingRank cand < workingRank .partiallyFilled then
      ⟨.partiallyFilled, none⟩
    else ⟨if workingRank cur ≤ workingRank cand then cand else cur, none⟩

def confirms (order : BrokerOrder) : Bool :=
  order.executionEvidence.any fun e => e.quantity = .confirmed

def resolveEvidence (current candidate : BrokerOrder) (accepted : ℚ) (averagePrice : Option Number)
    (candidateWasStale candidateAdvancedFill : Bool) : Option ExecutionEvidenceQuality :=
  let winner := if candidateWasStale then current else candidate
  let other := if candidateWasStale then candidate else current
  (winner.executionEvidence.or other.executionEvidence).map fun winnerEvidence =>
    let quantityConfirmed :=
      if candidateAdvancedFill then confirms candidate
      else if candidateWasStale then confirms current
      else confirms candidate || confirms current
    let quantity := if quantityConfirmed then .confirmed else winnerEvidence.quantity
    let price := if accepted = 0 then .notApplicable
      else if averagePrice.isSome then .confirmed else .missing
    let accounting :=
      if winnerEvidence.accounting = .unproven ∧ !quantityConfirmed then .unproven
      else if accepted = 0 then
        if quantity = .confirmed then .complete else winnerEvidence.accounting
      -- exposure stands; only the accounting waits for a price
      else if averagePrice = none then .pendingPrice
      else .complete
    { quantity, price, accounting }

/-- One of the two arrays, or a single aggregate row. The arrays are never concatenated. -/
def resolveFills (winner other : BrokerOrder) (accepted : ℚ) (averagePrice : Option Number) :
    List BrokerFill :=
  let richer := if other.fills.length ≤ winner.fills.length then winner else other
  if accepted ≤ 0 then []
  else if 0 < winner.fills.length ∧ sumFilled winner.fills = accepted then winner.fills
  else if 0 < other.fills.length ∧ sumFilled other.fills = accepted then other.fills
  else if 1 < richer.fills.length ∧ sumFilled richer.fills < accepted then richer.fills
  else
    let owner := winner.brokerOrderId.getD winner.clientOrderId
    let priced := (averagePrice.map Number.toText).getD "unpriced"
    let acc := (Number.fin accepted).toText
    [{ fillId := s!"merge:{owner}:{acc}:{priced}"
       quantity := .fin accepted
       price := averagePrice
       «at» := Number.max winner.updatedAt other.updatedAt }]

def resolveBrokerId (current candidate : BrokerOrder) : Option String × Option String :=
  match current.brokerOrderId, candidate.brokerOrderId with
  | none, observed => (observed, none)
  | some cached, none => (some cached, none)
  | some cached, some observed =>
    if observed = cached then (some cached, none)
    else
      let id := current.clientOrderId
      (some cached, some s!"broker order id conflict for {id}: cached {cached} vs observed {observed}")

def resolvePrice (current candidate : BrokerOrder) (accepted : ℚ)
    (candidateWasStale candidateAdvancedFill : Bool) : Option Number :=
  if accepted = 0 then none
  else if candidateAdvancedFill then candidate.averagePrice
  else if candidateWasStale then current.averagePrice
  else candidate.averagePrice.or current.averagePrice

def finiteStamp : Option Number → Option Number
  | some (.fin q) => some (.fin q)
  | _ => none

def latestStamp : Option Number → Option Number → Option Number
  | some a, some b => some (Number.max a b)
  | a, b => a.or b

def withBrokerReason (conflict : String) : Option String → String
  | some reason => if reason = "" then conflict else s!"{conflict} (broker reported: {reason})"
  | none => conflict

/-- The larger fill is accepted and the newer observation supplies the rest; a conflict stays visible in the state. -/
def mergeSnapshots (current candidate : BrokerOrder) (options : BrokerOrderMergeOptions) :
    BrokerOrderMerge :=
  let curFilled := safeCumulative current.filledQuantity
  let candFilled := safeCumulative candidate.filledQuantity
  let accepted := max curFilled candFilled
  let comparison := compareObservation options candFilled curFilled
  let stale := decide (comparison < 0)
  let advanced := decide (0 < comparison)
  let requested := if stale then current.quantity else candidate.quantity
  let brokerId := resolveBrokerId current candidate
  let averagePrice := resolvePrice current candidate accepted stale advanced
  let resolved := resolveState current candidate accepted requested stale
  let evidence := resolveEvidence current candidate accepted averagePrice stale advanced
  let winner := if stale then current else candidate
  let other := if stale then candidate else current
  let base := if stale then current else candidate
  let conflict := resolved.conflict.or brokerId.2
  let state := if conflict.isSome then .reconciliationRequired else resolved.state
  let rejectFamily := (base.rejectFamily.or current.rejectFamily).or candidate.rejectFamily
  let brokerReason := (base.rejectReason.or current.rejectReason).or candidate.rejectReason
  { order :=
      { base with
        clientOrderId := current.clientOrderId
        brokerOrderId := brokerId.1
        tag := base.tag.or current.tag
        quantity := requested
        state
        filledQuantity := .fin accepted
        pendingQuantity := Number.max (.fin 0) (requested.sub (.fin accepted))
        averagePrice
        fills := resolveFills winner other accepted averagePrice
        executionEvidence := evidence.or (current.executionEvidence.or base.executionEvidence)
        rejectFamily := if state = .rejected ∨ conflict.isSome then rejectFamily else none
        rejectReason := match conflict with
          | some c => some (withBrokerReason c brokerReason)
          | none => if state = .rejected then brokerReason else base.rejectReason
        createdAt := current.createdAt
        updatedAt := Number.max current.updatedAt candidate.updatedAt
        exchangeUpdatedAt :=
          (latestStamp (finiteStamp current.exchangeUpdatedAt) (finiteStamp candidate.exchangeUpdatedAt)).or
            base.exchangeUpdatedAt }
    conflict
    candidateWasStale := stale
    candidateAdvancedFill := advanced }

def mergeBrokerOrderSnapshot (current : Option BrokerOrder) (candidate : BrokerOrder)
    (options : BrokerOrderMergeOptions) : BrokerOrderMerge :=
  match current with
  | none =>
    { order := candidate
      conflict := none
      candidateWasStale := false
      candidateAdvancedFill := decide (0 < safeCumulative candidate.filledQuantity) }
  | some current =>
    if current.clientOrderId ≠ candidate.clientOrderId then
      let cur := current.clientOrderId
      let cand := candidate.clientOrderId
      { order := current
        conflict := some s!"refused to merge snapshot for {cand} onto {cur}: client order identity mismatch"
        candidateWasStale := false
        candidateAdvancedFill := false }
    else mergeSnapshots current candidate options

end BoxEngine
