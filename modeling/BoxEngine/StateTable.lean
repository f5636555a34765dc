import Mathlib.Data.Fintype.Prod
import BoxEngine.OrderMerge

/-!
# The merge state table

A state decision reads two labels and four facts about the quantities: `stateTable`, a finite table whose laws are
checked row by row. `resolveState_table` says the code computes it.
-/

namespace BoxEngine

open Js

instance : Fintype BrokerOrderState where
  elems := {.created, .submitting, .acknowledged, .open, .partiallyFilled, .complete, .cancelRequested,
    .cancelled, .rejected, .unknown, .reconciliationRequired}
  complete := by intro s; cases s <;> decide

/-- All that the state of a merge reads of the quantities. -/
structure Quantities where
  filled : Bool
  short : Bool
  covers : Bool

instance : Fintype Quantities :=
  Fintype.ofEquiv (Bool × Bool × Bool)
    { toFun := fun p => ⟨p.1, p.2.1, p.2.2⟩
      invFun := fun q => (q.filled, q.short, q.covers)
      left_inv := fun _ => rfl
      right_inv := fun _ => rfl }

structure Quantities.Consistent (q : Quantities) : Prop where
  filled_of_covers : q.covers = true → q.filled = true
  not_short_of_covers : q.covers = true → q.short = false

instance (q : Quantities) : Decidable q.Consistent :=
  decidable_of_iff ((q.covers = true → q.filled = true) ∧ (q.covers = true → q.short = false))
    ⟨fun h => ⟨h.1, h.2⟩, fun h => ⟨h.1, h.2⟩⟩

def quantities (accepted : ℚ) (requested : Number) : Quantities where
  filled := decide (0 < accepted)
  short := decide (Number.fin accepted < requested)
  covers := decide (requested ≤ Number.fin accepted ∧ Number.fin 0 < requested)

def stateTable (cur cand : BrokerOrderState) (q : Quantities) (stale : Bool) : BrokerOrderState × Bool :=
  match isBrokerOrderTerminal cur, isBrokerOrderTerminal cand with
  | true, true =>
    if (cur = .rejected ∨ cand = .rejected) ∧ q.filled then (.reconciliationRequired, true)
    else if (cur = .complete ∨ cand = .complete) ∧ q.short then (.reconciliationRequired, true)
    else if q.covers then (.complete, false)
    else if cur = cand then (cur, false)
    else if cur = .cancelled ∨ cand = .cancelled then (.cancelled, false)
    else (.reconciliationRequired, true)
  | true, false =>
    if cur = .rejected ∧ q.filled then (.reconciliationRequired, true)
    else if cur = .cancelled ∧ q.covers then (.complete, false)
    else (cur, false)
  | false, true =>
    if cand = .rejected ∧ q.filled then (.reconciliationRequired, true)
    else if cand = .cancelled ∧ q.covers then (.complete, false)
    else if cand = .complete ∧ q.short then (.reconciliationRequired, true)
    else (cand, false)
  | false, false =>
    if cur = .reconciliationRequired ∨ cand = .reconciliationRequired then (.reconciliationRequired, false)
    else if stale then
      if cur = .unknown then (.unknown, false)
      else if q.filled ∧ q.short ∧ workingRank cur < workingRank .partiallyFilled then (.partiallyFilled, false)
      else (cur, false)
    else if cand = .unknown then (.unknown, false)
    else if q.filled ∧ q.short ∧ workingRank cand < workingRank .partiallyFilled then (.partiallyFilled, false)
    else (if workingRank cur ≤ workingRank cand then cand else cur, false)

theorem resolveState_table (current candidate : BrokerOrder) (accepted : ℚ) (requested : Number) (stale : Bool) :
    let v := resolveState current candidate accepted requested stale
    (v.state, v.conflict.isSome) =
      stateTable current.state candidate.state (quantities accepted requested) stale := by
  simp only [resolveState, stateTable, quantities, decide_eq_true_eq]
  cases isBrokerOrderTerminal current.state <;> cases isBrokerOrderTerminal candidate.state <;>
    simp only [] <;> split_ifs <;> rfl

variable (accepted : ℚ)

theorem quantities_consistent (requested : Number) : (quantities accepted requested).Consistent := by
  constructor <;> simp only [quantities, decide_eq_true_eq, decide_eq_false_iff_not]
  · rintro ⟨hle, hpos⟩
    cases requested with
    | fin r => exact (Number.fin_lt_fin.mp hpos).trans_le (Number.fin_le_fin.mp hle)
    | nan => exact absurd hpos (by decide)
    | negInf => exact absurd hpos (by decide)
    | posInf => exact absurd hle (by show ¬ Number.leB _ _ = true; simp [Number.leB])
  · exact fun h => Number.not_lt_of_le h.1

theorem quantities_total {requested : Number} (h : Number.fin 0 < requested) :
    (quantities accepted requested).covers = !(quantities accepted requested).short := by
  have hq := quantities_consistent accepted requested
  cases hs : (quantities accepted requested).short with
  | true =>
    cases hc : (quantities accepted requested).covers with
    | false => rfl
    | true => rw [hq.not_short_of_covers hc] at hs; cases hs
  | false =>
    have hs' : ¬ Number.fin accepted < requested := by simpa [quantities] using hs
    have hle := (Number.lt_or_le_fin h accepted).resolve_left hs'
    simpa [quantities] using ⟨hle, h⟩

/-! ## Laws of the table -/

theorem stateTable_quarantine : ∀ cur cand q stale, (stateTable cur cand q stale).2 = true →
    (stateTable cur cand q stale).1 = .reconciliationRequired := by
  intro cur cand q stale
  unfold stateTable
  split <;> split_ifs <;> simp

theorem stateTable_unquarantined : ∀ cur cand q stale, cur ≠ .reconciliationRequired →
    cand ≠ .reconciliationRequired → (stateTable cur cand q stale).2 = false →
    (stateTable cur cand q stale).1 ≠ .reconciliationRequired := by
  intro cur cand q stale hcur hcand
  unfold stateTable
  split <;> split_ifs <;> simp_all

/-- The contradiction shows only in the cached label, which the quarantine overwrites. -/
def forgotten (cur cand : BrokerOrderState) (q : Quantities) : Bool :=
  (cur = .rejected && cand ≠ .rejected && q.filled && !(cand = .complete && q.short)) ||
  (cur = .complete && cand = .cancelled && q.short) ||
  (cur = .complete && cand = .rejected && !q.filled) ||
  (cur = .rejected && cand = .complete && !q.filled && !q.short)

def oneSided (a b : BrokerOrderState) (q : Quantities) : Bool :=
  q.short && ((a = .complete && !isBrokerOrderTerminal b) || (b = .complete && !isBrokerOrderTerminal a))

def rowCoherent (state : BrokerOrderState) (q : Quantities) : Bool :=
  match state with
  | .complete => q.covers
  | .cancelled => q.short
  | .rejected => !q.filled
  | .created | .submitting | .acknowledged | .open => !(q.filled && q.short)
  | _ => true

def rowLaws (cur cand : BrokerOrderState) (q : Quantities) (stale : Bool) : Prop :=
  (forgotten cur cand q = true → (stateTable cur cand q stale).2 = true) ∧
  (q.covers = !q.short → (rowCoherent (stateTable cur cand q stale).1 q = true ↔
    ¬ (cur = .complete ∧ isBrokerOrderTerminal cand = false ∧ q.short = true)))

instance decidableRowLaws (cur cand : BrokerOrderState) (q : Quantities) (stale : Bool) :
    Decidable (rowLaws cur cand q stale) :=
  inferInstanceAs (Decidable (_ ∧ _))

def rowsAgain (cur cand : BrokerOrderState) (q : Quantities) (stale stale' : Bool) : Prop :=
  ((stale = true → stale' = true) → (stateTable cur cand q stale).2 = false →
    stateTable (stateTable cur cand q stale).1 cand q stale' = stateTable cur cand q stale) ∧
  ((stateTable cur cand q stale).2 = true →
    ((stateTable .reconciliationRequired cand q stale').2 = true ↔ forgotten cur cand q = false)) ∧
  (q.covers = !q.short → (((stateTable cur cand q stale).2 = true ↔ (stateTable cand cur q stale').2 = true) ↔
    oneSided cur cand q = false))

instance decidableRowsAgain (cur cand : BrokerOrderState) (q : Quantities) (stale stale' : Bool) :
    Decidable (rowsAgain cur cand q stale stale') := inferInstanceAs (Decidable (_ ∧ _ ∧ _))

theorem stateTable_rows : ∀ cur cand q, q.Consistent → ∀ stale,
    rowLaws cur cand q stale ∧ ∀ stale', rowsAgain cur cand q stale stale' := by
  decide +kernel

theorem stateTable_settled : ∀ cur cand q stale stale', q.Consistent → (stale = true → stale' = true) →
    (stateTable cur cand q stale).2 = false →
    stateTable (stateTable cur cand q stale).1 cand q stale' = stateTable cur cand q stale := by
  intro cur cand q stale stale' hq hstale hquiet
  exact ((stateTable_rows cur cand q hq stale).2 stale').1 hstale hquiet

theorem stateTable_forgotten : ∀ cur cand q stale, q.Consistent → forgotten cur cand q = true →
    (stateTable cur cand q stale).2 = true := by
  intro cur cand q stale hq
  exact (stateTable_rows cur cand q hq stale).1.1

theorem stateTable_redelivered : ∀ cur cand q stale stale', q.Consistent →
    (stateTable cur cand q stale).2 = true →
    ((stateTable .reconciliationRequired cand q stale').2 = true ↔ forgotten cur cand q = false) := by
  intro cur cand q stale stale' hq
  exact ((stateTable_rows cur cand q hq stale).2 stale').2.1

theorem stateTable_symmetric : ∀ a b q stale stale', q.Consistent → q.covers = !q.short →
    (((stateTable a b q stale).2 = true ↔ (stateTable b a q stale').2 = true) ↔ oneSided a b q = false) := by
  intro a b q stale stale' hq
  exact ((stateTable_rows a b q hq stale).2 stale').2.2

theorem stateTable_coherent : ∀ cur cand q stale, q.Consistent → q.covers = !q.short →
    (rowCoherent (stateTable cur cand q stale).1 q = true ↔
      ¬ (cur = .complete ∧ isBrokerOrderTerminal cand = false ∧ q.short = true)) := by
  intro cur cand q stale hq
  exact (stateTable_rows cur cand q hq stale).1.2

end BoxEngine
