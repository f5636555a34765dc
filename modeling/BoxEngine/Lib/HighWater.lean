import Mathlib.Order.Bounds.Basic
import Mathlib.Data.List.Basic

/-!
# High-water registers

A register keeps the greatest quantity it was shown and the last price at it. `keep` preserves `Summary`, so a fold of
it is the summary of its history.
-/

namespace HighWater

structure Reading (Q P : Type*) where
  quantity : Q
  price : Option P

section
variable {Q P : Type*} [LinearOrder Q]

/-- The greater quantity; the newer price where they are equal. -/
def keep (held seen : Reading Q P) : Reading Q P :=
  if held.quantity < seen.quantity then seen
  else if seen.quantity < held.quantity then held
  else ⟨held.quantity, seen.price.or held.price⟩

def lastPrice (q : Q) (h : List (Reading Q P)) : Option P :=
  ((h.filter fun s => s.quantity = q).filterMap Reading.price).getLast?

theorem lastPrice_snoc_eq {q : Q} {s : Reading Q P} (h : List (Reading Q P)) (hs : s.quantity = q) :
    lastPrice q (h ++ [s]) = s.price.or (lastPrice q h) := by
  simp only [lastPrice, List.filter_append, List.filterMap_append]
  cases hp : s.price <;> simp [hs, hp]

theorem lastPrice_snoc_ne {q : Q} {s : Reading Q P} (h : List (Reading Q P)) (hs : s.quantity ≠ q) :
    lastPrice q (h ++ [s]) = lastPrice q h := by
  simp [lastPrice, List.filter_append, hs]

theorem lastPrice_of_lt {q : Q} {h : List (Reading Q P)} (hh : ∀ s ∈ h, s.quantity < q) :
    lastPrice q h = none := by
  have : (h.filter fun s => decide (s.quantity = q)) = [] := by
    rw [List.filter_eq_nil_iff]
    intro s hs
    simpa using (hh s hs).ne
  rw [lastPrice, this]
  rfl

/-- The register holds the greatest quantity of the history and the last price at it. -/
structure Summary (r : Reading Q P) (h : List (Reading Q P)) : Prop where
  greatest : IsGreatest {q | ∃ s ∈ h, s.quantity = q} r.quantity
  price : r.price = lastPrice r.quantity h

theorem Summary.single (s : Reading Q P) : Summary s [s] := by
  constructor
  · simp
  · rw [← List.nil_append [s], lastPrice_snoc_eq [] rfl]
    cases s.price <;> rfl

theorem keep_quantity (r s : Reading Q P) : (keep r s).quantity = max r.quantity s.quantity := by
  unfold keep
  split
  · rename_i h; rw [max_eq_right h.le]
  · rename_i h
    split <;> rw [max_eq_left (not_lt.mp h)]

theorem Summary.greatest_snoc {r : Reading Q P} {h : List (Reading Q P)} (hr : Summary r h) (s : Reading Q P) :
    IsGreatest {q | ∃ x ∈ h ++ [s], x.quantity = q} (keep r s).quantity := by
  have hset : {q | ∃ x ∈ h ++ [s], x.quantity = q} = {q | ∃ x ∈ h, x.quantity = q} ∪ {s.quantity} := by
    ext q; simp [or_and_right, exists_or, or_comm, eq_comm]
  rw [hset, keep_quantity]
  exact hr.greatest.union isGreatest_singleton

theorem Summary.keep {r : Reading Q P} {h : List (Reading Q P)} (hr : Summary r h) (s : Reading Q P) :
    Summary (keep r s) (h ++ [s]) := by
  refine ⟨hr.greatest_snoc s, ?_⟩
  have hle : ∀ x ∈ h, x.quantity ≤ r.quantity := fun x hx => hr.greatest.2 ⟨x, hx, rfl⟩
  unfold HighWater.keep
  split
  · -- the new reading is above the whole history
    rename_i hlt
    rw [lastPrice_snoc_eq h rfl, lastPrice_of_lt fun x hx => (hle x hx).trans_lt hlt]
    cases s.price <;> rfl
  · rename_i hge
    split
    · rename_i hlt
      rw [lastPrice_snoc_ne h hlt.ne, hr.price]
    · rename_i hle'
      have heq : s.quantity = r.quantity := le_antisymm (not_lt.mp hge) (not_lt.mp hle')
      rw [lastPrice_snoc_eq h heq, ← hr.price]

/-- A fold of `keep` is the summary of its history. -/
theorem Summary.foldl {r : Reading Q P} {h : List (Reading Q P)} (hr : Summary r h) :
    ∀ l : List (Reading Q P), Summary (l.foldl HighWater.keep r) (h ++ l)
  | [] => by simpa using hr
  | s :: l => by simpa using (hr.keep s).foldl l

end

end HighWater
