import Mathlib.Data.Nat.Notation

/-!
# The best of a list

A scan that keeps the better of what it has and what comes next. Where the choice takes one of the two
that the other does not beat, the scan keeps an item that nothing of the list beats.
-/

namespace Best

variable {α : Type*} (choose : α → α → α)

def keep (best : Option α) (a : α) : Option α := some (best.elim a fun b => choose b a)

def scan (l : List α) : Option α := l.foldl (keep choose) none

/-- On the items of `P` the choice is one of the two, and at least as good as either. -/
structure Chooses (P : α → Prop) (le : α → α → Prop) : Prop where
  refl : ∀ a, P a → le a a
  trans : ∀ a b c, le a b → le b c → le a c
  choose : ∀ a b, P a → P b → (choose a b = a ∧ le a b) ∨ (choose a b = b ∧ le b a)

variable {choose} {P : α → Prop} {le : α → α → Prop}

theorem foldl_keep (h : Chooses choose P le) : ∀ (l : List α) {b : α}, P b → (∀ a ∈ l, P a) →
    ∃ x, l.foldl (keep choose) (some b) = some x ∧ (x = b ∨ x ∈ l) ∧ le x b ∧ ∀ a ∈ l, le x a
  | [], b, hb, _ => ⟨b, rfl, .inl rfl, h.refl b hb, by simp⟩
  | a :: l, b, hb, hl => by
    have ha := hl a (.head _)
    have hrest := fun c hc => hl c (.tail _ hc)
    rw [List.foldl_cons]
    change ∃ x, l.foldl (keep choose) (some (choose b a)) = _ ∧ _
    obtain ⟨hc, hle⟩ | ⟨hc, hle⟩ := h.choose b a hb ha
    · rw [hc]
      obtain ⟨x, hx, hmem, hxb, hxl⟩ := foldl_keep h l hb hrest
      refine ⟨x, hx, hmem.imp_right (.tail _), hxb, ?_⟩
      simpa using ⟨h.trans _ _ _ hxb hle, hxl⟩
    · rw [hc]
      obtain ⟨x, hx, hmem, hxa, hxl⟩ := foldl_keep h l ha hrest
      refine ⟨x, hx, .inr ?_, h.trans _ _ _ hxa hle, ?_⟩
      · simpa using hmem
      · simpa using ⟨hxa, hxl⟩

theorem scan_spec (h : Chooses choose P le) {l : List α} (hl : ∀ a ∈ l, P a) {x : α} (hx : scan choose l = some x) :
    x ∈ l ∧ ∀ a ∈ l, le x a := by
  cases l with
  | nil => cases hx
  | cons a l =>
    obtain ⟨y, hy, hmem, hya, hyl⟩ := foldl_keep h l (hl a (.head _))
      fun c hc => hl c (.tail _ hc)
    obtain rfl : y = x := Option.some_inj.mp (hy.symm.trans hx)
    exact ⟨by simpa using hmem, by simpa using ⟨hya, hyl⟩⟩

theorem scan_isSome (h : Chooses choose P le) {l : List α} (hl : ∀ a ∈ l, P a) (hne : l ≠ []) :
    ∃ x, scan choose l = some x := by
  cases l with
  | nil => exact absurd rfl hne
  | cons a l =>
    obtain ⟨x, hx, -⟩ := foldl_keep h l (hl a (.head _)) fun c hc => hl c (.tail _ hc)
    exact ⟨x, hx⟩

end Best
