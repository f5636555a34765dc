import Mathlib.Data.List.Chain

/-!
# Switches

The events of a switch that starts off: on and off by turns, beginning with on.
-/

namespace Toggle

/-- The events alternate, the first one is on, and the switch is where the last one put it. -/
structure Alternates (events : List Bool) (on : Bool) : Prop where
  turns : events.IsChain (· ≠ ·)
  first : events.head? ≠ some false
  last : events.getLast? = some true ↔ on = true

theorem alternates_nil : Alternates [] false := by
  constructor <;> simp

def change (before after : Bool) : List Bool := if before = after then [] else [after]

@[simp] theorem change_self (on : Bool) : change on on = [] := if_pos rfl

variable {events : List Bool} {before : Bool}

theorem Alternates.change (h : Alternates events before) (after : Bool) :
    Alternates (events ++ Toggle.change before after) after := by
  by_cases hsame : before = after
  · subst hsame
    simpa using h
  · rw [Toggle.change, if_neg hsame]
    have hlast := h.last
    refine ⟨?_, ?_, by simp⟩
    · rw [List.isChain_append]
      refine ⟨h.turns, List.isChain_singleton _, ?_⟩
      rintro x hx y hy rfl
      simp only [List.head?_cons, Option.mem_def, Option.some.injEq] at hx hy
      rw [hx, ← hy] at hlast
      cases before <;> cases after <;> simp_all
    · cases events with
      | nil => cases before <;> cases after <;> simp_all
      | cons e rest => exact h.first

end Toggle
