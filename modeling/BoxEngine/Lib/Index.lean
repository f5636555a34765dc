import Mathlib.Data.Option.Basic

/-!
# Indexes

A map from text keys to the text names of their owners, in which the empty text stands for absence:
nothing is set under the empty key, and an entry with an empty owner reads as no entry.
-/

abbrev Index := String → Option String

namespace Index

variable (index : Index)

/-- Nothing is written under the empty key. -/
def set (key owner : String) : Index :=
  if key = "" then index else Function.update index key (some owner)

def get (key : String) : Option String :=
  if key = "" then none else (index key).filter (· ≠ "")

theorem set_apply (key owner k : String) :
    set index key owner k = if k ≠ "" ∧ k = key then some owner else index k := by
  unfold set
  by_cases hkey : key = ""
  · rw [if_pos hkey]
    by_cases hk : k = key
    · simp [hk, hkey]
    · simp [hk]
  · rw [if_neg hkey]
    by_cases hk : k = key
    · subst hk; simp [hkey]
    · simp [hk]

theorem set_empty (key owner : String) : set index key owner "" = index "" := by
  simp [set_apply]

/-- An entry is one under a key that is not empty. -/
theorem get_eq_some {index : Index} {key owner : String} :
    get index key = some owner ↔ key ≠ "" ∧ index key = some owner ∧ owner ≠ "" := by
  unfold get
  by_cases hkey : key = ""
  · simp [hkey]
  · simp [hkey, Option.filter_eq_some_iff]

theorem get_eq_none {index : Index} {key : String} :
    get index key = none ↔ key = "" ∨ ∀ owner, index key = some owner → owner = "" := by
  unfold get
  by_cases hkey : key = ""
  · simp [hkey]
  · simp [hkey, Option.filter_eq_none_iff]

end Index
