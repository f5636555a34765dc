import BoxEngine.Lib.Keyed
import Mathlib.Order.Lattice

/-!
# Maps of watermarks

A map that holds under each key the highest quantity it was shown. What a key has not got reads as zero.
-/

namespace Watermark

variable {κ M : Type*} [DecidableEq κ]

def get? (marks : List (κ × M)) (k : κ) : Option M := (marks.find? fun e => e.1 = k).map Prod.snd

/-- What a key has not got reads as zero. -/
def level [Zero M] (marks : List (κ × M)) (k : κ) : M := (get? marks k).getD 0

def set (marks : List (κ × M)) (k : κ) (m : M) : List (κ × M) := Keyed.put Prod.fst marks (k, m)

/-- A key's level never falls. -/
def raise [Zero M] [Max M] (marks : List (κ × M)) (k : κ) (m : M) : List (κ × M) := set marks k (max (level marks k) m)

variable {marks : List (κ × M)} {k k' : κ} {m : M}

@[simp] theorem get?_set_self : get? (set marks k m) k = some m := by
  rw [get?, set, Keyed.find?_put, if_pos rfl]
  rfl

theorem get?_set_of_ne (h : k' ≠ k) : get? (set marks k m) k' = get? marks k' := by
  rw [get?, set, Keyed.find?_put, if_neg h]
  rfl

theorem get?_filter {retain : κ × M → Bool} (h : ∀ m, retain (k, m) = true) :
    get? (marks.filter retain) k = get? marks k := by
  rw [get?, List.find?_filter, get?]
  congr 2
  funext e
  obtain ⟨k', m⟩ := e
  by_cases heq : k' = k
  · simp [heq, h]
  · simp [heq]

section

variable [Zero M]

@[simp] theorem level_set_self : level (set marks k m) k = m := by
  simp [level]

theorem level_set_of_ne (h : k' ≠ k) : level (set marks k m) k' = level marks k' := by
  rw [level, get?_set_of_ne h, level]

theorem level_of_get?_none (h : get? marks k = none) : level marks k = 0 := by
  simp [level, h]

end

end Watermark
