import Mathlib.Data.Nat.Notation

/-!
# While loops

A loop that steps while its test says so, run with fuel. An invariant of the step is one of the loop,
and a measure that every step lowers says how much fuel ends it.
-/

namespace While

variable {σ : Type*} (done : σ → Bool) (step : σ → σ)

/-- Steps until the test says done or the fuel is out. -/
def loop : ℕ → σ → σ
  | 0, s => s
  | fuel + 1, s => if done s then s else loop fuel (step s)

variable {done step}

theorem loop_invariant {I : σ → Prop} (hI : ∀ s, I s → done s = false → I (step s)) (fuel : ℕ) {s : σ} (hs : I s) :
    I (loop done step fuel s) := by
  induction fuel generalizing s with
  | zero => exact hs
  | succ fuel ih =>
    unfold loop
    by_cases hdone : done s = true
    · simpa [hdone] using hs
    · simp only [hdone, Bool.false_eq_true, if_false]
      exact ih (hI s hs (by simpa using hdone))

/-- A measure that every step lowers says how much fuel is enough. -/
theorem loop_done {I : σ → Prop} (hI : ∀ s, I s → done s = false → I (step s)) {measure : σ → ℕ}
    (hmeasure : ∀ s, I s → done s = false → measure (step s) < measure s) {fuel : ℕ} {s : σ} (hs : I s)
    (hfuel : measure s < fuel) : done (loop done step fuel s) = true := by
  induction fuel generalizing s with
  | zero => exact absurd hfuel (Nat.not_lt_zero _)
  | succ fuel ih =>
    unfold loop
    by_cases hdone : done s = true
    · simp [hdone]
    · have hnot : done s = false := by simpa using hdone
      have hless := hmeasure s hs hnot
      simp only [hnot, Bool.false_eq_true, if_false]
      exact ih (hI s hs hnot) (by omega)

end While
