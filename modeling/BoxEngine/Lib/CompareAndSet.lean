import BoxEngine.Lib.Run
import Mathlib.Data.List.Range

/-!
# Compare and set

A command takes effect only on the version it names and raises it by one, so along a run none takes effect twice,
however often it is sent.
-/

namespace CompareAndSet

variable {σ α : Type*} (step : σ → α → σ × Bool)

/-- The commands of a run that took effect. -/
def effects : σ → List α → List α
  | _, [] => []
  | s, a :: l => if (step s a).2 then a :: effects (step s a).1 l else effects (step s a).1 l

@[simp] theorem effects_nil (s : σ) : effects step s [] = [] := rfl

theorem effects_cons (s : σ) (a : α) (l : List α) :
    effects step s (a :: l) = if (step s a).2 then a :: effects step (step s a).1 l else effects step (step s a).1 l := rfl

theorem effects_append (s : σ) (l l' : List α) :
    effects step s (l ++ l') = effects step s l ++ effects step (Run.finish step s l) l' := by
  induction l generalizing s with
  | nil => rfl
  | cons a l ih =>
    simp only [List.cons_append, effects_cons, Run.finish_cons, ih]
    split <;> rfl

/-- A command with an effect names the version it finds and leaves the next. -/
structure Versioned (ok : σ → α → Prop) (version : σ → ℕ) (expected : α → ℕ) : Prop where
  idle : ∀ s a, ok s a → (step s a).2 = false → (step s a).1 = s
  expected : ∀ s a, ok s a → (step s a).2 = true → expected a = version s
  raised : ∀ s a, ok s a → (step s a).2 = true → version (step s a).1 = version s + 1

variable {step} {ok : σ → α → Prop} {version : σ → ℕ} {expected : α → ℕ}
variable {s : σ} {l : List α}

section

variable (h : Versioned step ok version expected)
include h

/-- The versions that take effect follow one another. -/
theorem Versioned.consecutive (hok : Run.Guarded step ok s l) :
    (effects step s l).map expected = List.range' (version s) (effects step s l).length := by
  induction l generalizing s with
  | nil => rfl
  | cons a l ih =>
    rw [effects_cons]
    cases heffect : (step s a).2 with
    | false =>
      have hrest := ih hok.2
      rw [h.idle s a hok.1 heffect] at hrest ⊢
      simpa using hrest
    | true =>
      simp only [if_true, List.map_cons, List.length_cons, List.range'_succ, ih hok.2, h.expected s a hok.1 heffect,
        h.raised s a hok.1 heffect]

/-- No version takes effect twice. -/
theorem Versioned.once (hok : Run.Guarded step ok s l) : ((effects step s l).map expected).Nodup := by
  rw [h.consecutive hok]
  exact List.nodup_range'

theorem Versioned.version_finish (hok : Run.Guarded step ok s l) :
    version (Run.finish step s l) = version s + (effects step s l).length := by
  induction l generalizing s with
  | nil => rfl
  | cons a l ih =>
    rw [Run.finish_cons, ih hok.2, effects_cons]
    cases heffect : (step s a).2 with
    | false =>
      rw [h.idle s a hok.1 heffect]
      simp
    | true =>
      rw [h.raised s a hok.1 heffect]
      simp only [if_true, List.length_cons]
      omega

theorem Versioned.sum_effects {M : Type*} [AddCommMonoid M] (level : σ → M) (gain : α → M)
    (hgain : ∀ s a, ok s a → (step s a).2 = true → level (step s a).1 = level s + gain a)
    (hok : Run.Guarded step ok s l) : level (Run.finish step s l) = level s + ((effects step s l).map gain).sum := by
  induction l generalizing s with
  | nil => simp
  | cons a l ih =>
    rw [Run.finish_cons, ih hok.2, effects_cons]
    cases heffect : (step s a).2 with
    | false =>
      rw [h.idle s a hok.1 heffect]
      simp
    | true =>
      rw [hgain s a hok.1 heffect]
      simp only [if_true, List.map_cons, List.sum_cons, add_assoc]

theorem Versioned.last_effect {β : Type*} (read : σ → β) (written : α → β)
    (hwritten : ∀ s a, ok s a → (step s a).2 = true → read (step s a).1 = written a) (hok : Run.Guarded step ok s l) :
    read (Run.finish step s l) = ((effects step s l).getLast?.map written).getD (read s) := by
  induction l generalizing s with
  | nil => rfl
  | cons a l ih =>
    rw [Run.finish_cons, ih hok.2, effects_cons]
    cases heffect : (step s a).2 with
    | false =>
      rw [h.idle s a hok.1 heffect]
      simp
    | true =>
      rw [hwritten s a hok.1 heffect]
      cases hrest : (effects step (step s a).1 l).getLast? with
      | none => simp [List.getLast?_eq_none_iff.mp hrest]
      | some b => simp [List.getLast?_cons, hrest]

end

end CompareAndSet
