import Mathlib.Algebra.BigOperators.Group.List.Basic
import Mathlib.Algebra.GroupWithZero.Nat

/-!
# Runs of a machine

A machine reads inputs, changes its state and answers. `Guarded` says every step satisfied a condition; an invariant
that guarded steps preserve holds wherever a guarded run stops.
-/

namespace Run

variable {σ α β : Type*} (step : σ → α → σ × β)

/-- The state after the inputs. -/
def finish : σ → List α → σ
  | s, [] => s
  | s, a :: l => finish (step s a).1 l

/-- What the machine said, input by input. -/
def answers : σ → List α → List β
  | _, [] => []
  | s, a :: l => (step s a).2 :: answers (step s a).1 l

/-- Every input meets the condition on the state it is read in. -/
def Guarded (ok : σ → α → Prop) : σ → List α → Prop
  | _, [] => True
  | s, a :: l => ok s a ∧ Guarded ok (step s a).1 l

variable (s : σ)

@[simp] theorem finish_nil : finish step s [] = s := rfl

@[simp] theorem finish_cons (a : α) (l : List α) : finish step s (a :: l) = finish step (step s a).1 l := rfl

@[simp] theorem answers_nil : answers step s [] = [] := rfl

@[simp] theorem answers_cons (a : α) (l : List α) :
    answers step s (a :: l) = (step s a).2 :: answers step (step s a).1 l := rfl

theorem finish_append : ∀ (s : σ) (l l' : List α), finish step s (l ++ l') = finish step (finish step s l) l'
  | _, [], _ => rfl
  | s, a :: l, l' => finish_append (step s a).1 l l'

theorem answers_snoc (l : List α) (a : α) :
    answers step s (l ++ [a]) = answers step s l ++ [(step (finish step s l) a).2] := by
  induction l generalizing s with
  | nil => rfl
  | cons b l ih => rw [List.cons_append, answers_cons, ih]; rfl

theorem length_answers (l : List α) : (answers step s l).length = l.length := by
  induction l generalizing s with
  | nil => rfl
  | cons a l ih => rw [answers_cons, List.length_cons, List.length_cons, ih]

theorem getElem?_answers (before : List α) (a : α) (after : List α) :
    (answers step s (before ++ a :: after))[before.length]? = some (step (finish step s before) a).2 := by
  induction before generalizing s with
  | nil => rfl
  | cons b before ih => simpa using ih (step s b).1

theorem finish_congr {γ : Type*} {step : σ → α → σ × β} {step' : σ → α → σ × γ}
    (h : ∀ s a, (step s a).1 = (step' s a).1) (s : σ) (l : List α) : finish step s l = finish step' s l := by
  induction l generalizing s with
  | nil => rfl
  | cons a l ih => rw [finish_cons, finish_cons, h, ih]

variable {step} {ok : σ → α → Prop}

theorem Guarded.append : ∀ {l : List α} {s : σ} {l' : List α}, Guarded step ok s (l ++ l') →
    Guarded step ok s l ∧ Guarded step ok (finish step s l) l'
  | [], _, _, h => ⟨trivial, h⟩
  | _ :: _, _, _, h => ⟨⟨h.1, (Guarded.append h.2).1⟩, (Guarded.append h.2).2⟩

variable {l : List α} {a : α}

theorem Guarded.snoc {s : σ} (h : Guarded step ok s l) (ha : ok (finish step s l) a) :
    Guarded step ok s (l ++ [a]) := by
  induction l generalizing s with
  | nil => exact ⟨ha, trivial⟩
  | cons b l ih => exact ⟨h.1, ih h.2 ha⟩

variable (I : σ → Prop)

theorem invariant (hI : ∀ s a, I s → I (step s a).1) {s : σ} (hs : I s) : I (finish step s l) := by
  induction l generalizing s with
  | nil => exact hs
  | cons a l ih => exact ih (hI s a hs)

/-- What guarded steps preserve holds where the run stops. -/
theorem Guarded.invariant (hI : ∀ s a, I s → ok s a → I (step s a).1) {s : σ} (hs : I s)
    (h : Guarded step ok s l) : I (finish step s l) := by
  induction l generalizing s with
  | nil => exact hs
  | cons a l ih => exact ih (hI s a hs h.1) h.2

theorem Guarded.also (hI : ∀ s a, I s → ok s a → I (step s a).1) {s : σ} (hs : I s)
    (h : Guarded step ok s l) : Guarded step (fun s a => I s ∧ ok s a) s l := by
  induction l generalizing s with
  | nil => trivial
  | cons a l ih => exact ⟨⟨hs, h.1⟩, ih (hI s a hs h.1) h.2⟩

instance Guarded.decidable [∀ s a, Decidable (ok s a)] : ∀ (s : σ) (l : List α), Decidable (Guarded step ok s l)
  | _, [] => instDecidableTrue
  | s, a :: l =>
    have : Decidable (Guarded step ok (step s a).1 l) := Guarded.decidable _ l
    inferInstanceAs (Decidable (ok s a ∧ Guarded step ok (step s a).1 l))

theorem guarded_of_forall {s : σ} (h : ∀ earlier a later, l = earlier ++ a :: later → ok (finish step s earlier) a) :
    Guarded step ok s l := by
  induction l generalizing s with
  | nil => trivial
  | cons a l ih =>
    refine ⟨h [] a l rfl, ih ?_⟩
    rintro earlier b later rfl
    exact h (a :: earlier) b later rfl

theorem forall_prefix_iff {P I : σ → Prop} (hI : ∀ s a, I s → I (step s a).1)
    (hP : ∀ s a, I s → P s → (P (step s a).1 ↔ ok s a)) {s : σ} (hs : I s) (hPs : P s) (l : List α) :
    (∀ before, before <+: l → P (finish step s before)) ↔ Guarded step ok s l := by
  induction l generalizing s with
  | nil =>
    refine ⟨fun _ => trivial, fun _ before hbefore => ?_⟩
    rw [List.prefix_nil.mp hbefore]
    exact hPs
  | cons a l ih =>
    constructor
    · intro h
      have hone : P (step s a).1 := h [a] ⟨l, rfl⟩
      exact ⟨(hP s a hs hPs).mp hone, (ih (hI s a hs) hone).mp fun before hbefore =>
        h (a :: before) (List.cons_prefix_cons.mpr ⟨rfl, hbefore⟩)⟩
    · rintro ⟨hok, hrest⟩ before hbefore
      rcases List.prefix_cons_iff.mp hbefore with rfl | ⟨rest, rfl, hprefix⟩
      · exact hPs
      · exact (ih (hI s a hs) ((hP s a hs hPs).mpr hok)).mpr hrest rest hprefix

/-- A relation between the history and the state, kept step by step. -/
theorem history {H : σ → List α → Prop} (hH : ∀ s past a, H s past → H (step s a).1 (past ++ [a]))
    {s : σ} {past : List α} (hs : H s past) (l : List α) : H (finish step s l) (past ++ l) := by
  induction l generalizing s past with
  | nil => simpa using hs
  | cons a l ih => simpa using ih (hH s past a hs)

theorem split_snoc {past before after : List α} {x y : α} (h : past ++ [x] = before ++ y :: after) :
    (before = past ∧ y = x ∧ after = []) ∨ ∃ after', after = after' ++ [x] ∧ past = before ++ y :: after' := by
  rcases after.eq_nil_or_concat with rfl | ⟨after', z, rfl⟩
  · obtain ⟨hpast, hxy⟩ := List.append_inj' h rfl
    exact .inl ⟨hpast.symm, (List.cons.inj hxy).1.symm, rfl⟩
  · have h' : past ++ [x] = (before ++ y :: after') ++ [z] := by rw [h]; simp
    obtain ⟨hpast, hxz⟩ := List.append_inj' h' rfl
    exact .inr ⟨after', by rw [(List.cons.inj hxz).1, List.concat_eq_append], hpast⟩

/-- Each element stands in the relation to those before it. -/
def Each (R : List α → α → Prop) (l : List α) : Prop := ∀ past a, past ++ [a] <+: l → R past a

section

variable {R : List α → α → Prop}

theorem Each.nil : Each R [] := by
  intro past a hpre
  simp at hpre

variable {a : α}

theorem Each.past {past : List α} (h : Each R (past ++ [a])) : Each R past :=
  fun before b hpre => h before b (hpre.trans (List.prefix_append _ _))

theorem Each.last {past : List α} (h : Each R (past ++ [a])) : R past a := h past a (List.prefix_refl _)

theorem Each.snoc {past : List α} (h : Each R past) (ha : R past a) : Each R (past ++ [a]) := by
  intro before b hpre
  rcases List.prefix_concat_iff.mp hpre with heq | hpre
  · obtain ⟨hbefore, hlast⟩ := List.append_inj' heq rfl
    rw [hbefore, (List.cons.inj hlast).1]
    exact ha
  · exact h before b hpre

end

theorem forall_mem_snoc {P : α → Prop} (hl : ∀ b ∈ l, P b) (ha : P a) : ∀ b ∈ l ++ [a], P b := by
  intro b hb
  rcases List.mem_append.mp hb with hb | hb
  · exact hl b hb
  · rw [List.mem_singleton.mp hb]
    exact ha

theorem pairwise_snoc {R : α → α → Prop} (hl : l.Pairwise R) (ha : ∀ b ∈ l, R b a) : (l ++ [a]).Pairwise R := by
  refine List.pairwise_append.mpr ⟨hl, List.pairwise_singleton R a, ?_⟩
  intro b hb a' ha'
  rw [List.mem_singleton.mp ha']
  exact ha b hb

theorem getElem?_snoc {a b : α} {i : ℕ} : (l ++ [a])[i]? = some b ↔ l[i]? = some b ∨ i = l.length ∧ a = b := by
  rcases Nat.lt_trichotomy i l.length with hlt | rfl | hgt
  · simp [List.getElem?_append_left hlt, Nat.ne_of_lt hlt]
  · simp
  · rw [List.getElem?_append_right (Nat.le_of_lt hgt), List.getElem?_eq_none (Nat.le_of_lt hgt)]
    simp [Nat.sub_eq_zero_iff_le, hgt, Nat.ne_of_gt hgt]

theorem getElem?_set_cases {a a' b : α} {i j : ℕ} (hi : l[i]? = some a) (hj : (l.set i a')[j]? = some b) :
    (j = i ∧ b = a') ∨ (j ≠ i ∧ l[j]? = some b) := by
  have hlt : i < l.length := (List.getElem?_eq_some_iff.mp hi).1
  simp only [List.getElem?_set, hlt, if_true] at hj
  split at hj
  next heq => exact .inl ⟨heq.symm, (Option.some_inj.mp hj).symm⟩
  next hne => exact .inr ⟨Ne.symm hne, hj⟩

theorem forall_answers {P : β → Prop} (hI : ∀ s a, I s → I (step s a).1 ∧ P (step s a).2) {s : σ}
    (hs : I s) : ∀ b ∈ answers step s l, P b := by
  induction l generalizing s with
  | nil => simp
  | cons a l ih =>
    intro b hb
    rcases List.mem_cons.mp hb with rfl | hb
    · exact (hI s a hs).2
    · exact ih (hI s a hs).1 b hb

theorem sum_gains (level : σ → ℕ) {gain : β → ℕ}
    (h : ∀ s a, gain (step s a).2 + level s = level (step s a).1) (s : σ) (l : List α) :
    ((answers step s l).map gain).sum + level s = level (finish step s l) := by
  induction l generalizing s with
  | nil => simp
  | cons a l ih =>
    have hstep := h s a
    have hrest := ih (step s a).1
    simp only [answers_cons, List.map_cons, List.sum_cons, finish_cons]
    omega

theorem sum_rises {M : Type*} [AddCommMonoid M] (level : σ → M) {gain : β → M}
    (h : ∀ s a, gain (step s a).2 + level s = level (step s a).1) (s : σ) (l : List α) :
    ((answers step s l).map gain).sum + level s = level (finish step s l) := by
  induction l generalizing s with
  | nil => simp
  | cons a l ih =>
    calc ((answers step s (a :: l)).map gain).sum + level s
        = ((answers step (step s a).1 l).map gain).sum + (gain (step s a).2 + level s) := by
          rw [answers_cons, List.map_cons, List.sum_cons, add_comm (gain _), add_assoc]
      _ = level (finish step s (a :: l)) := by rw [h, ih, finish_cons]

theorem answers_rise {level : σ → ℕ} {shown : β → ℕ} (hmono : ∀ s a, level s ≤ level (step s a).1)
    (hshown : ∀ s a, shown (step s a).2 = level (step s a).1) (s : σ) (l : List α) :
    (level s :: (answers step s l).map shown).Pairwise (· ≤ ·) := by
  induction l generalizing s with
  | nil => simp
  | cons a l ih =>
    have hrest := ih (step s a).1
    rw [answers_cons, List.map_cons, hshown]
    refine List.pairwise_cons.mpr ⟨?_, hrest⟩
    intro n hn
    rcases List.mem_cons.mp hn with rfl | hn
    · exact hmono s a
    · exact Nat.le_trans (hmono s a) ((List.pairwise_cons.mp hrest).1 n hn)

end Run
