import Mathlib.Logic.Basic

/-!
# Computations that throw and keep their state

A computation reads and changes a state and may throw; what it had changed stays changed. `ends` is the outcome with
the state it leaves.
-/

abbrev Fallible (ε σ α : Type) := ExceptT ε (StateM σ) α

namespace Fallible

variable {ε σ α β : Type}
variable (m : Fallible ε σ α)

def ends (s : σ) : Except ε α × σ := StateT.run (ExceptT.run m) s

def outside (answer : Except ε α) : Fallible ε σ α := fun s => (answer, s)

def update (f : σ → σ) : Fallible ε σ Unit := fun s => (.ok (), f s)

def look : Fallible ε σ σ := fun s => (.ok s, s)

def recovering (h : ε → Fallible ε σ α) : Fallible ε σ α := fun s =>
  match ends m s with
  | (.ok a, s') => (.ok a, s')
  | (.error e, s') => ends (h e) s'

def lastly (tidy : σ → σ) : Fallible ε σ α := fun s => ((ends m s).1, tidy (ends m s).2)

/-! ## Where each ends -/

@[simp] theorem ends_pure (a : α) (s : σ) : ends (pure a : Fallible ε σ α) s = (.ok a, s) := rfl

@[simp] theorem ends_outside (answer : Except ε α) (s : σ) : ends (outside answer) s = (answer, s) := rfl

@[simp] theorem ends_update (f : σ → σ) (s : σ) : ends (update f : Fallible ε σ Unit) s = (.ok (), f s) := rfl

@[simp] theorem ends_look (s : σ) : ends (look : Fallible ε σ σ) s = (.ok s, s) := rfl

variable (m : Fallible ε σ α)

@[simp] theorem ends_lastly (tidy : σ → σ) (s : σ) : ends (lastly m tidy) s = ((ends m s).1, tidy (ends m s).2) := rfl

theorem ends_bind (f : α → Fallible ε σ β) (s : σ) :
    ends (m >>= f) s = match ends m s with
      | (.ok a, s') => ends (f a) s'
      | (.error e, s') => (.error e, s') := by
  unfold ends ExceptT.run StateT.run
  simp only [bind, ExceptT.bind, ExceptT.mk, StateT.bind]
  cases m s with
  | mk answer s' => cases answer <;> rfl

theorem ends_map (f : α → β) (m : Fallible ε σ α) (s : σ) : ends (f <$> m) s = ((ends m s).1.map f, (ends m s).2) := by
  unfold ends ExceptT.run StateT.run
  simp only [Functor.map, ExceptT.map, ExceptT.mk, bind, StateT.bind]
  cases m s with
  | mk answer s' => cases answer <;> rfl

theorem ends_recovering (h : ε → Fallible ε σ α) (s : σ) :
    ends (recovering m h) s = match ends m s with
      | (.ok a, s') => (.ok a, s')
      | (.error e, s') => ends (h e) s' := rfl

theorem mem_of_mapM {f : α → Except ε β} {xs : List α} {ys : List β} (h : xs.mapM f = .ok ys) :
    ∀ x ∈ xs, ∃ y ∈ ys, f x = .ok y := by
  induction xs generalizing ys with
  | nil =>
    intro x hx
    cases hx
  | cons first xs ih =>
    intro x hx
    rw [List.mapM_cons] at h
    cases hfirst : f first with
    | error _ =>
      rw [hfirst] at h
      cases h
    | ok y =>
      rw [hfirst] at h
      cases hrest : xs.mapM f with
      | error _ =>
        rw [hrest] at h
        cases h
      | ok rest =>
        rw [hrest] at h
        cases h
        rcases List.mem_cons.mp hx with rfl | hx
        · exact ⟨y, List.mem_cons_self .., hfirst⟩
        · obtain ⟨other, hother, heq⟩ := ih hrest x hx
          exact ⟨other, .tail _ hother, heq⟩

/-! ## What a computation keeps -/

def Keeps (I : σ → Prop) (m : Fallible ε σ α) : Prop := ∀ s, I s → I (ends m s).2

variable {I : σ → Prop}

theorem keeps_pure (a : α) : Keeps I (pure a : Fallible ε σ α) := fun _ h => h

theorem keeps_outside (answer : Except ε α) : Keeps I (outside answer) := fun _ h => h

theorem keeps_look : Keeps I (look : Fallible ε σ σ) := fun _ h => h

theorem keeps_update {f : σ → σ} (hf : ∀ s, I s → I (f s)) : Keeps I (update f : Fallible ε σ Unit) := hf

theorem keeps_bind {m : Fallible ε σ α} {f : α → Fallible ε σ β} (hm : Keeps I m) (hf : ∀ a, Keeps I (f a)) :
    Keeps I (m >>= f) := by
  intro s hs
  have hnext := hm s hs
  rw [ends_bind]
  rcases hend : ends m s with ⟨_ | a, s'⟩
  · rw [hend] at hnext
    exact hnext
  · rw [hend] at hnext
    exact hf a s' hnext

theorem keeps_recovering {m : Fallible ε σ α} {h : ε → Fallible ε σ α} (hm : Keeps I m) (hh : ∀ e, Keeps I (h e)) :
    Keeps I (recovering m h) := by
  intro s hs
  have hnext := hm s hs
  rw [ends_recovering]
  rcases hend : ends m s with ⟨e | a, s'⟩
  · rw [hend] at hnext
    exact hh e s' hnext
  · rw [hend] at hnext
    exact hnext

def Total (m : Fallible ε σ α) : Prop := ∀ s, ∃ a s', ends m s = (.ok a, s')

theorem total_pure (a : α) : Total (pure a : Fallible ε σ α) := fun s => ⟨a, s, rfl⟩

theorem total_outside (a : α) : Total (outside (.ok a) : Fallible ε σ α) := fun s => ⟨a, s, rfl⟩

theorem total_update (f : σ → σ) : Total (update f : Fallible ε σ Unit) := fun s => ⟨(), f s, rfl⟩

theorem total_look : Total (look : Fallible ε σ σ) := fun s => ⟨s, s, rfl⟩

theorem total_bind {m : Fallible ε σ α} {f : α → Fallible ε σ β} (hm : Total m) (hf : ∀ a, Total (f a)) :
    Total (m >>= f) := by
  intro s
  obtain ⟨a, s', hend⟩ := hm s
  rw [ends_bind, hend]
  exact hf a s'

theorem total_forM {l : List β} {f : β → Fallible ε σ PUnit} (h : ∀ b, Total (f b)) : Total (l.forM f) := by
  induction l with
  | nil => exact total_pure _
  | cons b l ih =>
    show Total (f b >>= fun _ => l.forM f)
    exact total_bind (h b) fun _ => ih

/-- From states that are related, the computation has one outcome and leaves related states. -/
def Respects (R : σ → σ → Prop) (m : Fallible ε σ α) : Prop :=
  ∀ s s', R s s' → (ends m s).1 = (ends m s').1 ∧ R (ends m s).2 (ends m s').2

section

variable {R : σ → σ → Prop}

theorem respects_pure (a : α) : Respects R (pure a : Fallible ε σ α) := fun _ _ h => ⟨rfl, h⟩

theorem respects_outside (answer : Except ε α) : Respects R (outside answer) := fun _ _ h => ⟨rfl, h⟩

theorem respects_update {f : σ → σ} (hf : ∀ s s', R s s' → R (f s) (f s')) :
    Respects R (update f : Fallible ε σ Unit) := fun s s' h => ⟨rfl, hf s s' h⟩

theorem Respects.cases {m : Fallible ε σ α} (hm : Respects R m) {s s' : σ} (h : R s s') :
    (∃ e t t', ends m s = (.error e, t) ∧ ends m s' = (.error e, t') ∧ R t t') ∨
      ∃ a t t', ends m s = (.ok a, t) ∧ ends m s' = (.ok a, t') ∧ R t t' := by
  obtain ⟨hanswer, hnext⟩ := hm s s' h
  cases hend : (ends m s).1 with
  | error e => exact .inl ⟨e, _, _, Prod.ext hend rfl, Prod.ext (hanswer ▸ hend) rfl, hnext⟩
  | ok a => exact .inr ⟨a, _, _, Prod.ext hend rfl, Prod.ext (hanswer ▸ hend) rfl, hnext⟩

theorem respects_bind {m : Fallible ε σ α} {f : α → Fallible ε σ β} (hm : Respects R m) (hf : ∀ a, Respects R (f a)) :
    Respects R (m >>= f) := by
  intro s s' h
  rw [ends_bind, ends_bind]
  rcases hm.cases h with ⟨e, t, t', hend, hend', hnext⟩ | ⟨a, t, t', hend, hend', hnext⟩
  · rw [hend, hend']
    exact ⟨rfl, hnext⟩
  · rw [hend, hend']
    exact hf a t t' hnext

theorem respects_look_bind {f : σ → Fallible ε σ β} (hsame : ∀ s s', R s s' → f s = f s') (hf : ∀ s, Respects R (f s)) :
    Respects R (look >>= f : Fallible ε σ β) := by
  intro s s' h
  rw [ends_bind, ends_bind]
  show (ends (f s) s).1 = (ends (f s') s').1 ∧ R (ends (f s) s).2 (ends (f s') s').2
  rw [← hsame s s' h]
  exact hf s s s' h

theorem respects_forM {l : List β} {f : β → Fallible ε σ PUnit} (h : ∀ b, Respects R (f b)) :
    Respects R (l.forM f) := by
  induction l with
  | nil => exact respects_pure _
  | cons b l ih =>
    show Respects R (f b >>= fun _ => l.forM f)
    exact respects_bind (h b) fun _ => ih

end

/-! ## Pre- and postconditions -/

/-- The answer meets `Q`, the error meets `E`. -/
def Triple (P : σ → Prop) (m : Fallible ε σ α) (Q : α → σ → Prop) (E : ε → σ → Prop) : Prop :=
  ∀ s, P s → match ends m s with
    | (.ok a, s') => Q a s'
    | (.error e, s') => E e s'

namespace Triple

variable {P P' : σ → Prop} {Q Q' : α → σ → Prop} {R : β → σ → Prop} {E E' : ε → σ → Prop}

theorem pure {a : α} (h : ∀ s, P s → Q a s) : Triple P (pure a : Fallible ε σ α) Q E := h

theorem outside {answer : Except ε α} (hok : ∀ a s, answer = .ok a → P s → Q a s)
    (herror : ∀ e s, answer = .error e → P s → E e s) : Triple P (outside answer) Q E := by
  intro s hs
  cases answer with
  | ok a => exact hok a s rfl hs
  | error e => exact herror e s rfl hs

theorem update {f : σ → σ} {Q : Unit → σ → Prop} (h : ∀ s, P s → Q () (f s)) :
    Triple P (update f : Fallible ε σ Unit) Q E := h

theorem look_bind {f : σ → Fallible ε σ β} (h : ∀ s, P s → Triple (· = s) (f s) R E) :
    Triple P (look >>= f : Fallible ε σ β) R E := by
  intro s hs
  rw [ends_bind]
  exact h s hs s rfl

variable {m : Fallible ε σ α}

theorem bind {f : α → Fallible ε σ β} (hm : Triple P m Q E) (hf : ∀ a, Triple (Q a) (f a) R E) :
    Triple P (m >>= f) R E := by
  intro s hs
  have hnext := hm s hs
  rw [ends_bind]
  rcases hend : ends m s with ⟨e | a, s'⟩
  · rw [hend] at hnext
    exact hnext
  · rw [hend] at hnext
    exact hf a s' hnext

theorem imp (h : Triple P m Q E) (hP : ∀ s, P' s → P s) (hQ : ∀ a s, Q a s → Q' a s) (hE : ∀ e s, E e s → E' e s) :
    Triple P' m Q' E' := by
  intro s hs
  have hnext := h s (hP s hs)
  rcases hend : ends m s with ⟨e | a, s'⟩
  · rw [hend] at hnext
    exact hE e s' hnext
  · rw [hend] at hnext
    exact hQ a s' hnext

theorem pre (h : Triple P m Q E) (hP : ∀ s, P' s → P s) : Triple P' m Q E :=
  h.imp hP (fun _ _ hq => hq) fun _ _ he => he

theorem total (h : Triple P m Q E) (hm : Total m) : Triple P m Q E' := by
  intro s hs
  obtain ⟨a, s', hend⟩ := hm s
  have hnext := h s hs
  rw [hend] at hnext ⊢
  exact hnext

theorem forM {l : List β} {f : β → Fallible ε σ PUnit} (h : ∀ b ∈ l, Triple P (f b) (fun _ => P) E) :
    Triple P (l.forM f) (fun _ => P) E := by
  induction l with
  | nil => exact Triple.pure fun _ hs => hs
  | cons b l ih =>
    show Triple P (f b >>= fun _ => l.forM f) (fun _ => P) E
    apply (h b (.head _)).bind
    intro _
    exact ih fun b hb => h b (.tail _ hb)

end Triple

end Fallible
