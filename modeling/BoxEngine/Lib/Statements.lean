import BoxEngine.Lib.Run
import Mathlib.Data.Set.Insert

/-!
# Programs of atomic statements

A program is a tree of statements over shared state; a failed statement may have taken effect. When no program can end
while it owes a fault it made, a state in which every program has ended has none.
-/

namespace Statements

inductive Prog (C : Type) (Ans : C → Type) (ε α : Type) where
  | ret (a : α)
  | raise (e : ε)
  | call (c : C) (k : Option (Ans c) → Prog C Ans ε α)

inductive Reply where
  | answered
  | refused
  | lost
  deriving DecidableEq

variable {C : Type} {Ans : C → Type} {ε α β : Type}

namespace Prog

def bind : Prog C Ans ε α → (α → Prog C Ans ε β) → Prog C Ans ε β
  | ret a, f => f a
  | raise e, _ => raise e
  | call c k, f => call c fun r => (k r).bind f

def recover : Prog C Ans ε α → (ε → Prog C Ans ε α) → Prog C Ans ε α
  | ret a, _ => ret a
  | raise e, h => h e
  | call c k, h => call c fun r => (k r).recover h

def attempt : Prog C Ans ε α → Prog C Ans ε (Except ε α)
  | ret a => ret (.ok a)
  | raise e => ret (.error e)
  | call c k => call c fun r => (k r).attempt

instance : Monad (Prog C Ans ε) where
  pure := ret
  bind := bind

def ended : Prog C Ans ε α → Bool
  | call .. => false
  | _ => true

end Prog

structure Thread (C : Type) (Ans : C → Type) (ε G : Type) where
  prog : Prog C Ans ε Unit
  own : G

structure Pool (C : Type) (Ans : C → Type) (ε G σ : Type) where
  shared : σ
  threads : List (Thread C Ans ε G)

inductive PoolEvent (O W : Type) where
  | start (o : O)
  | run (i : ℕ) (reply : Reply)
  | outside (w : W)

variable {G σ O W P : Type}

section

variable (exec : (c : C) → G → σ → Ans c × G × σ)

def take (c : C) (g : G) (s : σ) : Reply → Option (Ans c) × G × σ
  | .answered => (some (exec c g s).1, (exec c g s).2)
  | .refused => (none, g, s)
  | .lost => (none, (exec c g s).2)

variable (program : O → Thread C Ans ε G) (change : W → σ → σ)

def step (pool : Pool C Ans ε G σ) : PoolEvent O W → Pool C Ans ε G σ × Unit
  | .start o => ({ pool with threads := pool.threads ++ [program o] }, ())
  | .outside w => ({ pool with shared := change w pool.shared }, ())
  | .run i reply =>
    match pool.threads[i]? with
    | some ⟨.call c k, g⟩ =>
      let taken := take exec c g pool.shared reply
      (⟨taken.2.2, pool.threads.set i ⟨k taken.1, taken.2.1⟩⟩, ())
    | _ => (pool, ())

end

def AllowedNext (allowed : (c : C) → G → σ → Reply → Prop) (s : σ) (reply : Reply) :
    Option (Thread C Ans ε G) → Prop
  | some ⟨.call c _, g⟩ => allowed c g s reply
  | _ => True

def Allowed (allowed : (c : C) → G → σ → Reply → Prop) (pool : Pool C Ans ε G σ) : PoolEvent O W → Prop
  | .run i reply => AllowedNext allowed pool.shared reply pool.threads[i]?
  | _ => True

section

variable {allowed : (c : C) → G → σ → Reply → Prop} [∀ c g s reply, Decidable (allowed c g s reply)]

instance (s : σ) (reply : Reply) : ∀ t : Option (Thread C Ans ε G), Decidable (AllowedNext allowed s reply t)
  | some ⟨.call c _, g⟩ => inferInstanceAs (Decidable (allowed c g s reply))
  | some ⟨.ret _, _⟩ | some ⟨.raise _, _⟩ | none => isTrue trivial

instance (pool : Pool C Ans ε G σ) : ∀ event : PoolEvent O W, Decidable (Allowed allowed pool event)
  | .run i reply => inferInstanceAs (Decidable (AllowedNext allowed pool.shared reply pool.threads[i]?))
  | .start _ | .outside _ => isTrue trivial

end

def Pool.AtRest (pool : Pool C Ans ε G σ) : Prop := ∀ t ∈ pool.threads, t.prog.ended = true

instance (pool : Pool C Ans ε G σ) : Decidable pool.AtRest :=
  inferInstanceAs (Decidable (∀ t ∈ pool.threads, t.prog.ended = true))

/-! ## What a program owes -/

section

variable (exec : (c : C) → G → σ → Ans c × G × σ) (allowed : (c : C) → G → σ → Reply → Prop) (faults : σ → Set P)

/-- The faults owed after a step: those owed before that are still there, and new ones. -/
def owedAfter (owed : Set P) (s s' : σ) : Set P := {p | p ∈ faults s' ∧ (p ∈ owed ∨ p ∉ faults s)}

def Ends (post : Except ε α → G → Set P → Prop) : Set P → G → Prog C Ans ε α → Prop
  | owed, g, .ret a => post (.ok a) g owed
  | owed, g, .raise e => post (.error e) g owed
  | owed, g, .call c k => ∀ s reply, allowed c g s reply →
      Ends post (owedAfter faults owed s (take exec c g s reply).2.2) (take exec c g s reply).2.1
        (k (take exec c g s reply).1)

end

section

variable {exec : (c : C) → G → σ → Ans c × G × σ} {allowed : (c : C) → G → σ → Reply → Prop} {faults : σ → Set P}

theorem owedAfter_mono {owed owed' : Set P} (h : owed ⊆ owed') (s s' : σ) :
    owedAfter faults owed s s' ⊆ owedAfter faults owed' s s' :=
  fun _ hp => ⟨hp.1, hp.2.imp_left fun hmem => h hmem⟩

variable {owed : Set P}

theorem owedAfter_subset {s s' : σ} (h : faults s' ⊆ faults s) : owedAfter faults owed s s' ⊆ owed := by
  rintro p ⟨hp, hmem | hnew⟩
  · exact hmem
  · exact absurd (h hp) hnew

theorem owedAfter_eq_empty {s s' : σ} (h : faults s' = ∅) : owedAfter faults owed s s' = ∅ := by
  apply Set.eq_empty_iff_forall_notMem.mpr
  rintro p ⟨hp, -⟩
  simp [h] at hp

variable {g : G} {m : Prog C Ans ε α}

theorem Ends.imp {post post' : Except ε α → G → Set P → Prop} (himp : ∀ r g owed, post r g owed → post' r g owed)
    (h : Ends exec allowed faults post owed g m) : Ends exec allowed faults post' owed g m := by
  induction m generalizing owed g with
  | ret a => exact himp _ _ _ h
  | raise e => exact himp _ _ _ h
  | call c k ih => exact fun s reply hallowed => ih _ (h s reply hallowed)

variable {post : Except ε α → G → Set P → Prop}

theorem Ends.anti (hpost : ∀ r g owed owed', owed' ⊆ owed → post r g owed → post r g owed') {owed owed' : Set P}
    (hle : owed' ⊆ owed) (h : Ends exec allowed faults post owed g m) : Ends exec allowed faults post owed' g m := by
  induction m generalizing owed owed' g with
  | ret a => exact hpost _ _ _ _ hle h
  | raise e => exact hpost _ _ _ _ hle h
  | call c k ih => exact fun s reply hallowed => ih _ (owedAfter_mono hle s _) (h s reply hallowed)

theorem Ends.bind {post : Except ε β → G → Set P → Prop} {f : α → Prog C Ans ε β}
    (h : Ends exec allowed faults (fun r g owed => match r with | .ok a => Ends exec allowed faults post owed g (f a) | .error e => post (.error e) g owed) owed g m) :
    Ends exec allowed faults post owed g (m >>= f) := by
  change Ends exec allowed faults post owed g (m.bind f)
  induction m generalizing owed g with
  | ret a => exact h
  | raise e => exact h
  | call c k ih => exact fun s reply hallowed => ih _ (h s reply hallowed)

theorem Ends.recover {handler : ε → Prog C Ans ε α}
    (h : Ends exec allowed faults (fun r g owed => match r with | .ok a => post (.ok a) g owed | .error e => Ends exec allowed faults post owed g (handler e)) owed g m) :
    Ends exec allowed faults post owed g (m.recover handler) := by
  induction m generalizing owed g with
  | ret a => exact h
  | raise e => exact h
  | call c k ih => exact fun s reply hallowed => ih _ (h s reply hallowed)

theorem Ends.attempt {post : Except ε (Except ε α) → G → Set P → Prop}
    (h : Ends exec allowed faults (fun r g owed => post (.ok r) g owed) owed g m) :
    Ends exec allowed faults post owed g m.attempt := by
  induction m generalizing owed g with
  | ret a => exact h
  | raise e => exact h
  | call c k ih => exact fun s reply hallowed => ih _ (h s reply hallowed)

variable (exec allowed faults)

/-- The program keeps what is its own, and owes nothing in the end that it did not owe at first. -/
def Settles (m : Prog C Ans ε α) : Prop :=
  ∀ owed g, Ends exec allowed faults (fun _ g' owed' => g' = g ∧ owed' ⊆ owed) owed g m

variable {exec allowed faults}

theorem Settles.pure (a : α) : Settles exec allowed faults (pure a : Prog C Ans ε α) :=
  fun _ _ => ⟨rfl, subset_rfl⟩

theorem Settles.raise (e : ε) : Settles exec allowed faults (.raise e : Prog C Ans ε α) :=
  fun _ _ => ⟨rfl, subset_rfl⟩

theorem Settles.bind {f : α → Prog C Ans ε β} (hm : Settles exec allowed faults m)
    (hf : ∀ a, Settles exec allowed faults (f a)) : Settles exec allowed faults (m >>= f) := by
  intro owed g
  apply Ends.bind
  apply (hm owed g).imp
  rintro (e | a) g' owed' ⟨rfl, hle⟩
  · exact ⟨rfl, hle⟩
  · apply (hf a owed' g').imp
    rintro r g₂ owed₂ ⟨rfl, hle₂⟩
    exact ⟨rfl, hle₂.trans hle⟩

theorem Settles.call {c : C} {k : Option (Ans c) → Prog C Ans ε α}
    (hown : ∀ g s, (exec c g s).2.1 = g) (hfaults : ∀ g s, faults (exec c g s).2.2 ⊆ faults s)
    (hk : ∀ r, Settles exec allowed faults (k r)) : Settles exec allowed faults (.call c k) := by
  intro owed g s reply _
  have hkept : (take exec c g s reply).2.1 = g ∧ faults (take exec c g s reply).2.2 ⊆ faults s := by
    cases reply with
    | answered => exact ⟨hown g s, hfaults g s⟩
    | refused => exact ⟨rfl, subset_rfl⟩
    | lost => exact ⟨hown g s, hfaults g s⟩
  rw [hkept.1]
  apply (hk _ _ g).imp
  rintro r g' owed' ⟨rfl, hle⟩
  exact ⟨rfl, hle.trans (owedAfter_subset hkept.2)⟩

/-! ## Threads side by side -/

variable (exec allowed faults)

def Clears (owed : Set P) (t : Thread C Ans ε G) : Prop :=
  Ends exec allowed faults (fun _ _ owed' => owed' = ∅) owed t.own t.prog

structure Owned (pool : Pool C Ans ε G σ) : Prop where
  clears : ∀ t ∈ pool.threads, Clears exec allowed faults ∅ t
  owner : ∀ p ∈ faults pool.shared, ∃ t ∈ pool.threads, Clears exec allowed faults {p} t

variable {exec allowed faults}

theorem Clears.anti {owed owed' : Set P} (hle : owed' ⊆ owed) {t : Thread C Ans ε G}
    (h : Clears exec allowed faults owed t) : Clears exec allowed faults owed' t := by
  apply Ends.anti _ hle h
  rintro r g owed₁ owed₂ hle' rfl
  exact Set.subset_eq_empty hle' rfl

theorem Owned.faultless {pool : Pool C Ans ε G σ} (h : Owned exec allowed faults pool) (hrest : pool.AtRest) :
    faults pool.shared = ∅ := by
  apply Set.eq_empty_iff_forall_notMem.mpr
  intro p hp
  obtain ⟨⟨prog, g⟩, ht, hclears⟩ := h.owner p hp
  have hended := hrest _ ht
  cases prog with
  | ret a | raise e => exact Set.singleton_ne_empty p hclears
  | call c k => cases hended

theorem Owned.ran {shared : σ} {threads : List (Thread C Ans ε G)} (h : Owned exec allowed faults ⟨shared, threads⟩)
    {i : ℕ} {c : C} {k : Option (Ans c) → Prog C Ans ε Unit} {reply : Reply} (hi : threads[i]? = some ⟨.call c k, g⟩)
    (hallowed : allowed c g shared reply) :
    Owned exec allowed faults ⟨(take exec c g shared reply).2.2,
      threads.set i ⟨k (take exec c g shared reply).1, (take exec c g shared reply).2.1⟩⟩ := by
  have hlt : i < threads.length := (List.getElem?_eq_some_iff.mp hi).1
  have hthread : (⟨.call c k, g⟩ : Thread C Ans ε G) ∈ threads := List.mem_of_getElem? hi
  have hnew : (⟨k (take exec c g shared reply).1, (take exec c g shared reply).2.1⟩ : Thread C Ans ε G) ∈
      threads.set i ⟨k (take exec c g shared reply).1, (take exec c g shared reply).2.1⟩ :=
    List.mem_set hlt _
  -- what the thread owes once it has taken its step
  have hstep : ∀ owed, Clears exec allowed faults owed ⟨.call c k, g⟩ →
      Clears exec allowed faults (owedAfter faults owed shared (take exec c g shared reply).2.2)
        ⟨k (take exec c g shared reply).1, (take exec c g shared reply).2.1⟩ :=
    fun owed hclears => hclears shared reply hallowed
  have hclean := hstep ∅ (h.clears _ hthread)
  refine ⟨?_, ?_⟩
  · intro t ht
    rcases List.mem_or_eq_of_mem_set ht with ht | rfl
    · exact h.clears t ht
    · exact hclean.anti (Set.empty_subset _)
  · intro p hp
    by_cases hold : p ∈ faults shared
    · obtain ⟨t, ht, hclears⟩ := h.owner p hold
      obtain ⟨j, hj⟩ := List.mem_iff_getElem?.mp ht
      by_cases hji : j = i
      · subst hji
        cases hi.symm.trans hj
        refine ⟨_, hnew, (hstep {p} hclears).anti ?_⟩
        rintro q rfl
        exact ⟨hp, .inl rfl⟩
      · refine ⟨t, List.mem_iff_getElem?.mpr ⟨j, ?_⟩, hclears⟩
        rw [List.getElem?_set_ne (Ne.symm hji)]
        exact hj
    · refine ⟨_, hnew, hclean.anti ?_⟩
      rintro q rfl
      exact ⟨hp, .inr hold⟩

variable {program : O → Thread C Ans ε G} {change : W → σ → σ}

theorem Owned.step (hprogram : ∀ o, Clears exec allowed faults ∅ (program o))
    (hchange : ∀ w s, faults (change w s) ⊆ faults s) {pool : Pool C Ans ε G σ} {event : PoolEvent O W}
    (h : Owned exec allowed faults pool) (hallowed : Allowed allowed pool event) :
    Owned exec allowed faults (step exec program change pool event).1 := by
  cases event with
  | start o =>
    refine ⟨Run.forall_mem_snoc h.clears (hprogram o), ?_⟩
    intro p hp
    obtain ⟨t, ht, hclears⟩ := h.owner p hp
    exact ⟨t, List.mem_append_left _ ht, hclears⟩
  | outside w => exact ⟨h.clears, fun p hp => h.owner p (hchange w _ hp)⟩
  | run i reply =>
    obtain ⟨shared, threads⟩ := pool
    simp only [Statements.step]
    split
    · rename_i c k g hi
      have hnext : AllowedNext allowed shared reply threads[i]? := hallowed
      rw [hi] at hnext
      exact h.ran hi hnext
    · exact h

theorem faultless_at_rest (hprogram : ∀ o, Clears exec allowed faults ∅ (program o))
    (hchange : ∀ w s, faults (change w s) ⊆ faults s) {s : σ} (hs : faults s = ∅) {events : List (PoolEvent O W)}
    (h : Run.Guarded (step exec program change) (Allowed allowed) ⟨s, []⟩ events)
    (hrest : (Run.finish (step exec program change) ⟨s, []⟩ events).AtRest) :
    faults (Run.finish (step exec program change) ⟨s, []⟩ events).shared = ∅ := by
  have hinit : Owned exec allowed faults (⟨s, []⟩ : Pool C Ans ε G σ) := by
    refine ⟨by simp, ?_⟩
    intro p hp
    simp [hs] at hp
  have howned := h.invariant (Owned exec allowed faults) (fun _ _ hpool hok => hpool.step hprogram hchange hok) hinit
  exact howned.faultless hrest

end

end Statements
