import Mathlib.Algebra.BigOperators.Group.List.Basic
import Mathlib.Algebra.Order.Group.Multiset

/-!
# Tickets drawn from a counter

Hands draw tickets from a counter and make grants on them later; a ticket may be passed on or lost, never copied.
Grants that clash carry rising tickets exactly when none was overtaken.
-/

namespace Tickets

inductive Entry (ρ : Type*)
  | drew (n : ℕ)
  | granted (r : ρ)

variable {ρ : Type*}

def grants : List (Entry ρ) → List ρ
  | [] => []
  | .drew _ :: log => grants log
  | .granted r :: log => r :: grants log

variable {r : ρ} {log : List (Entry ρ)}

@[simp] theorem mem_grants : r ∈ grants log ↔ .granted r ∈ log := by
  induction log with
  | nil => simp [grants]
  | cons e log ih => cases e <;> simp [grants, ih]

structure Office (ρ : Type*) where
  held : Multiset ℕ
  counter : ℕ
  log : List (Entry ρ)

section

variable (ticket : ρ → ℕ) (clash : ρ → ρ → Prop)

/-- What an office may do: nothing but drop tickets, draw the next one, or use a held one for a grant. -/
inductive Move : Office ρ → Office ρ → Prop
  | quiet {o : Office ρ} {held : Multiset ℕ} (h : held ≤ o.held) : Move o ⟨held, o.counter, o.log⟩
  | draw {o : Office ρ} {held : Multiset ℕ} (h : held ≤ (o.counter + 1) ::ₘ o.held) :
      Move o ⟨held, o.counter + 1, .drew (o.counter + 1) :: o.log⟩
  | grant {o : Office ρ} {held : Multiset ℕ} (r : ρ) (h : ticket r ::ₘ held ≤ o.held) :
      Move o ⟨held, o.counter, .granted r :: o.log⟩

/-- Draws rise, and a grant is made on a ticket drawn before it and granted to nobody else. -/
def Rising : List (Entry ρ) → Prop
  | [] => True
  | .drew n :: log => (∀ m, .drew m ∈ log → m < n) ∧ Rising log
  | .granted r :: log => .drew (ticket r) ∈ log ∧ (∀ g, .granted g ∈ log → ticket g ≠ ticket r) ∧ Rising log

structure Office.Sound (o : Office ρ) : Prop where
  nodup : o.held.Nodup
  drawn : ∀ n ∈ o.held, .drew n ∈ o.log
  unused : ∀ n ∈ o.held, ∀ g, .granted g ∈ o.log → ticket g ≠ n
  counted : ∀ n, .drew n ∈ o.log → n ≤ o.counter
  rising : Rising ticket o.log

def InOrder (log : List (Entry ρ)) : Prop :=
  (grants log).Pairwise fun later earlier => clash earlier later → ticket earlier < ticket later

def Overtaken (log : List (Entry ρ)) (r : ρ) : Prop :=
  ∃ since before, log = since ++ .drew (ticket r) :: before ∧
    ∃ g, .granted g ∈ since ∧ clash g r ∧ .drew (ticket g) ∈ since

end

variable {ticket : ρ → ℕ} {clash : ρ → ρ → Prop}

theorem Rising.drawn (h : Rising ticket log) {g : ρ} (hg : .granted g ∈ log) : .drew (ticket g) ∈ log := by
  induction log with
  | nil => simp at hg
  | cons e log ih =>
    cases e with
    | drew n => exact .tail _ (ih h.2 (by simpa using hg))
    | granted r =>
      rcases List.mem_cons.mp hg with heq | hg
      · cases heq; exact .tail _ h.1
      · exact .tail _ (ih h.2.2 hg)

theorem Rising.before {since before : List (Entry ρ)} (h : Rising ticket (since ++ before)) :
    Rising ticket before := by
  induction since with
  | nil => exact h
  | cons e since ih =>
    cases e with
    | drew n => exact ih h.2
    | granted r => exact ih h.2.2

theorem Rising.lt_since {since before : List (Entry ρ)} {n m : ℕ}
    (h : Rising ticket (since ++ .drew n :: before)) (hm : .drew m ∈ since) : n < m := by
  induction since with
  | nil => simp at hm
  | cons e since ih =>
    cases e with
    | drew k =>
      rcases List.mem_cons.mp hm with heq | hm
      · cases heq; exact h.1 n (by simp)
      · exact ih h.2 hm
    | granted r => exact ih h.2.2 (by simpa using hm)

theorem Rising.above_iff (h : Rising ticket log) (hdrawn : .drew (ticket r) ∈ log)
    (hunused : ∀ g, .granted g ∈ log → ticket g ≠ ticket r) :
    (∀ g, .granted g ∈ log → clash g r → ticket g < ticket r) ↔ ¬ Overtaken ticket clash log r := by
  constructor
  · rintro habove ⟨since, before, rfl, g, hg, hclash, hlate⟩
    have hlt := habove g (List.mem_append_left _ hg) hclash
    have hgt := h.lt_since hlate
    omega
  · intro hnot g hg hclash
    obtain ⟨since, before, rfl⟩ := List.append_of_mem hdrawn
    -- the ticket of `g` was drawn before that of `r`, unless `g` overtook `r`
    have hbefore : .drew (ticket g) ∈ before := by
      rcases List.mem_append.mp (h.drawn hg) with hlate | hearly
      · rcases List.mem_append.mp hg with hsince | hold
        · exact absurd ⟨since, before, rfl, g, hsince, hclash, hlate⟩ hnot
        · exact h.before.2.drawn (by simpa using hold)
      · rcases List.mem_cons.mp hearly with heq | hearly
        · exact absurd (Entry.drew.inj heq) (hunused g hg)
        · exact hearly
    exact h.before.1 _ hbefore

/-! ## The office -/

theorem Office.Sound.start : (⟨0, 0, []⟩ : Office ρ).Sound ticket :=
  ⟨Multiset.nodup_zero, by simp, by simp, by simp, trivial⟩

variable {o : Office ρ}

theorem Office.Sound.quiet (h : o.Sound ticket) {held : Multiset ℕ} (hle : held ≤ o.held) :
    Office.Sound ticket ⟨held, o.counter, o.log⟩ :=
  ⟨Multiset.nodup_of_le hle h.nodup, fun n hn => h.drawn n (Multiset.mem_of_le hle hn),
    fun n hn => h.unused n (Multiset.mem_of_le hle hn), h.counted, h.rising⟩

theorem Office.Sound.draw (h : o.Sound ticket) :
    Office.Sound ticket ⟨(o.counter + 1) ::ₘ o.held, o.counter + 1, .drew (o.counter + 1) :: o.log⟩ := by
  have hnew : ∀ n, .drew n ∈ o.log → n ≠ o.counter + 1 := by
    intro n hn
    have := h.counted n hn
    omega
  constructor
  · exact Multiset.nodup_cons.mpr ⟨fun hn => hnew _ (h.drawn _ hn) rfl, h.nodup⟩
  · intro n hn
    rcases Multiset.mem_cons.mp hn with rfl | hn
    · exact List.mem_cons_self
    · exact .tail _ (h.drawn n hn)
  · intro n hn g hg
    have hg : .granted g ∈ o.log := by simpa using hg
    rcases Multiset.mem_cons.mp hn with rfl | hn
    · exact hnew _ (h.rising.drawn hg)
    · exact h.unused n hn g hg
  · intro n hn
    rcases List.mem_cons.mp hn with heq | hn
    · cases heq; exact Nat.le_refl _
    · exact Nat.le_succ_of_le (h.counted n hn)
  · exact ⟨fun m hm => Nat.lt_succ_of_le (h.counted m hm), h.rising⟩

theorem Office.Sound.grant {o : Office ρ} (h : o.Sound ticket) {r : ρ} {held : Multiset ℕ}
    (hr : o.held = ticket r ::ₘ held) : Office.Sound ticket ⟨held, o.counter, .granted r :: o.log⟩ := by
  obtain ⟨hfresh, hnodup⟩ := Multiset.nodup_cons.mp (hr ▸ h.nodup)
  have hmem : ticket r ∈ o.held := hr ▸ Multiset.mem_cons_self _ _
  have hsub : ∀ n ∈ held, n ∈ o.held := fun n hn => hr ▸ Multiset.mem_cons_of_mem hn
  refine ⟨hnodup, fun n hn => .tail _ (h.drawn n (hsub n hn)), ?_, ?_, ?_⟩
  · intro n hn g hg
    rcases List.mem_cons.mp hg with heq | hg
    · cases heq; rintro rfl; exact hfresh hn
    · exact h.unused n (hsub n hn) g hg
  · intro n hn
    exact h.counted n (by simpa using hn)
  · exact ⟨h.drawn _ hmem, h.unused _ hmem, h.rising⟩

theorem Move.sound {o o' : Office ρ} (hmove : Move ticket o o') (h : o.Sound ticket) : o'.Sound ticket := by
  cases hmove with
  | quiet hle => exact h.quiet hle
  | draw hle => exact h.draw.quiet hle
  | @grant held r hle =>
    obtain ⟨rest, hrest⟩ := Multiset.le_iff_exists_add.mp hle
    have hcons : o.held = ticket r ::ₘ (held + rest) := by rw [hrest, Multiset.cons_add]
    exact (h.grant hcons).quiet (Multiset.le_add_right _ _)

theorem Office.Sound.inOrder_grant_iff (h : o.Sound ticket) (hr : ticket r ∈ o.held) :
    InOrder ticket clash (.granted r :: o.log) ↔ InOrder ticket clash o.log ∧ ¬ Overtaken ticket clash o.log r := by
  have habove : (∀ g, .granted g ∈ o.log → clash g r → ticket g < ticket r) ↔
      ¬ Overtaken ticket clash o.log r := h.rising.above_iff (h.drawn _ hr) (h.unused _ hr)
  simp only [InOrder, grants, List.pairwise_cons, mem_grants, habove]
  exact and_comm

theorem Move.frame {o o' : Office ρ} (h : Move ticket o o') (rest : Multiset ℕ) :
    Move ticket ⟨rest + o.held, o.counter, o.log⟩ ⟨rest + o'.held, o'.counter, o'.log⟩ := by
  cases h with
  | quiet hle => exact .quiet (Multiset.add_le_add_left hle)
  | draw hle =>
    refine .draw ?_
    rw [← Multiset.add_cons]
    exact Multiset.add_le_add_left hle
  | grant r hle =>
    refine .grant r ?_
    rw [← Multiset.add_cons]
    exact Multiset.add_le_add_left hle

variable {α : Type*} (hand : α → Multiset ℕ)

def heldBy (l : List α) : Multiset ℕ := (l.map hand).sum

theorem heldBy_append (l l' : List α) : heldBy hand (l ++ l') = heldBy hand l + heldBy hand l' := by
  simp [heldBy]

@[simp] theorem heldBy_singleton (x : α) : heldBy hand [x] = hand x := by simp [heldBy]

theorem heldBy_set {l : List α} {i : ℕ} {x : α} (hx : l[i]? = some x) :
    ∃ rest, heldBy hand l = rest + hand x ∧ ∀ y, heldBy hand (l.set i y) = rest + hand y := by
  induction l generalizing i with
  | nil => simp at hx
  | cons z l ih =>
    cases i with
    | zero =>
      obtain rfl : z = x := by simpa using hx
      refine ⟨heldBy hand l, ?_, fun y => ?_⟩ <;> simp [heldBy, add_comm]
    | succ i =>
      obtain ⟨rest, hrest, hset⟩ := ih (by simpa using hx)
      refine ⟨hand z + rest, ?_, fun y => ?_⟩
      · rw [add_assoc, ← hrest]; rfl
      · rw [add_assoc, ← hset]; rfl

end Tickets
