import BoxEngine.Lib.Run
import Mathlib.Data.Option.Basic

/-!
# Values shown before they are stored

A call shows its values in memory, stores them in one statement, and takes them back where that failed. `Sound` holds
while no two calls in progress share a key.
-/

namespace WriteBehind

variable {K V : Type*}

inductive Fate where
  | pending
  | stored
  | failed
  | answered
  deriving DecidableEq

structure Call (K V : Type*) where
  after : K → Option V
  restore : K → Option V
  fate : Fate

/-- `known` are the keys that memory has been told of, `verdict` the last value answered as stored. -/
@[ext] structure Mirror (K V : Type*) where
  memory : K → V
  store : K → V
  known : K → Prop
  verdict : K → Option V
  calls : List (Call K V)

def overlay (f : K → Option V) (g : K → V) (x : K) : V := (f x).getD (g x)

theorem overlay_some {f : K → Option V} {x : K} {v : V} (h : f x = some v) (g : K → V) : overlay f g x = v := by
  rw [overlay, h, Option.getD_some]

theorem overlay_none {f : K → Option V} {x : K} (h : f x = none) (g : K → V) : overlay f g x = g x := by
  rw [overlay, h, Option.getD_none]

namespace Mirror

variable {m : Mirror K V} {x : K} {i : ℕ} {c : Call K V}

/-- A call that is not answered writes the key. -/
def Busy (m : Mirror K V) (x : K) : Prop :=
  ∃ (i : ℕ) (c : Call K V), m.calls[i]? = some c ∧ c.fate ≠ .answered ∧ c.after x ≠ none

def begin_ (m : Mirror K V) (c : Call K V) : Mirror K V :=
  { m with memory := overlay c.after m.memory, calls := m.calls ++ [c] }

def withFate (m : Mirror K V) (i : ℕ) (c : Call K V) (fate : Fate) : Mirror K V :=
  { m with calls := m.calls.set i { c with fate } }

def write (m : Mirror K V) (i : ℕ) (c : Call K V) : Mirror K V :=
  { m.withFate i c .stored with store := overlay c.after m.store }

def confirm (m : Mirror K V) (i : ℕ) (c : Call K V) : Mirror K V :=
  { m.withFate i c .answered with
    known := fun x => c.after x ≠ none ∨ m.known x
    verdict := fun x => (c.after x).or (m.verdict x) }

def rollBack (m : Mirror K V) (i : ℕ) (c : Call K V) : Mirror K V :=
  { m.withFate i c .answered with memory := overlay c.restore m.memory }

/-! ## The invariant -/

structure Sound (m : Mirror K V) : Prop where
  apart : ∀ (i j : ℕ) (c c' : Call K V), m.calls[i]? = some c → m.calls[j]? = some c' → i ≠ j →
    c.fate ≠ .answered → c'.fate ≠ .answered → ∀ x, c.after x ≠ none → c'.after x = none
  shown : ∀ (i : ℕ) (c : Call K V), m.calls[i]? = some c → c.fate ≠ .answered →
    ∀ x v, c.after x = some v → m.memory x = v
  written : ∀ (i : ℕ) (c : Call K V), m.calls[i]? = some c → c.fate = .stored →
    ∀ x v, c.after x = some v → m.store x = v
  unwritten : ∀ (i : ℕ) (c : Call K V), m.calls[i]? = some c → c.fate ≠ .answered → c.fate ≠ .stored →
    ∀ x, c.after x ≠ none → m.known x → c.restore x = some (m.store x)
  settled : ∀ x, ¬m.Busy x → m.known x → m.memory x = m.store x
  verdicts : ∀ x v, m.verdict x = some v →
    (∀ (i : ℕ) (c : Call K V), m.calls[i]? = some c → c.fate = .stored → c.after x = none) → m.store x = v

theorem Sound.begin_ (h : m.Sound) (hpending : c.fate = .pending ∨ c.fate = .failed)
    (hfree : ∀ x, c.after x ≠ none → ¬m.Busy x)
    (hnoted : ∀ x, c.after x ≠ none → c.restore x = some (m.memory x)) : (m.begin_ c).Sound := by
  have hopen : c.fate ≠ .answered := by rcases hpending with h | h <;> simp [h]
  have hunstored : c.fate ≠ .stored := by rcases hpending with h | h <;> simp [h]
  -- the new call is apart from every open one: what it writes was not busy
  have hapart : ∀ (j : ℕ) (c' : Call K V), m.calls[j]? = some c' → c'.fate ≠ .answered →
      ∀ x, c'.after x ≠ none → c.after x = none := by
    intro j c' hj hopen' x hx
    by_contra hc
    exact hfree x hc ⟨j, c', hj, hopen', hx⟩
  have hidle : ∀ x, ¬(m.begin_ c).Busy x → ¬m.Busy x ∧ c.after x = none := by
    intro x hx
    constructor
    · rintro ⟨j, c', hj, hopen', hc'⟩
      have hlt : j < m.calls.length := (List.getElem?_eq_some_iff.mp hj).1
      exact hx ⟨j, c', by rw [Mirror.begin_, List.getElem?_append_left hlt, hj], hopen', hc'⟩
    · by_contra hc
      exact hx ⟨m.calls.length, c, by simp [Mirror.begin_], hopen, hc⟩
  constructor
  case apart =>
    intro i j c₁ c₂ hi hj hne hopen₁ hopen₂ x hx
    rcases Run.getElem?_snoc.mp hi with hi' | ⟨heqi, rfl⟩
    · rcases Run.getElem?_snoc.mp hj with hj' | ⟨-, rfl⟩
      · exact h.apart i j c₁ c₂ hi' hj' hne hopen₁ hopen₂ x hx
      · exact hapart i c₁ hi' hopen₁ x hx
    · rcases Run.getElem?_snoc.mp hj with hj' | ⟨heqj, -⟩
      · by_contra hc
        exact hfree x hx ⟨j, c₂, hj', hopen₂, hc⟩
      · exact absurd (heqi.trans heqj.symm) hne
  case shown =>
    intro i c' hi hopen' x v hv
    rcases Run.getElem?_snoc.mp hi with hi' | ⟨-, rfl⟩
    · have hother : c.after x = none := hapart i c' hi' hopen' x (by simp [hv])
      exact (overlay_none hother _).trans (h.shown i c' hi' hopen' x v hv)
    · exact overlay_some hv _
  case written =>
    intro i c' hi hfate
    rcases Run.getElem?_snoc.mp hi with hi' | ⟨-, rfl⟩
    · exact h.written i c' hi' hfate
    · exact absurd hfate hunstored
  case unwritten =>
    intro i c' hi hopen' hunstored' x hx hknown
    rcases Run.getElem?_snoc.mp hi with hi' | ⟨-, rfl⟩
    · exact h.unwritten i c' hi' hopen' hunstored' x hx hknown
    · rw [hnoted x hx, h.settled x (hfree x hx) hknown]
      rfl
  case settled =>
    intro x hx hknown
    obtain ⟨hbusy, hother⟩ := hidle x hx
    exact (overlay_none hother _).trans (h.settled x hbusy hknown)
  case verdicts =>
    intro x v hv hstored
    apply h.verdicts x v hv
    intro i c' hi hfate
    have hlt : i < m.calls.length := (List.getElem?_eq_some_iff.mp hi).1
    exact hstored i c' (by rw [Mirror.begin_, List.getElem?_append_left hlt, hi]) hfate

/-! ## Memory read anew -/

theorem Sound.forget (h : m.Sound) {known : K → Prop} (hless : ∀ x, known x → m.known x) : Sound { m with known } :=
  { h with
    unwritten := fun i c hi hopen hunstored x hx hknown => h.unwritten i c hi hopen hunstored x hx (hless x hknown)
    settled := fun x hidle hknown => h.settled x hidle (hless x hknown) }

theorem Sound.reload (h : m.Sound) (hidle : ∀ x, ¬m.Busy x) {memory : K → V} (hmemory : memory = m.store)
    (known : K → Prop) : Sound { m with memory, known } := by
  have hnone : ∀ (i : ℕ) (c : Call K V), m.calls[i]? = some c → c.fate ≠ .answered → ∀ x, c.after x = none := by
    intro i c hi hopen x
    by_contra hx
    exact hidle x ⟨i, c, hi, hopen, hx⟩
  exact
    { h with
      shown := fun i c hi hopen x v hv => absurd hv (by simp [hnone i c hi hopen x])
      unwritten := fun i c hi hopen _ x hx _ => absurd (hnone i c hi hopen x) hx
      settled := fun x _ _ => congrFun hmemory x }

/-! ## The fate of a call -/

section

variable (hi : m.calls[i]? = some c)
include hi

variable {fate : Fate} {j : ℕ}
variable {c' : Call K V}

theorem get_withFate (hj : (m.withFate i c fate).calls[j]? = some c') :
    (j = i ∧ c' = { c with fate }) ∨ (j ≠ i ∧ m.calls[j]? = some c') :=
  Run.getElem?_set_cases hi hj

theorem get_of_stored (hne : fate ≠ .stored) (hj : (m.withFate i c fate).calls[j]? = some c')
    (hstored : c'.fate = .stored) : m.calls[j]? = some c' := by
  rcases get_withFate hi hj with ⟨-, rfl⟩ | ⟨-, hj'⟩
  · exact absurd hstored hne
  · exact hj'

theorem get_withFate_self (fate : Fate) : (m.withFate i c fate).calls[i]? = some { c with fate } := by
  have hlt : i < m.calls.length := (List.getElem?_eq_some_iff.mp hi).1
  rw [withFate, List.getElem?_set_self hlt]

theorem busy_withFate (h : m.Busy x) (hx : fate ≠ .answered ∨ c.after x = none) : (m.withFate i c fate).Busy x := by
  obtain ⟨j, c', hj, hopen, hmem⟩ := h
  by_cases heq : j = i
  · subst heq
    rw [hi] at hj
    cases hj
    exact ⟨j, _, get_withFate_self hi fate, hx.resolve_right hmem, hmem⟩
  · refine ⟨j, c', ?_, hopen, hmem⟩
    rw [withFate, List.getElem?_set_ne (Ne.symm heq)]
    exact hj

theorem Sound.other (h : m.Sound) (hopen : c.fate ≠ .answered) (hne : j ≠ i)
    (hj : m.calls[j]? = some c') (hopen' : c'.fate ≠ .answered) (hx : c'.after x ≠ none) : c.after x = none :=
  h.apart j i c' c hj hi hne hopen' hopen x hx

theorem Sound.apart_withFate (h : m.Sound) (hopen : c.fate ≠ .answered) {j k : ℕ} {c₁ c₂ : Call K V}
    (hj : (m.withFate i c fate).calls[j]? = some c₁) (hk : (m.withFate i c fate).calls[k]? = some c₂) (hne : j ≠ k)
    (hopen₁ : c₁.fate ≠ .answered) (hopen₂ : c₂.fate ≠ .answered) (hx : c₁.after x ≠ none) : c₂.after x = none := by
  rcases get_withFate hi hj with ⟨rfl, rfl⟩ | ⟨hnej, hj'⟩
  · rcases get_withFate hi hk with ⟨rfl, -⟩ | ⟨-, hk'⟩
    · exact absurd rfl hne
    · exact h.apart j k c c₂ hi hk' hne hopen hopen₂ x hx
  · rcases get_withFate hi hk with ⟨rfl, rfl⟩ | ⟨-, hk'⟩
    · exact h.apart j k c₁ c hj' hi hnej hopen₁ hopen x hx
    · exact h.apart j k c₁ c₂ hj' hk' hne hopen₁ hopen₂ x hx

theorem stored_of_withFate (hx : c.fate = .stored → c.after x = none)
    (h : ∀ (j : ℕ) (c' : Call K V), (m.withFate i c fate).calls[j]? = some c' → c'.fate = .stored → c'.after x = none) :
    ∀ (j : ℕ) (c' : Call K V), m.calls[j]? = some c' → c'.fate = .stored → c'.after x = none := by
  intro j c' hj hfate
  by_cases heq : j = i
  · subst heq
    rw [hi] at hj
    cases hj
    exact hx hfate
  · apply h j c' _ hfate
    rw [withFate, List.getElem?_set_ne (Ne.symm heq)]
    exact hj

/-! ## The statement -/

theorem Sound.write (h : m.Sound) (hpending : c.fate = .pending) : (m.write i c).Sound := by
  have hopen : c.fate ≠ .answered := by simp [hpending]
  constructor
  case apart => exact fun j k c₁ c₂ hj hk hne ho₁ ho₂ x hx => h.apart_withFate hi hopen hj hk hne ho₁ ho₂ hx
  case shown =>
    intro j c' hj hopen'
    rcases get_withFate hi hj with ⟨-, rfl⟩ | ⟨-, hj'⟩
    · exact h.shown i c hi hopen
    · exact h.shown j c' hj' hopen'
  case written =>
    intro j c' hj hfate x v hv
    rcases get_withFate hi hj with ⟨-, rfl⟩ | ⟨hne, hj'⟩
    · exact overlay_some hv _
    · have hother : c.after x = none := h.other hi hopen hne hj' (by simp [hfate]) (by simp [hv])
      exact (overlay_none hother _).trans (h.written j c' hj' hfate x v hv)
  case unwritten =>
    intro j c' hj hopen' hunstored x hx hknown
    rcases get_withFate hi hj with ⟨-, rfl⟩ | ⟨hne, hj'⟩
    · exact absurd rfl hunstored
    · have hother : c.after x = none := h.other hi hopen hne hj' hopen' hx
      rw [h.unwritten j c' hj' hopen' hunstored x hx hknown]
      exact congrArg some (overlay_none hother _).symm
  case settled =>
    intro x hidle hknown
    have hidle' : ¬m.Busy x := fun hbusy => hidle (busy_withFate hi hbusy (.inl (by simp)))
    have hother : c.after x = none := by
      by_contra hx
      exact hidle' ⟨i, c, hi, hopen, hx⟩
    exact (h.settled x hidle' hknown).trans (overlay_none hother _).symm
  case verdicts =>
    intro x v hv hstored
    have hother : c.after x = none := hstored i { c with fate := .stored } (get_withFate_self hi _) rfl
    exact (overlay_none hother _).trans (h.verdicts x v hv (stored_of_withFate hi (fun _ => hother) hstored))

theorem Sound.fail (h : m.Sound) (hpending : c.fate = .pending) : (m.withFate i c .failed).Sound := by
  have hopen : c.fate ≠ .answered := by simp [hpending]
  constructor
  case apart => exact fun j k c₁ c₂ hj hk hne ho₁ ho₂ x hx => h.apart_withFate hi hopen hj hk hne ho₁ ho₂ hx
  case shown =>
    intro j c' hj hopen'
    rcases get_withFate hi hj with ⟨-, rfl⟩ | ⟨-, hj'⟩
    · exact h.shown i c hi hopen
    · exact h.shown j c' hj' hopen'
  case written =>
    exact fun j c' hj hfate => h.written j c' (get_of_stored hi (by simp) hj hfate) hfate
  case unwritten =>
    intro j c' hj hopen' hunstored
    rcases get_withFate hi hj with ⟨-, rfl⟩ | ⟨-, hj'⟩
    · exact h.unwritten i c hi hopen (by simp [hpending])
    · exact h.unwritten j c' hj' hopen' hunstored
  case settled => exact fun x hidle => h.settled x fun hbusy => hidle (busy_withFate hi hbusy (.inl (by simp)))
  case verdicts =>
    exact fun x v hv hstored => h.verdicts x v hv (stored_of_withFate hi (by simp [hpending]) hstored)

/-! ## The answer -/

theorem Sound.busy_answered (h : m.Sound) (hopen : c.fate ≠ .answered) :
    (m.withFate i c .answered).Busy x ↔ m.Busy x ∧ c.after x = none := by
  constructor
  · rintro ⟨j, c', hj, hopen', hx⟩
    rcases get_withFate hi hj with ⟨-, rfl⟩ | ⟨hne, hj'⟩
    · exact absurd rfl hopen'
    · exact ⟨⟨j, c', hj', hopen', hx⟩, h.other hi hopen hne hj' hopen' hx⟩
  · intro hbusy
    exact busy_withFate hi hbusy.1 (.inr hbusy.2)

theorem Sound.confirm (h : m.Sound) (hstored : c.fate = .stored) : (m.confirm i c).Sound := by
  have hopen : c.fate ≠ .answered := by simp [hstored]
  constructor
  case apart => exact fun j k c₁ c₂ hj hk hne ho₁ ho₂ x hx => h.apart_withFate hi hopen hj hk hne ho₁ ho₂ hx
  case shown =>
    intro j c' hj hopen'
    rcases get_withFate hi hj with ⟨-, rfl⟩ | ⟨-, hj'⟩
    · exact absurd rfl hopen'
    · exact h.shown j c' hj' hopen'
  case written =>
    exact fun j c' hj hfate => h.written j c' (get_of_stored hi (by simp) hj hfate) hfate
  case unwritten =>
    intro j c' hj hopen' hunstored x hx hknown
    rcases get_withFate hi hj with ⟨-, rfl⟩ | ⟨hne, hj'⟩
    · exact absurd rfl hopen'
    · exact h.unwritten j c' hj' hopen' hunstored x hx (hknown.resolve_left (absurd (h.other hi hopen hne hj' hopen' hx)))
  case settled =>
    intro x hidle hknown
    cases hx : c.after x with
    | some v => exact (h.shown i c hi hopen x v hx).trans (h.written i c hi hstored x v hx).symm
    | none =>
      apply h.settled x _ (hknown.resolve_left (absurd hx))
      exact fun hbusy => hidle ((h.busy_answered hi hopen).mpr ⟨hbusy, hx⟩)
  case verdicts =>
    intro x v hv hfree
    cases hx : c.after x with
    | some w =>
      have heq : w = v := by simpa [Mirror.confirm, hx] using hv
      rw [← heq]
      exact h.written i c hi hstored x w hx
    | none =>
      apply h.verdicts x v (by simpa [Mirror.confirm, hx] using hv)
      exact stored_of_withFate hi (fun _ => hx) hfree

theorem Sound.rollBack (h : m.Sound) (hfailed : c.fate = .failed)
    (hown : ∀ x, c.after x = none → overlay c.restore m.memory x = m.memory x) : (m.rollBack i c).Sound := by
  have hopen : c.fate ≠ .answered := by simp [hfailed]
  constructor
  case apart => exact fun j k c₁ c₂ hj hk hne ho₁ ho₂ x hx => h.apart_withFate hi hopen hj hk hne ho₁ ho₂ hx
  case shown =>
    intro j c' hj hopen' x v hv
    rcases get_withFate hi hj with ⟨-, rfl⟩ | ⟨hne, hj'⟩
    · exact absurd rfl hopen'
    · have hother : c.after x = none := h.other hi hopen hne hj' hopen' (by simp [hv])
      exact (hown x hother).trans (h.shown j c' hj' hopen' x v hv)
  case written =>
    exact fun j c' hj hfate => h.written j c' (get_of_stored hi (by simp) hj hfate) hfate
  case unwritten =>
    intro j c' hj hopen' hunstored
    rcases get_withFate hi hj with ⟨-, rfl⟩ | ⟨-, hj'⟩
    · exact absurd rfl hopen'
    · exact h.unwritten j c' hj' hopen' hunstored
  case settled =>
    intro x hidle hknown
    by_cases hx : c.after x = none
    · refine (hown x hx).trans (h.settled x ?_ hknown)
      exact fun hbusy => hidle ((h.busy_answered hi hopen).mpr ⟨hbusy, hx⟩)
    · exact overlay_some (h.unwritten i c hi hopen (by simp [hfailed]) x hx hknown) _
  case verdicts =>
    exact fun x v hv hstored => h.verdicts x v hv (stored_of_withFate hi (by simp [hfailed]) hstored)

end

end Mirror

end WriteBehind
