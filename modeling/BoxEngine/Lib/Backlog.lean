import BoxEngine.Lib.Positions
import Mathlib.Data.Finset.Card

/-!
# Keyed backlogs

At most one place for each key: the first value opens it, later ones replace the value, the oldest is taken first and
lost first. The state is the history of what was enqueued.
-/

structure Backlog (κ α : Type*) where
  enqueued : List (κ × α)
  waiting : Finset κ
  opened : κ → ℕ

namespace Backlog

inductive Op (κ α : Type*) where
  | enqueue (key : κ) (value : α)
  | dequeue
  | drain

variable {κ α : Type*} [DecidableEq κ]

def empty : Backlog κ α := ⟨[], ∅, fun _ => 0⟩

def latest (b : Backlog κ α) (k : κ) : Option α :=
  (b.enqueued.reverse.find? fun entry => entry.1 = k).map Prod.snd

omit [DecidableEq κ] in
def Oldest (b : Backlog κ α) (k : κ) : Prop := k ∈ b.waiting ∧ ∀ k' ∈ b.waiting, b.opened k ≤ b.opened k'

omit [DecidableEq κ] in
def record (b : Backlog κ α) (k : κ) (v : α) : Backlog κ α := { b with enqueued := b.enqueued ++ [(k, v)] }

def place (b : Backlog κ α) (k : κ) (v : α) : Backlog κ α :=
  { b.record k v with waiting := insert k b.waiting, opened := Function.update b.opened k b.enqueued.length }

def leave (b : Backlog κ α) (k : κ) : Backlog κ α := { b with waiting := b.waiting.erase k }

inductive Step (capacity : ℕ) : Backlog κ α → Op κ α → Backlog κ α → List α → Prop
  | replace {b k v} : k ∈ b.waiting → Step capacity b (.enqueue k v) (b.record k v) []
  | place {b k v} : k ∉ b.waiting → b.waiting.card < capacity → Step capacity b (.enqueue k v) (b.place k v) []
  | displace {b k v old} : k ∉ b.waiting → capacity ≤ b.waiting.card → b.Oldest old →
      Step capacity b (.enqueue k v) ((b.leave old).place k v) []
  | idle {b} : b.waiting = ∅ → Step capacity b .dequeue b []
  | take {b k v} : b.Oldest k → b.latest k = some v → Step capacity b .dequeue (b.leave k) [v]
  | drain {b} {keys : List κ} {values : List α} : keys.Pairwise (fun k k' => b.opened k < b.opened k') →
      (∀ k, k ∈ keys ↔ k ∈ b.waiting) →
      keys.map b.latest = values.map some → Step capacity b .drain { b with waiting := ∅ } values

/-- A run with what each operation handed out, the last operation outermost. -/
inductive Run (capacity : ℕ) : List (Op κ α) → List (List α) → Backlog κ α → Prop
  | nil : Run capacity [] [] empty
  | snoc {ops outs b op b' out} : Run capacity ops outs b → Step capacity b op b' out →
      Run capacity (ops ++ [op]) (outs ++ [out]) b'

/-! ## Backlogs as lists -/

structure Holds (b : Backlog κ α) (slots : List (κ × α)) : Prop where
  waiting : ∀ k, k ∈ b.waiting ↔ k ∈ slots.map Prod.fst
  latest : ∀ slot ∈ slots, b.latest slot.1 = some slot.2
  sorted : (slots.map Prod.fst).Pairwise fun k k' => b.opened k < b.opened k'
  past : ∀ k ∈ b.waiting, b.opened k < b.enqueued.length

theorem latest_record (b : Backlog κ α) (k : κ) (v : α) (k' : κ) :
    (b.record k v).latest k' = if k = k' then some v else b.latest k' := by
  unfold latest record
  rw [List.reverse_append, List.reverse_singleton, List.singleton_append, List.find?_cons]
  by_cases h : k = k' <;> simp [h]

theorem latest_place (b : Backlog κ α) (k : κ) (v : α) (k' : κ) :
    (b.place k v).latest k' = if k = k' then some v else b.latest k' := latest_record b k v k'

theorem holds_empty : Holds (empty : Backlog κ α) [] := by
  constructor <;> simp [empty]

namespace Holds

variable {b : Backlog κ α} {slots : List (κ × α)} {k : κ} {v : α}

theorem nodup (h : b.Holds slots) : (slots.map Prod.fst).Nodup :=
  h.sorted.imp fun hlt heq => hlt.ne (congrArg b.opened heq)

theorem card (h : b.Holds slots) : b.waiting.card = slots.length := by
  have hfinset : b.waiting = (slots.map Prod.fst).toFinset := by
    ext k
    rw [h.waiting, List.mem_toFinset]
  rw [hfinset, List.toFinset_card_of_nodup h.nodup, List.length_map]

theorem oldest {slot : κ × α} {rest : List (κ × α)} (h : b.Holds (slot :: rest)) : b.Oldest slot.1 := by
  refine ⟨(h.waiting _).mpr (.head _), fun k' hk' => ?_⟩
  rcases List.mem_cons.mp ((h.waiting _).mp hk') with rfl | hrest
  · exact le_rfl
  · exact ((List.pairwise_cons.mp h.sorted).1 k' hrest).le

theorem leave {slot : κ × α} {rest : List (κ × α)} (h : b.Holds (slot :: rest)) : (b.leave slot.1).Holds rest := by
  have hnodup := h.nodup
  rw [List.map_cons, List.nodup_cons] at hnodup
  constructor
  · intro k
    simp only [Backlog.leave, Finset.mem_erase, h.waiting, List.map_cons, List.mem_cons]
    constructor
    · exact fun ⟨hne, hk⟩ => hk.resolve_left hne
    · exact fun hk => ⟨fun heq => hnodup.1 (heq ▸ hk), .inr hk⟩
  · exact fun slot' hslot' => h.latest slot' (.tail _ hslot')
  · exact (List.pairwise_cons.mp h.sorted).2
  · exact fun k hk => h.past k (Finset.mem_of_mem_erase hk)

theorem record (h : b.Holds slots) {i : ℕ} (hi : (slots.map Prod.fst)[i]? = some k) :
    (b.record k v).Holds (slots.modify i fun slot => (slot.1, v)) := by
  have hkeys : (slots.modify i fun slot => (slot.1, v)).map Prod.fst = slots.map Prod.fst :=
    Positions.map_modify_same (by simp) slots i
  constructor
  · intro k'
    rw [hkeys]
    exact h.waiting k'
  · intro slot hslot
    obtain ⟨j, hj⟩ := List.mem_iff_getElem?.mp hslot
    rw [List.getElem?_modify] at hj
    rw [latest_record]
    by_cases hij : i = j
    · subst hij
      rw [List.getElem?_map] at hi
      obtain ⟨slot', hslot', rfl⟩ := Option.map_eq_some_iff.mp hi
      simp only [hslot', if_true, Option.map_eq_map, Option.map_some, Option.some.injEq] at hj
      simp [← hj]
    · -- another place has another key
      simp only [if_neg hij, Option.map_eq_map, Option.map_id'] at hj
      have hother : k ≠ slot.1 := by
        rintro rfl
        have hj' : (slots.map Prod.fst)[j]? = some slot.1 := by rw [List.getElem?_map, hj]; rfl
        exact hij ((List.getElem?_inj (List.getElem?_eq_some_iff.mp hi).1 h.nodup).mp (hi.trans hj'.symm))
      rw [if_neg hother]
      exact h.latest slot (List.mem_iff_getElem?.mpr ⟨j, hj⟩)
  · rw [hkeys]
    exact h.sorted
  · intro k' hk'
    have := h.past k' hk'
    simp only [Backlog.record, List.length_append, List.length_singleton]
    omega

theorem place (h : b.Holds slots) (hk : k ∉ b.waiting) : (b.place k v).Holds (slots ++ [(k, v)]) := by
  have hne : ∀ k' ∈ b.waiting, k' ≠ k := fun k' hk' heq => hk (heq ▸ hk')
  have hopened : ∀ k' ∈ b.waiting, (b.place k v).opened k' = b.opened k' := fun k' hk' =>
    Function.update_of_ne (hne k' hk') _ _
  constructor
  · intro k'
    simp only [Backlog.place, Finset.mem_insert, List.map_append, List.mem_append, h.waiting, List.map_cons, List.map_nil,
      List.mem_singleton, or_comm]
  · intro slot hslot
    rw [latest_place]
    rcases List.mem_append.mp hslot with hslot | hslot
    · have hwaiting := (h.waiting slot.1).mpr (List.mem_map_of_mem hslot)
      rw [if_neg (hne _ hwaiting).symm, h.latest slot hslot]
    · rw [List.mem_singleton.mp hslot, if_pos rfl]
  · rw [List.map_append, List.pairwise_append]
    refine ⟨?_, by simp, ?_⟩
    · refine h.sorted.imp_of_mem fun ha hb hlt => ?_
      rwa [hopened _ ((h.waiting _).mpr ha), hopened _ ((h.waiting _).mpr hb)]
    · intro k' hk' k'' hk''
      have hwaiting := (h.waiting k').mpr hk'
      rw [List.map_singleton, List.mem_singleton] at hk''
      rw [hopened k' hwaiting, hk'']
      simpa [Backlog.place] using h.past k' hwaiting
  · intro k' hk'
    have hlength : (b.place k v).enqueued.length = b.enqueued.length + 1 := by simp [Backlog.place, Backlog.record]
    rw [hlength]
    rcases Finset.mem_insert.mp hk' with rfl | hk'
    · simp [Backlog.place]
    · rw [hopened k' hk']
      have := h.past k' hk'
      omega

theorem drain (h : b.Holds slots) (capacity : ℕ) :
    Step capacity b .drain { b with waiting := ∅ } (slots.map Prod.snd) := by
  refine .drain h.sorted (fun k => (h.waiting k).symm) ?_
  rw [List.map_map, List.map_map]
  exact List.map_congr_left h.latest

theorem nothing (b : Backlog κ α) : Holds { b with waiting := ∅ } [] := by
  constructor <;> simp

end Holds

end Backlog
