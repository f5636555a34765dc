import Mathlib.Data.List.Induction
import Mathlib.Data.List.Nodup

/-!
# Positions under keys

A map from keys to their positions in a list, kept as the list grows at its end or rebuilt from the list.
-/

namespace Positions

variable {κ : Type*} [DecidableEq κ]

def build (keys : List κ) : κ → Option ℕ :=
  keys.zipIdx.foldl (fun index entry => Function.update index entry.1 (some entry.2)) fun _ => none

omit [DecidableEq κ] in
/-- The index names the place of every key, and no other. -/
def Exact (keys : List κ) (index : κ → Option ℕ) : Prop := ∀ k i, index k = some i ↔ keys[i]? = some k

variable {keys : List κ} {index : κ → Option ℕ}

omit [DecidableEq κ] in
theorem Exact.nodup (h : Exact keys index) : keys.Nodup := by
  rw [List.nodup_iff_getElem?_ne_getElem?]
  intro i j hij hj heq
  obtain ⟨k, hk⟩ : ∃ k, keys[j]? = some k := ⟨_, List.getElem?_eq_getElem hj⟩
  have hi := (h k i).mpr (heq.trans hk)
  rw [(h k j).mpr hk] at hi
  exact absurd (Option.some.inj hi) (Nat.ne_of_gt hij)

omit [DecidableEq κ] in
theorem Exact.not_mem (h : Exact keys index) {k : κ} (hk : index k = none) : k ∉ keys := by
  intro hmem
  obtain ⟨i, hi⟩ := List.mem_iff_getElem?.mp hmem
  rw [(h k i).mpr hi] at hk
  cases hk

omit [DecidableEq κ] in
theorem exact_nil : Exact [] (fun _ : κ => none) := by
  intro k i
  simp

theorem Exact.snoc (h : Exact keys index) {k : κ} (hk : k ∉ keys) :
    Exact (keys ++ [k]) (Function.update index k (some keys.length)) := by
  intro k' i
  have hlt : keys[i]? = some k' → i < keys.length := fun h => (List.getElem?_eq_some_iff.mp h).1
  rw [Function.update_apply, List.getElem?_append]
  by_cases heq : k' = k
  · subst heq
    have hne : keys[i]? ≠ some k' := fun h => hk (List.mem_iff_getElem?.mpr ⟨i, h⟩)
    rw [if_pos rfl]
    by_cases hi : i < keys.length
    · rw [if_pos hi]
      exact ⟨fun h => absurd (Option.some.inj h) (Nat.ne_of_gt hi), fun h => absurd h hne⟩
    · rw [if_neg hi]
      simp only [Option.some.injEq, List.getElem?_eq_some_iff, List.length_cons, List.length_nil]
      constructor
      · rintro rfl
        simp
      · rintro ⟨hi', -⟩
        omega
  · rw [if_neg heq, h]
    by_cases hi : i < keys.length
    · rw [if_pos hi]
    · rw [if_neg hi]
      constructor
      · exact fun h => absurd (hlt h) hi
      · intro h
        rw [List.getElem?_singleton] at h
        split at h
        · exact absurd (Option.some.inj h).symm heq
        · cases h

theorem build_snoc (keys : List κ) (k : κ) :
    build (keys ++ [k]) = Function.update (build keys) k (some keys.length) := by
  simp [build, List.zipIdx_append, List.foldl_append]

/-- Rebuilding an index of distinct keys makes it exact. -/
theorem exact_build (h : keys.Nodup) : Exact keys (build keys) := by
  induction keys using List.reverseRecOn with
  | nil => exact exact_nil
  | append_singleton keys k ih =>
    rw [List.nodup_append] at h
    rw [build_snoc]
    exact (ih h.1).snoc fun hk => h.2.2 k hk k (List.mem_singleton_self k) rfl

omit [DecidableEq κ] in
theorem map_modify {α : Type*} {f : α → α} {f' : κ → κ} {g : α → κ} (h : ∀ a, g (f a) = f' (g a)) (l : List α) (i : ℕ) :
    (l.modify i f).map g = (l.map g).modify i f' := by
  apply List.ext_getElem?
  intro j
  rw [List.getElem?_map, List.getElem?_modify, List.getElem?_modify, List.getElem?_map]
  cases l[j]? with
  | none => rfl
  | some a => by_cases hij : i = j <;> simp [hij, h]

omit [DecidableEq κ] in
theorem map_modify_same {α : Type*} {f : α → α} {g : α → κ} (h : ∀ a, g (f a) = g a) (l : List α) (i : ℕ) :
    (l.modify i f).map g = l.map g := by
  exact (map_modify h l i).trans (List.modify_id i _)

end Positions
