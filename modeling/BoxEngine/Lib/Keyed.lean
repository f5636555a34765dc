import Mathlib.Algebra.BigOperators.Group.List.Basic
import Mathlib.Data.List.Nodup

/-!
# Lists with distinct keys

A list read through a key function: the entries of one key, and what is left of them when every
entry is replaced by at most one other under the same key.
-/

namespace Keyed

variable {α β γ : Type*} [DecidableEq β] {f : α → β} {f' : γ → β} {g : α → Option γ} {l : List α}
variable {k : β}

theorem filter_of_not_mem (h : k ∉ l.map f) : l.filter (fun a => f a = k) = [] := by
  rw [List.filter_eq_nil_iff]
  intro a ha
  rw [decide_eq_true_eq]
  rintro rfl
  exact h (List.mem_map_of_mem ha)

variable {a : α}

theorem filter_of_mem (h : (l.map f).Nodup) (ha : a ∈ l) : l.filter (fun b => f b = f a) = [a] := by
  induction l with
  | nil => cases ha
  | cons b l ih =>
    rw [List.map_cons, List.nodup_cons] at h
    rcases List.mem_cons.mp ha with rfl | ha
    · rw [List.filter_cons_of_pos (by simp), filter_of_not_mem h.1]
    · have hne : ¬ f b = f a := fun heq => h.1 (heq ▸ List.mem_map_of_mem ha)
      rw [List.filter_cons_of_neg (by simpa using hne), ih h.2 ha]

theorem perm_filter_ne (h : (l.map f).Nodup) (ha : a ∈ l) : l.Perm (a :: l.filter fun b => f b ≠ f a) := by
  have hsplit := List.filter_append_perm (fun b => f b = f a) l
  rw [filter_of_mem h ha] at hsplit
  simpa using hsplit.symm

theorem find?_of_mem (h : (l.map f).Nodup) (ha : a ∈ l) : l.find? (fun b => f b = f a) = some a := by
  rw [← List.head?_filter, filter_of_mem h ha]
  rfl

omit [DecidableEq β] in
theorem sublist_filterMap (hg : ∀ a ∈ l, ∀ c, g a = some c → f' c = f a) :
    ((l.filterMap g).map f').Sublist (l.map f) := by
  induction l with
  | nil => simp
  | cons a l ih =>
    have hrest := ih fun b hb => hg b (.tail _ hb)
    cases ha : g a with
    | none =>
      rw [List.filterMap_cons_none ha]
      exact hrest.cons _
    | some c =>
      rw [List.filterMap_cons_some ha, List.map_cons, List.map_cons, hg a (.head _) c ha]
      exact hrest.cons_cons _

theorem find?_filterMap (hg : ∀ a ∈ l, ∀ c, g a = some c → f' c = f a) (k : β) :
    (l.filterMap g).find? (fun c => f' c = k) = ((l.filter fun a => f a = k).filterMap g).head? := by
  induction l with
  | nil => rfl
  | cons a l ih =>
    have hrest := ih fun b hb => hg b (.tail _ hb)
    have hcarry := hg a (.head _)
    by_cases hk : f a = k
    · rw [List.filter_cons_of_pos (by simpa using hk)]
      cases ha : g a with
      | none => rw [List.filterMap_cons_none ha, List.filterMap_cons_none ha, hrest]
      | some c =>
        rw [List.filterMap_cons_some ha, List.filterMap_cons_some ha, List.find?_cons_of_pos]
        · rfl
        · simp [hcarry c ha, hk]
    · rw [List.filter_cons_of_neg (by simpa using hk)]
      cases ha : g a with
      | none => rw [List.filterMap_cons_none ha, hrest]
      | some c =>
        rw [List.filterMap_cons_some ha, List.find?_cons_of_neg, hrest]
        simp [hcarry c ha, hk]

/-! ## Writing under a key -/

/-- Every entry under the key of `b` becomes `b`. -/
def replace (f : α → β) (l : List α) (b : α) : List α := l.map fun a => if f a = f b then b else a

theorem map_replace (l : List α) (b : α) : (replace f l b).map f = l.map f := by
  unfold replace
  rw [List.map_map]
  refine List.map_congr_left ?_
  intro a _
  rw [Function.comp_apply]
  by_cases h : f a = f b
  · rw [if_pos h, h]
  · rw [if_neg h]

variable {l : List α} {b : α}

theorem mem_replace (h : a ∈ replace f l b) : a = b ∨ (a ∈ l ∧ f a ≠ f b) := by
  obtain ⟨c, hc, rfl⟩ := List.mem_map.mp h
  split
  · exact .inl rfl
  · rename_i hne
    exact .inr ⟨hc, hne⟩

theorem mem_replace_self (h : a ∈ l) (hab : f a = f b) : b ∈ replace f l b :=
  List.mem_map.mpr ⟨a, h, if_pos hab⟩

theorem mem_replace_of_ne (h : a ∈ l) (hne : f a ≠ f b) : a ∈ replace f l b :=
  List.mem_map.mpr ⟨a, h, if_neg hne⟩

/-- Replaced where the key is, else added at the end. -/
def put (f : α → β) (l : List α) (b : α) : List α := if f b ∈ l.map f then replace f l b else l ++ [b]

theorem mem_put_ne (h : a ∈ put f l b) : a = b ∨ (a ∈ l ∧ f a ≠ f b) := by
  unfold put at h
  split at h
  · exact mem_replace h
  · rename_i hnew
    rcases List.mem_append.mp h with h | h
    · refine .inr ⟨h, ?_⟩
      intro hkey
      exact hnew (hkey ▸ List.mem_map_of_mem h)
    · exact .inl (List.mem_singleton.mp h)

theorem mem_put (h : a ∈ put f l b) : a = b ∨ a ∈ l := (mem_put_ne h).imp_right And.left

theorem mem_put_of_ne (h : a ∈ l) (hne : f a ≠ f b) : a ∈ put f l b := by
  unfold put
  split
  · exact mem_replace_of_ne h hne
  · exact List.mem_append_left _ h

theorem self_mem_put (l : List α) (b : α) : b ∈ put f l b := by
  unfold put
  split
  · rename_i hmem
    obtain ⟨a, ha, hab⟩ := List.mem_map.mp hmem
    exact mem_replace_self ha hab
  · exact List.mem_append_right _ (List.mem_singleton_self b)

theorem filter_replace (l : List α) (b : α) :
    (replace f l b).filter (fun a => f a ≠ f b) = l.filter fun a => f a ≠ f b := by
  unfold replace
  induction l with
  | nil => rfl
  | cons a l ih =>
    rw [List.map_cons]
    by_cases ha : f a = f b
    · rw [if_pos ha, List.filter_cons_of_neg (by simp), List.filter_cons_of_neg (by simpa using ha), ih]
    · rw [if_neg ha, List.filter_cons_of_pos (by simpa using ha), List.filter_cons_of_pos (by simpa using ha), ih]

theorem filter_put (l : List α) (b : α) :
    (put f l b).filter (fun a => f a ≠ f b) = l.filter fun a => f a ≠ f b := by
  unfold put
  split
  · exact filter_replace l b
  · simp

theorem find?_replace (l : List α) (b : α) (k : β) :
    (replace f l b).find? (fun a => f a = k) = if k = f b ∧ k ∈ l.map f then some b else l.find? fun a => f a = k := by
  induction l with
  | nil => simp [replace]
  | cons a l ih =>
    unfold replace at ih ⊢
    rw [List.map_cons]
    by_cases hkb : k = f b
    · subst hkb
      by_cases ha : f a = f b
      · rw [if_pos ha, List.find?_cons_of_pos (by simp), if_pos ⟨rfl, by simp [ha]⟩]
      · rw [if_neg ha, List.find?_cons_of_neg (by simpa using ha), ih, List.find?_cons_of_neg (by simpa using ha)]
        simp [Ne.symm ha]
    · have hnot : ∀ keys : List β, ¬ (k = f b ∧ k ∈ keys) := fun _ h => hkb h.1
      rw [if_neg (hnot _)] at ih ⊢
      by_cases ha : f a = f b
      · have hak : ¬ f a = k := fun h => hkb (h.symm.trans ha)
        rw [if_pos ha, List.find?_cons_of_neg (by simpa using Ne.symm hkb), ih, List.find?_cons_of_neg (by simpa using hak)]
      · rw [if_neg ha]
        by_cases hak : f a = k
        · rw [List.find?_cons_of_pos (by simpa using hak), List.find?_cons_of_pos (by simpa using hak)]
        · rw [List.find?_cons_of_neg (by simpa using hak), List.find?_cons_of_neg (by simpa using hak), ih]

theorem find?_put (l : List α) (b : α) (k : β) :
    (put f l b).find? (fun a => f a = k) = if k = f b then some b else l.find? fun a => f a = k := by
  unfold put
  split
  · rename_i hmem
    rw [find?_replace]
    by_cases hk : k = f b
    · rw [if_pos ⟨hk, hk ▸ hmem⟩, if_pos hk]
    · rw [if_neg fun h => hk h.1, if_neg hk]
  · rename_i hmem
    rw [List.find?_append]
    by_cases hk : k = f b
    · have hnone : l.find? (fun a => f a = k) = none := by
        rw [List.find?_eq_none]
        intro a ha
        rw [decide_eq_true_eq]
        rintro rfl
        exact hmem (hk ▸ List.mem_map_of_mem ha)
      rw [hnone, if_pos hk]
      simp [hk]
    · rw [if_neg hk]
      simp [Ne.symm hk]

theorem map_put_of_mem (h : f b ∈ l.map f) : (put f l b).map f = l.map f := by
  unfold put
  rw [if_pos h, map_replace]

theorem find?_erase (l : List α) (k' k : β) :
    (l.filter fun a => ¬ f a = k').find? (fun a => f a = k) = if k = k' then none else l.find? fun a => f a = k := by
  rw [List.find?_filter]
  split
  · rename_i hk
    subst hk
    simp
  · rename_i hk
    congr 1
    funext a
    by_cases ha : f a = k
    · simp [ha, hk]
    · simp [ha]

theorem mem_map_put : k ∈ (put f l b).map f ↔ k = f b ∨ k ∈ l.map f := by
  unfold put
  split
  · rename_i hmem
    rw [map_replace]
    constructor
    · exact .inr
    · rintro (rfl | hk)
      · exact hmem
      · exact hk
  · rw [List.map_append, List.mem_append, List.map_singleton, List.mem_singleton]
    exact or_comm

theorem mem_map_foldl_put {bs l : List α} : k ∈ (bs.foldl (put f) l).map f ↔ k ∈ bs.map f ∨ k ∈ l.map f := by
  induction bs generalizing l with
  | nil => simp
  | cons b bs ih =>
    rw [List.foldl_cons, ih, mem_map_put, List.map_cons, List.mem_cons]
    tauto

theorem nodup_put (h : (l.map f).Nodup) (b : α) : ((put f l b).map f).Nodup := by
  unfold put
  split
  · rw [map_replace]
    exact h
  · rename_i hmem
    rw [List.map_append, List.nodup_append]
    refine ⟨h, List.nodup_singleton _, ?_⟩
    rintro k hk k' hk' rfl
    rw [List.map_singleton, List.mem_singleton] at hk'
    exact hmem (hk' ▸ hk)

/-! ## Sums -/

section

variable {M : Type*} [AddCommMonoid M]

theorem sum_single (h : (l.map f).Nodup) {k : β} (hk : k ∈ l.map f) (x : M) :
    (l.map fun a => if k = f a then x else 0).sum = x := by
  induction l with
  | nil => cases hk
  | cons a l ih =>
    rw [List.map_cons, List.nodup_cons] at h
    rw [List.map_cons, List.sum_cons]
    by_cases hka : k = f a
    · have hrest : ∀ b ∈ l, (if k = f b then x else 0) = 0 := by
        intro b hb
        rw [if_neg]
        rintro rfl
        exact h.1 (hka ▸ List.mem_map_of_mem hb)
      rw [if_pos hka, List.map_congr_left hrest]
      simp
    · rw [if_neg hka, zero_add]
      refine ih h.2 ?_
      rcases List.mem_cons.mp hk with hk | hk
      · exact absurd hk hka
      · exact hk

/-- A sum over entries is a sum over the keys they may have. -/
theorem sum_by_key (h : (l.map f).Nodup) (w : γ → M) {bs : List γ} (hbs : ∀ b ∈ bs, f' b ∈ l.map f) :
    (bs.map w).sum = (l.map fun a => ((bs.filter fun b => f' b = f a).map w).sum).sum := by
  induction bs with
  | nil => simp
  | cons b bs ih =>
    have hsplit : ∀ a ∈ l, (((b :: bs).filter fun b => f' b = f a).map w).sum =
        (if f' b = f a then w b else 0) + ((bs.filter fun b => f' b = f a).map w).sum := by
      intro a _
      by_cases hb : f' b = f a
      · rw [List.filter_cons_of_pos (by simpa using hb), if_pos hb, List.map_cons, List.sum_cons]
      · rw [List.filter_cons_of_neg (by simpa using hb), if_neg hb, zero_add]
    rw [List.map_congr_left hsplit, List.sum_map_add, sum_single h (hbs b (.head _)), List.map_cons,
      List.sum_cons, ih fun c hc => hbs c (.tail _ hc)]

theorem sum_replace (h : (l.map f).Nodup) {a b : α} (ha : a ∈ l) (hb : f a = f b) (w : α → M) :
    ((replace f l b).map w).sum + w a = (l.map w).sum + w b := by
  induction l with
  | nil => cases ha
  | cons c l ih =>
    rw [List.map_cons, List.nodup_cons] at h
    unfold replace at ih ⊢
    rw [List.map_cons, List.map_cons, List.map_cons, List.sum_cons, List.sum_cons]
    rcases List.mem_cons.mp ha with rfl | ha
    · have hrest : ∀ d ∈ l, (if f d = f b then b else d) = d := by
        intro d hd
        rw [if_neg]
        intro hdb
        exact h.1 (List.mem_map.mpr ⟨d, hd, hdb.trans hb.symm⟩)
      rw [if_pos hb, List.map_congr_left hrest, List.map_id', add_right_comm, add_right_comm (w a), add_comm (w b)]
    · have hc : ¬ f c = f b := fun hcb => h.1 (List.mem_map.mpr ⟨a, ha, hb.trans hcb.symm⟩)
      rw [if_neg hc, add_assoc, ih h.2 ha, add_assoc]

end

/-- The first entry with the key, and the list without it. -/
def take? (f : α → β) (k : β) : List α → Option (α × List α)
  | [] => none
  | a :: l => if f a = k then some (a, l) else (take? f k l).map fun found => (found.1, a :: found.2)

theorem take?_perm {l rest : List α} (h : take? f k l = some (a, rest)) : l.Perm (a :: rest) := by
  induction l generalizing rest with
  | nil => cases h
  | cons b l ih =>
    rw [take?] at h
    split at h
    · cases h
      exact .refl _
    · obtain ⟨⟨c, rest'⟩, hfound, heq⟩ := Option.map_eq_some_iff.mp h
      cases heq
      exact ((ih hfound).cons b).trans (.swap ..)

theorem take?_key {l rest : List α} (h : take? f k l = some (a, rest)) : f a = k := by
  induction l generalizing rest with
  | nil => cases h
  | cons b l ih =>
    rw [take?] at h
    split at h
    · cases h
      assumption
    · obtain ⟨⟨c, rest'⟩, hfound, heq⟩ := Option.map_eq_some_iff.mp h
      cases heq
      exact ih hfound

end Keyed
