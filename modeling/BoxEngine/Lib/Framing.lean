import Mathlib.Data.List.Basic

/-!
# Self-delimiting regions

A walk goes from header to header by the declared lengths; the regions need not be as long as their headers.
-/

namespace Framing

variable {α : Type*} (size : List α → ℕ) (header : ℕ)

/-- Regions from the front, each as long as its header says, until none is left or one is cut off. -/
inductive Walk : List α → List (List α) → List α → Prop
  | done {rest} : rest.length < header → Walk rest [] rest
  | next {rest regions left} : header ≤ rest.length → 0 < size rest → size rest ≤ rest.length →
      Walk (rest.drop (size rest)) regions left → Walk rest (rest.take (size rest) :: regions) left

variable {size header} {input left left' : List α} {regions regions' : List (List α)}

theorem Walk.flatten (h : Walk size header input regions left) : input = regions.flatten ++ left := by
  induction h with
  | done => rfl
  | next _ _ _ _ ih => rw [List.flatten_cons, List.append_assoc, ← ih, List.take_append_drop]

/-- The regions of an input are determined by it. -/
theorem Walk.unique (h : Walk size header input regions left) (h' : Walk size header input regions' left') :
    regions = regions' ∧ left = left' := by
  induction h generalizing regions' left' with
  | done hshort =>
    cases h' with
    | done => exact ⟨rfl, rfl⟩
    | next hlong => exact absurd hshort (Nat.not_lt.mpr hlong)
  | next hlong _ _ _ ih =>
    cases h' with
    | done hshort => exact absurd hshort (Nat.not_lt.mpr hlong)
    | next _ _ _ hrest =>
      obtain ⟨rfl, rfl⟩ := ih hrest
      exact ⟨rfl, rfl⟩

theorem Walk.declares (hsize : ∀ (rest : List α) n, header ≤ n → size (rest.take n) = size rest)
    (h : Walk size header input regions left) : ∀ r ∈ regions, header ≤ r.length → size r = r.length := by
  induction h with
  | done => simp
  | next _ _ hle _ ih =>
    rintro r (_ | ⟨_, hr⟩) hlong
    · rw [List.length_take, Nat.min_eq_left hle] at hlong ⊢
      exact hsize _ _ hlong
    · exact ih r hr hlong

theorem walk_flatten (hheader : 0 < header) (hsize : ∀ (rest : List α) n, header ≤ n → size (rest.take n) = size rest)
    (hregions : ∀ r ∈ regions, header ≤ r.length ∧ size r = r.length) :
    Walk size header regions.flatten regions [] := by
  induction regions with
  | nil => exact .done hheader
  | cons r regions ih =>
    obtain ⟨hlong, hown⟩ := hregions r (.head _)
    have htake : (r ++ regions.flatten).take r.length = r := by simp
    have hsame : size (r ++ regions.flatten) = r.length := by
      rw [← hsize _ r.length hlong, htake, hown]
    have hrest := ih fun r' hr' => hregions r' (.tail _ hr')
    have hnext : Walk size header (r ++ regions.flatten)
        ((r ++ regions.flatten).take (size (r ++ regions.flatten)) :: regions) [] := by
      refine .next ?_ ?_ ?_ ?_
      · rw [List.length_append]
        omega
      · omega
      · rw [hsame, List.length_append]
        omega
      · rwa [hsame, List.drop_left]
    rwa [hsame, htake] at hnext

end Framing
