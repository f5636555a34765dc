import Mathlib.Data.List.Basic

/-!
# Length-prefixed records

Records behind a header that declares their length, as many as announced and none shorter than a least length; the run
ends at the first cut off or too short.
-/

namespace Records

variable {α : Type*} (width : ℕ) (size : List α → ℕ) (least : ℕ)

/-- The input begins with these records, of which at most `count` were announced. -/
inductive Leads : ℕ → List α → List (List α) → Prop
  | nil {count input} : Leads count input []
  | cons {count header record rest records} : header.length = width →
      size (header ++ (record ++ rest)) = record.length → least ≤ record.length → Leads count rest records →
      Leads (count + 1) (header ++ (record ++ rest)) (record :: records)

/-- The longest such run. -/
def leading : ℕ → List α → List (List α)
  | 0, _ => []
  | count + 1, input =>
    if input.length < width ∨ input.length < width + size input ∨ size input < least then []
    else (input.drop width).take (size input) :: leading count (input.drop (width + size input))

variable {width size least} {count : ℕ} {input : List α} {records : List (List α)}

theorem split_input (input : List α) (n : ℕ) :
    input = input.take width ++ ((input.drop width).take n ++ input.drop (width + n)) := by
  rw [← List.drop_drop, List.take_append_drop, List.take_append_drop]

theorem leading_stop (h : input.length < width ∨ input.length < width + size input ∨ size input < least) :
    leading width size least (count + 1) input = [] := if_pos h

theorem leading_next {header record rest : List α} (hheader : header.length = width)
    (hsize : size (header ++ (record ++ rest)) = record.length) (hleast : least ≤ record.length) :
    leading width size least (count + 1) (header ++ (record ++ rest)) = record :: leading width size least count rest := by
  have hlength : (header ++ (record ++ rest)).length = width + (record.length + rest.length) := by
    rw [List.length_append, List.length_append, hheader]
  have hafter : (header ++ (record ++ rest)).drop (width + record.length) = rest := by
    rw [← hheader, ← List.length_append, ← List.append_assoc, List.drop_left]
  have hbody : (header ++ (record ++ rest)).drop width = record ++ rest := by rw [← hheader, List.drop_left]
  rw [leading, if_neg (by omega), hsize, hafter, hbody, List.take_left]

theorem leads_leading (count : ℕ) (input : List α) :
    Leads width size least count input (leading width size least count input) := by
  induction count generalizing input with
  | zero => exact .nil
  | succ count ih =>
    by_cases hstop : input.length < width ∨ input.length < width + size input ∨ size input < least
    · rw [leading_stop hstop]
      exact .nil
    · have hrecord : ((input.drop width).take (size input)).length = size input := by
        rw [List.length_take, List.length_drop]
        omega
      have hhead : (input.take width).length = width := by
        rw [List.length_take]
        omega
      have hsize : size (input.take width ++ ((input.drop width).take (size input) ++ input.drop (width + size input))) =
          ((input.drop width).take (size input)).length := by rw [← split_input, hrecord]
      have hleast : least ≤ ((input.drop width).take (size input)).length := by omega
      have hlead := Leads.cons hhead hsize hleast (ih (input.drop (width + size input)))
      rw [← split_input] at hlead
      unfold leading
      rwa [if_neg hstop]

/-- Every run that an input begins with is a prefix of the longest. -/
theorem Leads.isPrefix (h : Leads width size least count input records) :
    records <+: leading width size least count input := by
  induction h with
  | nil => exact List.nil_prefix
  | cons hheader hsize hleast _ ih =>
    rw [leading_next hheader hsize hleast]
    exact List.cons_prefix_cons.mpr ⟨rfl, ih⟩

theorem Leads.least_le (h : Leads width size least count input records) : ∀ record ∈ records, least ≤ record.length := by
  induction h with
  | nil => simp
  | cons _ _ hleast _ ih =>
    intro record hrecord
    rcases List.mem_cons.mp hrecord with rfl | hrecord
    · exact hleast
    · exact ih record hrecord

theorem length_leading (count : ℕ) (input : List α) : (leading width size least count input).length ≤ count := by
  induction count generalizing input with
  | zero => simp [leading]
  | succ count ih =>
    unfold leading
    by_cases hstop : input.length < width ∨ input.length < width + size input ∨ size input < least
    · simp [hstop]
    · rw [if_neg hstop, List.length_cons]
      exact Nat.succ_le_succ (ih _)

theorem Leads.eq_leading (h : Leads width size least records.length input records) :
    leading width size least records.length input = records :=
  (h.isPrefix.eq_of_length_le (length_leading _ _)).symm

/-! ## Encoding -/

section
variable (header : ℕ → List α)

def encode (record : List α) : List α := header record.length ++ record

def encodeAll (records : List (List α)) : List α := records.flatMap (encode header)

variable (width) in
def whole : ℕ → List (List α) → List (List α)
  | _, [] => []
  | room, record :: records =>
    if width + record.length ≤ room then record :: whole (room - (width + record.length)) records else []

variable {header} (hwidth : ∀ n, (header n).length = width)
  (hsize : ∀ record : List α, record ∈ records → ∀ rest, size (header record.length ++ rest) = record.length)
  (hleast : ∀ record ∈ records, least ≤ record.length)
include hwidth hsize hleast

theorem leads_encodeAll (rest : List α) :
    Leads width size least records.length (encodeAll header records ++ rest) records := by
  induction records with
  | nil => exact .nil
  | cons record records ih =>
    have hrest := ih (fun r hr => hsize r (.tail _ hr)) (fun r hr => hleast r (.tail _ hr))
    have hencode : encodeAll header (record :: records) ++ rest =
        header record.length ++ (record ++ (encodeAll header records ++ rest)) := by simp [encodeAll, encode]
    rw [hencode]
    exact .cons (hwidth _) (hsize record (.head _) _) (hleast record (.head _)) hrest

/-- A cut keeps the records that are whole before it. -/
theorem leading_take (room : ℕ) :
    leading width size least records.length ((encodeAll header records).take room) =
      whole width room records := by
  induction records generalizing room with
  | nil => rfl
  | cons record records ih =>
    have hrest := ih (fun r hr => hsize r (.tail _ hr)) (fun r hr => hleast r (.tail _ hr))
    have hencode : encodeAll header (record :: records) = header record.length ++ (record ++ encodeAll header records) := by
      simp [encodeAll, encode]
    have hhead := hwidth record.length
    rw [hencode, List.length_cons]
    unfold whole
    by_cases hroom : width + record.length ≤ room
    · have htake : (header record.length ++ (record ++ encodeAll header records)).take room =
          header record.length ++ (record ++ (encodeAll header records).take (room - (width + record.length))) := by
        rw [List.take_append, List.take_of_length_le (by omega), List.take_append, List.take_of_length_le (by omega), hhead,
          Nat.sub_sub]
      rw [if_pos hroom, htake, leading_next hhead (hsize record (.head _) _)
        (hleast record (.head _)), hrest]
    · rw [if_neg hroom]
      refine leading_stop ?_
      by_cases hshort : room < width
      · left
        rw [List.length_take]
        omega
      · right; left
        have htake : (header record.length ++ (record ++ encodeAll header records)).take room =
            header record.length ++ (record ++ encodeAll header records).take (room - width) := by
          rw [List.take_append, List.take_of_length_le (by omega), hhead]
        rw [htake, hsize record (.head _), List.length_append, List.length_take]
        omega

end

end Records
