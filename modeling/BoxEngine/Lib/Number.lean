import Mathlib.Data.Rat.Floor

/-!
# Numbers

NaN, the two infinities, and the finite values, which are exact rationals here. Comparisons are the language's own:
false whenever either side is NaN.
-/

namespace Js

/-- A number of the language: NaN, the infinities, or a finite value. -/
inductive Number where
  | nan
  | negInf
  | fin (q : ℚ)
  | posInf
  deriving DecidableEq

namespace Number

instance : Inhabited Number := ⟨nan⟩

def isFinite : Number → Bool
  | fin _ => true
  | _ => false

def isInteger : Number → Bool
  | fin q => q.isInt
  | _ => false

/-- Zero for what is not finite. -/
def value : Number → ℚ
  | fin q => q
  | _ => 0

def ltB : Number → Number → Bool
  | fin a, fin b => decide (a < b)
  | fin _, posInf => true
  | negInf, fin _ => true
  | negInf, posInf => true
  | _, _ => false

def leB (a b : Number) : Bool :=
  match a, b with
  | fin a, fin b => decide (a ≤ b)
  | nan, _ => false
  | _, nan => false
  | negInf, _ => true
  | _, posInf => true
  | _, _ => false

instance : LT Number := ⟨fun a b => ltB a b = true⟩
instance : LE Number := ⟨fun a b => leB a b = true⟩
instance (a b : Number) : Decidable (a < b) := inferInstanceAs (Decidable (ltB a b = true))
instance (a b : Number) : Decidable (a ≤ b) := inferInstanceAs (Decidable (leB a b = true))

def sub : Number → Number → Number
  | fin a, fin b => fin (a - b)
  | nan, _ => nan
  | _, nan => nan
  | posInf, posInf => nan
  | negInf, negInf => nan
  | posInf, _ => posInf
  | _, negInf => posInf
  | negInf, _ => negInf
  | _, posInf => negInf

def neg : Number → Number
  | nan => nan
  | negInf => posInf
  | fin q => fin (-q)
  | posInf => negInf

def add (a b : Number) : Number := a.sub b.neg

def mul : Number → Number → Number
  | nan, _ => nan
  | _, nan => nan
  | fin a, fin b => fin (a * b)
  | fin a, b => if a = 0 then nan else if 0 < a then b else b.neg
  | a, fin b => if b = 0 then nan else if 0 < b then a else a.neg
  | posInf, b => b
  | negInf, b => b.neg

def div : Number → Number → Number
  | nan, _ => nan
  | _, nan => nan
  | fin a, fin b => if b = 0 then if a = 0 then nan else if 0 < a then posInf else negInf else fin (a / b)
  | fin _, _ => fin 0
  | a, fin b => if b < 0 then a.neg else a
  | _, _ => nan

def scaleTwo (a : Number) (k : ℕ) : Number :=
  match a with
  | fin q => fin (q * 2 ^ k)
  | a => a

def max : Number → Number → Number
  | nan, _ => nan
  | _, nan => nan
  | a, b => if a < b then b else a

def min : Number → Number → Number
  | nan, _ => nan
  | _, nan => nan
  | a, b => if b < a then b else a

/-! ## Comparisons -/

@[simp] theorem isFinite_fin (q : ℚ) : (fin q).isFinite = true := rfl

@[simp] theorem value_fin (q : ℚ) : (fin q).value = q := rfl

@[simp] theorem fin_lt_fin {a b : ℚ} : fin a < fin b ↔ a < b := by
  show ltB (fin a) (fin b) = true ↔ _
  simp [ltB]

@[simp] theorem fin_le_fin {a b : ℚ} : fin a ≤ fin b ↔ a ≤ b := by
  show leB (fin a) (fin b) = true ↔ _
  simp [leB]

variable {a b : Number}

theorem not_lt_of_le (h : b ≤ a) : ¬ a < b := by
  change leB b a = true at h
  change ¬ ltB a b = true
  cases a <;> cases b <;> simp_all [ltB, leB]

theorem le_of_not_lt (ha : a.isFinite = true) (hb : b.isFinite = true) (h : ¬ a < b) : b ≤ a := by
  cases a <;> cases b <;> simp_all [isFinite]

variable {c : Number}

theorem lt_or_le_fin (h : c < a) (q : ℚ) : fin q < a ∨ a ≤ fin q := by
  change ltB c a = true at h
  change ltB (fin q) a = true ∨ leB a (fin q) = true
  cases a <;> cases c <;> simp_all [ltB, leB, lt_or_ge]

theorem le_of_lt (h : a < b) : a ≤ b := by
  change ltB a b = true at h
  change leB a b = true
  cases a <;> cases b <;> simp_all [ltB, leB]
  exact h.le

theorem le_trans (hab : a ≤ b) (hbc : b ≤ c) : a ≤ c := by
  change leB a b = true at hab
  change leB b c = true at hbc
  change leB a c = true
  cases a <;> cases b <;> cases c <;> simp_all [leB]
  exact hab.trans hbc

theorem lt_irrefl (a : Number) : ¬ a < a := by
  change ¬ ltB a a = true
  cases a <;> simp [ltB]

theorem lt_trans (hab : a < b) (hbc : b < c) : a < c := by
  change ltB a b = true at hab
  change ltB b c = true at hbc
  change ltB a c = true
  cases a <;> cases b <;> cases c <;> simp_all [ltB]
  exact hab.trans hbc

theorem lt_of_lt_of_le (hab : a < b) (hbc : b ≤ c) : a < c := by
  change ltB a b = true at hab
  change leB b c = true at hbc
  change ltB a c = true
  cases a <;> cases b <;> cases c <;> simp_all [ltB, leB]
  exact hab.trans_le hbc

theorem lt_of_le_of_lt (hab : a ≤ b) (hbc : b < c) : a < c := by
  change leB a b = true at hab
  change ltB b c = true at hbc
  change ltB a c = true
  cases a <;> cases b <;> cases c <;> simp_all [ltB, leB]
  exact hab.trans_lt hbc

theorem ne_posInf_of_lt (h : a < b) : a ≠ posInf := by
  rintro rfl
  change ltB posInf b = true at h
  cases b <;> simp [ltB] at h

theorem not_lt_nan (a : Number) : ¬ a < nan := by
  change ¬ ltB a nan = true
  cases a <;> simp [ltB]

theorem not_nan_lt (a : Number) : ¬ nan < a := by
  change ¬ ltB nan a = true
  cases a <;> simp [ltB]

theorem min_cases (a b : Number) :
    (a.min b = nan ∧ (a = nan ∨ b = nan)) ∨ (a.min b = b ∧ b < a) ∨ (a.min b = a ∧ ¬ b < a) := by
  cases a with
  | nan => exact .inl ⟨rfl, .inl rfl⟩
  | _ =>
    cases b with
    | nan => exact .inl ⟨rfl, .inr rfl⟩
    | _ =>
      simp only [min]
      split
      · exact .inr (.inl ⟨rfl, ‹_›⟩)
      · exact .inr (.inr ⟨rfl, ‹_›⟩)

/-- The maximum is one of the two, or NaN where one is. -/
theorem max_cases (a b : Number) :
    (a.max b = nan ∧ (a = nan ∨ b = nan)) ∨ (a.max b = b ∧ a < b) ∨ (a.max b = a ∧ ¬ a < b) := by
  cases a with
  | nan => exact .inl ⟨rfl, .inl rfl⟩
  | _ =>
    cases b with
    | nan => exact .inl ⟨rfl, .inr rfl⟩
    | _ =>
      simp only [max]
      split
      · exact .inr (.inl ⟨rfl, ‹_›⟩)
      · exact .inr (.inr ⟨rfl, ‹_›⟩)

theorem eq_of_not_lt (ha : a ≠ nan) (hb : b ≠ nan) (hab : ¬ a < b) (hba : ¬ b < a) : a = b := by
  change ¬ ltB a b = true at hab
  change ¬ ltB b a = true at hba
  cases a <;> cases b <;> simp_all [ltB]
  exact le_antisymm hba hab

/-! ## Comparisons with NaN -/

theorem le_self_of_ne_nan (h : a ≠ nan) : a ≤ a := by
  change leB a a = true
  cases a <;> simp_all [leB]

theorem ne_nan_of_le (h : a ≤ b) : a ≠ nan ∧ b ≠ nan := by
  change leB a b = true at h
  cases a <;> cases b <;> simp_all [leB]

theorem le_of_not_lt_of_ne_nan (ha : a ≠ nan) (hb : b ≠ nan) (h : ¬ b < a) : a ≤ b := by
  by_cases hlt : a < b
  · exact le_of_lt hlt
  · obtain rfl := eq_of_not_lt ha hb hlt h
    exact le_self_of_ne_nan ha

theorem le_refl_of_fin_le {c : ℚ} (h : fin c ≤ a) : a ≤ a := by
  change leB (fin c) a = true at h
  change leB a a = true
  cases a <;> simp_all [leB]

/-- A number between two finite ones is finite. -/
theorem eq_fin_of_between {a : ℚ} {x b : Number} (hlow : fin a ≤ x) (hhigh : x ≤ b) (hb : b.isFinite = true) :
    x = fin x.value := by
  change leB (fin a) x = true at hlow
  change leB x b = true at hhigh
  cases x <;> cases b <;> simp_all [leB, isFinite, value]

theorem zero_add (a : Number) : (fin 0).add a = a := by
  cases a <;> simp [add, neg, sub]

theorem add_fin (a b : ℚ) : (fin a).add (fin b) = fin (a + b) := by
  simp [add, neg, sub]

theorem sub_fin (a b : ℚ) : (fin a).sub (fin b) = fin (a - b) := rfl

theorem mul_fin (a b : ℚ) : (fin a).mul (fin b) = fin (a * b) := rfl

theorem div_fin {a b : ℚ} (h : b ≠ 0) : (fin a).div (fin b) = fin (a / b) := if_neg h

theorem add_eq_fin {q : ℚ} (h : a.add b = fin q) : ∃ x y : ℚ, a = fin x ∧ b = fin y ∧ q = x + y := by
  cases a with
  | fin x =>
    cases b with
    | fin y =>
      simp only [add, neg, sub, fin.injEq, sub_neg_eq_add] at h
      exact ⟨x, y, rfl, rfl, h.symm⟩
    | _ => simp [add, neg, sub] at h
  | _ => cases b <;> simp [add, neg, sub] at h

theorem sub_eq_fin {q : ℚ} (h : a.sub b = fin q) : ∃ x y : ℚ, a = fin x ∧ b = fin y ∧ x = y + q := by
  cases a with
  | fin x =>
    cases b with
    | fin y =>
      simp only [sub, fin.injEq] at h
      exact ⟨x, y, rfl, rfl, by linarith⟩
    | _ => simp [sub] at h
  | _ => cases b <;> simp [sub] at h

def fracDigits (d : ℕ) : ℕ → ℕ → List Char
  | 0, _ => []
  | _ + 1, 0 => []
  | fuel + 1, r => Nat.digitChar (10 * r / d) :: fracDigits d fuel (10 * r % d)

def toText : Number → String
  | nan => "NaN"
  | negInf => "-Infinity"
  | posInf => "Infinity"
  | fin q =>
    let whole := toString (q.num.natAbs / q.den)
    let frac := fracDigits q.den 17 (q.num.natAbs % q.den)
    (if q.num < 0 then "-" else "") ++ whole ++
      (if frac.isEmpty then "" else "." ++ String.ofList frac)

end Number

end Js
