import Mathlib.Algebra.Order.Field.Power
import Mathlib.Data.Int.Log
import Mathlib.Data.Rat.Floor
import Mathlib.Tactic.Linarith

/-!
# Rounding to a double

The double nearest to a rational, of two the even one, below the overflow threshold: a whole number of last places,
where the place is set by the rational's magnitude. Rounding keeps the order of rationals that are not negative.
-/

namespace Binary64

variable {x y : ℚ}

/-- The nearest integer, of two the even one. -/
def nearest (x : ℚ) : ℤ :=
  if x - ⌊x⌋ < 1 / 2 then ⌊x⌋
  else if 1 / 2 < x - ⌊x⌋ then ⌊x⌋ + 1
  else if ⌊x⌋ % 2 = 0 then ⌊x⌋ else ⌊x⌋ + 1

/-- The exponent of the last of the 53 binary places, no lower than a subnormal's. -/
def place (x : ℚ) : ℤ := max (Int.log 2 |x| - 52) (-1074)

def rounded (x : ℚ) : ℚ := nearest (x / 2 ^ place x) * 2 ^ place x

/-! ## The nearest integer -/

theorem floor_le_nearest (x : ℚ) : ⌊x⌋ ≤ nearest x := by
  unfold nearest
  split_ifs <;> omega

theorem nearest_le_floor (x : ℚ) : nearest x ≤ ⌊x⌋ + 1 := by
  unfold nearest
  split_ifs <;> omega

theorem nearest_mono (h : x ≤ y) : nearest x ≤ nearest y := by
  rcases (Int.floor_mono h).lt_or_eq with hlt | heq
  · exact (nearest_le_floor x).trans ((Int.add_one_le_of_lt hlt).trans (floor_le_nearest y))
  · unfold nearest
    rw [heq]
    split_ifs <;> first | omega | linarith

@[simp] theorem nearest_intCast (n : ℤ) : nearest n = n := by simp [nearest]

/-! ## Whole numbers of last places -/

theorem two_zpow_pos (n : ℤ) : (0 : ℚ) < 2 ^ n := zpow_pos two_pos n

theorem two_zpow_add (e : ℤ) (n : ℕ) : (2 : ℚ) ^ (e + n) = ((2 ^ n : ℤ) : ℚ) * 2 ^ e := by
  rw [zpow_add₀ two_ne_zero, mul_comm]
  simp

theorem rounded_le_of_le {n : ℤ} (h : x ≤ n * 2 ^ place x) : rounded x ≤ n * 2 ^ place x := by
  have hnearest := nearest_mono ((div_le_iff₀ (two_zpow_pos (place x))).mpr h)
  rw [nearest_intCast] at hnearest
  exact mul_le_mul_of_nonneg_right (by exact_mod_cast hnearest) (two_zpow_pos _).le

theorem le_rounded_of_le {n : ℤ} (h : n * 2 ^ place x ≤ x) : n * 2 ^ place x ≤ rounded x := by
  have hnearest := nearest_mono ((le_div_iff₀ (two_zpow_pos (place x))).mpr h)
  rw [nearest_intCast] at hnearest
  exact mul_le_mul_of_nonneg_right (by exact_mod_cast hnearest) (two_zpow_pos _).le

theorem rounded_nonneg (h : 0 ≤ x) : 0 ≤ rounded x := by
  have hround : ((0 : ℤ) : ℚ) * 2 ^ place x ≤ rounded x := le_rounded_of_le (by simpa using h)
  simpa using hround

/-! ## Order -/

theorem place_mono (hx : 0 < x) (h : x ≤ y) : place x ≤ place y := by
  unfold place
  rw [abs_of_pos hx, abs_of_pos (hx.trans_le h)]
  have := Int.log_mono_right (b := 2) hx h
  omega

/-- A rational has at most 53 places over its last one. -/
theorem rounded_le (hx : 0 < x) : rounded x ≤ 2 ^ (place x + 53) := by
  have hplace : Int.log 2 x + 1 ≤ place x + 53 := by
    unfold place
    rw [abs_of_pos hx]
    omega
  have hsplit : (2 : ℚ) ^ (place x + 53) = ((2 ^ 53 : ℤ) : ℚ) * 2 ^ place x := two_zpow_add (place x) 53
  rw [hsplit]
  apply rounded_le_of_le
  rw [← hsplit]
  calc x ≤ 2 ^ (Int.log 2 x + 1) := (Int.lt_zpow_succ_log_self one_lt_two x).le
    _ ≤ 2 ^ (place x + 53) := zpow_le_zpow_right₀ one_le_two hplace

theorem le_rounded (hx : 0 < x) (h : -1074 < place x) : 2 ^ (place x + 52) ≤ rounded x := by
  have hplace : place x + 52 = Int.log 2 x := by
    unfold place at h ⊢
    rw [abs_of_pos hx] at h ⊢
    omega
  have hsplit : (2 : ℚ) ^ (place x + 52) = ((2 ^ 52 : ℤ) : ℚ) * 2 ^ place x := two_zpow_add (place x) 52
  rw [hsplit]
  apply le_rounded_of_le
  rw [← hsplit, hplace]
  exact Int.zpow_log_le_self one_lt_two hx

theorem rounded_mono (hx : 0 ≤ x) (h : x ≤ y) : rounded x ≤ rounded y := by
  rcases hx.eq_or_lt with rfl | hpos
  · have hzero : rounded 0 = 0 := by decide +kernel
    rw [hzero]
    exact rounded_nonneg h
  · rcases (place_mono hpos h).lt_or_eq with hlt | heq
    · -- A coarser place: the two roundings lie on either side of a power of two.
      have hplace : -1074 < place y := (le_max_right _ _).trans_lt hlt
      calc rounded x ≤ 2 ^ (place x + 53) := rounded_le hpos
        _ ≤ 2 ^ (place y + 52) := zpow_le_zpow_right₀ one_le_two (by omega)
        _ ≤ rounded y := le_rounded (hpos.trans_le h) hplace
    · have hnearest := nearest_mono (div_le_div_of_nonneg_right h (two_zpow_pos (place y)).le)
      unfold rounded
      rw [heq]
      exact mul_le_mul_of_nonneg_right (by exact_mod_cast hnearest) (two_zpow_pos _).le

end Binary64
