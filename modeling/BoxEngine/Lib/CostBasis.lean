import Mathlib.Algebra.BigOperators.Ring.List
import Mathlib.Algebra.Order.Field.Basic
import Mathlib.Data.Sign.Basic
import Mathlib.Tactic.FieldSimp
import Mathlib.Tactic.Linarith
import Mathlib.Tactic.Ring

/-!
# The cost basis of a position

The open side is a list of lots: a trade opens one, adds one, takes the same part of every lot, or crosses flat and
leaves a single lot.
-/

namespace CostBasis

variable {K : Type*}

structure Trade (K : Type*) where
  quantity : K
  price : K

def quantity [AddMonoid K] (lots : List (Trade K)) : K := (lots.map Trade.quantity).sum

def cost [NonUnitalNonAssocSemiring K] (lots : List (Trade K)) : K := (lots.map fun l => l.quantity * l.price).sum

section Open

variable [Field K] [LinearOrder K]

/-- A trade against a position scales its lots, and one across flat leaves its rest alone. -/
def open_ (lots : List (Trade K)) (t : Trade K) : List (Trade K) :=
  let held := quantity lots
  if held = 0 then [t]
  else if SignType.sign held = SignType.sign t.quantity then lots ++ [t]
  else if |t.quantity| < |held| then
    lots.map fun l => { l with quantity := l.quantity * ((held + t.quantity) / held) }
  else if |t.quantity| = |held| then []
  else [⟨held + t.quantity, t.price⟩]

def lots (trades : List (Trade K)) : List (Trade K) := trades.foldl open_ []

/-- The mean price of what is held. -/
def basis (trades : List (Trade K)) : K := cost (lots trades) / quantity (lots trades)

end Open

section Scale

variable [CommRing K] (l : List (Trade K)) (c : K)

theorem quantity_scale : quantity (l.map fun t => { t with quantity := t.quantity * c }) = quantity l * c := by
  rw [quantity, quantity, List.map_map, ← List.sum_map_mul_right]
  rfl

theorem cost_scale : cost (l.map fun t => { t with quantity := t.quantity * c }) = cost l * c := by
  rw [cost, cost, List.map_map, ← List.sum_map_mul_right]
  refine congrArg List.sum (List.map_congr_left fun t _ => ?_)
  simp only [Function.comp]
  ring

end Scale

variable [Field K] [LinearOrder K]

theorem add_eq_zero_of_opposed {held q : K} (h : |q| = |held|) (hsign : SignType.sign held ≠ SignType.sign q) :
    held + q = 0 := by
  rcases abs_eq_abs.mp h with rfl | rfl
  · exact absurd rfl hsign
  · ring

theorem open_cases (l : List (Trade K)) (t : Trade K) :
    (quantity l = 0 ∧ open_ l t = [t]) ∨
      (quantity l ≠ 0 ∧ SignType.sign (quantity l) = SignType.sign t.quantity ∧ open_ l t = l ++ [t]) ∨
      (quantity l ≠ 0 ∧ open_ l t =
        l.map fun lot => { lot with quantity := lot.quantity * ((quantity l + t.quantity) / quantity l) }) ∨
      (quantity l + t.quantity = 0 ∧ open_ l t = []) ∨
      open_ l t = [⟨quantity l + t.quantity, t.price⟩] := by
  rw [open_]
  by_cases hflat : quantity l = 0
  · exact .inl ⟨hflat, if_pos hflat⟩
  · simp only [if_neg hflat]
    by_cases hadds : SignType.sign (quantity l) = SignType.sign t.quantity
    · exact .inr (.inl ⟨hflat, hadds, if_pos hadds⟩)
    · rw [if_neg hadds]
      by_cases hreduces : |t.quantity| < |quantity l|
      · exact .inr (.inr (.inl ⟨hflat, if_pos hreduces⟩))
      · rw [if_neg hreduces]
        by_cases hcloses : |t.quantity| = |quantity l|
        · exact .inr (.inr (.inr (.inl ⟨add_eq_zero_of_opposed hcloses hadds, if_pos hcloses⟩)))
        · exact .inr (.inr (.inr (.inr (if_neg hcloses))))

theorem quantity_open (l : List (Trade K)) (t : Trade K) : quantity (open_ l t) = quantity l + t.quantity := by
  rcases open_cases l t with ⟨hflat, h⟩ | ⟨-, -, h⟩ | ⟨hne, h⟩ | ⟨hzero, h⟩ | h <;> rw [h]
  · rw [hflat]
    simp [quantity]
  · simp [quantity]
  · rw [quantity_scale]
    field_simp
  · rw [hzero]
    rfl
  · simp [quantity]

variable {l : List (Trade K)}

theorem cost_of_adds {t : Trade K} (hadds : quantity l = 0 ∨ SignType.sign (quantity l) = SignType.sign t.quantity)
    (hflat : quantity l = 0 → cost l = 0) : cost (open_ l t) = cost l + t.quantity * t.price := by
  by_cases hzero : quantity l = 0
  · rw [open_, if_pos hzero, hflat hzero]
    simp [cost]
  · rw [open_, if_neg hzero, if_pos (hadds.resolve_left hzero)]
    simp [cost]

/-- The lots hold what the trades add up to. -/
theorem quantity_lots (trades : List (Trade K)) : quantity (lots trades) = quantity trades := by
  have hfold : ∀ l : List (Trade K), quantity (trades.foldl open_ l) = quantity l + quantity trades := by
    induction trades with
    | nil => simp [quantity]
    | cons t rest ih =>
      intro l
      rw [List.foldl_cons, ih, quantity_open]
      simp only [quantity, List.map_cons, List.sum_cons]
      ring
  rw [lots, hfold]
  exact zero_add _

def OneSided (l : List (Trade K)) : Prop := (∀ lot ∈ l, 0 ≤ lot.quantity) ∨ ∀ lot ∈ l, lot.quantity ≤ 0

variable (t : Trade K)

theorem OneSided.singleton : OneSided [t] := by
  rcases le_total 0 t.quantity with h | h
  · exact .inl (by simpa using h)
  · exact .inr (by simpa using h)

variable [IsStrictOrderedRing K]

theorem OneSided.scale (h : OneSided l) (c : K) : OneSided (l.map fun t => { t with quantity := t.quantity * c }) := by
  rw [OneSided, List.forall_mem_map, List.forall_mem_map]
  rcases h with h | h <;> rcases le_total 0 c with hc | hc
  · exact .inl fun lot hlot => mul_nonneg (h lot hlot) hc
  · exact .inr fun lot hlot => mul_nonpos_of_nonneg_of_nonpos (h lot hlot) hc
  · exact .inr fun lot hlot => mul_nonpos_of_nonpos_of_nonneg (h lot hlot) hc
  · exact .inl fun lot hlot => mul_nonneg_of_nonpos_of_nonpos (h lot hlot) hc

theorem quantity_nonneg (h : ∀ lot ∈ l, 0 ≤ lot.quantity) : 0 ≤ quantity l :=
  List.sum_nonneg (List.forall_mem_map.mpr h)

theorem quantity_nonpos (h : ∀ lot ∈ l, lot.quantity ≤ 0) : quantity l ≤ 0 := by
  simpa [quantity] using List.sum_le_card_nsmul (l.map Trade.quantity) 0 (List.forall_mem_map.mpr h)

theorem OneSided.open_ (h : OneSided l) (t : Trade K) : OneSided (open_ l t) := by
  rcases open_cases l t with ⟨-, heq⟩ | ⟨hne, hsign, heq⟩ | ⟨-, heq⟩ | ⟨-, heq⟩ | heq <;> rw [heq]
  · exact .singleton t
  · simp only [OneSided, List.forall_mem_append, List.forall_mem_singleton]
    rcases h with h | h
    · have hpos := lt_of_le_of_ne (quantity_nonneg h) (Ne.symm hne)
      rw [sign_pos hpos, eq_comm, sign_eq_one_iff] at hsign
      exact .inl ⟨h, hsign.le⟩
    · have hneg := lt_of_le_of_ne (quantity_nonpos h) hne
      rw [sign_neg hneg, eq_comm, sign_eq_neg_one_iff] at hsign
      exact .inr ⟨h, hsign.le⟩
  · exact h.scale _
  · exact .inl (by simp)
  · exact .singleton _

theorem lots_oneSided (trades : List (Trade K)) : OneSided (lots trades) :=
  List.foldlRecOn trades CostBasis.open_ (.inl (by simp)) fun _ h t _ => h.open_ t

theorem mean_of_adds {held q : K} (hadds : held = 0 ∨ SignType.sign held = SignType.sign q) (a p : K) :
    (held + q) * ((|held| * a + |q| * p) / (|held| + |q|)) = held * a + q * p := by
  by_cases hflat : held = 0
  · by_cases hq : q = 0
    · simp [hflat, hq]
    · have habs : |q| ≠ 0 := abs_ne_zero.mpr hq
      simp only [hflat, abs_zero, zero_mul, zero_add]
      field_simp
  · have hsign := hadds.resolve_left hflat
    rcases lt_or_gt_of_ne hflat with hneg | hpos
    · rw [sign_neg hneg, eq_comm, sign_eq_neg_one_iff] at hsign
      have hne : -held + -q ≠ 0 := by linarith
      rw [abs_of_neg hneg, abs_of_neg hsign]
      field_simp
      ring
    · rw [sign_pos hpos, eq_comm, sign_eq_one_iff] at hsign
      have hne : held + q ≠ 0 := by linarith
      rw [abs_of_pos hpos, abs_of_pos hsign]
      field_simp

end CostBasis
