import BoxEngine.Order

/-!
# Exposure-aware exit dependencies

In each of two verticals the long leg hedges the short one. A hedge is released only for the quantity proven no longer
needed, never by a label.
-/

namespace BoxEngine

open Js

inductive BoxDirection where
  | longBox | shortBox
  deriving DecidableEq

def BoxLegRole.label : BoxLegRole → String
  | .k1Ce => "k1_ce"
  | .k2Ce => "k2_ce"
  | .k2Pe => "k2_pe"
  | .k1Pe => "k1_pe"

def boxLegRoles : List BoxLegRole := [.k1Ce, .k2Ce, .k2Pe, .k1Pe]

variable (role : BoxLegRole)

theorem BoxLegRole.mem_boxLegRoles : role ∈ boxLegRoles := by
  cases role <;> simp [boxLegRoles]

theorem boxLegRoles_nodup : boxLegRoles.Nodup := by decide

def boxEntrySidesByDirection : BoxDirection → BoxLegRole → OrderSide
  | .longBox, .k1Ce => .buy
  | .longBox, .k2Ce => .sell
  | .longBox, .k2Pe => .buy
  | .longBox, .k1Pe => .sell
  | .shortBox, .k1Ce => .sell
  | .shortBox, .k2Ce => .buy
  | .shortBox, .k2Pe => .sell
  | .shortBox, .k1Pe => .buy

def entrySideFor (role : BoxLegRole) (direction : BoxDirection) : OrderSide :=
  boxEntrySidesByDirection direction role

def exitSideFor (role : BoxLegRole) (direction : BoxDirection) : OrderSide :=
  if entrySideFor role direction = .buy then .sell else .buy

def verticalPartner : BoxLegRole → BoxLegRole
  | .k1Ce => .k2Ce
  | .k2Ce => .k1Ce
  | .k2Pe => .k1Pe
  | .k1Pe => .k2Pe

variable (direction : BoxDirection)

theorem partner_side (role : BoxLegRole) : boxEntrySidesByDirection direction (verticalPartner role) = .sell ↔
      boxEntrySidesByDirection direction role = .buy := by
  cases direction <;> cases role <;> decide

/-! ## The plan -/

inductive ExitLegKind where
  | closeShort | releaseHedge | closeUnpairedLong
  deriving DecidableEq

structure ExitDependencySlot where
  role : BoxLegRole
  side : OrderSide
  kind : ExitLegKind
  outstanding : ℚ
  wave : Fin 2
  covers : Option BoxLegRole

structure ExitDependencyPlan where
  direction : BoxDirection
  wave0 : List ExitDependencySlot
  wave1 : List ExitDependencySlot
  slots : List ExitDependencySlot

variable (outstanding : BoxLegRole → Option Number)

/-- A role's usable outstanding quantity: absent, non-finite and non-positive readings count as 0. -/
def planQty (role : BoxLegRole) : ℚ :=
  match outstanding role with
  | some (.fin q) => if 0 < q then q else 0
  | _ => 0

def exitSlot (outstanding : BoxLegRole → Option Number) (role : BoxLegRole) : Option ExitDependencySlot :=
  let sides := boxEntrySidesByDirection direction
  let own := planQty outstanding role
  let side := if sides role = .buy then .sell else .buy
  if own = 0 then none
  else if sides role = .sell then
    some { role, side, kind := .closeShort, outstanding := own, wave := 0, covers := none }
  else
    -- a long is a hedge only while a short still stands beside it
    let partner := verticalPartner role
    let partnerOutstanding := if sides partner = .sell then planQty outstanding partner else 0
    if 0 < partnerOutstanding then
      some { role, side, kind := .releaseHedge, outstanding := own, wave := 1, covers := some partner }
    else
      some { role, side, kind := .closeUnpairedLong, outstanding := own, wave := 0, covers := none }

def planExitDependencies (outstanding : BoxLegRole → Option Number) : ExitDependencyPlan :=
  let slots := boxLegRoles.filterMap (exitSlot direction outstanding)
  { direction
    slots
    wave0 := slots.filter fun slot => slot.wave = 0
    wave1 := slots.filter fun slot => slot.wave = 1 }

theorem planQty_nonneg (role : BoxLegRole) : 0 ≤ planQty outstanding role := by
  unfold planQty
  split
  · split
    · rename_i hpos
      exact le_of_lt hpos
    · exact le_refl 0
  · exact le_refl 0

theorem exitSlot_cases {direction : BoxDirection} {outstanding : BoxLegRole → Option Number} {role : BoxLegRole}
    {slot : ExitDependencySlot} (h : exitSlot direction outstanding role = some slot) :
    slot.role = role ∧ slot.outstanding = planQty outstanding role ∧
      ((boxEntrySidesByDirection direction role = .sell ∧ slot.wave = 0) ∨
        (boxEntrySidesByDirection direction role = .buy ∧ planQty outstanding (verticalPartner role) = 0 ∧
          slot.wave = 0) ∨
        (boxEntrySidesByDirection direction role = .buy ∧ slot.covers = some (verticalPartner role) ∧
          slot.wave = 1)) := by
  simp only [exitSlot] at h
  by_cases hown : planQty outstanding role = 0
  · simp [hown] at h
  · rw [if_neg hown] at h
    by_cases hside : boxEntrySidesByDirection direction role = .sell
    · rw [if_pos hside] at h
      cases h
      exact ⟨rfl, rfl, .inl ⟨hside, rfl⟩⟩
    · have hbuy : boxEntrySidesByDirection direction role = .buy := by
        cases hs : boxEntrySidesByDirection direction role
        · rfl
        · exact absurd hs hside
      rw [if_neg hside, if_pos ((partner_side direction role).mpr hbuy)] at h
      by_cases hpartner : 0 < planQty outstanding (verticalPartner role)
      · rw [if_pos hpartner] at h
        cases h
        exact ⟨rfl, rfl, .inr (.inr ⟨hbuy, rfl, rfl⟩)⟩
      · rw [if_neg hpartner] at h
        cases h
        have hzero := le_antisymm (not_lt.mp hpartner) (planQty_nonneg outstanding _)
        exact ⟨rfl, rfl, .inr (.inl ⟨hbuy, hzero, rfl⟩)⟩

structure ShortCloseEvidence where
  shortOutstanding : Number
  confirmedClosed : Number
  certain : Bool

def ShortCloseEvidence.closed (short : ShortCloseEvidence) (outstanding : ℚ) : ℚ :=
  match short.confirmedClosed with
  | .fin q => if short.certain = true ∧ 0 < q then min q outstanding else 0
  | _ => 0

/-- How much of a hedge is proven free to sell; every unreadable figure releases nothing. -/
def releasableHedgeQuantity (hedgeOutstanding : Number) (short : ShortCloseEvidence) : ℚ :=
  match hedgeOutstanding, short.shortOutstanding with
  | .fin hedge, .fin outstanding =>
    if hedge ≤ 0 ∨ outstanding < 0 then 0
    else max 0 (min hedge (hedge - (outstanding - short.closed outstanding)))
  | _, _ => 0

theorem releasable_le {hedgeOutstanding : Number} {short : ShortCloseEvidence}
    (h : 0 < releasableHedgeQuantity hedgeOutstanding short) :
    ∃ hedge outstanding : ℚ, hedgeOutstanding = .fin hedge ∧ short.shortOutstanding = .fin outstanding ∧
      releasableHedgeQuantity hedgeOutstanding short ≤ hedge ∧
      releasableHedgeQuantity hedgeOutstanding short + (outstanding - short.closed outstanding) ≤ hedge := by
  unfold releasableHedgeQuantity at h ⊢
  split at h
  · rename_i hedge outstanding hout
    refine ⟨hedge, outstanding, rfl, hout, ?_⟩
    split at h
    · exact absurd h (lt_irrefl 0)
    · rename_i hreadable
      rw [if_neg hreadable]
      have hmax : max 0 (min hedge (hedge - (outstanding - short.closed outstanding))) =
          min hedge (hedge - (outstanding - short.closed outstanding)) := by
        rcases max_choice 0 (min hedge (hedge - (outstanding - short.closed outstanding))) with hz | hz
        · rw [hz] at h
          exact absurd h (lt_irrefl 0)
        · exact hz
      rw [hmax]
      refine ⟨min_le_left _ _, ?_⟩
      have := min_le_right hedge (hedge - (outstanding - short.closed outstanding))
      linarith
  · exact absurd h (lt_irrefl 0)

example : releasableHedgeQuantity (.fin 75) ⟨.fin 75, .fin 25, true⟩ = 25 := by decide +kernel

end BoxEngine
