import BoxEngine.CandidateEvaluation
import Mathlib.Algebra.Order.BigOperators.Group.List

/-!
# One book makes no free money

A direction buys at asks and sells at bids, so on uncrossed books the two debits are together not negative; a worse
book makes a worse edge.
-/

namespace BoxEngine

open Js

theorem round2_mono {a b : ℚ} (h : a ≤ b) : round2 a ≤ round2 b := by
  unfold round2
  have hfloor : ⌊a * 100 + 1 / 2⌋ ≤ ⌊b * 100 + 1 / 2⌋ := Int.floor_le_floor (by linarith)
  have hcast : (⌊a * 100 + 1 / 2⌋ : ℚ) ≤ ⌊b * 100 + 1 / 2⌋ := by exact_mod_cast hfloor
  linarith

theorem round2_sub_round2 (a b : ℚ) : round2 (a - round2 b) = round2 a - round2 b := by
  obtain ⟨k, hk⟩ := round2_int b
  rw [hk]
  unfold round2
  have hshift : (a - k / 100) * 100 + 1 / 2 = a * 100 + 1 / 2 - k := by ring
  rw [hshift, Int.floor_sub_intCast]
  push_cast
  ring

theorem round2_neg_add (a : ℚ) : 0 ≤ round2 a + round2 (-a) ∧ round2 a + round2 (-a) ≤ 1 / 100 := by
  have ha := Int.lt_floor_add_one (a * 100 + 1 / 2)
  have ha' := Int.floor_le (a * 100 + 1 / 2)
  have hb := Int.lt_floor_add_one (-a * 100 + 1 / 2)
  have hb' := Int.floor_le (-a * 100 + 1 / 2)
  have hlow : (-1 : ℚ) < ((⌊a * 100 + 1 / 2⌋ + ⌊-a * 100 + 1 / 2⌋ : ℤ) : ℚ) := by
    push_cast
    linarith
  have hhigh : ((⌊a * 100 + 1 / 2⌋ + ⌊-a * 100 + 1 / 2⌋ : ℤ) : ℚ) ≤ 1 := by
    push_cast
    linarith
  have hlow' : (0 : ℤ) ≤ ⌊a * 100 + 1 / 2⌋ + ⌊-a * 100 + 1 / 2⌋ := by
    have : (-1 : ℤ) < ⌊a * 100 + 1 / 2⌋ + ⌊-a * 100 + 1 / 2⌋ := by exact_mod_cast hlow
    omega
  have hlow'' : (0 : ℚ) ≤ ((⌊a * 100 + 1 / 2⌋ + ⌊-a * 100 + 1 / 2⌋ : ℤ) : ℚ) := by exact_mod_cast hlow'
  push_cast at hlow'' hhigh
  unfold round2
  constructor <;> linarith

theorem round2_add_nonneg {a b : ℚ} (h : 0 ≤ a + b) : 0 ≤ round2 a + round2 b := by
  have hmono : round2 (-a) ≤ round2 b := round2_mono (by linarith)
  linarith [(round2_neg_add a).1]

theorem related_of_mem {α : Type*} {R : α → α → Prop} {l l' : List α} (h : List.Forall₂ R l l') {b : α} (hb : b ∈ l') :
    ∃ a ∈ l, R a b := by
  induction h with
  | nil => cases hb
  | cons hr _ ih =>
    obtain rfl | hb := List.mem_cons.mp hb
    · exact ⟨_, List.mem_cons_self .., hr⟩
    · obtain ⟨a, ha, hab⟩ := ih hb
      exact ⟨a, .tail _ ha, hab⟩

/-! ## The touch -/

def BookSide.AsGood : BookSide → Number → Number → Prop
  | .bid, a, b => b ≤ a
  | .ask, a, b => a ≤ b

def OrderSide.book : OrderSide → BookSide
  | .buy => .ask
  | .sell => .bid

theorem betterPrice_chooses (side : BookSide) : Best.Chooses (betterPrice side) (fun p => .fin 0 < p) side.AsGood where
  refl := by
    intro a ha
    have hle : a ≤ a := Number.le_refl_of_fin_le (Number.le_of_lt ha)
    cases side <;> exact hle
  trans := by
    intro a b c hab hbc
    cases side with
    | bid => exact Number.le_trans hbc hab
    | ask => exact Number.le_trans hab hbc
  choose := by
    intro a b ha hb
    have hna : a ≠ .nan := fun h => Number.not_lt_nan _ (h ▸ ha)
    have hnb : b ≠ .nan := fun h => Number.not_lt_nan _ (h ▸ hb)
    cases side with
    | bid =>
      obtain ⟨-, h⟩ | ⟨h, hlt⟩ | ⟨h, hlt⟩ := Number.max_cases a b
      · simp [hna, hnb] at h
      · exact .inr ⟨h, Number.le_of_lt hlt⟩
      · exact .inl ⟨h, Number.le_of_not_lt_of_ne_nan hnb hna hlt⟩
    | ask =>
      obtain ⟨-, h⟩ | ⟨h, hlt⟩ | ⟨h, hlt⟩ := Number.min_cases a b
      · simp [hna, hnb] at h
      · exact .inr ⟨h, Number.le_of_lt hlt⟩
      · exact .inl ⟨h, Number.le_of_not_lt_of_ne_nan hna hnb hlt⟩

/-- A displayed, positive price that no other one beats. -/
structure IsBest (levels : List BoxDepthLevel) (side : BookSide) (price : Number) : Prop where
  usable : .fin 0 < price
  displayed : ∃ lv ∈ levels, lv.price = price
  best : ∀ lv ∈ levels, .fin 0 < lv.price → side.AsGood price lv.price

theorem usable_prices (levels : List BoxDepthLevel) :
    ∀ p ∈ (levels.filter fun lv => .fin 0 < lv.price).map BoxDepthLevel.price, .fin 0 < p := by
  simp only [List.mem_map, List.mem_filter, decide_eq_true_eq]
  rintro _ ⟨lv, ⟨-, hpos⟩, rfl⟩
  exact hpos

variable {levels : List BoxDepthLevel}

theorem bestPrice_isBest {side : BookSide} {price : Number}
    (h : bestPrice levels side = some price) : IsBest levels side price := by
  obtain ⟨hmem, hbest⟩ := Best.scan_spec (betterPrice_chooses side) (usable_prices levels) h
  obtain ⟨lv, hlv, hprice⟩ := List.mem_map.mp hmem
  refine ⟨usable_prices levels _ hmem, ⟨lv, List.mem_of_mem_filter hlv, hprice⟩, ?_⟩
  intro other hother hpos
  exact hbest _ (List.mem_map_of_mem (List.mem_filter.mpr ⟨hother, decide_eq_true hpos⟩))

theorem bestPrice_isSome (side : BookSide) {lv : BoxDepthLevel} (hlv : lv ∈ levels)
    (hpos : .fin 0 < lv.price) : ∃ price, bestPrice levels side = some price := by
  refine Best.scan_isSome (betterPrice_chooses side) (usable_prices levels) ?_
  exact List.ne_nil_of_mem (List.mem_map_of_mem (List.mem_filter.mpr ⟨hlv, decide_eq_true hpos⟩))

namespace BoxQuote

variable {quote : BoxQuote} {side : BookSide} {price : Number}

theorem touchPrice_eq_some : quote.touchPrice side = some price ↔
    bestPrice (quote.levels side) side = some price ∨
      bestPrice (quote.levels side) side = none ∧ .fin 0 < quote.scalar side ∧ quote.scalar side = price := by
  unfold touchPrice
  cases bestPrice (quote.levels side) side <;> simp

theorem touchFor_price (quote : BoxQuote) (side : OrderSide) : (touchFor quote side).price = quote.touchPrice side.book := by
  have hon : ∀ book, (quote.touchOn book).price = quote.touchPrice book := by
    intro book
    unfold touchOn
    cases h : quote.touchPrice book <;> rfl
  cases side <;> exact hon _

structure Exact (quote : BoxQuote) : Prop where
  levels : ∀ side, ∀ lv ∈ quote.levels side, lv.price.isFinite = true
  scalar : ∀ side, (quote.scalar side).isFinite = true

theorem Exact.touch (h : quote.Exact) (hprice : quote.touchPrice side = some price) : ∃ p : ℚ, price = .fin p := by
  have hfinite : price.isFinite = true := by
    obtain hbest | ⟨-, -, rfl⟩ := touchPrice_eq_some.mp hprice
    · obtain ⟨lv, hlv, rfl⟩ := (bestPrice_isBest hbest).displayed
      exact h.levels side lv hlv
    · exact h.scalar side
  cases price with
  | fin p => exact ⟨p, rfl⟩
  | _ => cases hfinite

def Uncrossed (quote : BoxQuote) : Prop :=
  ∀ bid ∈ quote.touchPrice .bid, ∀ ask ∈ quote.touchPrice .ask, bid ≤ ask

/-- A quote that no taker would prefer. -/
structure Worse (quote quote' : BoxQuote) : Prop where
  asks : List.Forall₂ (fun lv lv' => lv.price ≤ lv'.price ∧ (.fin 0 < lv'.price → .fin 0 < lv.price))
    quote.asks quote'.asks
  bids : List.Forall₂ (fun lv lv' => lv'.price ≤ lv.price) quote.bids quote'.bids
  ask : quote.ask ≤ quote'.ask ∧ (.fin 0 < quote'.ask → .fin 0 < quote.ask)
  bid : quote'.bid ≤ quote.bid
  scalar : ∀ best ∈ bestPrice quote.bids .bid, quote.bid ≤ best

variable {quote' : BoxQuote}

theorem Worse.touch_ask (h : quote.Worse quote') (hprice : quote'.touchPrice .ask = some price) :
    ∃ p, quote.touchPrice .ask = some p ∧ p ≤ price := by
  obtain hbest | ⟨hnone, hpos, rfl⟩ := touchPrice_eq_some.mp hprice
  · obtain ⟨husable, ⟨lv', hlv', rfl⟩, -⟩ := bestPrice_isBest hbest
    obtain ⟨lv, hlv, hle, hback⟩ := related_of_mem h.asks hlv'
    obtain ⟨p, hp⟩ := bestPrice_isSome .ask hlv (hback husable)
    exact ⟨p, touchPrice_eq_some.mpr (.inl hp), Number.le_trans ((bestPrice_isBest hp).best lv hlv (hback husable)) hle⟩
  · refine ⟨quote.ask, touchPrice_eq_some.mpr (.inr ⟨?_, h.ask.2 hpos, rfl⟩), h.ask.1⟩
    by_contra hsome
    obtain ⟨p, hp⟩ := Option.ne_none_iff_exists'.mp hsome
    obtain ⟨husable, ⟨lv, hlv, rfl⟩, -⟩ := bestPrice_isBest hp
    obtain ⟨lv', hlv', hle, -⟩ := related_of_mem h.asks.flip hlv
    obtain ⟨p', hp'⟩ := bestPrice_isSome .ask hlv' (Number.lt_of_lt_of_le husable hle)
    exact absurd (hnone.symm.trans hp') (by simp)

theorem Worse.touch_bid (h : quote.Worse quote') (hprice : quote'.touchPrice .bid = some price) :
    ∃ p, quote.touchPrice .bid = some p ∧ price ≤ p := by
  obtain hbest | ⟨-, hpos, rfl⟩ := touchPrice_eq_some.mp hprice
  · obtain ⟨husable, ⟨lv', hlv', rfl⟩, -⟩ := bestPrice_isBest hbest
    obtain ⟨lv, hlv, hle⟩ := related_of_mem h.bids hlv'
    have hpos := Number.lt_of_lt_of_le husable hle
    obtain ⟨p, hp⟩ := bestPrice_isSome .bid hlv hpos
    exact ⟨p, touchPrice_eq_some.mpr (.inl hp), Number.le_trans hle ((bestPrice_isBest hp).best lv hlv hpos)⟩
  · cases hbest : bestPrice quote.bids .bid with
    | some p => exact ⟨p, touchPrice_eq_some.mpr (.inl hbest), Number.le_trans h.bid (h.scalar p hbest)⟩
    | none => exact ⟨quote.bid, touchPrice_eq_some.mpr (.inr ⟨hbest, Number.lt_of_lt_of_le hpos h.bid, rfl⟩), h.bid⟩

theorem Worse.touch (h : quote.Worse quote') (hprice : quote'.touchPrice side = some price) :
    ∃ p, quote.touchPrice side = some p ∧ side.AsGood p price := by
  cases side with
  | bid => exact h.touch_bid hprice
  | ask => exact h.touch_ask hprice

end BoxQuote

/-! ## The edge -/

namespace DirectedCandidate

variable {candidate : DirectedCandidate} {quotes : Number → Option BoxQuote} {now maxAgeMs : Number} {captureDepth : Bool}

def quote (candidate : DirectedCandidate) (quotes : Number → Option BoxQuote) (role : BoxLegRole) : Option BoxQuote :=
  quotes (candidate.legs role).token

def touchOf (candidate : DirectedCandidate) (quotes : Number → Option BoxQuote) (role : BoxLegRole) : Option Number :=
  (candidate.quote quotes role).bind fun quote => quote.touchPrice (candidate.side role).book

def debit (candidate : DirectedCandidate) (p : BoxLegRole → ℚ) : ℚ :=
  (boxLegRoles.map fun role => debitSign (candidate.side role) * p role).sum

variable (role : BoxLegRole)

theorem evaluatedLeg_price :
    (candidate.evaluatedLeg quotes now maxAgeMs captureDepth role).price = candidate.touchOf quotes role := by
  unfold evaluatedLeg touchOf quote evaluateLeg
  dsimp only
  cases quotes (candidate.legs role).token with
  | none => rfl
  | some quote => exact quote.touchFor_price _

theorem evaluatedLeg_side :
    (candidate.evaluatedLeg quotes now maxAgeMs captureDepth role).side = candidate.side role := by
  unfold evaluatedLeg evaluateLeg
  dsimp only
  cases quotes (candidate.legs role).token <;> rfl

theorem evaluatedLeg_role : (candidate.evaluatedLeg quotes now maxAgeMs captureDepth role).role = role := by
  unfold evaluatedLeg evaluateLeg
  dsimp only
  cases quotes (candidate.legs role).token <;> rfl

theorem evaluatedLeg_token :
    (candidate.evaluatedLeg quotes now maxAgeMs captureDepth role).token = (candidate.legs role).token := by
  unfold evaluatedLeg evaluateLeg
  dsimp only
  cases quotes (candidate.legs role).token <;> rfl

theorem evaluateCandidate_legs : (evaluateCandidate candidate quotes now maxAgeMs captureDepth).legs =
    boxLegRoles.map (candidate.evaluatedLeg quotes now maxAgeMs captureDepth) := by
  simp [evaluateCandidate, totals, boxLegRoles, LegTotals.add]

theorem gross_eq {p : BoxLegRole → ℚ} {w : ℚ} (hp : ∀ role, candidate.touchOf quotes role = some (.fin (p role)))
    (hw : candidate.boxWidth = .fin w) :
    (evaluateCandidate candidate quotes now maxAgeMs captureDepth).grossEdgePerUnit =
      some (.fin (round2 (directionSign (candidate.direction.getD .longBox) * w - round2 (candidate.debit p)))) := by
  have hdebit : (candidate.totals quotes now maxAgeMs captureDepth).netDebit = .fin (candidate.debit p) := by
    simp [totals, boxLegRoles, LegTotals.add, evaluatedLeg_price, evaluatedLeg_side, hp, Number.mul_fin, Number.add_fin,
      debit, add_assoc]
  have hhave : (candidate.totals quotes now maxAgeMs captureDepth).havePrices = true := by
    simp [totals, boxLegRoles, LegTotals.add, evaluatedLeg_price, hp]
  simp [evaluateCandidate, hdebit, hhave, hw, round2Price, Number.mul_fin, Number.sub_fin]

theorem touch_of_gross {gross : Number}
    (h : (evaluateCandidate candidate quotes now maxAgeMs captureDepth).grossEdgePerUnit = some gross) (role : BoxLegRole) :
    ∃ price, candidate.touchOf quotes role = some price := by
  have hhave : (candidate.totals quotes now maxAgeMs captureDepth).havePrices = true := by
    by_contra hnot
    simp [evaluateCandidate, hnot] at h
  simp only [totals, boxLegRoles, LegTotals.add, evaluatedLeg_price, List.map_cons, List.map_nil, List.foldl_cons,
    List.foldl_nil, Bool.true_and, Bool.and_eq_true, Option.isSome_iff_exists] at hhave
  cases role with
  | k1Ce => exact hhave.1.1.1
  | k2Ce => exact hhave.1.1.2
  | k2Pe => exact hhave.1.2
  | k1Pe => exact hhave.2

theorem prices_of_gross (hexact : ∀ role, ∀ quote ∈ candidate.quote quotes role, quote.Exact) {gross : Number}
    (h : (evaluateCandidate candidate quotes now maxAgeMs captureDepth).grossEdgePerUnit = some gross) :
    ∃ p : BoxLegRole → ℚ, ∀ role, candidate.touchOf quotes role = some (.fin (p role)) := by
  have hfin : ∀ role, ∃ p : ℚ, candidate.touchOf quotes role = some (.fin p) := by
    intro role
    obtain ⟨price, hprice⟩ := touch_of_gross h role
    obtain ⟨quote, hquote, htouch⟩ := Option.bind_eq_some_iff.mp hprice
    obtain ⟨p, rfl⟩ := (hexact role quote hquote).touch htouch
    exact ⟨p, hprice⟩
  choose p hp using hfin
  exact ⟨p, hp⟩

def directed (candidate : DirectedCandidate) (direction : BoxDirection) : DirectedCandidate :=
  { candidate with direction := some direction }

theorem debit_add_nonneg (huncrossed : ∀ role, ∀ quote ∈ candidate.quote quotes role, quote.Uncrossed)
    {p p' : BoxLegRole → ℚ} (hp : ∀ role, (candidate.directed .longBox).touchOf quotes role = some (.fin (p role)))
    (hp' : ∀ role, (candidate.directed .shortBox).touchOf quotes role = some (.fin (p' role))) :
    0 ≤ (candidate.directed .longBox).debit p + (candidate.directed .shortBox).debit p' := by
  have hlegs : ∀ role, ∃ quote ∈ candidate.quote quotes role,
      quote.touchPrice (boxEntrySidesByDirection .longBox role).book = some (.fin (p role)) ∧
        quote.touchPrice (boxEntrySidesByDirection .shortBox role).book = some (.fin (p' role)) := by
    intro role
    obtain ⟨quote, hquote, hlong⟩ := Option.bind_eq_some_iff.mp (hp role)
    obtain ⟨quote', hquote', hshort⟩ := Option.bind_eq_some_iff.mp (hp' role)
    obtain rfl : quote = quote' := Option.some_inj.mp (hquote.symm.trans hquote')
    exact ⟨quote, hquote, hlong, hshort⟩
  have hspread : ∀ role, 0 ≤ debitSign (boxEntrySidesByDirection .longBox role) * (p role - p' role) := by
    intro role
    obtain ⟨quote, hquote, hlong, hshort⟩ := hlegs role
    have hcross := huncrossed role quote hquote
    cases role with
    | k1Ce | k2Pe =>
      have hle := Number.fin_le_fin.mp (hcross _ hshort _ hlong)
      simpa [boxEntrySidesByDirection, debitSign] using hle
    | k2Ce | k1Pe =>
      have hle := Number.fin_le_fin.mp (hcross _ hlong _ hshort)
      simpa [boxEntrySidesByDirection, debitSign] using hle
  have h1 := hspread .k1Ce
  have h2 := hspread .k2Ce
  have h3 := hspread .k2Pe
  have h4 := hspread .k1Pe
  simp [boxEntrySidesByDirection, debitSign] at h1 h2 h3 h4
  simp [debit, boxLegRoles, side, directed, boxEntrySidesByDirection, debitSign]
  linarith

theorem built_width {args : CandidateUniverse} (h : candidate ∈ buildCandidates args) :
    ∃ w : ℚ, candidate.boxWidth = .fin (round2 w) := by
  unfold buildCandidates at h
  split at h
  · obtain ⟨⟨k1, k2⟩, -, hpair⟩ := List.mem_flatMap.mp h
    change candidate ∈ args.pairCandidates k1 k2 at hpair
    unfold CandidateUniverse.pairCandidates at hpair
    split at hpair
    · obtain ⟨direction, -, rfl⟩ := List.mem_map.mp (List.mem_ite_nil_left.mp hpair).2
      exact ⟨k2 - k1, rfl⟩
    · cases hpair
  · cases h

end DirectedCandidate

/-- The best of the levels, or the scalar where no level has a price. -/
def BoxQuote.Shows (quote : BoxQuote) (side : BookSide) (price : Number) : Prop :=
  IsBest (quote.levels side) side price ∨
    (∀ lv ∈ quote.levels side, ¬ .fin 0 < lv.price) ∧ .fin 0 < price ∧ quote.scalar side = price

theorem BoxQuote.shows_touch {quote : BoxQuote} {side : BookSide} {price : Number}
    (h : quote.touchPrice side = some price) : quote.Shows side price := by
  obtain hbest | ⟨hnone, hpos, rfl⟩ := touchPrice_eq_some.mp h
  · exact .inl (bestPrice_isBest hbest)
  · refine .inr ⟨?_, hpos, rfl⟩
    intro lv hlv husable
    obtain ⟨p, hp⟩ := bestPrice_isSome side hlv husable
    simp [hnone] at hp

def edgeOf (candidate : DirectedCandidate) (direction : BoxDirection) (quotes : Number → Option BoxQuote)
    (now maxAgeMs : Number) (captureDepth : Bool) : Option Number :=
  (evaluateCandidate (candidate.directed direction) quotes now maxAgeMs captureDepth).grossEdgePerUnit

section
variable {candidate : DirectedCandidate} {quotes : Number → Option BoxQuote} {now maxAgeMs : Number} {captureDepth : Bool}
  {w : ℚ}

theorem edges_le (hexact : ∀ role, ∀ quote ∈ candidate.quote quotes role, quote.Exact)
    (huncrossed : ∀ role, ∀ quote ∈ candidate.quote quotes role, quote.Uncrossed) (hw : candidate.boxWidth = .fin w)
    {long short : Number} (hlong : edgeOf candidate .longBox quotes now maxAgeMs captureDepth = some long)
    (hshort : edgeOf candidate .shortBox quotes now maxAgeMs captureDepth = some short) :
    long.add short ≤ .fin (round2 w + round2 (-w)) := by
  obtain ⟨p, hp⟩ :=
    @DirectedCandidate.prices_of_gross (candidate.directed .longBox) quotes now maxAgeMs captureDepth hexact _ hlong
  obtain ⟨p', hp'⟩ :=
    @DirectedCandidate.prices_of_gross (candidate.directed .shortBox) quotes now maxAgeMs captureDepth hexact _ hshort
  have hspread := round2_add_nonneg (DirectedCandidate.debit_add_nonneg huncrossed hp hp')
  unfold edgeOf at hlong hshort
  rw [DirectedCandidate.gross_eq hp hw, Option.some_inj] at hlong
  rw [DirectedCandidate.gross_eq hp' hw, Option.some_inj] at hshort
  rw [← hlong, ← hshort, Number.add_fin, Number.fin_le_fin, round2_sub_round2, round2_sub_round2]
  simp only [DirectedCandidate.directed, Option.getD_some, directionSign, Int.cast_one, one_mul, Int.cast_neg, neg_mul]
  simp only [DirectedCandidate.directed] at hspread
  linarith

theorem edge_worse {direction : BoxDirection} {quotes' : Number → Option BoxQuote}
    (hexact : ∀ role, ∀ quote ∈ candidate.quote quotes role, quote.Exact)
    (hexact' : ∀ role, ∀ quote ∈ candidate.quote quotes' role, quote.Exact) (hw : candidate.boxWidth = .fin w)
    (hworse : ∀ role, ∀ quote' ∈ candidate.quote quotes' role, ∃ quote ∈ candidate.quote quotes role, quote.Worse quote')
    {edge' : Number} (hedge' : edgeOf candidate direction quotes' now maxAgeMs captureDepth = some edge') :
    ∃ edge, edgeOf candidate direction quotes now maxAgeMs captureDepth = some edge ∧ edge' ≤ edge := by
  obtain ⟨p', hp'⟩ :=
    @DirectedCandidate.prices_of_gross (candidate.directed direction) quotes' now maxAgeMs captureDepth hexact' _ hedge'
  have hleg : ∀ role, ∃ p : ℚ, (candidate.directed direction).touchOf quotes role = some (.fin p) ∧
      debitSign (boxEntrySidesByDirection direction role) * p ≤
        debitSign (boxEntrySidesByDirection direction role) * p' role := by
    intro role
    obtain ⟨quote', hquote', htouch'⟩ := Option.bind_eq_some_iff.mp (hp' role)
    obtain ⟨quote, hquote, hrel⟩ := hworse role quote' hquote'
    obtain ⟨price, hprice, hgood⟩ := hrel.touch htouch'
    obtain ⟨p, rfl⟩ := (hexact role quote hquote).touch hprice
    refine ⟨p, Option.bind_eq_some_iff.mpr ⟨quote, hquote, hprice⟩, ?_⟩
    change (boxEntrySidesByDirection direction role).book.AsGood (.fin p) (.fin (p' role)) at hgood
    cases hside : boxEntrySidesByDirection direction role with
    | buy | sell =>
      rw [hside] at hgood
      simpa [debitSign] using Number.fin_le_fin.mp hgood
  choose p hp hle using hleg
  have hdebit : (candidate.directed direction).debit p ≤ (candidate.directed direction).debit p' :=
    List.sum_le_sum fun role _ => hle role
  unfold edgeOf at hedge' ⊢
  rw [DirectedCandidate.gross_eq hp' hw, Option.some_inj] at hedge'
  refine ⟨_, DirectedCandidate.gross_eq hp hw, ?_⟩
  rw [← hedge', Number.fin_le_fin]
  exact round2_mono (sub_le_sub_left (round2_mono hdebit) _)

end

/-- The two directions make nothing where the width is in whole paise, and never more than a paisa; a worse book makes
no better edge. -/
theorem no_free_money (candidate : DirectedCandidate) (quotes : Number → Option BoxQuote) (now maxAgeMs : Number)
    (captureDepth : Bool) (w : ℚ) (hw : candidate.boxWidth = .fin w)
    (hexact : ∀ role, ∀ quote ∈ candidate.quote quotes role, quote.Exact) :
    ((∀ role, ∀ quote ∈ candidate.quote quotes role, quote.Uncrossed) →
      ∀ long ∈ edgeOf candidate .longBox quotes now maxAgeMs captureDepth,
      ∀ short ∈ edgeOf candidate .shortBox quotes now maxAgeMs captureDepth,
        long.add short ≤ .fin (1 / 100) ∧
        ((round2 w = w ∨ ∃ args, candidate ∈ buildCandidates args) → long.add short ≤ .fin 0)) ∧
    (∀ direction, ∀ leg ∈ (evaluateCandidate (candidate.directed direction) quotes now maxAgeMs captureDepth).legs,
      leg.side = boxEntrySidesByDirection direction leg.role ∧
      ∀ price ∈ leg.price, ∃ quote ∈ quotes leg.token, quote.Shows leg.side.book price) ∧
    ∀ direction quotes', (∀ role, ∀ quote ∈ candidate.quote quotes' role, quote.Exact) →
      (∀ role, ∀ quote' ∈ candidate.quote quotes' role, ∃ quote ∈ candidate.quote quotes role, quote.Worse quote') →
      ∀ edge' ∈ edgeOf candidate direction quotes' now maxAgeMs captureDepth,
        ∃ edge ∈ edgeOf candidate direction quotes now maxAgeMs captureDepth, edge' ≤ edge := by
  refine ⟨?_, ?_, ?_⟩
  · intro huncrossed long hlong short hshort
    have hle := edges_le hexact huncrossed hw hlong hshort
    refine ⟨Number.le_trans hle (Number.fin_le_fin.mpr (round2_neg_add w).2), ?_⟩
    intro hwidth
    have hround : round2 w = w := by
      obtain hround | ⟨args, hbuilt⟩ := hwidth
      · exact hround
      · obtain ⟨v, hv⟩ := DirectedCandidate.built_width hbuilt
        obtain rfl : w = round2 v := by simpa [hw] using hv
        exact round2_round2 v
    obtain ⟨k, hk⟩ := round2_int w
    have hneg := round2_of_int (-k)
    push_cast at hneg
    -- rounded to whole paise the two widths cancel
    have hzero : round2 w + round2 (-w) = 0 := by
      rw [hround] at hk
      rw [hround, hk, ← neg_div, hneg]
      ring
    rwa [hzero] at hle
  · intro direction leg hleg
    rw [DirectedCandidate.evaluateCandidate_legs] at hleg
    obtain ⟨role, -, rfl⟩ := List.mem_map.mp hleg
    rw [DirectedCandidate.evaluatedLeg_side, DirectedCandidate.evaluatedLeg_price, DirectedCandidate.evaluatedLeg_token,
      DirectedCandidate.evaluatedLeg_role]
    refine ⟨rfl, ?_⟩
    intro price hprice
    obtain ⟨quote, hquote, htouch⟩ := Option.bind_eq_some_iff.mp hprice
    exact ⟨quote, hquote, quote.shows_touch htouch⟩
  · intro direction quotes' hexact' hworse edge' hedge'
    exact edge_worse hexact hexact' hw hworse hedge'

def levelAt (price : ℚ) : BoxDepthLevel := ⟨.fin price, .fin 50⟩

def bookAt (bid ask : ℚ) : BoxQuote :=
  ⟨.fin 1, .fin 0, .fin 0, .fin 0, .fin 0, [levelAt bid], [levelAt ask], .fin 1, .fin 0, none⟩

def boxOfWidth (w : ℚ) : DirectedCandidate :=
  ⟨⟨"NIFTY|2026-01-29|100|200", "NIFTY", .fin 50, fun _ => ⟨.fin 1, "NIFTY", "NFO"⟩, fun _ => .fin 50⟩, none, .fin w⟩

theorem bookAt_exact (bid ask : ℚ) : (bookAt bid ask).Exact where
  levels := by
    intro side lv hlv
    cases side <;> simp [BoxQuote.levels, bookAt, levelAt] at hlv <;> simp [hlv]
  scalar := by
    intro side
    cases side <;> rfl

theorem no_free_money_bookAt :
    ∃ long ∈ edgeOf (boxOfWidth 100) .longBox (fun _ => some (bookAt 9 10)) (.fin 0) (.fin 0) false,
    ∃ short ∈ edgeOf (boxOfWidth 100) .shortBox (fun _ => some (bookAt 9 10)) (.fin 0) (.fin 0) false,
      long.add short ≤ .fin 0 := by
  have hround : round2 100 = 100 := by decide +kernel
  have hexact : ∀ role, ∀ quote ∈ (boxOfWidth 100).quote (fun _ => some (bookAt 9 10)) role, quote.Exact := by
    intro role quote hquote
    cases hquote
    exact bookAt_exact 9 10
  have huncrossed : ∀ role, ∀ quote ∈ (boxOfWidth 100).quote (fun _ => some (bookAt 9 10)) role, quote.Uncrossed := by
    intro role quote hquote bid hbid ask hask
    cases hquote
    cases hbid
    cases hask
    decide +kernel
  have hsound := (no_free_money (boxOfWidth 100) (fun _ => some (bookAt 9 10)) (.fin 0) (.fin 0) false 100 rfl hexact).1
    huncrossed
  refine ⟨.fin 98, by decide +kernel, .fin (-102), by decide +kernel, ?_⟩
  exact (hsound (.fin 98) (by decide +kernel) (.fin (-102)) (by decide +kernel)).2 (.inl hround)

theorem no_free_money_edges :
    edgeOf (boxOfWidth (1 / 200)) .longBox (fun _ => some (bookAt 10 10)) (.fin 0) (.fin 0) false = some (.fin (1 / 100)) ∧
    edgeOf (boxOfWidth (1 / 200)) .shortBox (fun _ => some (bookAt 10 10)) (.fin 0) (.fin 0) false = some (.fin 0) ∧
    (bookAt 10 10).Uncrossed ∧
    edgeOf (boxOfWidth 100) .longBox (fun _ => some { bookAt 10 10 with asks := [levelAt 0, levelAt 10] }) (.fin 0) (.fin 0)
      false = some (.fin 100) ∧
    edgeOf (boxOfWidth 100) .longBox (fun _ => some { bookAt 10 10 with asks := [levelAt 5, levelAt 10] }) (.fin 0) (.fin 0)
      false = some (.fin 110) ∧
    edgeOf (boxOfWidth 100) .longBox (fun _ => some { bookAt 10 20 with bid := .fin 15 }) (.fin 0) (.fin 0) false =
      some (.fin 80) ∧
    edgeOf (boxOfWidth 100) .longBox (fun _ => some { bookAt 0 20 with bid := .fin 15 }) (.fin 0) (.fin 0) false =
      some (.fin 90) := by
  refine ⟨by decide +kernel, by decide +kernel, ?_, by decide +kernel, by decide +kernel, by decide +kernel,
    by decide +kernel⟩
  intro bid hbid ask hask
  cases hbid
  cases hask
  decide +kernel

end BoxEngine
