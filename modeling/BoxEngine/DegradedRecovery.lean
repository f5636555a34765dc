import BoxEngine.CandidateEvaluationSound
import BoxEngine.DepthWalk
import BoxEngine.DepthWalkSound
import BoxEngine.OrderPricing
import Mathlib.Data.List.TakeWhile

/-!
# Admitting a REST book

Whether a book fetched over REST may price a reduction, and the best price of one side of a book.
-/

namespace BoxEngine

open Js

variable (side : OrderSide)

/-- The best price on one side of a book: lowest ask for a BUY, highest bid for a SELL. -/
def touchPrice (bids asks : List BoxDepthLevel) : Option Number :=
  (if side = .buy then asks else bids).foldl (fun best l =>
    if l.price.isFinite = false ∨ l.price ≤ .fin 0 ∨ isSafeInteger l.qty = false ∨ l.qty ≤ .fin 0 then best
    else
      match best with
      | none => some l.price
      | some best => some (if side = .buy then best.min l.price else best.max l.price)) none

structure RecoveryDepthObservation where
  source : String
  broker : String
  account : Option String
  token : Number
  tradingsymbol : String
  observedAt : Number
  bids : List BoxDepthLevel
  asks : List BoxDepthLevel

inductive RecoveryDepthRefusal where
  | noObservation
  | wrongSource
  | wrongBroker
  | wrongAccount
  | wrongInstrument
  | unusableObservationTime
  | staleObservation
  | noRelevantSideDepth
  | insufficientQuantity
  | unboundedLimit
  deriving DecidableEq

structure RecoveryDepthAdmission where
  admitted : Bool
  refusal : Option RecoveryDepthRefusal
  detail : Option String
  referencePrice : Option Number
  executableQuantity : Option Number
  observationAgeMs : Option Number

def refuse (refusal : RecoveryDepthRefusal) (detail : String) (ageMs : Option Number) : RecoveryDepthAdmission :=
  { admitted := false, refusal := some refusal, detail := some detail, referencePrice := none
    executableQuantity := none, observationAgeMs := ageMs }

/-- A level is usable only with a real positive price and a real positive integer size. -/
def usableLevels (levels : List BoxDepthLevel) : List BoxDepthLevel :=
  levels.filter fun l =>
    l.price.isFinite && decide (.fin 0 < l.price) && isSafeInteger l.qty && decide (.fin 0 < l.qty)

structure RecoveryDepthArgs where
  observation : Option RecoveryDepthObservation
  token : Number
  tradingsymbol : String
  activeBroker : String
  dispatchAccount : Option String
  side : OrderSide
  quantity : Number
  limitPrice : Number
  now : Number
  maxObservationAgeMs : Number

def atOrBetter (limitPrice : Number) (level : BoxDepthLevel) : Bool :=
  if side = .buy then decide (level.price ≤ limitPrice) else decide (limitPrice ≤ level.price)

def executableWithin (side : OrderSide) (limitPrice : Number) : List BoxDepthLevel → Number → Number
  | [], executable => executable
  | level :: rest, executable =>
    if atOrBetter side limitPrice level then executableWithin side limitPrice rest (executable.add level.qty)
    else executable

/-- What a book of the right instrument, rightly fetched and fresh, is worth to the order. -/
def admitLevels (args : RecoveryDepthArgs) (o : RecoveryDepthObservation) (age : Number) : RecoveryDepthAdmission :=
  let symbol := args.tradingsymbol
  let limit := args.limitPrice.toText
  let quantity := args.quantity.toText
  match usableLevels (if args.side = .buy then o.asks else o.bids) with
  | [] =>
    let sideName := if args.side = .buy then "ask" else "bid"
    refuse .noRelevantSideDepth
      (s!"the REST depth for {symbol} has no usable {sideName}" ++
        " side (every level lacks a real price or a real size). There is nothing to reduce into, and" ++
        " the last traded price is NOT a substitute for an executable book") (some age)
  | touch :: rest =>
    if args.limitPrice.isFinite = false ∨ args.limitPrice ≤ .fin 0 then
      refuse .unboundedLimit
        (s!"the order for {symbol} has no bounded positive limit price, so it must not be sent" ++
          " — an unbounded reduction is a market order, which this path never enables") (some age)
    else
      let executable := executableWithin args.side args.limitPrice (touch :: rest) (.fin 0)
      let offered := executable.toText
      if isSafeInteger args.quantity = false ∨ args.quantity ≤ .fin 0 then
        refuse .insufficientQuantity s!"the order for {symbol} has no usable quantity ({quantity})" (some age)
      else if executable < args.quantity then
        refuse .insufficientQuantity
          (s!"the REST depth for {symbol} offers {offered} within the bounded limit of" ++
            s!" {limit}; the reduction needs {quantity}") (some age)
      else
        { admitted := true, refusal := none, detail := none, referencePrice := some touch.price
          executableQuantity := some executable, observationAgeMs := some age }

/-- Identity before content, so that a book of the wrong instrument is never examined for depth. -/
def admitRecoveryDepth (args : RecoveryDepthArgs) : RecoveryDepthAdmission :=
  let symbol := args.tradingsymbol
  match args.observation with
  | none =>
    refuse .noObservation
      (s!"no REST depth observation exists for {symbol}, so no reference price can be" ++
        " established without inventing one") none
  | some o =>
    let broker := o.broker
    let activeBroker := args.activeBroker
    let age := args.now.sub o.observedAt
    if o.source ≠ "rest" then
      refuse .wrongSource
        (s!"the depth observation for {symbol} is not REST-sourced; the degraded path must not" ++
          " silently consume the WebSocket store, whose freshness clock is the one that is unhealthy") none
    else if broker ≠ activeBroker then
      refuse .wrongBroker
        (s!"the REST depth for {symbol} came from {broker} but orders are being sent" ++
          s!" through {activeBroker}; a book from another broker is not evidence about this one") none
    else
      match o.account, args.dispatchAccount with
      | some account, some dispatchAccount =>
        if account ≠ dispatchAccount then
          refuse .wrongAccount
            (s!"the REST depth for {symbol} was fetched with account {account} but the order" ++
              s!" would be sent under {dispatchAccount}") none
        else admitObserved o age
      | _, _ => admitObserved o age
where
  admitObserved (o : RecoveryDepthObservation) (age : Number) : RecoveryDepthAdmission :=
    let symbol := args.tradingsymbol
    let observedSymbol := o.tradingsymbol
    let observedToken := o.token.toText
    let token := args.token.toText
    let ageText := age.toText
    let ahead := (absNumber age).toText
    let maxAge := args.maxObservationAgeMs.toText
    -- `NaN` is no token's number, not even its own.
    if o.token = .nan ∨ o.token ≠ args.token ∨ o.tradingsymbol ≠ args.tradingsymbol then
      refuse .wrongInstrument
        (s!"the REST depth observation is for {observedSymbol} (token {observedToken}) but the order is for" ++
          s!" {symbol} (token {token})") none
    else if o.observedAt.isFinite = false ∨ o.observedAt ≤ .fin 0 then
      refuse .unusableObservationTime
        (s!"the REST depth for {symbol} carries no usable observation time, so its freshness" ++
          " cannot be established and it must not be treated as current") none
    else if age.isFinite = false ∨ age < .fin 0 then
      refuse .unusableObservationTime
        (s!"the REST depth for {symbol} is stamped {ahead}ms in the FUTURE, which" ++
          " means the clocks disagree; it must not be trusted as fresh") (some age)
    else if args.maxObservationAgeMs < age then
      refuse .staleObservation
        (s!"the REST depth for {symbol} was observed {ageText}ms ago, beyond the" ++
          s!" {maxAge}ms degraded-recovery limit. An expired cached price is not a" ++
          " fresh quote, and pricing a reduction off one is a market order in disguise") (some age)
    else admitLevels args o age

theorem usable_iff (l : BoxDepthLevel) : l.usable =
    (l.price.isFinite && decide (.fin 0 < l.price) && isSafeInteger l.qty && decide (.fin 0 < l.qty)) := by
  cases hprice : l.price with
  | fin p =>
    cases hqty : l.qty with
    | fin q => simp [BoxDepthLevel.usable, hprice, hqty, Number.mul_fin]
    | _ => simp [BoxDepthLevel.usable, hprice, hqty, isSafeInteger]
  | _ => simp [BoxDepthLevel.usable, hprice, Number.isFinite]

theorem usableLevels_eq (levels : List BoxDepthLevel) : usableLevels levels = levels.filter BoxDepthLevel.usable := by
  unfold usableLevels
  exact List.filter_congr fun l _ => (usable_iff l).symm

theorem usable_qty {l : BoxDepthLevel} (h : l.usable = true) : l.qty = .fin (usableQty l.qty) ∧ 0 < usableQty l.qty := by
  rw [usable_iff] at h
  cases hqty : l.qty with
  | fin q =>
    simp only [hqty, Bool.and_eq_true, decide_eq_true_eq, Number.fin_lt_fin] at h
    obtain ⟨⟨-, hsafe⟩, hpos⟩ := h
    have hden : q.den = 1 := by
      simp only [isSafeInteger, Bool.and_eq_true, decide_eq_true_eq] at hsafe
      exact hsafe.1
    have hnum : 0 < q.num := Rat.num_pos.mpr hpos
    have hcast : ((q.num.toNat : ℕ) : ℚ) = q := by
      rw [← Rat.coe_int_num_of_den_eq_one hden]
      exact_mod_cast Int.toNat_of_nonneg hnum.le
    simp only [usableQty, hsafe, hpos, and_self, if_true]
    exact ⟨by rw [hcast], by omega⟩
  | _ => simp [hqty, isSafeInteger] at h

/-! ## The touch -/

theorem unusable_iff (l : BoxDepthLevel) :
    (l.price.isFinite = false ∨ l.price ≤ .fin 0 ∨ isSafeInteger l.qty = false ∨ l.qty ≤ .fin 0) ↔ ¬l.usable = true := by
  rw [usable_iff]
  cases hprice : l.price with
  | fin p =>
    cases hqty : l.qty with
    | fin q =>
      by_cases hp : 0 < p
      · by_cases hq : 0 < q
        · simp [hp, hq, not_le.mpr hp, not_le.mpr hq]
        · simp [hp, hq, not_lt.mp hq]
      · simp [hp, not_lt.mp hp]
    | _ => simp [isSafeInteger]
  | _ => simp [Number.isFinite]

def touchStep (best : Option Number) (l : BoxDepthLevel) : Option Number :=
  match best with
  | none => some l.price
  | some best => some (if side = .buy then best.min l.price else best.max l.price)

theorem touchPrice_eq (bids asks : List BoxDepthLevel) :
    touchPrice side bids asks = (usableLevels (if side = .buy then asks else bids)).foldl (touchStep side) none := by
  rw [usableLevels_eq, List.foldl_filter, touchPrice]
  congr 1
  funext best l
  by_cases husable : l.usable = true
  · rw [if_neg (mt (unusable_iff l).mp (not_not_intro husable)), if_pos husable]
    rfl
  · rw [if_pos ((unusable_iff l).mpr husable), if_neg husable]

variable {side : OrderSide}

theorem touchStep_of_ranks {touch l : BoxDepthLevel} (htouch : touch.usable = true) (hl : l.usable = true)
    (h : BoxDepthLevel.ranks side touch l) : touchStep side (some touch.price) l = some touch.price := by
  obtain ⟨p, hp, -⟩ := DepthWalk.usable_price htouch
  obtain ⟨q, hq, -⟩ := DepthWalk.usable_price hl
  cases side with
  | buy =>
    have hle : p ≤ q := by simpa [BoxDepthLevel.ranks, hp, hq] using h
    simp [touchStep, hp, hq, Number.min, not_lt.mpr hle]
  | sell =>
    have hle : q ≤ p := by simpa [BoxDepthLevel.ranks, hp, hq] using h
    simp [touchStep, hp, hq, Number.max, not_lt.mpr hle]

theorem touchPrice_of_first {bids asks rest : List BoxDepthLevel} {touch : BoxDepthLevel}
    (h : usableLevels (if side = .buy then asks else bids) = touch :: rest)
    (hfirst : ∀ l ∈ rest, BoxDepthLevel.ranks side touch l) : touchPrice side bids asks = some touch.price := by
  have husable : ∀ l ∈ touch :: rest, l.usable = true := by
    rw [← h, usableLevels_eq]
    exact fun l hl => (List.mem_filter.mp hl).2
  rw [touchPrice_eq, h, List.foldl_cons]
  clear h
  induction rest with
  | nil => rfl
  | cons l rest ih =>
    have hl : touchStep side (touchStep side none touch) l = touchStep side none touch :=
      touchStep_of_ranks (husable touch (by simp)) (husable l (by simp)) (hfirst l (by simp))
    rw [List.foldl_cons, hl]
    exact ih (fun m hm => hfirst m (by simp [hm])) fun m hm => husable m (by
      rcases List.mem_cons.mp hm with rfl | hm
      · simp
      · simp [hm])

def offeredWithin (side : OrderSide) (limitPrice : Number) (levels : List BoxDepthLevel) : ℕ :=
  ((levels.filter (atOrBetter side limitPrice)).map fun l => usableQty l.qty).sum

theorem executableWithin_eq (side : OrderSide) (limitPrice : Number) {levels : List BoxDepthLevel}
    (h : ∀ l ∈ levels, l.usable = true) (executable : ℕ) :
    executableWithin side limitPrice levels (.fin executable) =
      .fin (executable + ((levels.takeWhile (atOrBetter side limitPrice)).map fun l => usableQty l.qty).sum : ℕ) := by
  induction levels generalizing executable with
  | nil => simp [executableWithin]
  | cons l rest ih =>
    by_cases hl : atOrBetter side limitPrice l = true
    · have hqty := (usable_qty (h l (by simp))).1
      have hadd : (Number.fin executable).add (.fin (usableQty l.qty)) = .fin (executable + usableQty l.qty : ℕ) := by
        rw [Number.add_fin]
        push_cast
        rfl
      rw [← hqty] at hadd
      rw [executableWithin, if_pos hl, hadd, ih fun m hm => h m (by simp [hm])]
      simp [hl, Nat.add_assoc]
    · simp [executableWithin, hl]

theorem takeWhile_offered (side : OrderSide) (limitPrice : Number) (levels : List BoxDepthLevel) :
    ((levels.takeWhile (atOrBetter side limitPrice)).map fun l => usableQty l.qty).sum ≤
      offeredWithin side limitPrice levels := by
  have hsub : (levels.takeWhile (atOrBetter side limitPrice)).Sublist (levels.filter (atOrBetter side limitPrice)) := by
    have h : (levels.takeWhile (atOrBetter side limitPrice)).Sublist levels := List.takeWhile_sublist _
    have hfiltered := h.filter (atOrBetter side limitPrice)
    rwa [List.filter_eq_self.mpr fun l hl => List.mem_takeWhile_imp hl] at hfiltered
  exact (hsub.map _).sum_le_sum (by simp)

theorem atOrBetter_of_ranks {limitPrice : Number} {a b : BoxDepthLevel} (ha : a.usable = true) (hb : b.usable = true)
    (h : BoxDepthLevel.ranks side a b) (hlimit : atOrBetter side limitPrice b = true) :
    atOrBetter side limitPrice a = true := by
  obtain ⟨p, hp, -⟩ := DepthWalk.usable_price ha
  obtain ⟨q, hq, -⟩ := DepthWalk.usable_price hb
  cases side with
  | buy =>
    have hle : a.price ≤ b.price := by simpa [BoxDepthLevel.ranks, hp, hq] using h
    simp only [atOrBetter, if_true, decide_eq_true_eq] at hlimit ⊢
    exact Number.le_trans hle hlimit
  | sell =>
    have hle : b.price ≤ a.price := by simpa [BoxDepthLevel.ranks, hp, hq] using h
    have hside : ¬OrderSide.sell = .buy := by decide
    simp only [atOrBetter, if_neg hside, decide_eq_true_eq] at hlimit ⊢
    exact Number.le_trans hlimit hle

theorem takeWhile_offered_of_sorted {limitPrice : Number} {levels : List BoxDepthLevel}
    (husable : ∀ l ∈ levels, l.usable = true) (hsorted : levels.Pairwise (BoxDepthLevel.ranks side)) :
    ((levels.takeWhile (atOrBetter side limitPrice)).map fun l => usableQty l.qty).sum =
      offeredWithin side limitPrice levels := by
  rw [takeWhile_eq_filter (hsorted.imp_of_mem fun ha hb h hb' => atOrBetter_of_ranks (husable _ ha) (husable _ hb) h hb'),
    offeredWithin]

/-! ## The walk -/

namespace DepthWalk

section Whole

variable {order : DepthWalk} {levels : List BoxDepthLevel}

structure Whole (order : DepthWalk) : Prop where
  queueModel : order.queueModel = .none
  reserved : order.reserved = none
  limited : order.limitPrice.isFinite = true ∧ .fin 0 < order.limitPrice

section

variable (h : order.Whole)

include h

theorem Whole.effective : order.effective = fun lv => usableQty lv.qty := by
  funext lv
  simp [DepthWalk.effective, effectiveQty, h.queueModel, h.reserved]

theorem Whole.limit : ∃ l : ℚ, order.limitPrice = .fin l ∧ 0 < l := by
  obtain ⟨hfinite, hpos⟩ := h.limited
  cases hl : order.limitPrice with
  | fin l => exact ⟨l, rfl, by simpa [hl] using hpos⟩
  | _ => simp [hl, Number.isFinite] at hfinite

theorem Whole.within {lv : BoxDepthLevel} (husable : lv.usable = true)
    (hlv : atOrBetter order.side order.limitPrice lv = true) : withinLimit order.side lv.price order.limitPrice = true := by
  obtain ⟨p, hp, hpos⟩ := usable_price husable
  obtain ⟨l, hl, hlpos⟩ := h.limit
  cases hside : order.side with
  | buy =>
    have hle : p ≤ l := by simpa [atOrBetter, hside, hp, hl] using hlv
    have heps : p ≤ l + priceEps := hle.trans (by simp [priceEps])
    simp [withinLimit, hp, hl, hpos, hlpos, heps]
  | sell =>
    have hle : l ≤ p := by simpa [atOrBetter, hside, hp, hl] using hlv
    have heps : l ≤ p + priceEps := hle.trans (by simp [priceEps])
    simp [withinLimit, hp, hl, hpos, hlpos, heps]

theorem Whole.filter_admissible : (levels.filter order.admissible).filter (atOrBetter order.side order.limitPrice) =
      (usableLevels levels).filter (atOrBetter order.side order.limitPrice) := by
  rw [usableLevels_eq, List.filter_filter, List.filter_filter]
  refine List.filter_congr fun lv _ => ?_
  by_cases hlv : atOrBetter order.side order.limitPrice lv = true
  · by_cases husable : lv.usable = true
    · simp [admissible, hlv, husable, h.within husable hlv]
    · simp [admissible, husable]
  · simp [hlv]

theorem Whole.offered_le :
    offeredWithin order.side order.limitPrice (usableLevels levels) ≤ order.capacity levels := by
  rw [offeredWithin, ← h.filter_admissible, capacity, h.effective]
  have hsub : ((levels.filter order.admissible).filter (atOrBetter order.side order.limitPrice)).Sublist
      (levels.filter order.admissible) := List.filter_sublist
  exact (hsub.map _).sum_le_sum (by simp)

theorem Whole.capacity_eq_offered (hgap : ∀ lv ∈ usableLevels levels,
    withinLimit order.side lv.price order.limitPrice = true → atOrBetter order.side order.limitPrice lv = true) :
    order.capacity levels = offeredWithin order.side order.limitPrice (usableLevels levels) := by
  have hsame : (levels.filter order.admissible).filter (atOrBetter order.side order.limitPrice) =
      levels.filter order.admissible := by
    refine List.filter_eq_self.mpr fun lv hlv => ?_
    obtain ⟨hmem, hadmissible⟩ := List.mem_filter.mp hlv
    obtain ⟨husable, hwithin⟩ := (Bool.and_eq_true _ _).mp hadmissible
    rw [usableLevels_eq] at hgap
    exact hgap lv (List.mem_filter.mpr ⟨hmem, husable⟩) hwithin
  rw [offeredWithin, ← h.filter_admissible, hsame, capacity, h.effective]

theorem Whole.taken_atOrBetter
    (hwanted : order.wanted ≤ offeredWithin order.side order.limitPrice (usableLevels levels)) :
    ∀ a ∈ order.allocation levels, 0 < a.2 → atOrBetter order.side order.limitPrice a.1 = true := by
  intro a ha hpos
  let visited := (order.ordered levels).takeWhile fun lv => withinLimit order.side lv.price order.limitPrice
  have hsorted : visited.Pairwise (BoxDepthLevel.ranks order.side) :=
    (order.ordered_pairwise levels).sublist (List.takeWhile_sublist _)
  have husable : ∀ lv ∈ visited, lv.usable = true := fun lv hlv =>
    ((Bool.and_eq_true _ _).mp (List.mem_filter.mp ((order.visited_perm levels).mem_iff.mp hlv)).2).1
  have hfirst : visited.takeWhile (atOrBetter order.side order.limitPrice) =
      visited.filter (atOrBetter order.side order.limitPrice) :=
    takeWhile_eq_filter (hsorted.imp_of_mem fun ha hb h hb' => atOrBetter_of_ranks (husable _ ha) (husable _ hb) h hb')
  have hsum : ((visited.takeWhile (atOrBetter order.side order.limitPrice)).map order.effective).sum =
      offeredWithin order.side order.limitPrice (usableLevels levels) := by
    rw [hfirst, offeredWithin, ← h.filter_admissible, h.effective]
    exact (((order.visited_perm levels).filter _).map _).sum_eq
  have hsplit : a ∈ GreedyFill.fill order.effective order.wanted
      (visited.takeWhile (atOrBetter order.side order.limitPrice) ++
        visited.dropWhile (atOrBetter order.side order.limitPrice)) := by
    rw [List.takeWhile_append_dropWhile]
    exact ha
  exact List.mem_takeWhile_imp (GreedyFill.mem_of_fill_append _ (hsum ▸ hwanted) hsplit hpos)

end

theorem spent_bound {limit : ℚ} (hlimit : order.limitPrice = .fin limit)
    (htaken : ∀ a ∈ order.allocation levels, 0 < a.2 → atOrBetter order.side order.limitPrice a.1 = true) :
    (order.side = .buy →
      spent (order.allocation levels) ≤ limit * (GreedyFill.total (order.allocation levels) : ℚ)) ∧
      (order.side = .sell →
        limit * (GreedyFill.total (order.allocation levels) : ℚ) ≤ spent (order.allocation levels)) := by
  have hprice : ∀ a ∈ order.allocation levels, ∃ p : ℚ, a.1.price = .fin p := by
    intro a ha
    have hmem : a.1 ∈ levels.filter order.admissible :=
      (order.allocation_spec levels).items.mem_iff.mp (List.mem_map_of_mem ha)
    obtain ⟨p, hp, -⟩ := usable_price ((Bool.and_eq_true _ _).mp (List.mem_filter.mp hmem).2).1
    exact ⟨p, hp⟩
  constructor
  · intro hside
    refine GreedyFill.value_le_of_forall _ fun a ha hpos => ?_
    obtain ⟨p, hp⟩ := hprice a ha
    simpa [atOrBetter, hside, hp, hlimit] using htaken a ha hpos
  · intro hside
    have hneg : GreedyFill.value (fun lv : BoxDepthLevel => -lv.price.value) (order.allocation levels) ≤
        -limit * (GreedyFill.total (order.allocation levels) : ℚ) := by
      refine GreedyFill.value_le_of_forall _ fun a ha hpos => ?_
      obtain ⟨p, hp⟩ := hprice a ha
      simpa [atOrBetter, hside, hp, hlimit] using htaken a ha hpos
    rw [GreedyFill.value_neg] at hneg
    rw [spent]
    linarith

end Whole

end DepthWalk

/-! ## The admission -/

section Admission

variable {args : RecoveryDepthArgs} {o : RecoveryDepthObservation}

theorem admitRecoveryDepth_cases (hobservation : args.observation = some o) :
    ((admitRecoveryDepth args).admitted = false ∧
      (admitRecoveryDepth args).refusal ≠ some .noRelevantSideDepth ∧
      (admitRecoveryDepth args).refusal ≠ some .insufficientQuantity) ∨
      admitRecoveryDepth args = admitLevels args o (args.now.sub o.observedAt) := by
  have hobserved : ∀ age, ((admitRecoveryDepth.admitObserved args o age).admitted = false ∧
      (admitRecoveryDepth.admitObserved args o age).refusal ≠ some .noRelevantSideDepth ∧
      (admitRecoveryDepth.admitObserved args o age).refusal ≠ some .insufficientQuantity) ∨
      admitRecoveryDepth.admitObserved args o age = admitLevels args o age := by
    intro age
    unfold admitRecoveryDepth.admitObserved
    dsimp only
    split_ifs
    · simp [refuse]
    · simp [refuse]
    · simp [refuse]
    · simp [refuse]
    · exact .inr rfl
  unfold admitRecoveryDepth
  rw [hobservation]
  dsimp only
  split_ifs
  · simp [refuse]
  · simp [refuse]
  · split
    · split_ifs
      · simp [refuse]
      · exact hobserved _
    · exact hobserved _

def RecoveryDepthObservation.levels (o : RecoveryDepthObservation) (side : OrderSide) : List BoxDepthLevel :=
  if side = .buy then o.asks else o.bids

variable (args : RecoveryDepthArgs)

def RecoveryDepthArgs.walk (haircutPct at_ : Number) (quoteVersion : Option Number) : DepthWalk :=
  ⟨args.side, args.quantity, args.limitPrice, .none, haircutPct, at_, quoteVersion, none⟩

def RecoveryDepthAdmission.Refused (admission : RecoveryDepthAdmission) (refusal : RecoveryDepthRefusal) : Prop :=
  admission.admitted = false ∧ admission.refusal = some refusal

def RecoveryDepthArgs.executable (levels : List BoxDepthLevel) : ℕ :=
  (((usableLevels levels).takeWhile (atOrBetter args.side args.limitPrice)).map fun l => usableQty l.qty).sum

theorem usable_of_mem_usableLevels {levels : List BoxDepthLevel} : ∀ l ∈ usableLevels levels, l.usable = true := by
  rw [usableLevels_eq]
  exact fun l hl => (List.mem_filter.mp hl).2

theorem admitLevels_cases (o : RecoveryDepthObservation) (age : Number) : let levels := o.levels args.side
    let admission := admitLevels args o age
    (usableLevels levels = [] ∧ admission.Refused .noRelevantSideDepth) ∨
      admission.Refused .unboundedLimit ∨
      ((isSafeInteger args.quantity = false ∨ args.quantity ≤ .fin 0) ∧ admission.Refused .insufficientQuantity) ∨
      (isSafeInteger args.quantity = true ∧ (args.limitPrice.isFinite = true ∧ .fin 0 < args.limitPrice) ∧
        ((.fin (args.executable levels) < args.quantity ∧ admission.Refused .insufficientQuantity) ∨
          ¬.fin (args.executable levels) < args.quantity ∧ admission.refusal = none ∧
            admission.executableQuantity = some (.fin (args.executable levels)) ∧
            ∃ touch rest, usableLevels levels = touch :: rest ∧ admission.referencePrice = some touch.price)) := by
  intro levels admission
  have hadmission : admission = admitLevels args o age := rfl
  have hside : (if args.side = .buy then o.asks else o.bids) = levels := rfl
  have hexecutable : executableWithin args.side args.limitPrice (usableLevels levels) (.fin 0) =
      .fin (args.executable levels) := by
    have husable : ∀ l ∈ usableLevels levels, l.usable = true := usable_of_mem_usableLevels
    have h := executableWithin_eq args.side args.limitPrice husable 0
    rwa [Nat.cast_zero, Nat.zero_add] at h
  cases hbook : usableLevels levels with
  | nil =>
    rw [admitLevels, hside, hbook] at hadmission
    exact .inl ⟨rfl, by rw [hadmission]; exact ⟨rfl, rfl⟩⟩
  | cons touch rest =>
    rw [hbook] at hexecutable
    rw [admitLevels, hside, hbook] at hadmission
    dsimp only at hadmission
    by_cases hlimit : args.limitPrice.isFinite = false ∨ args.limitPrice ≤ .fin 0
    · rw [if_pos hlimit] at hadmission
      exact .inr (.inl (by rw [hadmission]; exact ⟨rfl, rfl⟩))
    rw [if_neg hlimit, hexecutable] at hadmission
    by_cases hquantity : isSafeInteger args.quantity = false ∨ args.quantity ≤ .fin 0
    · rw [if_pos hquantity] at hadmission
      exact .inr (.inr (.inl ⟨hquantity, by rw [hadmission]; exact ⟨rfl, rfl⟩⟩))
    rw [if_neg hquantity] at hadmission
    have hbounded : args.limitPrice.isFinite = true ∧ .fin 0 < args.limitPrice := by
      cases hl : args.limitPrice with
      | fin l => simpa [hl] using hlimit
      | _ => simp [hl, Number.isFinite] at hlimit
    refine .inr (.inr (.inr ⟨by simpa using (not_or.mp hquantity).1, hbounded, ?_⟩))
    by_cases hshort : .fin (args.executable levels) < args.quantity
    · rw [if_pos hshort] at hadmission
      exact .inl ⟨hshort, by rw [hadmission]; exact ⟨rfl, rfl⟩⟩
    · rw [if_neg hshort] at hadmission
      refine .inr ⟨hshort, ?_⟩
      rw [hadmission]
      exact ⟨rfl, rfl, touch, rest, rfl, rfl⟩

end Admission

/-! ## What the walk fills -/

section Filled

variable {order : DepthWalk} {levels : List BoxDepthLevel} {quantity : ℕ}

theorem filledQty_eq (order : DepthWalk) (levels : List BoxDepthLevel) :
    (walkDepth order levels).filledQty = min order.wanted (order.capacity levels) := by
  rw [← order.total_allocation, order.walkDepth_eq]

theorem filled_of_no_usable (h : usableLevels levels = []) : (walkDepth order levels).filledQty = 0 := by
  rw [usableLevels_eq, List.filter_eq_nil_iff] at h
  have hadmissible : levels.filter order.admissible = [] :=
    List.filter_eq_nil_iff.mpr fun l hl hadmissible => h l hl ((Bool.and_eq_true _ _).mp hadmissible).1
  simp [filledQty_eq, DepthWalk.capacity, hadmissible]

theorem filled_of_unusable_quantity (h : isSafeInteger order.remainingQty = false ∨ order.remainingQty ≤ .fin 0) :
    (walkDepth order levels).filledQty = 0 := by
  simp [filledQty_eq, DepthWalk.wanted, (DepthWalk.usableQty_eq_zero_iff _).mpr h]

theorem usableQty_natCast (hpos : 0 < quantity) (hsafe : isSafeInteger (.fin quantity) = true) :
    usableQty (.fin quantity) = quantity := by
  have hq : (0 : ℚ) < quantity := by exact_mod_cast hpos
  simp [usableQty, hsafe, hq]

theorem filled_of_offered (h : order.Whole) (hpos : 0 < quantity) (hsafe : isSafeInteger (.fin quantity) = true)
    (hquantity : order.remainingQty = .fin quantity)
    (hoffered : quantity ≤ offeredWithin order.side order.limitPrice (usableLevels levels)) :
    (walkDepth order levels).filledQty = quantity ∧
      (walkDepth order levels).executableWithinLimit = min maxSafeInteger (order.capacity levels) ∧
      ∃ average : ℚ, (walkDepth order levels).averagePrice = some average ∧
        (order.side = .buy → .fin average ≤ round2Price order.limitPrice) ∧
        (order.side = .sell → round2Price order.limitPrice ≤ .fin average) := by
  have hwanted : order.wanted = quantity := by
    rw [DepthWalk.wanted, if_pos h.limited, hquantity, usableQty_natCast hpos hsafe]
  have htotal : GreedyFill.total (order.allocation levels) = quantity := by
    rw [order.total_allocation, hwanted]
    exact min_eq_left (hoffered.trans h.offered_le)
  obtain ⟨limit, hlimit, -⟩ := h.limit
  obtain ⟨hbuy, hsell⟩ := order.spent_bound hlimit (h.taken_atOrBetter (hwanted.trans_le hoffered))
  have hcast : (0 : ℚ) < quantity := by exact_mod_cast hpos
  rw [order.walkDepth_eq, htotal, hwanted, hlimit]
  rw [htotal] at hbuy hsell
  refine ⟨rfl, if_neg hpos.ne', _, if_pos hpos, fun hside => ?_, fun hside => ?_⟩
  · exact Number.fin_le_fin.mpr (round2_mono ((div_le_iff₀ hcast).mpr (hbuy hside)))
  · exact Number.fin_le_fin.mpr (round2_mono ((le_div_iff₀ hcast).mpr (hsell hside)))

end Filled

/-- An admitted book fills the whole quantity at the limit or better, and one refused for its depth fills less, within
the tolerance of the prices. -/
theorem recovery_depth_agrees (args : RecoveryDepthArgs) (o : RecoveryDepthObservation) (quantity : ℕ)
    (haircutPct at_ : Number) (quoteVersion : Option Number) (hobservation : args.observation = some o)
    (hquantity : args.quantity = .fin quantity) (hpos : 0 < quantity) :
    let levels := o.levels args.side
    let admission := admitRecoveryDepth args
    let walk := walkDepth (args.walk haircutPct at_ quoteVersion) levels
    (admission.admitted = true →
      walk.filledQty = quantity ∧
      (∃ average : ℚ, walk.averagePrice = some average ∧
        (args.side = .buy → .fin average ≤ round2Price args.limitPrice) ∧
        (args.side = .sell → round2Price args.limitPrice ≤ .fin average)) ∧
      (∃ executable : ℕ, admission.executableQuantity = some (.fin executable) ∧
        min maxSafeInteger executable ≤ walk.executableWithinLimit) ∧
      ((usableLevels levels).Pairwise (BoxDepthLevel.ranks args.side) →
        admission.referencePrice = touchPrice args.side o.bids o.asks)) ∧
    (admission.refusal = some .noRelevantSideDepth → walk.filledQty < quantity) ∧
    (admission.refusal = some .insufficientQuantity →
      (usableLevels levels).Pairwise (BoxDepthLevel.ranks args.side) →
      (∀ lv ∈ usableLevels levels, withinLimit args.side lv.price args.limitPrice = true →
        atOrBetter args.side args.limitPrice lv = true) →
      walk.filledQty < quantity) := by
  intro levels admission walk
  rcases admitRecoveryDepth_cases hobservation with ⟨hadmitted, hdepth, hshort⟩ | hlevels
  · exact ⟨fun h => by simp [admission, hadmitted] at h, fun h => absurd h hdepth, fun h => absurd h hshort⟩
  have hcases := admitLevels_cases args o (args.now.sub o.observedAt)
  rw [← hlevels] at hcases
  change (usableLevels levels = [] ∧ admission.Refused .noRelevantSideDepth) ∨ _ at hcases
  -- the refusals in their order; what passes them is too short a book or an admitted one
  rcases hcases with ⟨hnone, hrefused⟩ | hrefused | ⟨hunusable, hrefused⟩ | ⟨hsafe, hlimit, hrest⟩
  · have hfilled : walk.filledQty = 0 := filled_of_no_usable hnone
    exact ⟨fun h => by simp [hrefused.1] at h, fun _ => by omega, fun _ _ _ => by omega⟩
  · exact ⟨fun h => by simp [admission, hrefused.1] at h, fun h => by simp [admission, hrefused.2] at h,
      fun h => by simp [admission, hrefused.2] at h⟩
  · have hfilled : walk.filledQty = 0 := filled_of_unusable_quantity hunusable
    exact ⟨fun h => by simp [admission, hrefused.1] at h, fun _ => by omega, fun _ _ _ => by omega⟩
  have hwhole : (args.walk haircutPct at_ quoteVersion).Whole := ⟨rfl, rfl, hlimit⟩
  have hread : args.executable levels ≤ offeredWithin args.side args.limitPrice (usableLevels levels) :=
    takeWhile_offered _ _ _
  rw [hquantity] at hsafe
  rcases hrest with ⟨hshort, hrefused⟩ | ⟨hshort, hadmitted, hexecutable, touch, rest, hbook, hreference⟩
  · refine ⟨fun h => by simp [admission, hrefused.1] at h, fun h => by simp [admission, hrefused.2] at h,
      fun _ hsorted hgap => ?_⟩
    have hsame : args.executable levels = offeredWithin args.side args.limitPrice (usableLevels levels) :=
      takeWhile_offered_of_sorted usable_of_mem_usableLevels hsorted
    have hcapacity := hwhole.capacity_eq_offered hgap
    have hfilled : walk.filledQty ≤ (args.walk haircutPct at_ quoteVersion).capacity levels := by
      simp only [walk, filledQty_eq]
      exact min_le_right _ _
    rw [hquantity, Number.fin_lt_fin] at hshort
    have hlt : args.executable levels < quantity := by exact_mod_cast hshort
    exact hfilled.trans_lt (hcapacity.trans_lt (hsame.symm.trans_lt hlt))
  · rw [hquantity, Number.fin_lt_fin, not_lt] at hshort
    have hle : quantity ≤ args.executable levels := by exact_mod_cast hshort
    obtain ⟨hfilled, hwithin, haverage⟩ := filled_of_offered hwhole hpos hsafe hquantity (hle.trans hread)
    refine ⟨fun _ => ⟨hfilled, haverage, ⟨_, hexecutable, ?_⟩, fun hsorted => ?_⟩,
      fun h => by simp [admission, hadmitted] at h, fun h => by simp [admission, hadmitted] at h⟩
    · have hoffered : offeredWithin args.side args.limitPrice (usableLevels levels) ≤
          (args.walk haircutPct at_ quoteVersion).capacity levels := hwhole.offered_le
      simp only [walk, levels, hwithin]
      exact min_le_min le_rfl (hread.trans hoffered)
    · rw [hbook] at hsorted
      rw [touchPrice_of_first hbook (List.pairwise_cons.mp hsorted).1]
      exact hreference

def recoveryBuy (asks : List BoxDepthLevel) (quantity limitPrice : ℚ) : RecoveryDepthArgs :=
  ⟨some ⟨"rest", "zerodha", none, .fin 1, "NIFTY", .fin 1000, [], asks⟩, .fin 1, "NIFTY", "zerodha", none, .buy,
    .fin quantity, .fin limitPrice, .fin 1500, .fin 3000⟩

theorem recovery_depth_agrees_fifty :
    let book := [⟨.fin 101, .fin 50⟩, ⟨.fin 100, .fin 50⟩]
    (admitRecoveryDepth (recoveryBuy book 50 101)).admitted = true ∧
      (walkDepth ((recoveryBuy book 50 101).walk (.fin 0) (.fin 1500) none) book).filledQty = 50 := by
  have h := recovery_depth_agrees (recoveryBuy [⟨.fin 101, .fin 50⟩, ⟨.fin 100, .fin 50⟩] 50 101) _ 50 (.fin 0)
    (.fin 1500) none rfl rfl (by decide)
  have hadmitted : (admitRecoveryDepth (recoveryBuy [⟨.fin 101, .fin 50⟩, ⟨.fin 100, .fin 50⟩] 50 101)).admitted =
      true := by decide +kernel
  exact ⟨hadmitted, (h.1 hadmitted).1⟩

theorem recovery_depth_edges :
    let fill (asks : List BoxDepthLevel) (quantity limitPrice : ℚ) : DepthWalkResult :=
      walkDepth ((recoveryBuy asks quantity limitPrice).walk (.fin 0) (.fin 1500) none) asks
    let crossed : List BoxDepthLevel := [⟨.fin 101, .fin 50⟩, ⟨.fin 100, .fin 50⟩]
    let offPaise : List BoxDepthLevel := [⟨.fin 100.006, .fin 50⟩]
    let close : List BoxDepthLevel := [⟨.fin (100 + priceEps), .fin 75⟩]
    let huge : List BoxDepthLevel := [⟨.fin 100, .fin maxSafeInteger⟩, ⟨.fin 100, .fin 1⟩]
    ((admitRecoveryDepth (recoveryBuy crossed 50 101)).referencePrice = some (.fin 101) ∧
        touchPrice .buy [] crossed = some (.fin 100)) ∧
      ((admitRecoveryDepth (recoveryBuy crossed 50 100)).refusal = some .insufficientQuantity ∧
        (fill crossed 50 100).filledQty = 50) ∧
      ((admitRecoveryDepth (recoveryBuy offPaise 50 100.006)).admitted = true ∧
        (fill offPaise 50 100.006).averagePrice = some 100.01) ∧
      ((admitRecoveryDepth (recoveryBuy close 75 100)).refusal = some .insufficientQuantity ∧
        (fill close 75 100).filledQty = 75) ∧
      ((admitRecoveryDepth (recoveryBuy huge 1 100)).executableQuantity = some (.fin (maxSafeInteger + 1)) ∧
        (fill huge 1 100).executableWithinLimit = maxSafeInteger) := by
  decide +kernel

end BoxEngine
