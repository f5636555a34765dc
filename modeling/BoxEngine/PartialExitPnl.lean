import BoxEngine.CandidateEvaluation
import BoxEngine.CandidateEvaluationSound
import BoxEngine.CloseAccounting
import BoxEngine.CloseAccountingSound

/-!
# The running P&L of a partly exited box

What is closed is realised at its attempts' gross, what is open marked at the touch. A role with nothing left is
neither.
-/

namespace BoxEngine

open Js

structure PartialBox where
  quantity : Number
  lotSize : Number
  direction : Option BoxDirection
  legs : BoxLegRole → BoxOptionInstrument
  remainingQtyByRole : Option (ByRole Number)
  entryPrices : ByRole Number
  exitGrossPnls : List (Option Number)
  cumulativeExitCharges : Number
  entryChargesTotal : Option Number
  estimatedExitChargesTotal : Option Number

variable (pos : PartialBox)

def remainingByRoleOf (role : BoxLegRole) : Number :=
  match pos.remainingQtyByRole.bind fun map => map role with
  | some raw => if raw.isFinite then (Number.fin 0).max raw else (Number.fin 0).max pos.quantity
  | none => (Number.fin 0).max pos.quantity

def realisedExitGross : Number :=
  round2Price (pos.exitGrossPnls.foldl (fun sum gross => sum.add (gross.getD (.fin 0))) (.fin 0))

structure ExitChargeOrder where
  side : OrderSide
  tradingsymbol : String
  quantity : Number
  price : Number

def remainingExitChargeOrders (pos : PartialBox) : List BoxLegEvaluation → Option (List ExitChargeOrder)
  | [] => some []
  | leg :: legs =>
    let quantity := remainingByRoleOf pos leg.role
    if quantity ≤ .fin 0 then remainingExitChargeOrders pos legs
    else
      match leg.usablePrice with
      | none => none
      | some price =>
        (remainingExitChargeOrders pos legs).map fun out =>
          ⟨leg.side, leg.tradingsymbol, quantity, round2Price price⟩ :: out

def openQuantityFraction : Number :=
  let total := pos.quantity.mul (.fin boxLegRoles.length)
  if .fin 0 < total then
    let openQuantity := boxLegRoles.foldl (fun (sum : Number) role => sum.add (remainingByRoleOf pos role)) (.fin 0)
    (Number.fin 1).min ((Number.fin 0).max (openQuantity.div total))
  else .fin 0

/-- Where the rest cannot be priced, the stored projection of a full exit stands in. -/
def remainingExitChargesEstimate (chargeTotal : List ExitChargeOrder → Number) (pos : PartialBox)
    (legs : List BoxLegEvaluation) : Option Number :=
  match remainingExitChargeOrders pos legs with
  | none => pos.estimatedExitChargesTotal.map fun stored => round2Price (stored.mul (openQuantityFraction pos))
  | some [] => some (.fin 0)
  | some orders => some (round2Price (chargeTotal orders))

/-! ## The mark -/

structure PartialExitMark where
  realisedGross : Number
  unrealisedGross : Option Number
  gross : Option Number
  exitChargesIncurred : Number
  estimatedRemainingExitCharges : Option Number
  exitChargesTotal : Option Number
  roundTripCharges : Option Number
  net : Option Number
  realisableNet : Option Number
  markedQuantityByRole : BoxLegRole → Number

structure PartialExitArgs where
  direction : BoxDirection
  remainingByRole : BoxLegRole → Number
  entryPrices : ByRole Number
  legs : List BoxLegEvaluation
  realisedGross : Number
  exitChargesIncurred : Number
  entryChargesTotal : Option Number
  estimatedRemainingExitCharges : Option Number
  executionCost : Number

structure Unrealised where
  gross : Number
  markable : Bool

namespace PartialExitArgs

variable (args : PartialExitArgs)

def perUnit (role : BoxLegRole) (price : Number) : Number :=
  let entryPrice := (args.entryPrices role).getD (.fin 0)
  if entrySideFor role args.direction = .buy then price.sub entryPrice else entryPrice.sub price

def addLeg (unrealised : Unrealised) (leg : BoxLegEvaluation) : Unrealised :=
  let quantity := args.remainingByRole leg.role
  if quantity ≤ .fin 0 then unrealised
  else
    match leg.usablePrice with
    | none => { unrealised with markable := false }
    | some price => { unrealised with gross := unrealised.gross.add ((args.perUnit leg.role price).mul quantity) }

def unrealised : Unrealised := args.legs.foldl args.addLeg ⟨.fin 0, true⟩

end PartialExitArgs

def addRounded (a b : Number) : Number := round2Price (a.add b)

def markPartialExit (args : PartialExitArgs) : PartialExitMark :=
  let unrealisedGross := if args.unrealised.markable then some (round2Price args.unrealised.gross) else none
  let gross := unrealisedGross.map (addRounded args.realisedGross)
  let exitChargesTotal := args.estimatedRemainingExitCharges.map (addRounded args.exitChargesIncurred)
  let roundTrip := args.entryChargesTotal.bind fun entry => exitChargesTotal.map (addRounded entry)
  let net := gross.bind fun gross => roundTrip.map fun charges => round2Price (gross.sub charges)
  { realisedGross := round2Price args.realisedGross
    unrealisedGross
    gross
    exitChargesIncurred := round2Price args.exitChargesIncurred
    estimatedRemainingExitCharges := args.estimatedRemainingExitCharges
    exitChargesTotal
    roundTripCharges := roundTrip
    net
    realisableNet := net.map fun net => round2Price (net.sub (round2Price args.executionCost))
    markedQuantityByRole := args.remainingByRole }

structure Measurement where
  quotes : Number → Option BoxQuote
  now : Number
  maxAgeMs : Number
  captureDepth : Bool
  chargeTotal : List ExitChargeOrder → Number
  executionCost : Number
  exitChargesTotalOverride : Option (Option Number)

namespace PartialBox

variable (pos : PartialBox)

def exitLegs (m : Measurement) : List BoxLegEvaluation :=
  (evaluateExitLegs (boxLegRoles.map fun role => (role, pos.legs role)) m.quotes pos.lotSize m.now m.maxAgeMs pos.direction
    m.captureDepth).map TouchEvaluation.toBoxLegEvaluation

def exitArgs (m : Measurement) : PartialExitArgs where
  direction := pos.direction.getD .longBox
  remainingByRole := remainingByRoleOf pos
  entryPrices := pos.entryPrices
  legs := pos.exitLegs m
  realisedGross := realisedExitGross pos
  exitChargesIncurred := if m.exitChargesTotalOverride.isSome then .fin 0 else pos.cumulativeExitCharges
  entryChargesTotal := pos.entryChargesTotal
  estimatedRemainingExitCharges :=
    m.exitChargesTotalOverride.getD (remainingExitChargesEstimate m.chargeTotal pos (pos.exitLegs m))
  executionCost := m.executionCost

def measure (m : Measurement) : PartialExitMark := markPartialExit (pos.exitArgs m)

end PartialBox

/-! ## What the mark reads -/

namespace PartialBox

variable {pos : PartialBox} {m : Measurement}

def Outstanding (pos : PartialBox) (role : BoxLegRole) : Prop := ¬ remainingByRoleOf pos role ≤ .fin 0

def quoteOf (pos : PartialBox) (m : Measurement) (role : BoxLegRole) : Option Number :=
  (m.quotes (pos.legs role).token).bind fun quote =>
    quote.touchPrice (exitSideFor role (pos.direction.getD .longBox)).book

def exitLeg (pos : PartialBox) (m : Measurement) (role : BoxLegRole) : BoxLegEvaluation :=
  ⟨role, exitSideFor role (pos.direction.getD .longBox), (pos.legs role).token, (pos.legs role).tradingsymbol,
    pos.quoteOf m role⟩

theorem exitLegs_eq (pos : PartialBox) (m : Measurement) : pos.exitLegs m = boxLegRoles.map (pos.exitLeg m) := by
  unfold exitLegs evaluateExitLegs
  rw [List.map_map, List.map_map]
  refine List.map_congr_left fun role _ => ?_
  simp only [Function.comp_apply, evaluateLeg, exitLeg, quoteOf]
  cases m.quotes (pos.legs role).token with
  | none => rfl
  | some quote => simp [BoxQuote.touchFor_price]

theorem pos_of_quoteOf {role : BoxLegRole} {price : Number} (h : pos.quoteOf m role = some price) : .fin 0 < price := by
  obtain ⟨quote, -, htouch⟩ := Option.bind_eq_some_iff.mp h
  obtain hbest | ⟨-, hpos, rfl⟩ := BoxQuote.touchPrice_eq_some.mp htouch
  · exact (bestPrice_isBest hbest).usable
  · exact hpos

@[simp] theorem usablePrice_exitLeg (role : BoxLegRole) : (pos.exitLeg m role).usablePrice = pos.quoteOf m role := by
  unfold BoxLegEvaluation.usablePrice exitLeg
  cases h : pos.quoteOf m role with
  | none => rfl
  | some price => simp [pos_of_quoteOf h]

variable {args : PartialExitArgs}

theorem addLeg_exitLeg (hargs : args.remainingByRole = remainingByRoleOf pos) (unrealised : Unrealised)
    (role : BoxLegRole) :
    args.addLeg unrealised (pos.exitLeg m role) =
      if remainingByRoleOf pos role ≤ .fin 0 then unrealised
      else
        match pos.quoteOf m role with
        | none => { unrealised with markable := false }
        | some price =>
          { unrealised with
            gross := unrealised.gross.add ((args.perUnit role price).mul (remainingByRoleOf pos role)) } := by
  unfold PartialExitArgs.addLeg
  rw [usablePrice_exitLeg, hargs]
  rfl

theorem chargeOrders_congr {m' : Measurement}
    (h : ∀ role, pos.Outstanding role → pos.quoteOf m' role = pos.quoteOf m role) (roles : List BoxLegRole) :
    remainingExitChargeOrders pos (roles.map (pos.exitLeg m')) =
      remainingExitChargeOrders pos (roles.map (pos.exitLeg m)) := by
  induction roles with
  | nil => rfl
  | cons role roles ih =>
    simp only [List.map_cons, remainingExitChargeOrders, usablePrice_exitLeg, ih]
    by_cases hflat : remainingByRoleOf pos role ≤ .fin 0
    · simp [exitLeg, hflat]
    · simp [exitLeg, hflat, h role hflat]

theorem foldl_congr {m' : Measurement} (hargs : args.remainingByRole = remainingByRoleOf pos)
    (h : ∀ role, pos.Outstanding role → pos.quoteOf m' role = pos.quoteOf m role) (roles : List BoxLegRole)
    (unrealised : Unrealised) :
    (roles.map (pos.exitLeg m')).foldl args.addLeg unrealised =
      (roles.map (pos.exitLeg m)).foldl args.addLeg unrealised := by
  induction roles generalizing unrealised with
  | nil => rfl
  | cons role roles ih =>
    have hstep : args.addLeg unrealised (pos.exitLeg m' role) = args.addLeg unrealised (pos.exitLeg m role) := by
      rw [addLeg_exitLeg hargs, addLeg_exitLeg hargs]
      by_cases hflat : remainingByRoleOf pos role ≤ .fin 0
      · simp [hflat]
      · rw [h role hflat]
    simp only [List.map_cons, List.foldl_cons, hstep, ih]

theorem markPartialExit_congr (args : PartialExitArgs) (legs : List BoxLegEvaluation)
    (h : legs.foldl args.addLeg ⟨.fin 0, true⟩ = args.unrealised) :
    markPartialExit { args with legs } = markPartialExit args := by
  have hsame : ({ args with legs } : PartialExitArgs).unrealised = args.unrealised := h
  unfold markPartialExit
  rw [hsame]

theorem measure_congr {quotes' : Number → Option BoxQuote}
    (h : ∀ role, pos.Outstanding role → pos.quoteOf { m with quotes := quotes' } role = pos.quoteOf m role) :
    pos.measure { m with quotes := quotes' } = pos.measure m := by
  have hcharges : remainingExitChargesEstimate m.chargeTotal pos (pos.exitLegs { m with quotes := quotes' }) =
      remainingExitChargesEstimate m.chargeTotal pos (pos.exitLegs m) := by
    unfold remainingExitChargesEstimate
    rw [exitLegs_eq, exitLegs_eq, chargeOrders_congr h]
  have hargs : pos.exitArgs { m with quotes := quotes' } =
      { pos.exitArgs m with legs := pos.exitLegs { m with quotes := quotes' } } := by
    simp only [exitArgs, hcharges]
  unfold measure
  rw [hargs]
  refine markPartialExit_congr _ _ ?_
  unfold PartialExitArgs.unrealised
  change _ = (pos.exitLegs m).foldl _ _
  rw [exitLegs_eq, exitLegs_eq]
  exact foldl_congr rfl h _ _

/-! ## What the mark comes to -/

theorem unrealised_eq (pos : PartialBox) (m : Measurement) :
    (pos.exitArgs m).unrealised = (boxLegRoles.map (pos.exitLeg m)).foldl (pos.exitArgs m).addLeg ⟨.fin 0, true⟩ := by
  rw [← exitLegs_eq]
  rfl

theorem gross_measure (pos : PartialBox) (m : Measurement) :
    (pos.measure m).gross =
      if (pos.exitArgs m).unrealised.markable then
        some (addRounded (realisedExitGross pos) (round2Price (pos.exitArgs m).unrealised.gross))
      else none := by
  simp only [measure, markPartialExit]
  split <;> rfl

theorem markable_foldl (hargs : args.remainingByRole = remainingByRoleOf pos) (roles : List BoxLegRole)
    (unrealised : Unrealised) :
    ((roles.map (pos.exitLeg m)).foldl args.addLeg unrealised).markable = true ↔
      unrealised.markable = true ∧ ∀ role ∈ roles, pos.Outstanding role → pos.quoteOf m role ≠ none := by
  induction roles generalizing unrealised with
  | nil => simp
  | cons role roles ih =>
    rw [List.map_cons, List.foldl_cons, ih, addLeg_exitLeg hargs, List.forall_mem_cons]
    by_cases hflat : remainingByRoleOf pos role ≤ .fin 0
    · simp [hflat, Outstanding]
    · cases hquote : pos.quoteOf m role with
      | none => simp [hflat, Outstanding]
      | some price => simp [hflat, Outstanding]

theorem gross_eq_none : (pos.measure m).gross = none ↔ ∃ role, pos.Outstanding role ∧ pos.quoteOf m role = none := by
  have hmarkable : (pos.exitArgs m).unrealised.markable = true ↔
      ∀ role, pos.Outstanding role → pos.quoteOf m role ≠ none := by
    rw [unrealised_eq, markable_foldl rfl]
    simp [BoxLegRole.mem_boxLegRoles]
  rw [gross_measure]
  by_cases hall : ∀ role, pos.Outstanding role → pos.quoteOf m role ≠ none
  · simp only [hmarkable.mpr hall, if_true, reduceCtorEq, false_iff]
    simpa using hall
  · rw [if_neg (fun hmark => hall (hmarkable.mp hmark))]
    simpa using hall

theorem gross_foldl {entry quote : BoxLegRole → ℚ} (hargs : args.remainingByRole = remainingByRoleOf pos)
    (hentry : ∀ role, (args.entryPrices role).getD (.fin 0) = .fin (entry role))
    (hwhole : ∀ role, ∃ n : ℕ, remainingByRoleOf pos role = .fin n)
    (hquote : ∀ role, pos.Outstanding role → pos.quoteOf m role = some (.fin (quote role))) (roles : List BoxLegRole)
    (g : ℚ) (markable : Bool) :
    ((roles.map (pos.exitLeg m)).foldl args.addLeg ⟨.fin g, markable⟩).gross =
      .fin (g + (roles.map fun role =>
        sideSign role args.direction * (quote role - entry role) * (remainingByRoleOf pos role).value).sum) := by
  induction roles generalizing g with
  | nil => simp
  | cons role roles ih =>
    obtain ⟨n, hn⟩ := hwhole role
    rw [List.map_cons, List.foldl_cons, addLeg_exitLeg hargs, List.map_cons, List.sum_cons, ← add_assoc, ← ih]
    by_cases hflat : remainingByRoleOf pos role ≤ .fin 0
    · have hzero : n = 0 := by simpa [hn] using hflat
      simp [hn, hzero]
    · have hunit : args.perUnit role (.fin (quote role)) =
          .fin (sideSign role args.direction * (quote role - entry role)) := by
        unfold PartialExitArgs.perUnit sideSign
        rw [hentry]
        split <;> simp [Number.sub_fin]
      rw [if_neg hflat, hquote role hflat]
      simp [hunit, hn, Number.mul_fin, Number.add_fin]

end PartialBox

/-! ## Conservation -/

def roleGross (direction : BoxDirection) (entry opened left exit quote : BoxLegRole → ℚ) : ℚ :=
  (boxLegRoles.map fun role => sideSign role direction * (exit role - entry role) * (opened role - left role) +
    sideSign role direction * (quote role - entry role) * left role).sum

def InPaise (q : ℚ) : Prop := ∃ k : ℤ, q = k / 100

namespace InPaise

variable {a b : ℚ}

theorem round2_eq (h : InPaise a) : round2 a = a := by
  obtain ⟨k, rfl⟩ := h
  exact round2_of_int k

theorem add (ha : InPaise a) (hb : InPaise b) : InPaise (a + b) := by
  obtain ⟨k, rfl⟩ := ha
  obtain ⟨l, rfl⟩ := hb
  exact ⟨k + l, by push_cast; ring⟩

theorem sub (ha : InPaise a) (hb : InPaise b) : InPaise (a - b) := by
  obtain ⟨k, rfl⟩ := ha
  obtain ⟨l, rfl⟩ := hb
  exact ⟨k - l, by push_cast; ring⟩

theorem mul_nat (ha : InPaise a) (n : ℕ) : InPaise (a * n) := by
  obtain ⟨k, rfl⟩ := ha
  exact ⟨k * n, by push_cast; ring⟩

theorem signed (ha : InPaise a) (role : BoxLegRole) (direction : BoxDirection) :
    InPaise (sideSign role direction * a) := by
  obtain ⟨k, rfl⟩ := ha
  unfold sideSign
  split
  · exact ⟨k, by ring⟩
  · exact ⟨-k, by push_cast; ring⟩

theorem sum {l : List ℚ} (h : ∀ q ∈ l, InPaise q) : InPaise l.sum := by
  induction l with
  | nil => exact ⟨0, by simp⟩
  | cons q l ih =>
    rw [List.sum_cons]
    exact (h q (.head _)).add (ih fun r hr => h r (.tail _ hr))

end InPaise

structure PartialBox.Of (pos : PartialBox) (p : AccountedPosition) : Prop where
  direction : pos.direction.getD .longBox = p.pos.position.entryDirection
  remaining : pos.remainingQtyByRole = some fun role => some (p.pos.remaining role)
  entryPrices : pos.entryPrices = p.entryPrices
  gross : pos.exitGrossPnls = p.grossPnls

namespace PartialBox.Of

variable {pos : PartialBox} {p : AccountedPosition} {m : Measurement}

theorem remaining_eq (h : pos.Of p) {role : BoxLegRole} {n : ℕ} (hn : p.pos.remaining role = .fin n) :
    remainingByRoleOf pos role = .fin n := by
  unfold remainingByRoleOf
  rw [h.remaining]
  simp only [Option.bind_some, hn, Number.isFinite_fin, if_true, Number.max, Number.fin_lt_fin]
  split
  · rfl
  · rename_i hzero
    have : n = 0 := by simpa using hzero
    simp [this]

variable {direction : BoxDirection} {entry opened quote : BoxLegRole → ℚ} {fills : List ExitFill}

def openGross (p : AccountedPosition) (direction : BoxDirection) (entry quote : BoxLegRole → ℚ) : ℚ :=
  (boxLegRoles.map fun role => sideSign role direction * (quote role - entry role) * (p.pos.remaining role).value).sum

theorem gross_eq (h : pos.Of p) (hsums : p.Sums direction entry opened fills)
    (hquote : ∀ role, pos.Outstanding role → pos.quoteOf m role = some (.fin (quote role))) {realised : ℚ}
    (hrealised : AccountedPosition.grossSum p.grossPnls = .fin realised) (hpaise : InPaise realised) :
    (pos.measure m).gross = some (.fin (realised + round2 (openGross p direction entry quote))) := by
  have hwhole : ∀ role, ∃ n : ℕ, remainingByRoleOf pos role = .fin n := by
    intro role
    obtain ⟨n, hn, -⟩ := hsums.outstanding role
    exact ⟨n, h.remaining_eq hn⟩
  have hentry : ∀ role, ((pos.exitArgs m).entryPrices role).getD (.fin 0) = .fin (entry role) := by
    intro role
    change (pos.entryPrices role).getD (.fin 0) = _
    rw [h.entryPrices]
    exact hsums.entered role
  have hdirection : (pos.exitArgs m).direction = direction := h.direction.trans hsums.directed
  have hopen : (pos.exitArgs m).unrealised.gross = .fin (openGross p direction entry quote) := by
    rw [unrealised_eq, gross_foldl rfl hentry hwhole hquote, zero_add, hdirection]
    unfold openGross
    refine congrArg (fun l : List ℚ => Number.fin l.sum) (List.map_congr_left fun role _ => ?_)
    obtain ⟨n, hn, -⟩ := hsums.outstanding role
    rw [h.remaining_eq hn, hn]
  have hmarkable : (pos.exitArgs m).unrealised.markable = true := by
    rw [unrealised_eq, markable_foldl rfl]
    refine ⟨rfl, fun role _ hout => ?_⟩
    rw [hquote role hout]
    exact Option.some_ne_none _
  have hbooked : realisedExitGross pos = .fin realised := by
    unfold realisedExitGross
    rw [h.gross]
    change round2Price (AccountedPosition.grossSum p.grossPnls) = _
    rw [hrealised, round2Price, hpaise.round2_eq]
  obtain ⟨k, hk⟩ := round2_int (openGross p direction entry quote)
  have hsum : InPaise (realised + round2 (openGross p direction entry quote)) := hpaise.add ⟨k, hk⟩
  rw [gross_measure, if_pos hmarkable, hopen, hbooked, addRounded, round2Price, Number.add_fin, round2Price, hsum.round2_eq]

theorem roleGross_eq (hsums : p.Sums direction entry opened fills) :
    roleGross direction entry opened (fun role => (p.pos.remaining role).value) (meanPrice fills) quote =
      grossOf direction entry fills + openGross p direction entry quote := by
  have hclosed : ∀ role, opened role - (p.pos.remaining role).value = quantityOf fills role := by
    intro role
    obtain ⟨n, hn, hsum⟩ := hsums.outstanding role
    rw [hn, ← hsum]
    exact add_sub_cancel_left _ _
  have hkeys : ∀ f ∈ fills, f.role ∈ boxLegRoles := fun f _ => f.role.mem_boxLegRoles
  have htotal := WeightedMean.sum_difference ExitFill.price (fun role => sideSign role direction) entry
    boxLegRoles_nodup hkeys hsums.positive
  unfold roleGross openGross grossOf
  simp only [hclosed, List.sum_map_add]
  exact congrArg (· + _) htotal.symm

theorem conserves (h : pos.Of p) (hsums : p.Sums direction entry opened fills)
    (hquote : ∀ role, pos.Outstanding role → pos.quoteOf m role = some (.fin (quote role))) :
    ∃ g : ℚ, (pos.measure m).gross = some (.fin g) ∧
      |g - roleGross direction entry opened (fun role => (p.pos.remaining role).value) (meanPrice fills) quote| ≤
        (p.pos.exitAttempts.length + 1) / 200 := by
  obtain ⟨k, hk, herror⟩ := hsums.gross
  refine ⟨_, h.gross_eq hsums hquote hk ⟨k, rfl⟩, ?_⟩
  rw [roleGross_eq hsums]
  have hround := round2_error (openGross p direction entry quote)
  rw [hsums.length] at herror
  rw [abs_le] at herror hround ⊢
  constructor <;> linarith

theorem conserves_paise (h : pos.Of p) (hsums : p.Sums direction entry opened fills)
    (hquote : ∀ role, pos.Outstanding role → pos.quoteOf m role = some (.fin (quote role)))
    (hbooked : AccountedPosition.grossSum p.grossPnls = .fin (grossOf direction entry fills))
    (hentry : ∀ role, InPaise (entry role)) (hfills : InPaise (grossOf direction entry fills))
    (hquotes : ∀ role, InPaise (quote role)) :
    (pos.measure m).gross =
      some (.fin (roleGross direction entry opened (fun role => (p.pos.remaining role).value) (meanPrice fills) quote)) := by
  have hopen : InPaise (openGross p direction entry quote) := by
    refine InPaise.sum ?_
    intro q hq
    obtain ⟨role, -, rfl⟩ := List.mem_map.mp hq
    obtain ⟨n, hn, -⟩ := hsums.outstanding role
    rw [hn]
    exact (((hquotes role).sub (hentry role)).signed role direction).mul_nat n
  rw [h.gross_eq hsums hquote hbooked hfills, hopen.round2_eq, roleGross_eq hsums]

end PartialBox.Of

/-! ## Runs in whole paise -/

theorem grossOf_append (direction : BoxDirection) (entry : BoxLegRole → ℚ) (fills fills' : List ExitFill) :
    grossOf direction entry (fills ++ fills') = grossOf direction entry fills + grossOf direction entry fills' := by
  simp [grossOf]

def PaiseFills (fills : List ExitFill) : Prop := ∀ f ∈ fills, InPaise f.price ∧ ∃ n : ℕ, f.quantity = n

theorem PaiseFills.gross {direction : BoxDirection} {entry : BoxLegRole → ℚ} {fills : List ExitFill}
    (h : PaiseFills fills) (hentry : ∀ role, InPaise (entry role)) : InPaise (grossOf direction entry fills) := by
  refine InPaise.sum ?_
  intro q hq
  obtain ⟨f, hf, rfl⟩ := List.mem_map.mp hq
  obtain ⟨hprice, n, hn⟩ := h f hf
  unfold ExitFill.gross
  rw [hn]
  exact ((hprice.sub (hentry f.role)).signed f.role direction).mul_nat n

theorem grossSum_snoc {grossPnls : List (Option Number)} {gross : Option Number} {a b : ℚ}
    (ha : AccountedPosition.grossSum grossPnls = .fin a) (hb : gross.getD (.fin 0) = .fin b) :
    AccountedPosition.grossSum (grossPnls ++ [gross]) = .fin (a + b) := by
  unfold AccountedPosition.grossSum at ha ⊢
  rw [List.foldl_append, ha, List.foldl_cons, List.foldl_nil, hb, Number.add_fin]

namespace CloseAccount

variable {direction : BoxDirection} {entry opened : BoxLegRole → ℚ} {s : CloseAccount}

structure PaiseSums (direction : BoxDirection) (entry : BoxLegRole → ℚ) (s : CloseAccount) : Prop where
  whole : ∀ f ∈ s.fills, ∃ n : ℕ, f.quantity = n
  gross : (∀ role, InPaise (entry role)) → (∀ f ∈ s.fills, InPaise f.price) →
    AccountedPosition.grossSum s.accounted.grossPnls = .fin (grossOf direction entry s.fills)

variable {result : LeggingExitResult}

theorem whole_fills {pos : MonitoredPosition} (hvalid : pos.invalidRole result.record = none)
    (hwhole : ∀ role, ∃ n : ℕ, pos.remaining role = .fin n) : ∀ f ∈ result.fills, ∃ n : ℕ, f.quantity = n := by
  intro f hf
  obtain ⟨leg, -, -, price, -, -, rfl⟩ := LeggingExitResult.mem_fills.mp hf
  obtain ⟨n, hn⟩ := hwhole leg.role
  obtain ⟨m, hm, -⟩ := MonitoredPosition.confirmed_of_valid hvalid hn
  exact ⟨m, congrArg Number.value hm⟩

section

variable (h : PaiseSums direction entry s)

include h

theorem PaiseSums.banked (hsums : s.accounted.Sums direction entry opened s.fills)
    (hresult : result.WellFormed) (hvalid : s.accounted.pos.invalidRole result.record = none)
    (projected : MonitoredPosition) (booked : Option CloseBooking) :
    PaiseSums direction entry
      ⟨s.accounted.recorded projected (some (s.accounted.attemptGross result)), booked, s.fills ++ result.fills⟩ := by
  have hwhole : ∀ role, ∃ n : ℕ, s.accounted.pos.remaining role = .fin n :=
    fun role => (hsums.outstanding role).imp fun _ hn => hn.1
  have hconfirmed : ∀ role, ∃ m : ℕ, result.record.confirmed role = .fin m := by
    intro role
    obtain ⟨n, hn⟩ := hwhole role
    obtain ⟨m, hm, -⟩ := MonitoredPosition.confirmed_of_valid hvalid hn
    exact ⟨m, hm⟩
  have hnew := whole_fills hvalid hwhole
  refine ⟨fun f hf => (List.mem_append.mp hf).elim (h.whole f) (hnew f), ?_⟩
  intro hentry hfills
  have hpaise : PaiseFills result.fills := fun f hf => ⟨hfills f (List.mem_append_right _ hf), hnew f hf⟩
  have hgross : (some (s.accounted.attemptGross result)).getD (.fin 0) = .fin (grossOf direction entry result.fills) := by
    rw [Option.getD_some, AccountedPosition.attemptGross_eq hresult hsums.directed hsums.entered hconfirmed,
      (hpaise.gross hentry).round2_eq]
  dsimp only
  rw [grossOf_append]
  exact grossSum_snoc (h.gross hentry fun f hf => hfills f (List.mem_append_left _ hf)) hgross

theorem PaiseSums.without (projected : MonitoredPosition) :
    PaiseSums direction entry { s with accounted := s.accounted.recorded projected none } := by
  refine ⟨h.whole, fun hentry hfills => ?_⟩
  have hsum := @grossSum_snoc _ none _ 0 (h.gross hentry hfills) rfl
  rwa [add_zero] at hsum

theorem PaiseSums.applyResult
    (hsums : s.accounted.Sums direction entry opened s.fills) (mode : ExecutionMode) (hresult : result.WellFormed)
    (origin : ExitOrigin) (reason : String) : PaiseSums direction entry (s.applyResult mode result origin reason) := by
  have hcomes := MonitoredPosition.applyLeggingExitResult_comesTo mode s.accounted.pos result origin reason
  unfold CloseAccount.applyResult
  dsimp only
  generalize s.accounted.pos.applyLeggingExitResult mode result origin reason = applied at hcomes ⊢
  cases applied with
  | threw => exact h
  | nothing detail => exact ⟨h.whole, h.gross⟩
  | uncertain persist detail | invalid persist message => exact h.without persist.projected
  | partial_ persist closedRoles => exact h.banked hsums hresult hcomes.1 persist.projected s.booked
  | final projected => exact h.banked hsums hresult hcomes.1 projected _

theorem PaiseSums.step (hsums : s.accounted.Sums direction entry opened s.fills)
    (mode : ExecutionMode) (event : AccountingEvent) (hevent : event.WellFormed) :
    PaiseSums direction entry (s.step mode event).1 := by
  unfold CloseAccount.step
  by_cases hbooked : s.booked.isSome = true
  · simpa [hbooked] using h
  · simp only [hbooked, Bool.false_eq_true, if_false]
    cases event with
    | result answer origin reason => exact h.applyResult hsums mode hevent origin reason
    | reconciled exact_ state => exact ⟨h.whole, h.gross⟩

end

theorem Opened.paiseSums (h : s.Opened) (direction : BoxDirection) (entry : BoxLegRole → ℚ) :
    PaiseSums direction entry s where
  whole := by simp [h.fills]
  gross _ _ := by simp [h.gross, h.fills, AccountedPosition.grossSum, grossOf]

/-- Without an unpriced fill, the gross is missing exactly when an outstanding role has no quote, and else what closed
and open quantities make, up to half a paisa a rounding. -/
theorem partial_exit_conserved (mode : ExecutionMode) (s : CloseAccount) (hs : s.Opened) (events : List AccountingEvent)
    (h : Run.Guarded (step mode) (fun s event => event.WellFormed ∧ s.Priced mode event) s events) (pos : PartialBox)
    (hof : pos.Of (Run.finish (step mode) s events).accounted) (m : Measurement) :
    let reached := Run.finish (step mode) s events
    let entry := fun role => (s.accounted.entryPrice role).value
    ((pos.measure m).gross = none ↔ ∃ role, pos.Outstanding role ∧ pos.quoteOf m role = none) ∧
    (∀ quotes', (∀ role, pos.Outstanding role →
        quotes' (pos.legs role).token = m.quotes (pos.legs role).token) →
      pos.measure { m with quotes := quotes' } = pos.measure m) ∧
    ∀ quote : BoxLegRole → ℚ,
      (∀ role, pos.Outstanding role → pos.quoteOf m role = some (.fin (quote role))) →
      ∃ g : ℚ, (pos.measure m).gross = some (.fin g) ∧
        let gross := roleGross s.accounted.pos.position.entryDirection entry
          (fun role => (s.accounted.pos.remaining role).value) (fun role => (reached.accounted.pos.remaining role).value)
          (meanPrice reached.fills) quote
        |g - gross| ≤ (reached.accounted.pos.exitAttempts.length + 1) / 200 ∧
        ((∀ role, InPaise (entry role) ∧ InPaise (quote role)) → (∀ f ∈ reached.fills, InPaise f.price) → g = gross) := by
  have hreached := h.invariant
    (fun t => Accounted s.accounted.pos.position.entryDirection (fun role => (s.accounted.entryPrice role).value)
        (fun role => (s.accounted.pos.remaining role).value) t ∧
      PaiseSums s.accounted.pos.position.entryDirection (fun role => (s.accounted.entryPrice role).value) t)
    (fun t event ht hevent => ⟨ht.1.step mode event hevent, ht.2.step ht.1.sums mode event hevent.1⟩)
    ⟨hs.accounted, hs.paiseSums _ _⟩
  obtain ⟨haccounted, hpaise⟩ := hreached
  intro reached entry
  refine ⟨PartialBox.gross_eq_none, ?_, ?_⟩
  · intro quotes' hquotes
    refine PartialBox.measure_congr ?_
    intro role hout
    unfold PartialBox.quoteOf
    dsimp only
    rw [hquotes role hout]
  · intro quote hquote
    obtain ⟨g, hg, herror⟩ := hof.conserves haccounted.sums hquote
    refine ⟨g, hg, herror, ?_⟩
    intro hprices hfills
    have hbooked := hpaise.gross (fun role => (hprices role).1) hfills
    have hexact := hof.conserves_paise haccounted.sums hquote hbooked (fun role => (hprices role).1)
      (PaiseFills.gross (fun f hf => ⟨hfills f hf, hpaise.whole f hf⟩) fun role => (hprices role).1)
      fun role => (hprices role).2
    rw [hg, Option.some_inj, Number.fin.injEq] at hexact
    exact hexact

end CloseAccount

/-! ## A fill without a price -/

def AccountedPosition.asBox50 (p : AccountedPosition) : PartialBox :=
  ⟨.fin 50, .fin 50, p.pos.position.direction, p.pos.position.legs, some fun role => some (p.pos.remaining role),
    p.entryPrices, p.grossPnls, .fin 0, some (.fin 0), some (.fin 0)⟩

theorem AccountedPosition.asBox50_of (p : AccountedPosition) : p.asBox50.Of p := ⟨rfl, rfl, rfl, rfl⟩

def measuredAt (price : ℚ) : Measurement :=
  ⟨fun _ => some (bookAt price price), .fin 0, .fin 0, false, fun _ => .fin 0, .fin 0, none⟩

def partlyExited : CloseAccount := accountedRun [.result (closesAll (onlyK1Ce 20)) .manual "MANUAL"]

/-- 20 of K1 CE closed at 100 and everything else quoted at 101. -/
theorem partial_exit_conserved_box50 :
    ∃ g : ℚ, (partlyExited.accounted.asBox50.measure (measuredAt 101)).gross = some (.fin g) ∧
      |g - roleGross .longBox (fun _ => 90) (fun _ => 50) (fun role => (partlyExited.accounted.pos.remaining role).value)
        (meanPrice partlyExited.fills) (fun _ => 101)| ≤ 2 / 200 := by
  have hguarded : Run.Guarded (CloseAccount.step .live)
      (fun s event => event.WellFormed ∧ CloseAccount.Priced .live s event) box50
      [.result (closesAll (onlyK1Ce 20)) .manual "MANUAL"] := by
    refine ⟨⟨closesAt_wellFormed .., ?_, ?_⟩, trivial⟩
    · intro huncertain
      cases huncertain
    · intro _ _
      decide +kernel
  have hsound := CloseAccount.partial_exit_conserved .live box50 box50_opened _ hguarded
    partlyExited.accounted.asBox50 (AccountedPosition.asBox50_of _) (measuredAt 101)
  obtain ⟨g, hg, herror, -⟩ := hsound.2.2 (fun _ => 101) fun role _ => by cases role <;> decide +kernel
  refine ⟨g, hg, herror.trans (le_of_eq ?_)⟩
  have hattempts : (Run.finish (CloseAccount.step .live) box50
      [.result (closesAll (onlyK1Ce 20)) .manual "MANUAL"]).accounted.pos.exitAttempts.length = 1 := by decide +kernel
  rw [hattempts]
  norm_num

def unpricedExit : CloseAccount := accountedRun (unpricedFill.take 2)

theorem unpriced_exit_unmarked : box50.Opened ∧ (∀ event ∈ unpricedFill.take 2, event.WellFormed) ∧
    unpricedExit.accounted.asBox50.Of unpricedExit.accounted ∧
    (∀ role, unpricedExit.accounted.asBox50.quoteOf (measuredAt 100) role = some (.fin 100)) ∧
    unpricedExit.accounted.pos.remaining .k1Ce = .fin 30 ∧
    (unpricedExit.accounted.asBox50.measure (measuredAt 100)).gross = some (.fin (-200)) ∧
    ∀ exit : BoxLegRole → ℚ, exit .k1Ce ≠ 90 →
      roleGross .longBox (fun _ => 90) (fun _ => 50) (fun role => (unpricedExit.accounted.pos.remaining role).value) exit
        (fun _ => 100) ≠ -200 := by
  refine ⟨box50_opened, ?_, AccountedPosition.asBox50_of _, fun role => by cases role <;> decide +kernel, by decide +kernel,
    by decide +kernel, ?_⟩
  · intro event hevent
    simp only [unpricedFill, List.take_succ_cons, List.take_zero, List.mem_cons, List.not_mem_nil, or_false] at hevent
    obtain rfl | rfl := hevent
    · exact ⟨List.nodup_nil, fun _ hleg => absurd hleg List.not_mem_nil⟩
    · trivial
  · intro exit hexit hgross
    have h1 : (unpricedExit.accounted.pos.remaining .k1Ce).value = 30 := by decide +kernel
    have h2 : (unpricedExit.accounted.pos.remaining .k2Ce).value = 50 := by decide +kernel
    have h3 : (unpricedExit.accounted.pos.remaining .k2Pe).value = 50 := by decide +kernel
    have h4 : (unpricedExit.accounted.pos.remaining .k1Pe).value = 50 := by decide +kernel
    simp only [roleGross, boxLegRoles, List.map_cons, List.map_nil, List.sum_cons, List.sum_nil, h1, h2, h3, h4, sideSign,
      entrySideFor, boxEntrySidesByDirection, if_true, reduceCtorEq, if_false] at hgross
    exact hexit (by linarith)

end BoxEngine
