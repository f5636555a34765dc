import BoxEngine.CandidateEvaluationSound

/-!
# The exit decision

A box is left when its edge has converged or enough profit is captured, and the exit pays.
-/

namespace BoxEngine

structure ExitLeg where
  side : OrderSide
  price : Option ℚ
  fresh : Bool
  executable : Bool

structure ExitThresholds where
  convergenceFloor : ℚ
  convergencePct : ℚ
  minExitNetPnl : ℚ
  minExitNetPnlPerUnit : ℚ
  profitCapturePct : ℚ
  minCapturedPct : ℚ

structure ExitArgs where
  direction : BoxDirection
  boxWidth : ℚ
  lotSize : ℚ
  entryNetDebitPerUnit : ℚ
  entryEdge : ℚ
  entryNetEdge : ℚ
  entryChargesTotal : Option ℚ
  currentExitChargesTotal : Option ℚ
  expirySafety : Bool
  executionAllowance : Option ℚ
  useRealisableForFloor : Bool
  cfg : ExitThresholds

inductive BoxExitReason where
  | expirySafety | edgeConverged | profitCapture
  deriving DecidableEq

inductive BoxExitBlockedReason where
  | unpricedCharges | netBelowFloor | insufficientExitLiquidity
  deriving DecidableEq

structure BoxExitDecision where
  shouldExit : Bool
  reason : Option BoxExitReason
  ruleReason : Option BoxExitReason
  remainingEdge : Option ℚ
  capturedEdge : Option ℚ
  capturedPct : Option ℚ
  grossPnl : Option ℚ
  netPnl : Option ℚ
  executable : Bool
  blockedReason : Option BoxExitBlockedReason

def resolvePerLot (flat perUnit lotSize : ℚ) : ℚ :=
  if ¬0 < perUnit then flat else if lotSize ≤ 0 then flat else max flat (round2 (perUnit * lotSize))

def minExitNetPnlForLot (cfg : ExitThresholds) (lotSize : ℚ) : ℚ :=
  resolvePerLot cfg.minExitNetPnl cfg.minExitNetPnlPerUnit lotSize

def convergenceThreshold (entryNetEdge : ℚ) (cfg : ExitThresholds) : ℚ :=
  round2 (max cfg.convergenceFloor (cfg.convergencePct * entryNetEdge))

/-- A closing SELL takes money in, a closing BUY pays it out. -/
def creditFrom : ℚ → List ExitLeg → Option ℚ
  | credit, [] => some credit
  | credit, leg :: legs =>
    match leg.price with
    | none => none
    | some price => if 0 < price then creditFrom (credit + -debitSign leg.side * price) legs else none

def exitNetCreditPerUnit (legs : List ExitLeg) : Option ℚ := (creditFrom 0 legs).map round2

def exitLiquidityOk (legs : List ExitLeg) : Bool := decide (legs.length = 4) && legs.all fun l => l.fresh && l.executable

namespace ExitArgs

variable (args : ExitArgs)

def allowance : ℚ := if args.useRealisableForFloor then round2 (args.executionAllowance.getD 0) else 0

variable (exitCredit : ℚ)

def grossPnl : ℚ := round2 ((exitCredit - args.entryNetDebitPerUnit) * args.lotSize)

def roundTrip : Option ℚ :=
  args.entryChargesTotal.bind fun entry => args.currentExitChargesTotal.map fun exit_ => round2 (entry + exit_)

def remainingEdge : ℚ :=
  round2 ((directionSign args.direction * args.boxWidth - exitCredit) * args.lotSize)

def capturedEdge : ℚ := round2 (args.entryEdge - args.remainingEdge exitCredit)

def capturedPct : Option ℚ :=
  if 0 < |args.entryEdge| then some (round2 (args.capturedEdge exitCredit / |args.entryEdge|)) else none

def netPnl : Option ℚ := args.roundTrip.map fun charges => round2 (args.grossPnl exitCredit - charges)

def converged : Bool :=
  decide (args.remainingEdge exitCredit ≤ convergenceThreshold args.entryNetEdge args.cfg)

def capturedEnough (floorNet exitCredit : ℚ) : Bool :=
  decide (round2 (args.cfg.profitCapturePct * args.entryNetEdge) ≤ floorNet) ||
    (args.capturedPct exitCredit).any fun pct => decide (args.cfg.minCapturedPct ≤ pct)

/-- What the arithmetic concludes, before asking whether it can be done: the rule, and what blocks it. -/
def rule (exitCredit : Option ℚ) : Option BoxExitReason × Option BoxExitBlockedReason :=
  match exitCredit.bind fun credit => (args.netPnl credit).map fun net => (credit, net) with
  | none => (none, some .unpricedCharges)
  | some (credit, net) =>
    let floorNet := round2 (net - args.allowance)
    if 0 < net then
      let clearsFloor := decide (minExitNetPnlForLot args.cfg args.lotSize ≤ floorNet)
      if args.converged credit && clearsFloor then (some .edgeConverged, none)
      else if clearsFloor && args.capturedEnough floorNet credit then (some .profitCapture, none)
      else if args.converged credit || args.capturedEnough floorNet credit then (none, some .netBelowFloor)
      else (none, none)
    else if args.converged credit then (none, some .netBelowFloor)
    else (none, none)

end ExitArgs

def evaluateExitDecision (args : ExitArgs) (legs : List ExitLeg) : BoxExitDecision :=
  let exitCredit := exitNetCreditPerUnit legs
  let (ruleReason, blocked) := args.rule exitCredit
  let executable := exitLiquidityOk legs
  let reason := if executable then ruleReason.or (if args.expirySafety then some .expirySafety else none) else none
  { shouldExit := reason.isSome && executable
    reason := if reason.isSome && executable then reason else none
    ruleReason
    remainingEdge := exitCredit.map args.remainingEdge
    capturedEdge := exitCredit.map args.capturedEdge
    capturedPct := exitCredit.bind args.capturedPct
    grossPnl := exitCredit.map args.grossPnl
    netPnl := exitCredit.bind args.netPnl
    executable
    blockedReason := if (ruleReason.isSome || args.expirySafety) && !executable then some .insufficientExitLiquidity
      else blocked }

/-- Whole lots, width and debit in whole paise, and an edge that is what the debit left of the width. -/
structure ExitArgs.WholePaise (args : ExitArgs) : Prop where
  lot : ∃ n : ℕ, args.lotSize = n
  width : round2 args.boxWidth = args.boxWidth
  debit : round2 args.entryNetDebitPerUnit = args.entryNetDebitPerUnit
  edge : args.entryEdge = (directionSign args.direction * args.boxWidth - args.entryNetDebitPerUnit) * args.lotSize

theorem round2_mul {a : ℚ} (h : round2 a = a) (k : ℤ) : round2 (k * a) = k * a := by
  obtain ⟨m, hm⟩ := round2_int a
  rw [h] at hm
  have hk := round2_of_int (k * m)
  rw [hm]
  push_cast at hk
  rwa [mul_div_assoc] at hk

variable {args : ExitArgs} {legs legs' : List ExitLeg} {credit credit' : ℚ}

theorem ExitArgs.WholePaise.captured (h : args.WholePaise) (hcredit : round2 credit = credit) :
    args.capturedEdge credit = args.grossPnl credit := by
  obtain ⟨n, hn⟩ := h.lot
  have hwhole : ∀ {a b : ℚ}, round2 a = a → round2 b = b → round2 ((a - b) * args.lotSize) = (a - b) * args.lotSize := by
    intro a b ha hb
    have hdiff : round2 (a - b) = a - b := round2_sub ha hb
    have := round2_mul hdiff n
    rwa [Int.cast_natCast, ← hn, mul_comm] at this
  have hwidth : round2 (directionSign args.direction * args.boxWidth) = directionSign args.direction * args.boxWidth :=
    round2_mul h.width _
  rw [capturedEdge, remainingEdge, hwhole hwidth hcredit, grossPnl, h.edge]
  congr 1
  ring

/-! ## A better market -/

def AsGood (leg leg' : ExitLeg) : Prop :=
  leg'.side = leg.side ∧ ∃ price price', leg.price = some price ∧ leg'.price = some price' ∧ 0 < price ∧ 0 < price' ∧
    match leg.side with
    | .sell => price ≤ price'
    | .buy => price' ≤ price

theorem creditFrom_better (h : List.Forall₂ AsGood legs legs') : ∀ {c c' : ℚ}, c ≤ c' →
    ∃ credit credit', creditFrom c legs = some credit ∧ creditFrom c' legs' = some credit' ∧ credit ≤ credit' := by
  induction h with
  | nil => exact fun hle => ⟨_, _, rfl, rfl, hle⟩
  | cons hleg _ ih =>
    intro c c' hle
    obtain ⟨hside, price, price', hprice, hprice', hpos, hpos', hbetter⟩ := hleg
    simp only [creditFrom, hprice, hprice', hpos, hpos', if_true, hside]
    apply ih
    split at hbetter
    next hsell =>
      simp only [hsell, debitSign]
      push_cast
      linarith
    next hbuy =>
      simp only [hbuy, debitSign]
      push_cast
      linarith

theorem exitCredit_better (h : List.Forall₂ AsGood legs legs') : ∃ credit credit', exitNetCreditPerUnit legs = some credit ∧
    exitNetCreditPerUnit legs' = some credit' ∧ credit ≤ credit' ∧ round2 credit = credit := by
  obtain ⟨c, c', hc, hc', hle⟩ := creditFrom_better h (le_refl (0 : ℚ))
  exact ⟨round2 c, round2 c', by simp [exitNetCreditPerUnit, hc], by simp [exitNetCreditPerUnit, hc'], round2_mono hle,
    round2_round2 c⟩

namespace ExitArgs

variable (hlot : 0 ≤ args.lotSize) (hle : credit ≤ credit')
include hlot hle

theorem grossPnl_mono : args.grossPnl credit ≤ args.grossPnl credit' :=
  round2_mono (mul_le_mul_of_nonneg_right (by linarith) hlot)

theorem remainingEdge_anti : args.remainingEdge credit' ≤ args.remainingEdge credit :=
  round2_mono (mul_le_mul_of_nonneg_right (by linarith) hlot)

theorem converged_mono (h : args.converged credit = true) : args.converged credit' = true := by
  rw [converged, decide_eq_true_eq] at h ⊢
  exact (remainingEdge_anti hlot hle).trans h

theorem capturedEnough_mono {floorNet floorNet' : ℚ} (hfloor : floorNet ≤ floorNet')
    (h : args.capturedEnough floorNet credit = true) : args.capturedEnough floorNet' credit' = true := by
  have hpct : ∀ pct ∈ args.capturedPct credit, ∃ pct' ∈ args.capturedPct credit', pct ≤ pct' := by
    intro pct hpct
    unfold capturedPct at hpct ⊢
    split at hpct
    next hedge =>
      cases hpct
      have hcaptured : args.capturedEdge credit ≤ args.capturedEdge credit' :=
        round2_mono (sub_le_sub_left (remainingEdge_anti hlot hle) _)
      exact ⟨_, if_pos hedge, round2_mono (div_le_div_of_nonneg_right hcaptured hedge.le)⟩
    next => cases hpct
  rw [capturedEnough, Bool.or_eq_true, decide_eq_true_eq, Option.any_eq_true] at h ⊢
  refine h.imp hfloor.trans' ?_
  rintro ⟨pct, hmem, hmin⟩
  obtain ⟨pct', hmem', hle'⟩ := hpct pct hmem
  exact ⟨pct', hmem', decide_eq_true ((of_decide_eq_true hmin).trans hle')⟩

end ExitArgs

/-- The net is positive and clears the floor, with the edge converged or the profit captured. -/
theorem ExitArgs.rule_isSome {exitCredit : Option ℚ} : (args.rule exitCredit).1.isSome ↔
    ∃ credit ∈ exitCredit, ∃ net ∈ args.netPnl credit, 0 < net ∧
      minExitNetPnlForLot args.cfg args.lotSize ≤ round2 (net - args.allowance) ∧
      (args.converged credit = true ∨ args.capturedEnough (round2 (net - args.allowance)) credit = true) := by
  unfold ExitArgs.rule
  rcases exitCredit with _ | credit
  · simp
  cases hnet : args.netPnl credit with
  | none => simp [hnet]
  | some net =>
    simp only [Option.bind_some, Option.map_some, hnet, Option.mem_some_iff, exists_eq_left']
    by_cases hpos : 0 < net
    · simp only [hpos, true_and]
      by_cases hclears : minExitNetPnlForLot args.cfg args.lotSize ≤ round2 (net - args.allowance)
      · cases args.converged credit <;> cases args.capturedEnough (round2 (net - args.allowance)) credit <;> simp [hclears]
      · cases args.converged credit <;> cases args.capturedEnough (round2 (net - args.allowance)) credit <;> simp [hclears]
    · cases args.converged credit <;> simp [hpos]

/-- **A better market cancels no exit, and no exit for profit is a loss.** -/
theorem exit_decision_sound (h : args.WholePaise) (hbetter : List.Forall₂ AsGood legs legs') :
    (evaluateExitDecision args legs).capturedEdge = (evaluateExitDecision args legs).grossPnl ∧
    ((evaluateExitDecision args legs).ruleReason.isSome → (evaluateExitDecision args legs').ruleReason.isSome) ∧
    ((evaluateExitDecision args legs).executable = (evaluateExitDecision args legs').executable →
      (evaluateExitDecision args legs).shouldExit = true → (evaluateExitDecision args legs').shouldExit = true) ∧
    ((evaluateExitDecision args legs).shouldExit = true →
      (evaluateExitDecision args legs).reason ≠ some .expirySafety →
      ∃ net, (evaluateExitDecision args legs).netPnl = some net ∧ 0 < net ∧
        minExitNetPnlForLot args.cfg args.lotSize ≤ net - args.allowance) := by
  obtain ⟨credit, credit', hcredit, hcredit', hle, hpaise⟩ := exitCredit_better hbetter
  obtain ⟨n, hn⟩ := h.lot
  have hlot : 0 ≤ args.lotSize := hn ▸ n.cast_nonneg
  have hrule : (args.rule (exitNetCreditPerUnit legs)).1.isSome → (args.rule (exitNetCreditPerUnit legs')).1.isSome := by
    rw [ExitArgs.rule_isSome, ExitArgs.rule_isSome]
    rintro ⟨_, hmem, net, hnet, hpos, hclears, hrule⟩
    obtain rfl := Option.some_inj.mp (hcredit.symm.trans hmem)
    obtain ⟨charges, hcharges, rfl⟩ := Option.map_eq_some_iff.mp hnet
    have hnet' : round2 (args.grossPnl credit - charges) ≤ round2 (args.grossPnl credit' - charges) :=
      round2_mono (sub_le_sub_right (ExitArgs.grossPnl_mono hlot hle) _)
    have hfloor := round2_mono (sub_le_sub_right hnet' args.allowance)
    refine ⟨credit', hcredit', _, Option.map_eq_some_iff.mpr ⟨charges, hcharges, rfl⟩, hpos.trans_le hnet',
      hclears.trans hfloor, ?_⟩
    exact hrule.imp (ExitArgs.converged_mono hlot hle) (ExitArgs.capturedEnough_mono hlot hle hfloor)
  refine ⟨?_, hrule, fun hsame hexit => ?_, fun hexit hreason => ?_⟩
  · simp [evaluateExitDecision, hcredit, h.captured hpaise]
  · simp only [evaluateExitDecision] at hsame hexit ⊢
    rw [← hsame]
    cases hexec : exitLiquidityOk legs with
    | false => simp [hexec] at hexit
    | true =>
      simp only [hexec, if_true, Bool.and_true, Option.isSome_or, Bool.or_eq_true] at hexit ⊢
      exact hexit.imp_left hrule
  · have hsome : (args.rule (exitNetCreditPerUnit legs)).1.isSome := by
      simp only [evaluateExitDecision] at hexit hreason
      cases hr : (args.rule (exitNetCreditPerUnit legs)).1 with
      | some rule => rfl
      | none =>
        refine absurd ?_ hreason
        cases hexec : exitLiquidityOk legs <;> cases hexpiry : args.expirySafety <;> simp_all
    obtain ⟨_, hmem, net, hnet, hpos, hclears, -⟩ := ExitArgs.rule_isSome.mp hsome
    obtain rfl := Option.some_inj.mp (hcredit.symm.trans hmem)
    refine ⟨net, by simpa [evaluateExitDecision, hcredit] using hnet, hpos, ?_⟩
    obtain ⟨charges, -, rfl⟩ := Option.map_eq_some_iff.mp hnet
    have hallowance : round2 args.allowance = args.allowance := by
      unfold ExitArgs.allowance
      split <;> simp
    rwa [round2_sub (round2_round2 _) hallowance] at hclears

def box100 : ExitArgs where
  direction := .longBox
  boxWidth := 100
  lotSize := 50
  entryNetDebitPerUnit := 95
  entryEdge := 250
  entryNetEdge := 150
  entryChargesTotal := some 40
  currentExitChargesTotal := some 40
  expirySafety := false
  executionAllowance := some 10
  useRealisableForFloor := true
  cfg := ⟨20, 1 / 4, 50, 0, 1 / 2, 3 / 5⟩

def closing (bid : ℚ) : List ExitLeg :=
  [⟨.sell, some bid, true, true⟩, ⟨.buy, some 60, true, true⟩, ⟨.sell, some 30, true, true⟩, ⟨.buy, some 21, true, true⟩]

theorem exit_decision_sound_box100 : (evaluateExitDecision box100 (closing 151)).shouldExit = true := by
  have hsame : ∀ side price, 0 < price → AsGood ⟨side, some price, true, true⟩ ⟨side, some price, true, true⟩ :=
    fun side price hpos => ⟨rfl, price, price, rfl, rfl, hpos, hpos, by cases side <;> exact le_rfl⟩
  have hbetter : List.Forall₂ AsGood (closing 150) (closing 151) :=
    .cons ⟨rfl, 150, 151, rfl, rfl, by norm_num, by norm_num, by norm_num⟩ <| .cons (hsame _ _ (by norm_num)) <|
      .cons (hsame _ _ (by norm_num)) <| .cons (hsame _ _ (by norm_num)) .nil
  have hpaise : box100.WholePaise := ⟨⟨50, rfl⟩, by decide +kernel, by decide +kernel, by decide +kernel⟩
  exact (exit_decision_sound hpaise hbetter).2.2.1 rfl (by decide +kernel)

end BoxEngine
