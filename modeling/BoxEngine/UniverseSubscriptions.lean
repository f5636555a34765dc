import BoxEngine.Lib.Run
import BoxEngine.LiveExit
import BoxEngine.PositionBook
import BoxEngine.ResidualFlatten
import Mathlib.Data.Finset.Option
import Mathlib.Data.List.Sort

/-!
# What the feed carries

The engine asks the feed for its windows and for the contracts it holds. A pass waits for spot values and then
replaces what is subscribed in one step; STOP replaces it at once.
-/

namespace BoxEngine

open Js

/-! ## Windows -/

structure BoxBoardItem where
  symbol : String
  spotToken : Number

structure BoxChainIndex where
  expiry : String
  strikeStep : ℚ
  strikes : List ℚ
  ce : ℚ → Option BoxOptionInstrument
  pe : ℚ → Option BoxOptionInstrument

structure BoxUnderlyingState where
  spotToken : Number
  expiry : String
  strikeStep : ℚ
  atmStrike : ℚ
  ce : List BoxOptionInstrument
  pe : List BoxOptionInstrument
  windowAt : ℚ

variable (strikes : List ℚ)

def sortStrikes : List ℚ := strikes.insertionSort (· ≤ ·)

def atmStrikeFor (spot : ℚ) : Option ℚ :=
  match sortStrikes strikes with
  | [] => none
  | first :: rest => some (rest.foldl (fun best s => if |s - spot| < |best - spot| then s else best) first)

def strikeStepOf : ℚ :=
  let sorted := sortStrikes strikes.dedup
  if sorted.length < 2 then 0
  else
    let gaps := sortStrikes (List.zipWith (fun a b => b - a) sorted sorted.tail)
    gaps.getD (gaps.length / 2) 0

def selectStrikeWindow (spot : ℚ) (eachSide : ℕ) : Option (ℚ × List ℚ) :=
  let sorted := sortStrikes strikes.dedup
  match atmStrikeFor sorted spot with
  | none => none
  | some atm =>
    let idx := sorted.idxOf atm
    let lo := idx - eachSide
    let hi := min (sorted.length - 1) (idx + eachSide)
    some (atm, (sorted.drop lo).take (hi + 1 - lo))

def shouldRecentreWindow (currentAtm spot strikeStep hysteresis : ℚ) : Bool :=
  decide (0 < strikeStep) && decide (strikeStep * (1 / 2 + hysteresis) < |spot - currentAtm|)

def buildUnderlyingState (board : BoxBoardItem) (chain : BoxChainIndex) (spot : ℚ) (eachSide : ℕ) (now : ℚ) :
    Option BoxUnderlyingState :=
  (selectStrikeWindow chain.strikes spot eachSide).map fun (atm, window) =>
    { spotToken := board.spotToken
      expiry := chain.expiry
      strikeStep := chain.strikeStep
      atmStrike := atm
      ce := window.filterMap chain.ce
      pe := window.filterMap chain.pe
      windowAt := now }

def windowNeedsRebuild (state : BoxUnderlyingState) (spot now hysteresis minIntervalMs : ℚ) : Bool :=
  if ¬ 0 < spot then false
  else if now - state.windowAt < minIntervalMs then false
  else shouldRecentreWindow state.atmStrike spot state.strikeStep hysteresis

def windowTokens (state : BoxUnderlyingState) : List Number :=
  state.ce.map BoxOptionInstrument.token ++ state.pe.map BoxOptionInstrument.token

/-! ## The engine -/

structure UniverseConfig where
  maxSubscribedTokens : ℕ
  maxUnderlyings : ℕ
  indicativeDiscovery : Bool
  indicativeMaxUnderlyings : ℕ
  atmHysteresis : ℚ
  windowMinIntervalMs : ℚ

structure MonitoredBox where
  underlying : String
  legs : BoxLegRole → BoxOptionInstrument

structure ResidualAttempt where
  id : String
  legs : List ResidualLegExposure

structure UniversePass where
  now : ℚ
  mustKeep : Finset String

structure UniverseEngine where
  running : Bool
  marketOpen : Bool
  strikeLevel : ℕ
  forceWindowRebuild : Bool
  exclusions : Finset String
  board : List BoxBoardItem
  chains : String → Option BoxChainIndex
  spots : Number → Option ℚ
  windows : String → Option BoxUnderlyingState
  positions : PositionBook MonitoredBox
  residualByAttempt : List ResidualAttempt
  residualUnderlyingByAttempt : String → Option String
  subscribedOptionTokens : Finset Number
  subscribedSpotTokens : Finset Number
  passes : List UniversePass

inductive UniverseEvent where
  | run
  | stop
  | market (isOpen : Bool)
  | setStrikeLevel (level : ℚ)
  | exclude (exclusions : Finset String)
  | spots (spots : Number → Option ℚ)
  /-- The instruments are loaded: which underlyings there are, in order, and their chains. -/
  | passStarted (board : List BoxBoardItem) (chains : String → Option BoxChainIndex) (now : ℚ)
  | passEnded (pass : ℕ)
  | opened (pos : Booked MonitoredBox)
  | drained (pos : Booked MonitoredBox)
  | closed (id : String)
  | deleted (id : String) (held : Bool)
  | residual (attemptId : String) (legs : List ResidualLegExposure) (underlying : Option String)

def clampStrikeLevel (level : ℚ) : ℕ :=
  let n := ⌊level + 1 / 2⌋
  if n ≤ 1 then 1 else if 3 ≤ n then 3 else 2

namespace UniverseEngine

variable (s : UniverseEngine)

def positionTokens : Finset Number :=
  (s.positions.byId.flatMap fun pos => boxLegRoles.map fun role => (pos.position.legs role).token).toFinset

def residualTokens : Finset Number :=
  (s.residualByAttempt.flatMap fun attempt => attempt.legs.map ResidualLegExposure.token).toFinset

def residualUnderlyings : Finset String :=
  (s.residualByAttempt.filterMap fun attempt => s.residualUnderlyingByAttempt attempt.id).toFinset

def exposedUnderlyings : Finset String :=
  (s.positions.byId.map fun pos => pos.position.underlying).toFinset ∪ s.residualUnderlyings

def applySubscriptions (wantOption wantSpot : Finset Number) : UniverseEngine :=
  { s with subscribedOptionTokens := wantOption, subscribedSpotTokens := wantSpot }

def shrinkToOpenPositions : UniverseEngine :=
  let keepUnderlyings := s.exposedUnderlyings
  let windows := fun underlying => if underlying ∈ keepUnderlyings then s.windows underlying else none
  applySubscriptions { s with windows } (s.positionTokens ∪ s.residualTokens)
    (keepUnderlyings.biUnion fun underlying => ((windows underlying).map BoxUnderlyingState.spotToken).toFinset)

def ensureResidualSubscriptions : UniverseEngine :=
  if s.residualTokens ⊆ s.subscribedOptionTokens then s
  else s.applySubscriptions (s.subscribedOptionTokens ∪ s.residualTokens) s.subscribedSpotTokens

def registerResidual (attemptId : String) (legs : List ResidualLegExposure)
    (underlying : Option String) : UniverseEngine :=
  if legs.isEmpty then
    { s with
      residualByAttempt := s.residualByAttempt.filter fun attempt => attempt.id ≠ attemptId
      residualUnderlyingByAttempt := Function.update s.residualUnderlyingByAttempt attemptId none }
  else
    ensureResidualSubscriptions { s with
      residualByAttempt := Keyed.put ResidualAttempt.id s.residualByAttempt ⟨attemptId, legs⟩
      residualUnderlyingByAttempt :=
        if underlying.isSome then Function.update s.residualUnderlyingByAttempt attemptId underlying
        else s.residualUnderlyingByAttempt }

/-! ## The end of a universe pass -/

structure PassProgress where
  windows : String → Option BoxUnderlyingState
  used : ℕ
  indicativeUsed : ℕ
  wantOption : Finset Number
  wantSpot : Finset Number
  liveWindows : Finset String
  skippedForBudget : List String
  skippedForUnderlyingCap : List String
  skippedForIndicativeCap : List String

section

variable (cfg : UniverseConfig)
variable (s : UniverseEngine)
variable (pass : UniversePass)

def nextWindow (item : BoxBoardItem) (chain : BoxChainIndex)
    (existing : Option BoxUnderlyingState) : Option BoxUnderlyingState :=
  match s.spots item.spotToken with
  | none => existing
  | some spot =>
    let needsBuild := s.forceWindowRebuild || match existing with
      | none => true
      | some state => decide (state.expiry ≠ chain.expiry) ||
          windowNeedsRebuild state spot pass.now cfg.atmHysteresis cfg.windowMinIntervalMs
    if needsBuild then (buildUnderlyingState item chain spot s.strikeLevel pass.now).or existing else existing

/-- One underlying of the pass. What must stay is bound by no cap and no budget. -/
def placeWindow (cap : ℕ) (progress : PassProgress) (next : BoxBoardItem × ℕ) : PassProgress :=
  let (item, i) := next
  let mustKeep := decide (item.symbol ∈ pass.mustKeep)
  let discoveryAllowed := s.running || (!s.marketOpen && cfg.indicativeDiscovery)
  let streams := s.running || mustKeep
  if cap ≤ i ∧ ¬ mustKeep then
    { progress with skippedForUnderlyingCap := progress.skippedForUnderlyingCap ++ [item.symbol] }
  else if ¬ mustKeep ∧ item.symbol ∈ s.exclusions then progress
  else match s.chains item.symbol with
    | none => progress
    | some chain =>
      if ¬ discoveryAllowed ∧ ¬ mustKeep then progress
      else match nextWindow cfg s pass item chain (progress.windows item.symbol) with
        | none => progress
        | some state =>
          let tokens := windowTokens state
          let cost := tokens.length + 1
          let placed : PassProgress :=
            { progress with
              liveWindows := insert item.symbol progress.liveWindows
              windows := Function.update progress.windows item.symbol (some state) }
          if streams then
            if cfg.maxSubscribedTokens < progress.used + cost ∧ ¬ mustKeep then
              { progress with skippedForBudget := progress.skippedForBudget ++ [item.symbol] }
            else
              { placed with
                used := progress.used + cost
                wantOption := progress.wantOption ∪ tokens.toFinset
                wantSpot := insert item.spotToken progress.wantSpot }
          else if 0 < cfg.indicativeMaxUnderlyings ∧ cfg.indicativeMaxUnderlyings ≤ progress.indicativeUsed then
            { progress with skippedForIndicativeCap := progress.skippedForIndicativeCap ++ [item.symbol] }
          else { placed with indicativeUsed := progress.indicativeUsed + 1 }

def placeWindows : PassProgress :=
  let ordered := s.board.filter (fun item => item.symbol ∈ pass.mustKeep) ++
    s.board.filter fun item => item.symbol ∉ pass.mustKeep
  let cap := if 0 < cfg.maxUnderlyings then min cfg.maxUnderlyings ordered.length else ordered.length
  ordered.zipIdx.foldl (placeWindow cfg s pass cap) ⟨s.windows, 0, 0, ∅, ∅, ∅, [], [], []⟩

def finishPass : UniverseEngine :=
  let placed := placeWindows cfg s pass
  let wantOption := placed.wantOption ∪ s.positionTokens ∪ s.residualTokens
  applySubscriptions
    { s with
      forceWindowRebuild := false
      windows := fun underlying =>
        if underlying ∈ placed.liveWindows ∨ underlying ∈ pass.mustKeep then placed.windows underlying else none }
    wantOption placed.wantSpot

def step : UniverseEvent → UniverseEngine × Unit
  | .run => ({ s with running := true }, ())
  | .stop => (if s.running then { s with running := false }.shrinkToOpenPositions else s, ())
  | .market isOpen =>
    (if isOpen = s.marketOpen then s
      else if isOpen ∧ ¬ s.running then { s with marketOpen := isOpen }.shrinkToOpenPositions
      else { s with marketOpen := isOpen }, ())
  | .setStrikeLevel level =>
    let next := clampStrikeLevel level
    (if next = s.strikeLevel then s else { s with strikeLevel := next, forceWindowRebuild := true }, ())
  | .exclude exclusions => ({ s with exclusions }, ())
  | .spots spots => ({ s with spots }, ())
  | .passStarted board chains now =>
    ({ s with
        board := board.filter fun item => (chains item.symbol).isSome
        chains
        passes := s.passes ++ [⟨now, s.exposedUnderlyings⟩] }, ())
  | .passEnded n =>
    (match s.passes[n]? with
      | some pass => { finishPass cfg s pass with passes := s.passes.eraseIdx n }
      | none => s, ())
  | .opened pos => ({ s with positions := s.positions.add pos }, ())
  | .drained pos => ({ s with positions := s.positions.add pos }, ())
  | .closed id => ({ s with positions := s.positions.remove id }, ())
  | .deleted id held =>
    let removed := { s with positions := s.positions.remove id }
    (if ¬ held then s else if s.running then removed else removed.shrinkToOpenPositions, ())
  | .residual attemptId legs underlying => (s.registerResidual attemptId legs underlying, ())

end

end UniverseEngine

/-! ## Exposure is subscribed -/

namespace UniverseEngine

variable {cfg : UniverseConfig} {s : UniverseEngine}

/-- Every contract of the open positions and of the outstanding residuals is subscribed. -/
structure Covered (s : UniverseEngine) : Prop where
  positions : ∀ pos ∈ s.positions.byId, ∀ role, (pos.position.legs role).token ∈ s.subscribedOptionTokens
  residuals : ∀ attempt ∈ s.residualByAttempt, ∀ leg ∈ attempt.legs, leg.token ∈ s.subscribedOptionTokens

theorem mem_positionTokens {pos : Booked MonitoredBox} (h : pos ∈ s.positions.byId) (role : BoxLegRole) :
    (pos.position.legs role).token ∈ s.positionTokens := by
  simp only [positionTokens, List.mem_toFinset, List.mem_flatMap]
  exact ⟨pos, h, List.mem_map_of_mem role.mem_boxLegRoles⟩

theorem mem_residualTokens {attempt : ResidualAttempt} (h : attempt ∈ s.residualByAttempt) {leg : ResidualLegExposure}
    (hleg : leg ∈ attempt.legs) : leg.token ∈ s.residualTokens := by
  simp only [residualTokens, List.mem_toFinset, List.mem_flatMap]
  exact ⟨attempt, h, List.mem_map_of_mem hleg⟩

theorem covered_applySubscriptions {wantOption : Finset Number} (hpositions : s.positionTokens ⊆ wantOption)
    (hresiduals : s.residualTokens ⊆ wantOption) (wantSpot : Finset Number) :
    (s.applySubscriptions wantOption wantSpot).Covered :=
  ⟨fun _ hpos role => hpositions (mem_positionTokens hpos role), fun _ hattempt _ hleg =>
    hresiduals (mem_residualTokens hattempt hleg)⟩

theorem covered_shrink (s : UniverseEngine) : s.shrinkToOpenPositions.Covered := by
  apply covered_applySubscriptions
  · exact Finset.subset_union_left
  · exact Finset.subset_union_right

theorem covered_finishPass (s : UniverseEngine) (pass : UniversePass) : (finishPass cfg s pass).Covered := by
  apply covered_applySubscriptions
  · exact Finset.subset_union_right.trans Finset.subset_union_left
  · exact Finset.subset_union_right

theorem covered_ensureResidualSubscriptions
    (h : ∀ pos ∈ s.positions.byId, ∀ role, (pos.position.legs role).token ∈ s.subscribedOptionTokens) :
    s.ensureResidualSubscriptions.Covered := by
  unfold ensureResidualSubscriptions
  split
  · rename_i hsubset
    exact ⟨h, fun attempt hattempt leg hleg => hsubset (mem_residualTokens hattempt hleg)⟩
  · refine ⟨fun pos hpos role => ?_, fun attempt hattempt leg hleg => ?_⟩
    · exact Finset.mem_union_left _ (h pos hpos role)
    · exact Finset.mem_union_right _ (mem_residualTokens hattempt hleg)

theorem Covered.registerResidual (h : s.Covered) (attemptId : String) (legs : List ResidualLegExposure)
    (underlying : Option String) : (s.registerResidual attemptId legs underlying).Covered := by
  unfold UniverseEngine.registerResidual
  split
  · exact ⟨h.positions, fun attempt hattempt => h.residuals attempt (List.mem_of_mem_filter hattempt)⟩
  · exact covered_ensureResidualSubscriptions h.positions

theorem Covered.remove (h : s.Covered) (id : String) : Covered { s with positions := s.positions.remove id } :=
  ⟨fun pos hpos => h.positions pos (PositionBook.mem_remove hpos), h.residuals⟩

theorem Covered.add (h : s.Covered) (pos : Booked MonitoredBox) :
    Covered { s with positions := s.positions.add pos } ↔
      ∀ role, (pos.position.legs role).token ∈ s.subscribedOptionTokens := by
  constructor
  · intro hadded
    exact hadded.positions pos (Keyed.self_mem_put _ _)
  · intro hpos
    refine ⟨fun other hother => ?_, h.residuals⟩
    rcases Keyed.mem_put hother with rfl | hold
    · exact hpos
    · exact h.positions other hold

/-! ## Runs -/

def Streaming (s : UniverseEngine) : UniverseEvent → Prop
  | .opened pos => ∀ role, (pos.position.legs role).token ∈ s.subscribedOptionTokens
  | .drained pos => ∀ role, (pos.position.legs role).token ∈ s.subscribedOptionTokens
  | _ => True

theorem Covered.step (h : s.Covered) (event : UniverseEvent) : (s.step cfg event).1.Covered ↔ s.Streaming event := by
  cases event with
  | opened pos => exact h.add pos
  | drained pos => exact h.add pos
  | run => exact iff_of_true ⟨h.positions, h.residuals⟩ trivial
  | stop =>
    refine iff_of_true ?_ trivial
    simp only [UniverseEngine.step]
    split
    · exact covered_shrink _
    · exact h
  | market isOpen =>
    refine iff_of_true ?_ trivial
    simp only [UniverseEngine.step]
    split
    · exact h
    · split
      · exact covered_shrink _
      · exact ⟨h.positions, h.residuals⟩
  | setStrikeLevel level =>
    refine iff_of_true ?_ trivial
    simp only [UniverseEngine.step]
    split
    · exact h
    · exact ⟨h.positions, h.residuals⟩
  | exclude exclusions | spots spots
  | passStarted board chains now => exact iff_of_true ⟨h.positions, h.residuals⟩ trivial
  | passEnded n =>
    refine iff_of_true ?_ trivial
    simp only [UniverseEngine.step]
    split
    · rename_i pass _
      have hfinished : (s.finishPass cfg pass).Covered := covered_finishPass s pass
      exact ⟨hfinished.positions, hfinished.residuals⟩
    · exact h
  | closed id => exact iff_of_true (h.remove id) trivial
  | deleted id held =>
    refine iff_of_true ?_ trivial
    simp only [UniverseEngine.step]
    split
    · exact h
    · split
      · exact h.remove id
      · exact covered_shrink _
  | residual attemptId legs underlying => exact iff_of_true (h.registerResidual attemptId legs underlying) trivial

end UniverseEngine

/-- **Exposure never goes blind**, exactly where every position joins the book with its strikes subscribed. -/
theorem exposure_subscribed (cfg : UniverseConfig) (s : UniverseEngine) (hs : s.Covered) (events : List UniverseEvent) :
    (∀ before after, events = before ++ after → (Run.finish (UniverseEngine.step cfg) s before).Covered) ↔
      Run.Guarded (UniverseEngine.step cfg) UniverseEngine.Streaming s events := by
  constructor
  · intro h
    apply Run.guarded_of_forall
    rintro earlier event later rfl
    have hbefore := h earlier (event :: later) rfl
    have hafter := h (earlier ++ [event]) later (by simp)
    rw [Run.finish_append] at hafter
    exact (hbefore.step event).mp hafter
  · rintro h before after rfl
    exact h.append.1.invariant UniverseEngine.Covered (fun s event hs hjoin => (hs.step event).mpr hjoin) hs

/-! ## A position that opens after STOP -/

instance UniverseEngine.Streaming.decidable (s : UniverseEngine) (event : UniverseEvent) : Decidable (s.Streaming event) :=
  match event with
  | .opened pos => decidable_of_iff (∀ role ∈ boxLegRoles, (pos.position.legs role).token ∈ s.subscribedOptionTokens)
      ⟨fun h role => h role role.mem_boxLegRoles, fun h role _ => h role⟩
  | .drained pos => decidable_of_iff (∀ role ∈ boxLegRoles, (pos.position.legs role).token ∈ s.subscribedOptionTokens)
      ⟨fun h role => h role role.mem_boxLegRoles, fun h role _ => h role⟩
  | .run | .stop | .market _ | .setStrikeLevel _ | .exclude _ | .spots _ | .passStarted .. | .passEnded _
  | .closed _ | .deleted .. | .residual .. => instDecidableTrue

def universeDefaults : UniverseConfig := ⟨3000, 0, false, 0, 1 / 4, 60000⟩

def idleUniverse : UniverseEngine where
  running := false
  marketOpen := true
  strikeLevel := 1
  forceWindowRebuild := false
  exclusions := ∅
  board := []
  chains := fun _ => none
  spots := fun _ => none
  windows := fun _ => none
  positions := ⟨[], fun _ => none, ∅⟩
  residualByAttempt := []
  residualUnderlyingByAttempt := fun _ => none
  subscribedOptionTokens := ∅
  subscribedSpotTokens := ∅
  passes := []

theorem idleUniverse_covered : idleUniverse.Covered := by
  constructor <;> simp [idleUniverse]

def niftyCall (strike : ℚ) : BoxOptionInstrument := ⟨.fin strike, "CE", "NFO"⟩

def niftyPut (strike : ℚ) : BoxOptionInstrument := ⟨.fin (strike + 1), "PE", "NFO"⟩

def niftyChain : BoxChainIndex where
  expiry := "2026-09-24"
  strikeStep := 50
  strikes := [20000, 20050, 20100, 20150, 20200]
  ce strike := some (niftyCall strike)
  pe strike := some (niftyPut strike)

def niftyBox : Booked MonitoredBox where
  id := "t1"
  key := "NIFTY:20000:20050"
  position :=
    { underlying := "NIFTY"
      legs := fun role => match role with
        | .k1Ce => niftyCall 20000
        | .k2Ce => niftyCall 20050
        | .k2Pe => niftyPut 20050
        | .k1Pe => niftyPut 20000 }

def centredPass (spot now : ℚ) : List UniverseEvent :=
  [.spots fun _ => some spot, .passStarted [⟨"NIFTY", .fin 7⟩] (fun _ => some niftyChain) now, .passEnded 0]

/-- The box opens in its window, which then moves away and is dropped by STOP. -/
theorem exposure_subscribed_recentred :
    (Run.finish (UniverseEngine.step universeDefaults) idleUniverse
      (.run :: centredPass 20050 0 ++ .opened niftyBox :: centredPass 20150 60000 ++ [.stop])).Covered := by
  have hrun := (exposure_subscribed universeDefaults idleUniverse idleUniverse_covered
    (.run :: centredPass 20050 0 ++ .opened niftyBox :: centredPass 20150 60000 ++ [.stop])).mpr (by decide +kernel)
  exact hrun _ [] (List.append_nil _).symm

theorem blind_after_stop :
    let stopped := Run.finish (UniverseEngine.step universeDefaults) idleUniverse (.run :: centredPass 20050 0 ++ [.stop])
    let moved := Run.finish (UniverseEngine.step universeDefaults) idleUniverse
      (.run :: centredPass 20050 0 ++ centredPass 20150 60000)
    idleUniverse.Covered ∧
      ¬ (stopped.step universeDefaults (.opened niftyBox)).1.Covered ∧
      ¬ (moved.step universeDefaults (.opened niftyBox)).1.Covered := by
  have hblind : ∀ {s : UniverseEngine}, (niftyCall 20000).token ∉ s.subscribedOptionTokens →
      ¬ (s.step universeDefaults (.opened niftyBox)).1.Covered := by
    intro s hmissing h
    exact hmissing (h.positions niftyBox (Keyed.self_mem_put _ _) .k1Ce)
  refine ⟨idleUniverse_covered, hblind ?_, hblind ?_⟩
  · decide +kernel
  · decide +kernel

/-! ## Re-centring -/

theorem atmStrikeFor_nearest {strikes : List ℚ} {spot atm : ℚ} (h : atmStrikeFor strikes spot = some atm) :
    atm ∈ strikes ∧ ∀ s ∈ strikes, |atm - spot| ≤ |s - spot| := by
  have hscan : ∀ (l : List ℚ) (best : ℚ),
      let found := l.foldl (fun best s => if |s - spot| < |best - spot| then s else best) best
      (found = best ∨ found ∈ l) ∧ |found - spot| ≤ |best - spot| ∧ ∀ s ∈ l, |found - spot| ≤ |s - spot| := by
    intro l
    induction l with
    | nil => simp
    | cons s l ih =>
      intro best
      obtain ⟨hmem, hle, hall⟩ := ih (if |s - spot| < |best - spot| then s else best)
      rw [List.foldl_cons]
      split at hle
      next hlt =>
        rw [if_pos hlt] at hmem hall ⊢
        exact ⟨.inr (List.mem_cons.mpr hmem), hle.trans hlt.le, List.forall_mem_cons.mpr ⟨hle, hall⟩⟩
      next hlt =>
        rw [if_neg hlt] at hmem hall ⊢
        exact ⟨hmem.imp_right (.tail _), hle, List.forall_mem_cons.mpr ⟨hle.trans (not_lt.mp hlt), hall⟩⟩
  have hperm := List.perm_insertionSort (· ≤ ·) strikes
  unfold atmStrikeFor sortStrikes at h
  split at h
  · cases h
  next first rest hsorted =>
    obtain ⟨hmem, hle, hall⟩ := hscan rest first
    rw [Option.some_inj.mp h] at hmem hle hall
    rw [hsorted] at hperm
    refine ⟨hperm.subset (List.mem_cons.mpr hmem), fun s hs => ?_⟩
    rcases List.mem_cons.mp (hperm.symm.subset hs) with rfl | hs
    · exact hle
    · exact hall s hs

/-- Some strike is within the hysteresis band of the spot, as the chain's step measures it. -/
def InBand (spot hysteresis : ℚ) : Prop :=
  ¬0 < spot ∨ strikeStepOf strikes ≤ 0 ∨ ∃ strike ∈ strikes, |spot - strike| ≤ strikeStepOf strikes * (1 / 2 + hysteresis)

/-- **Re-centring settles** exactly where some strike is within the band. -/
theorem recentring_settles {board : BoxBoardItem} {chain : BoxChainIndex} {spot now : ℚ} {eachSide : ℕ}
    {state : BoxUnderlyingState} (hchain : chain.strikeStep = strikeStepOf chain.strikes)
    (hbuilt : buildUnderlyingState board chain spot eachSide now = some state) (hysteresis minIntervalMs : ℚ) :
    (∀ later, now ≤ later → windowNeedsRebuild state spot later hysteresis minIntervalMs = false) ↔
      InBand chain.strikes spot hysteresis := by
  obtain ⟨⟨atm, window⟩, hpicked, rfl⟩ := Option.map_eq_some_iff.mp hbuilt
  have hatm : atmStrikeFor (sortStrikes chain.strikes.dedup) spot = some atm := by
    simp only [selectStrikeWindow] at hpicked
    split at hpicked
    · cases hpicked
    next hatm =>
      cases hpicked
      exact hatm
  have hmem : ∀ s, s ∈ sortStrikes chain.strikes.dedup ↔ s ∈ chain.strikes := by simp [sortStrikes]
  obtain ⟨hin, hnearest⟩ := atmStrikeFor_nearest hatm
  simp only [windowNeedsRebuild, shouldRecentreWindow, hchain, InBand]
  by_cases hspot : 0 < spot
  · simp only [hspot, not_true_eq_false, if_false, false_or]
    constructor
    · intro h
      have hlater := h (now + max 0 minIntervalMs) (by simp)
      rw [if_neg (by simp)] at hlater
      simp only [Bool.and_eq_false_iff, decide_eq_false_iff_not, not_lt] at hlater
      exact hlater.imp_right fun hle => ⟨atm, (hmem atm).mp hin, hle⟩
    · intro h later _
      split
      · rfl
      simp only [Bool.and_eq_false_iff, decide_eq_false_iff_not, not_lt]
      refine h.imp_right fun ⟨strike, hstrike, hle⟩ => ?_
      rw [abs_sub_comm]
      exact (hnearest strike ((hmem strike).mpr hstrike)).trans (abs_sub_comm spot strike ▸ hle)
  · simp [hspot]

def gappedChain : BoxChainIndex where
  expiry := "2026-01-29"
  strikeStep := 10
  strikes := [100, 110, 120, 130, 200]
  ce := fun _ => none
  pe := fun _ => none

def gappedWindow (spot : ℚ) : Option BoxUnderlyingState :=
  buildUnderlyingState ⟨"ACME", .fin 7⟩ gappedChain spot 3 0

theorem recentring_settles_gapped :
    (∀ later, 0 ≤ later → windowNeedsRebuild ((gappedWindow 124).get (by decide +kernel)) 124 later (1 / 5) 60000 = false) ↔
      InBand gappedChain.strikes 124 (1 / 5) :=
  recentring_settles (by decide +kernel) (Option.some_get _).symm (1 / 5) 60000

-- Between the two far strikes the nearest one is out of the band.
example : (gappedWindow 165).any fun state => windowNeedsRebuild state 165 60000 (1 / 5) 60000 := by
  decide +kernel

end BoxEngine
