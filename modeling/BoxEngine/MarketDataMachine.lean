import BoxEngine.Lib.Number
import BoxEngine.Lib.Run

/-!
# The market-data health machine

The quote feed's lifecycle, connection after connection. `gen` counts the accepted authentications; a book counts only
under the current one.
-/

namespace BoxEngine

open Js

inductive MarketDataState where
  | disabled
  | connecting
  | authenticating
  | synchronizing
  | ready
  | degraded
  | disconnected
  | authExpired
  deriving DecidableEq

structure MarketDataStateMachineOptions where
  enabled : Bool
  heartbeatMaxAgeMs : Option ℚ
  bookMaxAgeMs : Option ℚ

structure DepthStamp where
  at_ : ℚ
  gen : ℕ

structure MarketDataStateMachine where
  current : MarketDataState
  heartbeatMaxAgeMs : ℚ
  bookMaxAgeMs : ℚ
  gen : ℕ
  desired : List Number
  depthAt : Number → Option DepthStamp
  lastFrameAt : Option ℚ
  backlog : Bool

namespace MarketDataStateMachine

def new (opts : MarketDataStateMachineOptions) : MarketDataStateMachine where
  current := if opts.enabled then .disconnected else .disabled
  heartbeatMaxAgeMs := max 0 (opts.heartbeatMaxAgeMs.getD 5000)
  bookMaxAgeMs := max 0 (opts.bookMaxAgeMs.getD 10000)
  gen := 0
  desired := []
  depthAt := fun _ => none
  lastFrameAt := none
  backlog := false

variable (m : MarketDataStateMachine)

def isInstrumentFresh (token : Number) (now : ℚ) : Bool :=
  match m.depthAt token with
  | none => false
  | some d => d.gen = m.gen && now - d.at_ ≤ m.bookMaxAgeMs

variable (now : ℚ)

def isTransportLive : Bool :=
  match m.lastFrameAt with
  | none => false
  | some frame => now - frame ≤ m.heartbeatMaxAgeMs

def anyDesiredFresh : Bool :=
  m.desired.any fun token => m.isInstrumentFresh token now

def reevaluate : MarketDataStateMachine :=
  match m.current with
  | .disabled | .authExpired | .connecting | .authenticating | .disconnected => m
  | _ =>
    if m.isTransportLive now = false ∨ m.backlog = true ∨ m.anyDesiredFresh now = false then
      if m.current = .ready then { m with current := .degraded }
      else if m.current = .degraded then m
      else { m with current := .synchronizing }
    else { m with current := .ready }

def isShut : Bool := m.current = .disabled || m.current = .authExpired

def setDesiredInstruments (tokens : List Number) (now : ℚ) : MarketDataStateMachine :=
  { m with desired := tokens.filter fun t => t.isFinite && decide (Number.fin 0 < t) }.reevaluate now

def onSubscriptionsConfirmed : MarketDataStateMachine :=
  if m.isShut then m else m.reevaluate now

def onConnecting : MarketDataStateMachine :=
  if m.isShut then m else { m with current := .connecting }

def onSocketOpen : MarketDataStateMachine :=
  if m.isShut then m else { m with current := .authenticating }

def onAuthenticated : MarketDataStateMachine :=
  if m.isShut then m else { m with gen := m.gen + 1, backlog := false, current := .synchronizing }

def onSessionRestored : MarketDataStateMachine :=
  if m.current ≠ .authExpired then m
  else { m with depthAt := fun _ => none, lastFrameAt := none, backlog := false, current := .disconnected }

def onHeartbeat (at_ : Option ℚ) (now : ℚ) : MarketDataStateMachine :=
  if m.isShut then m else { m with lastFrameAt := some (at_.getD now) }.reevaluate now

def onFrame (at_ : Option ℚ) (now : ℚ) : MarketDataStateMachine :=
  if m.isShut then m else { m with lastFrameAt := some (at_.getD now) }.reevaluate now

def onUsableDepth (token : Number) (at_ : Option ℚ) (now : ℚ) : MarketDataStateMachine :=
  if m.isShut then m
  else
    { m with
      depthAt := Function.update m.depthAt token (some ⟨at_.getD now, m.gen⟩)
      lastFrameAt := some (at_.getD now) }.reevaluate now

def onProcessingBacklog (active : Bool) (now : ℚ) : MarketDataStateMachine :=
  { m with backlog := active }.reevaluate now

def onDisconnected : MarketDataStateMachine :=
  if m.isShut then m else { m with current := .disconnected }

def onSessionLost : MarketDataStateMachine :=
  if m.current = .disabled then m else { m with current := .authExpired }

def setEnabled (enabled : Bool) : MarketDataStateMachine :=
  if enabled = false then { m with current := .disabled }
  else if m.current = .disabled then { m with current := .disconnected }
  else m

end MarketDataStateMachine

inductive MarketDataEvent where
  | setDesiredInstruments (tokens : List Number)
  | onSubscriptionsConfirmed
  | onConnecting
  | onSocketOpen
  | onAuthenticated
  | onSessionRestored
  | onHeartbeat (at_ : Option ℚ)
  | onFrame (at_ : Option ℚ)
  | onUsableDepth (token : Number) (at_ : Option ℚ)
  | onProcessingBacklog (active : Bool)
  | onDisconnected
  | onSessionLost
  | setEnabled (enabled : Bool)
  | evaluate
  deriving DecidableEq

structure MarketDataCall where
  now : ℚ
  event : MarketDataEvent
  deriving DecidableEq

namespace MarketDataStateMachine

def after (m : MarketDataStateMachine) (c : MarketDataCall) : MarketDataStateMachine :=
  match c.event with
  | .setDesiredInstruments tokens => m.setDesiredInstruments tokens c.now
  | .onSubscriptionsConfirmed => m.onSubscriptionsConfirmed c.now
  | .onConnecting => m.onConnecting
  | .onSocketOpen => m.onSocketOpen
  | .onAuthenticated => m.onAuthenticated
  | .onSessionRestored => m.onSessionRestored
  | .onHeartbeat at_ => m.onHeartbeat at_ c.now
  | .onFrame at_ => m.onFrame at_ c.now
  | .onUsableDepth token at_ => m.onUsableDepth token at_ c.now
  | .onProcessingBacklog active => m.onProcessingBacklog active c.now
  | .onDisconnected => m.onDisconnected
  | .onSessionLost => m.onSessionLost
  | .setEnabled enabled => m.setEnabled enabled
  | .evaluate => m.reevaluate c.now

def step (m : MarketDataStateMachine) (c : MarketDataCall) : MarketDataStateMachine × MarketDataState :=
  (m.after c, (m.after c).current)

end MarketDataStateMachine

namespace MarketDataCall

/-! ## What a call brings -/

variable (c : MarketDataCall)

def frame : Option ℚ :=
  match c.event with
  | .onHeartbeat at_ => some (at_.getD c.now)
  | .onFrame at_ => some (at_.getD c.now)
  | .onUsableDepth _ at_ => some (at_.getD c.now)
  | _ => none

def depth : Option (Number × ℚ) :=
  match c.event with
  | .onUsableDepth token at_ => some (token, at_.getD c.now)
  | _ => none

def Interrupts : Prop :=
  c.event ∈ [MarketDataEvent.onConnecting, .onSocketOpen, .onAuthenticated, .onDisconnected, .onSessionLost,
    .setEnabled false]

def Evaluates : Prop :=
  ¬c.Interrupts ∧ c.event ≠ .onSessionRestored ∧ c.event ≠ .setEnabled true

def instruments (desired : List Number) (c : MarketDataCall) : List Number :=
  match c.event with
  | .setDesiredInstruments tokens => tokens.filter fun t => t.isFinite && decide (Number.fin 0 < t)
  | _ => desired

def backlogged (backlog : Bool) (c : MarketDataCall) : Bool :=
  match c.event with
  | .onProcessingBacklog active => active
  | _ => backlog

end MarketDataCall

open MarketDataCall

namespace MarketDataStateMachine

variable {opts : MarketDataStateMachineOptions} {m : MarketDataStateMachine} {l after_ : List MarketDataCall}
  {c : MarketDataCall} {now : ℚ}

def desiredBy (l : List MarketDataCall) : List Number := l.foldl instruments []

def backlogOf (l : List MarketDataCall) : Bool := l.foldl backlogged false

def heartbeatBound (opts : MarketDataStateMachineOptions) : ℚ := max 0 (opts.heartbeatMaxAgeMs.getD 5000)

def bookBound (opts : MarketDataStateMachineOptions) : ℚ := max 0 (opts.bookMaxAgeMs.getD 10000)

/-- Since the last authentication a frame and a depth arrived, both recent enough. -/
def Evidence (opts : MarketDataStateMachineOptions) (l : List MarketDataCall) (now : ℚ) : Prop :=
  ∃ before t after_, l = before ++ ⟨t, .onAuthenticated⟩ :: after_ ∧ (∀ c ∈ after_, ¬c.Interrupts) ∧
    backlogOf after_ = false ∧
    (∃ c ∈ after_, ∃ stamp, c.frame = some stamp ∧ now - stamp ≤ heartbeatBound opts) ∧
    ∃ c ∈ after_, ∃ token stamp, c.depth = some (token, stamp) ∧ token ∈ desiredBy l ∧ now - stamp ≤ bookBound opts

/-- The evidence was there at the last evaluation, and nothing interrupted since. -/
def Earned (opts : MarketDataStateMachineOptions) (l : List MarketDataCall) : Prop :=
  ∃ past c later, l = past ++ c :: later ∧ c.Evaluates ∧ Evidence opts (past ++ [c]) c.now ∧
    ∀ c' ∈ later, ¬c'.Evaluates ∧ ¬c'.Interrupts

def run (opts : MarketDataStateMachineOptions) (l : List MarketDataCall) : MarketDataStateMachine :=
  Run.finish step (new opts) l

structure Faithful (opts : MarketDataStateMachineOptions) (l : List MarketDataCall) : Prop where
  earned : ∀ past, past <+: l → (run opts past).current = .ready → Earned opts past
  depthless : ∀ before t after_, before ++ ⟨t, .onAuthenticated⟩ :: after_ <+: l → (∀ c ∈ after_, c.depth = none) →
    (run opts (before ++ ⟨t, .onAuthenticated⟩ :: after_)).current ≠ .ready
  latched : ∀ past c, past ++ [c] <+: l → (run opts past).current = .authExpired →
    (run opts (past ++ [c])).current ≠ .authExpired → c.event = .onSessionRestored

/-! ## The evaluation -/

def Established (m : MarketDataStateMachine) : Prop :=
  m.current = .synchronizing ∨ m.current = .ready ∨ m.current = .degraded

def Lacking (m : MarketDataStateMachine) (now : ℚ) : Prop :=
  m.isTransportLive now = false ∨ m.backlog = true ∨ m.anyDesiredFresh now = false

instance : Decidable (m.Lacking now) := by unfold Lacking; infer_instance

theorem reevaluate_of_established (h : m.Established) (now : ℚ) :
    m.reevaluate now = { m with
      current := if m.Lacking now then (if m.current = .synchronizing then .synchronizing else .degraded) else .ready } := by
  unfold reevaluate
  by_cases hlack : m.Lacking now
  · have hcond := hlack
    unfold Lacking at hcond
    rcases h with hcurrent | hcurrent | hcurrent
    · simp [hcurrent, hcond, hlack]
    · simp [hcurrent, hcond, hlack]
    · obtain ⟨current, _, _, _, _, _, _, _⟩ := m
      obtain rfl : current = .degraded := hcurrent
      simp [hcond, hlack]
  · have hcond := hlack
    unfold Lacking at hcond
    rcases h with hcurrent | hcurrent | hcurrent <;> simp [hcurrent, hcond, hlack]

theorem reevaluate_of_not_established (h : ¬m.Established) (now : ℚ) : m.reevaluate now = m := by
  unfold reevaluate
  cases hcurrent : m.current with
  | synchronizing => exact absurd (.inl hcurrent) h
  | ready => exact absurd (.inr (.inl hcurrent)) h
  | degraded => exact absurd (.inr (.inr hcurrent)) h
  | _ => rfl

theorem reevaluate_eq (m : MarketDataStateMachine) (now : ℚ) : ∃ current, m.reevaluate now = { m with current } := by
  by_cases h : m.Established
  · exact ⟨_, reevaluate_of_established h now⟩
  · exact ⟨m.current, reevaluate_of_not_established h now⟩

theorem established_reevaluate : (m.reevaluate now).Established ↔ m.Established := by
  by_cases h : m.Established
  · simp only [h, iff_true]
    rw [reevaluate_of_established h]
    by_cases hlack : m.Lacking now
    · by_cases hcurrent : m.current = .synchronizing <;> simp [Established, hlack, hcurrent]
    · simp [Established, hlack]
  · rw [reevaluate_of_not_established h]

theorem ready_reevaluate (h : (m.reevaluate now).current = .ready) :
    m.Established ∧ m.isTransportLive now = true ∧ m.backlog = false ∧ m.anyDesiredFresh now = true := by
  have hup : m.Established := established_reevaluate.mp (.inr (.inl h))
  have hfull : ¬m.Lacking now := by
    intro hlack
    rw [reevaluate_of_established hup] at h
    by_cases hcurrent : m.current = .synchronizing <;> simp [hlack, hcurrent] at h
  unfold Lacking at hfull
  push Not at hfull
  exact ⟨hup, by simpa using hfull⟩

/-! ## What the calls since the authentication brought -/

structure Session (m : MarketDataStateMachine) (after_ : List MarketDataCall) : Prop where
  quiet : ∀ c ∈ after_, ¬c.Interrupts
  backlog : m.backlog = backlogOf after_
  depth : ∀ token d, m.depthAt token = some d → d.gen = m.gen → ∃ c ∈ after_, c.depth = some (token, d.at_)
  frame : ∀ stamp, m.lastFrameAt = some stamp →
    (∃ c ∈ after_, c.frame = some stamp) ∨ ∀ token d, m.depthAt token = some d → d.gen ≠ m.gen

structure Told (opts : MarketDataStateMachineOptions) (m : MarketDataStateMachine) (l : List MarketDataCall) : Prop where
  heartbeat : m.heartbeatMaxAgeMs = heartbeatBound opts
  book : m.bookMaxAgeMs = bookBound opts
  desired : m.desired = desiredBy l
  past : ∀ token d, m.depthAt token = some d → d.gen ≤ m.gen
  session : m.Established → ∃ before t after_, l = before ++ ⟨t, .onAuthenticated⟩ :: after_ ∧ Session m after_

theorem desiredBy_snoc (l : List MarketDataCall) (c : MarketDataCall) :
    desiredBy (l ++ [c]) = instruments (desiredBy l) c := by
  simp [desiredBy]

theorem backlogOf_snoc (l : List MarketDataCall) (c : MarketDataCall) :
    backlogOf (l ++ [c]) = backlogged (backlogOf l) c := by
  simp [backlogOf]

theorem Told.reevaluate (h : Told opts m l) (now : ℚ) : Told opts (m.reevaluate now) l := by
  obtain ⟨current, heq⟩ := reevaluate_eq m now
  have hup : Established { m with current } ↔ m.Established := by rw [← heq, established_reevaluate]
  rw [heq]
  refine { h with session := ?_ }
  intro hcurrent
  obtain ⟨before, t, after_, rfl, hsession⟩ := h.session (hup.mp hcurrent)
  exact ⟨before, t, after_, rfl, { hsession with }⟩

theorem Told.evidence (h : Told opts m l) (hready : (m.reevaluate now).current = .ready) : Evidence opts l now := by
  obtain ⟨hup, hlive, hbacklog, hdelivering⟩ := ready_reevaluate hready
  obtain ⟨before, t, after_, rfl, hsession⟩ := h.session hup
  unfold anyDesiredFresh at hdelivering
  obtain ⟨token, htoken, hfresh⟩ := List.any_eq_true.mp hdelivering
  have hstamp : ∃ d, m.depthAt token = some d ∧ d.gen = m.gen ∧ now - d.at_ ≤ m.bookMaxAgeMs := by
    unfold isInstrumentFresh at hfresh
    cases hd : m.depthAt token with
    | none => simp [hd] at hfresh
    | some d =>
      rw [hd] at hfresh
      exact ⟨d, rfl, by simpa using hfresh⟩
  obtain ⟨d, hd, hgen, hage⟩ := hstamp
  have hframe : ∃ frame, m.lastFrameAt = some frame ∧ now - frame ≤ m.heartbeatMaxAgeMs := by
    unfold isTransportLive at hlive
    cases hlast : m.lastFrameAt with
    | none => simp [hlast] at hlive
    | some frame =>
      rw [hlast] at hlive
      exact ⟨frame, rfl, of_decide_eq_true hlive⟩
  obtain ⟨frame, hlast, hframeAge⟩ := hframe
  refine ⟨before, t, after_, rfl, hsession.quiet, by rw [← hsession.backlog, hbacklog], ?_, ?_⟩
  · rcases hsession.frame frame hlast with ⟨c, hc, hframe⟩ | hstale
    · exact ⟨c, hc, frame, hframe, h.heartbeat ▸ hframeAge⟩
    · exact absurd hgen (hstale token d hd)
  · obtain ⟨c, hc, hdepth⟩ := hsession.depth token d hd hgen
    exact ⟨c, hc, token, d.at_, hdepth, h.desired ▸ htoken, h.book ▸ hage⟩

/-! ## One call -/

variable {m' : MarketDataStateMachine}

theorem Session.extend (h : Session m after_) (hgen : m'.gen = m.gen)
    (hdepth : m'.depthAt = m.depthAt) (hframe : m'.lastFrameAt = m.lastFrameAt) (hquiet : ¬c.Interrupts)
    (hbacklog : m'.backlog = backlogged m.backlog c) : Session m' (after_ ++ [c]) where
  quiet := Run.forall_mem_snoc h.quiet hquiet
  backlog := by rw [hbacklog, h.backlog, backlogOf_snoc]
  depth := by
    rw [hdepth, hgen]
    intro token d hd hcurrent
    obtain ⟨c', hc', hseen⟩ := h.depth token d hd hcurrent
    exact ⟨c', List.mem_append_left _ hc', hseen⟩
  frame := by
    rw [hdepth, hgen, hframe]
    intro stamp hstamp
    rcases h.frame stamp hstamp with ⟨c', hc', hseen⟩ | hstale
    · exact .inl ⟨c', List.mem_append_left _ hc', hseen⟩
    · exact .inr hstale

theorem Session.framed (h : Session m after_) {stamp : ℚ} (hquiet : ¬c.Interrupts) (hframe : c.frame = some stamp)
    (hbacklog : backlogged m.backlog c = m.backlog) : Session { m with lastFrameAt := some stamp } (after_ ++ [c]) := by
  have hsame : Session m (after_ ++ [c]) := h.extend rfl rfl rfl hquiet hbacklog.symm
  refine { hsame with frame := ?_ }
  intro stamp' hstamp
  exact .inl ⟨c, List.mem_append_right _ (List.mem_singleton_self c), hframe.trans hstamp⟩

theorem Session.seen (h : Session m after_) {token : Number} {stamp : ℚ} (hquiet : ¬c.Interrupts)
    (hdepth : c.depth = some (token, stamp)) (hframe : c.frame = some stamp)
    (hbacklog : backlogged m.backlog c = m.backlog) :
    Session { m with depthAt := Function.update m.depthAt token (some ⟨stamp, m.gen⟩), lastFrameAt := some stamp }
      (after_ ++ [c]) where
  quiet := Run.forall_mem_snoc h.quiet hquiet
  backlog := by rw [backlogOf_snoc, ← h.backlog, hbacklog]
  depth := by
    intro token' d hd hgen
    dsimp only at hd
    by_cases htoken : token' = token
    · subst htoken
      rw [Function.update_self] at hd
      cases hd
      exact ⟨c, List.mem_append_right _ (List.mem_singleton_self c), hdepth⟩
    · rw [Function.update_of_ne htoken] at hd
      obtain ⟨c', hc', hseen⟩ := h.depth token' d hd hgen
      exact ⟨c', List.mem_append_left _ hc', hseen⟩
  frame := by
    intro stamp' hstamp
    exact .inl ⟨c, List.mem_append_right _ (List.mem_singleton_self c), hframe.trans hstamp⟩

theorem Told.snoc (h : Told opts m l) (hheartbeat : m'.heartbeatMaxAgeMs = m.heartbeatMaxAgeMs)
    (hbook : m'.bookMaxAgeMs = m.bookMaxAgeMs) (hdesired : m'.desired = instruments m.desired c)
    (hpast : ∀ token d, m'.depthAt token = some d → d.gen ≤ m'.gen)
    (hsession : m'.Established → m.Established ∧ ∀ after_, Session m after_ → Session m' (after_ ++ [c])) :
    Told opts m' (l ++ [c]) where
  heartbeat := hheartbeat.trans h.heartbeat
  book := hbook.trans h.book
  desired := by rw [desiredBy_snoc, hdesired, h.desired]
  past := hpast
  session := by
    intro hup
    obtain ⟨hup', hnext⟩ := hsession hup
    obtain ⟨before, t, after_, rfl, hafter⟩ := h.session hup'
    exact ⟨before, t, after_ ++ [c], by simp, hnext after_ hafter⟩

theorem Told.same (h : Told opts m l) (hquiet : ¬c.Interrupts) (hdesired : instruments m.desired c = m.desired)
    (hbacklog : backlogged m.backlog c = m.backlog) : Told opts m (l ++ [c]) :=
  h.snoc rfl rfl hdesired.symm h.past fun hup => ⟨hup, fun _ hafter => hafter.extend rfl rfl rfl hquiet hbacklog.symm⟩

theorem Told.down (h : Told opts m l) {current : MarketDataState} (hdown : ¬Established { m with current })
    (hdesired : instruments m.desired c = m.desired) : Told opts { m with current } (l ++ [c]) :=
  h.snoc rfl rfl hdesired.symm h.past fun hup => absurd hup hdown

theorem not_established_of_isShut (h : m.isShut = true) : ¬m.Established := by
  have hshut : m.current = .disabled ∨ m.current = .authExpired := by simpa [isShut] using h
  unfold Established
  rcases hshut with hcurrent | hcurrent <;> simp [hcurrent]

theorem Told.shut (h : Told opts m l) (hshut : m.isShut = true) (hdesired : instruments m.desired c = m.desired) :
    Told opts m (l ++ [c]) :=
  h.down (not_established_of_isShut hshut) hdesired

/-! ## Calls that evaluate -/

def note (m : MarketDataStateMachine) (c : MarketDataCall) : MarketDataStateMachine :=
  match c.event with
  | .setDesiredInstruments _ => { m with desired := instruments m.desired c }
  | .onProcessingBacklog active => { m with backlog := active }
  | .onHeartbeat at_ => if m.isShut then m else { m with lastFrameAt := some (at_.getD c.now) }
  | .onFrame at_ => if m.isShut then m else { m with lastFrameAt := some (at_.getD c.now) }
  | .onUsableDepth token at_ =>
    if m.isShut then m
    else
      { m with
        depthAt := Function.update m.depthAt token (some ⟨at_.getD c.now, m.gen⟩)
        lastFrameAt := some (at_.getD c.now) }
  | _ => m

theorem after_of_evaluates (h : c.Evaluates) : m.after c = (m.note c).reevaluate c.now := by
  obtain ⟨now, event⟩ := c
  have hshut : m.isShut = true → m = m.reevaluate now :=
    fun hshut => (reevaluate_of_not_established (not_established_of_isShut hshut) now).symm
  cases event with
  | setDesiredInstruments tokens => rfl
  | onProcessingBacklog active => rfl
  | evaluate => rfl
  | onSubscriptionsConfirmed =>
    simp only [after, note, onSubscriptionsConfirmed]
    split
    next h => exact hshut h
    next => rfl
  | onHeartbeat at_ =>
    simp only [after, note, onHeartbeat]
    split
    next h => exact hshut h
    next => rfl
  | onFrame at_ =>
    simp only [after, note, onFrame]
    split
    next h => exact hshut h
    next => rfl
  | onUsableDepth token at_ =>
    simp only [after, note, onUsableDepth]
    split
    next h => exact hshut h
    next => rfl
  | setEnabled enabled =>
    cases enabled with
    | true => exact absurd rfl h.2.2
    | false => exact absurd (by simp [Interrupts]) h.1
  | onSessionRestored => exact absurd rfl h.2.1
  | _ => exact absurd (by simp [Interrupts]) h.1

theorem Told.note (h : Told opts m l) (hc : c.Evaluates) : Told opts (m.note c) (l ++ [c]) := by
  have hquiet := hc.1
  obtain ⟨now, event⟩ := c
  cases event with
  | setDesiredInstruments tokens | onProcessingBacklog active =>
    exact h.snoc rfl rfl rfl h.past fun hup => ⟨hup, fun _ hafter => hafter.extend rfl rfl rfl hquiet rfl⟩
  | onHeartbeat at_ | onFrame at_ =>
    simp only [MarketDataStateMachine.note]
    split
    next hshut => exact h.shut hshut rfl
    next => exact h.snoc rfl rfl rfl h.past fun hup => ⟨hup, fun _ hafter => hafter.framed hquiet rfl rfl⟩
  | onUsableDepth token at_ =>
    simp only [MarketDataStateMachine.note]
    split
    next hshut => exact h.shut hshut rfl
    next =>
      refine h.snoc rfl rfl rfl ?_ fun hup => ⟨hup, fun _ hafter => hafter.seen hquiet rfl rfl rfl⟩
      intro token' d hd
      dsimp only at hd
      by_cases htoken : token' = token
      · subst htoken
        rw [Function.update_self] at hd
        cases hd
        exact Nat.le_refl _
      · rw [Function.update_of_ne htoken] at hd
        exact h.past token' d hd
  | onSubscriptionsConfirmed => exact h.same hquiet rfl rfl
  | evaluate => exact h.same hquiet rfl rfl
  | setEnabled enabled =>
    cases enabled with
    | true => exact absurd rfl hc.2.2
    | false => exact absurd (by simp [Interrupts]) hquiet
  | onSessionRestored => exact absurd rfl hc.2.1
  | _ => exact absurd (by simp [Interrupts]) hquiet

/-! ## Calls that do not -/

theorem Told.quiet (h : Told opts m l) (hc : ¬c.Evaluates) :
    Told opts (m.after c) (l ++ [c]) ∧
      ((m.after c).current = .ready → m.after c = m ∧ ¬c.Interrupts) := by
  obtain ⟨now, event⟩ := c
  have hshut : m.isShut = true → m.current ≠ .ready := by
    intro hshut hready
    exact not_established_of_isShut hshut (.inr (.inl hready))
  -- the session's own events: after each the state is not ready, or it is the old one
  cases event with
  | onConnecting =>
    simp only [MarketDataStateMachine.after, onConnecting]
    split
    next hs => exact ⟨h.shut hs rfl, fun hready => absurd hready (hshut hs)⟩
    next => exact ⟨h.down (by simp [Established]) rfl, by simp⟩
  | onSocketOpen =>
    simp only [MarketDataStateMachine.after, onSocketOpen]
    split
    next hs => exact ⟨h.shut hs rfl, fun hready => absurd hready (hshut hs)⟩
    next => exact ⟨h.down (by simp [Established]) rfl, by simp⟩
  | onDisconnected =>
    simp only [MarketDataStateMachine.after, onDisconnected]
    split
    next hs => exact ⟨h.shut hs rfl, fun hready => absurd hready (hshut hs)⟩
    next => exact ⟨h.down (by simp [Established]) rfl, by simp⟩
  | onAuthenticated =>
    simp only [MarketDataStateMachine.after, onAuthenticated]
    split
    next hs => exact ⟨h.shut hs rfl, fun hready => absurd hready (hshut hs)⟩
    next =>
      refine ⟨?_, by simp⟩
      have hold : ∀ token d, m.depthAt token = some d → d.gen < m.gen + 1 :=
        fun token d hd => Nat.lt_succ_of_le (h.past token d hd)
      constructor
      case heartbeat => exact h.heartbeat
      case book => exact h.book
      case desired => rw [desiredBy_snoc, ← h.desired]; rfl
      case past => exact fun token d hd => Nat.le_of_lt (hold token d hd)
      case session =>
        intro _
        refine ⟨l, now, [], rfl, ?_⟩
        constructor
        case quiet => simp
        case backlog => rfl
        case depth => exact fun token d hd hgen => absurd hgen (Nat.ne_of_lt (hold token d hd))
        case frame => exact fun stamp _ => .inr fun token d hd => Nat.ne_of_lt (hold token d hd)
  | onSessionRestored =>
    simp only [MarketDataStateMachine.after, onSessionRestored]
    split
    next => exact ⟨h.same (by simp [Interrupts]) rfl rfl, fun _ => ⟨rfl, by simp [Interrupts]⟩⟩
    next =>
      refine ⟨?_, by simp⟩
      constructor
      case heartbeat => exact h.heartbeat
      case book => exact h.book
      case desired => rw [desiredBy_snoc, ← h.desired]; rfl
      case past =>
        intro token d hd
        cases hd
      case session =>
        intro hup
        simp [Established] at hup
  | onSessionLost =>
    simp only [MarketDataStateMachine.after, onSessionLost]
    split
    next hdisabled =>
      have hs : m.isShut = true := by simp [isShut, hdisabled]
      exact ⟨h.shut hs rfl, fun hready => absurd hready (hshut hs)⟩
    next => exact ⟨h.down (by simp [Established]) rfl, by simp⟩
  | setEnabled enabled =>
    cases enabled with
    | false =>
      simp only [MarketDataStateMachine.after, setEnabled, if_true]
      exact ⟨h.down (by simp [Established]) rfl, by simp⟩
    | true =>
      simp only [MarketDataStateMachine.after, setEnabled, Bool.true_eq_false, if_false]
      split
      · exact ⟨h.down (by simp [Established]) rfl, by simp⟩
      · exact ⟨h.same (by simp [Interrupts]) rfl rfl, fun _ => ⟨rfl, by simp [Interrupts]⟩⟩
  | _ => exact absurd (by simp [Evaluates, Interrupts]) hc

/-! ## Runs -/

theorem Told.new (opts : MarketDataStateMachineOptions) : Told opts (new opts) [] where
  heartbeat := rfl
  book := rfl
  desired := rfl
  past := by
    intro token d hd
    cases hd
  session := by
    intro hup
    have hcurrent : (MarketDataStateMachine.new opts).current = .disconnected ∨
        (MarketDataStateMachine.new opts).current = .disabled := by
      cases henabled : opts.enabled <;> simp [MarketDataStateMachine.new, henabled]
    rcases hcurrent with hcurrent | hcurrent <;> simp [Established, hcurrent] at hup

theorem Earned.snoc (h : Earned opts l) (hquiet : ¬c.Interrupts) (hc : ¬c.Evaluates) : Earned opts (l ++ [c]) := by
  obtain ⟨past, c₀, later, rfl, hevaluates, hevidence, hlater⟩ := h
  exact ⟨past, c₀, later ++ [c], by simp, hevaluates, hevidence, Run.forall_mem_snoc hlater ⟨hc, hquiet⟩⟩

theorem told_snoc (h : Told opts m l ∧ (m.current = .ready → Earned opts l)) (c : MarketDataCall) :
    Told opts (m.after c) (l ++ [c]) ∧ ((m.after c).current = .ready → Earned opts (l ++ [c])) := by
  by_cases hc : c.Evaluates
  · rw [after_of_evaluates hc]
    have htold : Told opts (m.note c) (l ++ [c]) := h.1.note hc
    refine ⟨htold.reevaluate c.now, ?_⟩
    intro hready
    exact ⟨l, c, [], rfl, hc, htold.evidence hready, by simp⟩
  · obtain ⟨htold, hsame⟩ := h.1.quiet hc
    refine ⟨htold, ?_⟩
    intro hready
    obtain ⟨heq, hquiet⟩ := hsame hready
    rw [heq] at hready
    exact (h.2 hready).snoc hquiet hc

theorem run_snoc (opts : MarketDataStateMachineOptions) (l : List MarketDataCall) (c : MarketDataCall) :
    run opts (l ++ [c]) = (run opts l).after c := by
  unfold run
  rw [Run.finish_append]
  rfl

theorem earned_run (h : (run opts l).current = .ready) : Earned opts l := by
  have hnew : Told opts (new opts) [] ∧ ((new opts).current = .ready → Earned opts []) := by
    refine ⟨.new opts, ?_⟩
    intro hready
    cases henabled : opts.enabled <;> simp [new, henabled] at hready
  have hall := @Run.history _ _ _ step (fun m l => Told opts m l ∧ (m.current = .ready → Earned opts l))
    (fun m past c hm => told_snoc hm c) _ _ hnew l
  rw [List.nil_append] at hall
  exact hall.2 h

theorem suffix_of_quiet {before later rest : List MarketDataCall} {x y : MarketDataCall}
    (h : before ++ x :: after_ = later ++ y :: rest) (hx : x.Interrupts) (hrest : ∀ c ∈ rest, ¬c.Interrupts) :
    rest <:+ after_ := by
  have hmem : x ∉ rest := fun hmem => hrest x hmem hx
  have hleft : x :: after_ <:+ before ++ x :: after_ := List.suffix_append ..
  have hright : rest <:+ before ++ x :: after_ := by
    rw [h]
    exact (List.suffix_cons y rest).trans (List.suffix_append ..)
  rcases List.suffix_or_suffix_of_suffix hleft hright with hsub | hsub
  · exact absurd (hsub.subset (.head _)) hmem
  · rcases List.suffix_cons_iff.mp hsub with heq | hsub
    · exact absurd (heq ▸ List.mem_cons_self ..) hmem
    · exact hsub

theorem not_ready_of_depthless {before : List MarketDataCall} {t : ℚ} (h : ∀ c ∈ after_, c.depth = none) :
    (run opts (before ++ ⟨t, .onAuthenticated⟩ :: after_)).current ≠ .ready := by
  intro hready
  obtain ⟨past, c, later, hsplit, -, ⟨before', t', rest, hpast, hquiet, -, -, hdepth⟩, hlater⟩ := earned_run hready
  obtain ⟨c', hc', token, stamp, hseen, -⟩ := hdepth
  have hwhole : before ++ ⟨t, .onAuthenticated⟩ :: after_ = before' ++ ⟨t', .onAuthenticated⟩ :: (rest ++ later) := by
    rw [hsplit, List.append_cons, hpast]
    simp
  have hrest : ∀ c ∈ rest ++ later, ¬c.Interrupts := by
    intro c hc
    rcases List.mem_append.mp hc with hc | hc
    · exact hquiet c hc
    · exact (hlater c hc).2
  have hsub := suffix_of_quiet hwhole (by simp [Interrupts]) hrest
  rw [h c' (hsub.subset (List.mem_append_left _ hc'))] at hseen
  cases hseen

theorem expired_after (h : m.current = .authExpired) :
    (m.after c).current ≠ .authExpired ↔ c.event = .onSessionRestored ∨ c.event = .setEnabled false := by
  obtain ⟨now, event⟩ := c
  have hshut : m.isShut = true := by simp [isShut, h]
  have hstill : ∀ {m' : MarketDataStateMachine}, m'.current = .authExpired → (m'.reevaluate now).current = .authExpired := by
    intro m' hm'
    rw [reevaluate_of_not_established (not_established_of_isShut (by simp [isShut, hm']))]
    exact hm'
  cases event with
  | setDesiredInstruments tokens =>
    have hstays : (m.setDesiredInstruments tokens now).current = .authExpired := hstill h
    simp [after, hstays]
  | onProcessingBacklog active =>
    have hstays : (m.onProcessingBacklog active now).current = .authExpired := hstill h
    simp [after, hstays]
  | evaluate => simp [after, hstill h]
  | onSessionRestored => simp [after, onSessionRestored, h]
  | onSessionLost => simp [after, onSessionLost, h]
  | setEnabled enabled => cases enabled <;> simp [after, setEnabled, h]
  | onSubscriptionsConfirmed => simp [after, onSubscriptionsConfirmed, hshut, h]
  | onConnecting => simp [after, onConnecting, hshut, h]
  | onSocketOpen => simp [after, onSocketOpen, hshut, h]
  | onAuthenticated => simp [after, onAuthenticated, hshut, h]
  | onDisconnected => simp [after, onDisconnected, hshut, h]
  | onHeartbeat at_ => simp [after, onHeartbeat, hshut, h]
  | onFrame at_ => simp [after, onFrame, hshut, h]
  | onUsableDepth token at_ => simp [after, onUsableDepth, hshut, h]

/-- A run is faithful exactly where no call disables a machine whose session is over. -/
theorem faithful_iff (opts : MarketDataStateMachineOptions) (l : List MarketDataCall) :
    Faithful opts l ↔
      Run.Each (fun past c => (run opts past).current = .authExpired → c.event ≠ .setEnabled false) l := by
  constructor
  · intro h past c hpre hexpired hdisable
    have hleft : (run opts (past ++ [c])).current ≠ .authExpired := by
      rw [run_snoc]
      exact (expired_after hexpired).mpr (.inr hdisable)
    rw [h.latched past c hpre hexpired hleft] at hdisable
    cases hdisable
  · intro h
    constructor
    case earned => exact fun past _ hready => earned_run hready
    case depthless => exact fun before t after_ _ hafter => not_ready_of_depthless hafter
    case latched =>
      intro past c hpre hexpired hleft
      rw [run_snoc] at hleft
      exact ((expired_after hexpired).mp hleft).resolve_right (h past c hpre hexpired)

def tokenRejected : List MarketDataCall :=
  [⟨0, .setDesiredInstruments [.fin 1]⟩, ⟨0, .onConnecting⟩, ⟨0, .onSocketOpen⟩, ⟨1, .onAuthenticated⟩, ⟨2, .onSessionLost⟩]

def reenabled : List MarketDataCall :=
  [⟨3, .setEnabled false⟩, ⟨3, .setEnabled true⟩, ⟨4, .onConnecting⟩, ⟨4, .onSocketOpen⟩, ⟨5, .onAuthenticated⟩,
    ⟨6, .onUsableDepth (.fin 1) none⟩]

theorem latch_defeated :
    ¬Faithful ⟨true, none, none⟩ (tokenRejected ++ reenabled) ∧
      (run ⟨true, none, none⟩ (tokenRejected ++ reenabled)).current = .ready := by
  constructor
  · intro h
    have hpre : tokenRejected ++ [⟨3, .setEnabled false⟩] <+: tokenRejected ++ reenabled := ⟨reenabled.tail, by decide⟩
    have hevent := h.latched tokenRejected ⟨3, .setEnabled false⟩ hpre (by decide +kernel) (by decide +kernel)
    cases hevent
  · decide +kernel

end MarketDataStateMachine

end BoxEngine
