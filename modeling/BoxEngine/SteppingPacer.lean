import BoxEngine.PacerBooks
import BoxEngine.TransportPacer

/-!
# The pacer on a clock that may be set back

The drain when its clock answers anything at any time, with the pacer's queue, slots and watermarks. Every call
outside answers.
-/

namespace BoxEngine

structure ClockReadings where
  sweep : ℕ → ℚ
  sweepText : ℕ → ℚ
  pick : ℚ
  now : ℚ
  timer : ℚ
  before : ℚ
  after : ℚ
  expired : ℚ
  refusal : ℚ
  beforeDispatch : Except String Unit
  stamp : ℚ
  operation : Except String Unit

/-- The operation the drain waits for, and how far its waits and the last one moved the clock. -/
structure Head where
  entry : QueuedOperation
  served : ℚ
  slice : ℚ

def Head.serve (served : ℚ) (head : Head) : Head :=
  if 0 < served then { head with served := head.served + served, slice := served } else head

structure SteppingPacer where
  pacer : TransportPacer
  head : Option Head

namespace SteppingPacer

def new (pacing : EffectiveBrokerPacing) (limits : TransportConcurrencyLimits) : SteppingPacer :=
  ⟨.new pacing limits 0, none⟩

variable (entry : QueuedOperation)

def deadlineExpired (reading : ℚ) : Bool := entry.deadline.any fun d => d.expired reading

def refuseExpired (text : ℚ) (pacer : TransportPacer) : TransportPacer :=
  if pacer.state entry.seq ≠ .queued then pacer
  else (pacer.unqueue entry.seq).settle entry.seq (.abandoned
    "The request deadline expired while it was queued behind broker pacing; nothing was transmitted." entry.klass
    (max 0 (text - entry.enqueuedAt)))

variable (r : ClockReadings)
variable (pacer : TransportPacer)

def refuseIfExpired (entry : QueuedOperation) : TransportPacer :=
  if pacer.state entry.seq = .queued ∧ deadlineExpired entry (r.sweep entry.seq) then
    refuseExpired entry (r.sweepText entry.seq) pacer
  else pacer

def refuseExpiredQueueEntries : TransportPacer :=
  pacer.queue.foldl (refuseIfExpired r) pacer

def pickNext (now : ℚ) (pacer : TransportPacer) : Option QueuedOperation :=
  if pacer.queue.isEmpty || pacer.limits.maxInFlight ≤ pacer.inFlight then none else pacer.choose now

def dispatch (r : ClockReadings) (pacer : TransportPacer) : TransportPacer :=
  if pacer.state entry.seq ≠ .queued then pacer
  else
    let pacer := pacer.unqueue entry.seq
    match if entry.beforeDispatch then r.beforeDispatch else .ok () with
    | .error error => pacer.settle entry.seq (.rejected error)
    | .ok () =>
      let pacer := ((pacer.markDispatched entry.seq).occupy entry r.stamp).invoke entry r.stamp
      match r.operation with
      | .error error => pacer.release entry (.rejected error)
      | .ok () => pacer

/-! ## One step of the drain -/

def sliceOf (next : QueuedOperation) (wait timer : ℚ) : ℚ :=
  let slice := min wait (max 1 pacer.pacing.orderMutationMinIntervalMs)
  match next.deadline with
  | none => slice
  | some deadline => min slice (deadline.timerMs timer)

def dispatchUnlessExpired (next : QueuedOperation) (r : ClockReadings) (pacer : TransportPacer) : TransportPacer :=
  if deadlineExpired next r.expired then refuseExpired next r.refusal pacer else dispatch next r pacer

variable (s : SteppingPacer)

def headFor : Head :=
  (s.head.filter fun head => head.entry = entry).getD ⟨entry, 0, 0⟩

def drainStep : SteppingPacer :=
  let pacer := refuseExpiredQueueEntries r s.pacer
  match pickNext r.pick pacer with
  | none => ⟨pacer.withDrain .finishing, none⟩
  | some next =>
    let wait := pacer.waitFor next.klass r.now
    if 0 < wait then
      ⟨pacer.withDrain (.sleeping next r.before (sliceOf pacer next wait r.timer)), some (s.headFor next)⟩
    else ⟨(dispatchUnlessExpired next r pacer).withDrain .stepping, none⟩

/-- A clock that moved either way is looked at again; one that stood still cannot express a wait. -/
def wake (next : QueuedOperation) (before : ℚ) (r : ClockReadings) (s : SteppingPacer) : SteppingPacer :=
  let served := r.after - before
  let head := (s.headFor next).serve served
  if s.pacer.state next.seq ≠ .queued then ⟨s.pacer.withDrain .stepping, some head⟩
  else if 0 < served then ⟨s.pacer.withDrain .stepping, some head⟩
  else if served < 0 then ⟨s.pacer.withDrain .stepping, some head⟩
  else ⟨(dispatchUnlessExpired next r s.pacer).withDrain .stepping, none⟩

/-! ## The drain and its callers

What an event does before the drain takes a step, and the readings of that step if it takes one. -/

def startScheduling : SteppingPacer × Option ClockReadings :=
  (s, if s.pacer.drain = .idle then some r else none)

def withPacer (s : SteppingPacer) : SteppingPacer := { s with pacer }

def resume : SteppingPacer × Option ClockReadings :=
  match s.pacer.drain with
  | .stepping => (s, some r)
  | .sleeping next before _ => (s.wake next before r, none)
  | .finishing =>
    let s := s.withPacer (s.pacer.withDrain .idle)
    (s, if s.pacer.canDispatchSomething then some r else none)
  | _ => (s, none)

def submit (o : TransportRunOptions) (clock expired : ℚ) (r : ClockReadings) (s : SteppingPacer) :
    SteppingPacer × Option ClockReadings :=
  let entry : QueuedOperation := ⟨s.pacer.handles.length, o.klass, o.urgency, o.deadline, o.beforeDispatch, clock⟩
  let pacer := s.pacer.handOut entry
  if deadlineExpired entry expired then
    (s.withPacer (pacer.settle entry.seq (.abandoned
      "The request deadline had already expired before it could be dispatched; nothing was transmitted." o.klass 0)), none)
  else (s.withPacer (pacer.enqueue entry)).startScheduling r

def abandon (reason : String) (text : ℚ) (r : ClockReadings) (s : SteppingPacer) :
    SteppingPacer × Option ClockReadings :=
  if s.pacer.state entry.seq ≠ .queued then (s, none)
  else
    (s.withPacer (((s.pacer.unqueue entry.seq).settle entry.seq (.abandoned
      (reason ++ " The request was still queued and has been withdrawn; nothing was transmitted.") entry.klass
      (max 0 (text - entry.enqueuedAt)))).noteWithdrawn entry.seq)).startScheduling r

def complete (outcome : Outcome) (r : ClockReadings) (s : SteppingPacer) : SteppingPacer × Option ClockReadings :=
  (s.withPacer (s.pacer.release entry outcome)).startScheduling r

inductive Event where
  | submitted (o : TransportRunOptions) (clock expired : ℚ) (r : ClockReadings)
  | abandoned (seq : ℕ) (reason : String) (text : ℚ) (r : ClockReadings)
  | completed (seq : ℕ) (outcome : Except String Unit) (r : ClockReadings)
  | resumed (r : ClockReadings)

def prepare : Event → SteppingPacer × Option ClockReadings
  | .submitted o clock expired r => s.submit o clock expired r
  | .abandoned seq reason text r =>
    match s.pacer.handles[seq]? with
    | none => (s, none)
    | some entry => s.abandon entry reason text r
  | .completed seq outcome r =>
    match s.pacer.running.find? fun e => e.seq = seq with
    | none => (s, none)
    | some entry => s.complete entry (match outcome with
      | .ok () => .value
      | .error error => .rejected error) r
  | .resumed r => s.resume r

def step (event : Event) : SteppingPacer × Unit :=
  match s.prepare event with
  | (s, none) => (s, ())
  | (s, some r) => (s.drainStep r, ())

/-! ## How long a clock that is set back holds the head of the queue -/

variable {s : SteppingPacer} {r : ClockReadings} {next : QueuedOperation} {pacer : TransportPacer}

def interval (pacing : EffectiveBrokerPacing) (klass : BrokerPacingClass) : ℚ :=
  max (pacing.required klass) pacing.orderMutationMinIntervalMs

def Bounded (s : SteppingPacer) : Prop :=
  ∀ head ∈ s.head, head.served ≤ interval s.pacer.pacing head.entry.klass + head.slice

instance (s : SteppingPacer) : Decidable (Bounded s) :=
  inferInstanceAs (Decidable (∀ head ∈ s.head, head.served ≤ interval s.pacer.pacing head.entry.klass + head.slice))

structure Shows (pacer : TransportPacer) (klass : BrokerPacingClass) (served now : ℚ) : Prop where
  floor : ∀ t ∈ pacer.lastAnyCallAt, t + served ≤ now
  interval : ∀ t ∈ pacer.lastOf klass, t + served ≤ now

instance (klass : BrokerPacingClass) (served now : ℚ) : Decidable (Shows pacer klass served now) :=
  decidable_of_iff ((∀ t ∈ pacer.lastAnyCallAt, t + served ≤ now) ∧ ∀ t ∈ pacer.lastOf klass, t + served ≤ now)
    ⟨fun h => ⟨h.1, h.2⟩, fun h => ⟨h.floor, h.interval⟩⟩

def PassKeepsUp (s : SteppingPacer) (r : ClockReadings) : Prop :=
  ∀ next ∈ pickNext r.pick (refuseExpiredQueueEntries r s.pacer),
    0 < (refuseExpiredQueueEntries r s.pacer).waitFor next.klass r.now →
      Shows (refuseExpiredQueueEntries r s.pacer) next.klass (s.headFor next).served r.now

def KeepsUp (s : SteppingPacer) (event : Event) : Prop :=
  ∀ r ∈ (s.prepare event).2, PassKeepsUp (s.prepare event).1 r

instance (s : SteppingPacer) (r : ClockReadings) : Decidable (PassKeepsUp s r) :=
  inferInstanceAs (Decidable (∀ next ∈ pickNext r.pick (refuseExpiredQueueEntries r s.pacer), _ → Shows _ _ _ _))

instance (s : SteppingPacer) (event : Event) : Decidable (KeepsUp s event) :=
  inferInstanceAs (Decidable (∀ r ∈ (s.prepare event).2, PassKeepsUp _ r))

theorem lt_required_of_pacingWaitMs {pacing : EffectiveBrokerPacing} {klass : BrokerPacingClass} {last : Option ℚ}
    {served now : ℚ} (hserved : 0 ≤ served) (hshows : ∀ t ∈ last, t + served ≤ now)
    (hwait : 0 < pacing.pacingWaitMs klass last now) : served < pacing.required klass := by
  cases last with
  | none => simp [EffectiveBrokerPacing.pacingWaitMs] at hwait
  | some t =>
    have hpast : t + served ≤ now := hshows t rfl
    have hforward : ¬now - t < 0 := by linarith
    simp only [EffectiveBrokerPacing.pacingWaitMs, hforward, if_false, lt_max_iff, lt_irrefl, false_or] at hwait
    linarith

theorem Shows.served_le {served now : ℚ} {klass : BrokerPacingClass} (h : Shows pacer klass served now)
    (hserved : 0 ≤ served) (hwait : 0 < pacer.waitFor klass now) : served ≤ SteppingPacer.interval pacer.pacing klass := by
  unfold TransportPacer.waitFor at hwait
  rcases lt_max_iff.mp hwait with hclass | hfloor
  · have hlast : 0 < pacer.pacing.pacingWaitMs klass (pacer.lastOf klass) now := by
      cases klass <;> exact hclass
    exact (lt_required_of_pacingWaitMs hserved h.interval hlast).le.trans (le_max_left ..)
  · exact (lt_required_of_pacingWaitMs hserved h.floor hfloor).le.trans (le_max_right ..)

section

variable (pacer : TransportPacer) (entry : QueuedOperation)

@[simp] theorem settle_pacing (n : ℕ) (o : Outcome) : (pacer.settle n o).pacing = pacer.pacing := by
  unfold TransportPacer.settle
  split <;> rfl

@[simp] theorem refuseExpired_pacing (text : ℚ) : (refuseExpired entry text pacer).pacing = pacer.pacing := by
  unfold refuseExpired
  split
  · rfl
  · simp [TransportPacer.unqueue]

@[simp] theorem refuseIfExpired_pacing (r : ClockReadings) : (refuseIfExpired r pacer entry).pacing = pacer.pacing := by
  unfold refuseIfExpired
  split
  · simp
  · rfl

@[simp] theorem refuseExpiredQueueEntries_pacing (r : ClockReadings) :
    (refuseExpiredQueueEntries r pacer).pacing = pacer.pacing := by
  unfold refuseExpiredQueueEntries
  induction pacer.queue generalizing pacer with
  | nil => rfl
  | cons entry queue ih => rw [List.foldl_cons, ih, refuseIfExpired_pacing]

end

structure Sound (s : SteppingPacer) : Prop where
  served : ∀ head, s.head = some head → 0 ≤ head.served ∧ 0 ≤ head.slice
  bounded : Bounded s
  sleeping : ∀ next before slice, s.pacer.drain = .sleeping next before slice →
    ∃ head, s.head = some head ∧ head.entry = next ∧ head.served ≤ interval s.pacer.pacing next.klass

@[simp] theorem headFor_entry : (s.headFor next).entry = next := by
  unfold headFor
  cases hhead : s.head.filter fun head => head.entry = next with
  | none => rfl
  | some head => simpa using (Option.filter_eq_some_iff.mp hhead).2

theorem headFor_of_head {head : Head} (hhead : s.head = some head) (hentry : head.entry = next) : s.headFor next = head := by
  simp [headFor, hhead, hentry, Option.filter]

theorem Sound.headFor (h : Sound s) (next : QueuedOperation) :
    0 ≤ (s.headFor next).served ∧ 0 ≤ (s.headFor next).slice := by
  unfold SteppingPacer.headFor
  cases hhead : s.head.filter fun head => head.entry = next with
  | none => simp
  | some head => exact h.served head (Option.filter_eq_some_iff.mp hhead).1

theorem sound_of_head_none {drain : Drain} (hdrain : ∀ next before slice, drain ≠ .sleeping next before slice) :
    Sound ⟨pacer.withDrain drain, none⟩ where
  served := by simp
  bounded := by simp [Bounded]
  sleeping := fun next before slice hsleeping => absurd hsleeping (hdrain next before slice)

section

variable (h : Sound s)
include h

theorem Sound.withPacer (hpacing : pacer.pacing = s.pacer.pacing)
    (hdrain : ∀ next before slice, pacer.drain = .sleeping next before slice → s.pacer.drain = .sleeping next before slice) :
    Sound (s.withPacer pacer) where
  served := h.served
  bounded := by
    intro head hhead
    simpa [SteppingPacer.withPacer, hpacing] using h.bounded head hhead
  sleeping := by
    intro next before slice hsleeping
    simpa [SteppingPacer.withPacer, hpacing] using h.sleeping next before slice (hdrain next before slice hsleeping)

/-! ## One step of the drain -/

theorem Sound.drainStep (hup : PassKeepsUp s r) : Sound (s.drainStep r) := by
  unfold SteppingPacer.drainStep
  dsimp only
  cases hpick : pickNext r.pick (refuseExpiredQueueEntries r s.pacer) with
  | none => exact sound_of_head_none (by simp)
  | some next =>
    dsimp only
    by_cases hwait : 0 < (refuseExpiredQueueEntries r s.pacer).waitFor next.klass r.now
    · rw [if_pos hwait]
      have hserved := h.headFor next
      have hbound : (s.headFor next).served ≤ interval s.pacer.pacing next.klass := by
        have hle := (hup next hpick hwait).served_le hserved.1 hwait
        simpa using hle
      constructor
      case served => simpa using hserved
      case bounded =>
        intro head hhead
        cases hhead
        simp only [headFor_entry, TransportPacer.withDrain, refuseExpiredQueueEntries_pacing]
        linarith [hserved.2]
      case sleeping =>
        intro next' before slice hsleeping
        cases hsleeping
        exact ⟨s.headFor next, rfl, headFor_entry, by simpa [TransportPacer.withDrain] using hbound⟩
    · rw [if_neg hwait]
      exact sound_of_head_none (by simp)

theorem Sound.served_wait {before slice : ℚ} (hsleeping : s.pacer.drain = .sleeping next before slice) (served : ℚ) :
    Sound ⟨s.pacer.withDrain .stepping, some ((s.headFor next).serve served)⟩ := by
  obtain ⟨head, hhead, hentry, hbound⟩ := h.sleeping next before slice hsleeping
  have hold := h.served head hhead
  rw [headFor_of_head hhead hentry]
  unfold Head.serve
  constructor
  case served =>
    intro head' hhead'
    cases hhead'
    by_cases hforward : 0 < served
    · simp only [hforward, if_true]
      exact ⟨by linarith [hold.1], hforward.le⟩
    · simp only [hforward, if_false]
      exact hold
  case bounded =>
    intro head' hhead'
    cases hhead'
    by_cases hforward : 0 < served
    · simp only [hforward, if_true, TransportPacer.withDrain, hentry]
      linarith
    · simp only [hforward, if_false, TransportPacer.withDrain, hentry]
      linarith [hold.2]
  case sleeping => simp [TransportPacer.withDrain]

theorem Sound.wake {before slice : ℚ} (hsleeping : s.pacer.drain = .sleeping next before slice) :
    Sound (s.wake next before r) := by
  have hserved := h.served_wait hsleeping (r.after - before)
  unfold SteppingPacer.wake
  dsimp only
  by_cases hstate : s.pacer.state next.seq ≠ .queued
  · rw [if_pos hstate]
    exact hserved
  · rw [if_neg hstate]
    by_cases hforward : 0 < r.after - before
    · rw [if_pos hforward]
      exact hserved
    · rw [if_neg hforward]
      by_cases hback : r.after - before < 0
      · rw [if_pos hback]
        exact hserved
      · rw [if_neg hback]
        exact sound_of_head_none (by simp)

/-! ## Events -/

theorem Sound.resume : Sound (s.resume r).1 := by
  unfold SteppingPacer.resume
  cases hdrain : s.pacer.drain with
  | idle => exact h
  | stepping => exact h
  | faulted _ => exact h
  | sleeping next before slice => exact h.wake hdrain
  | finishing => exact h.withPacer rfl (by simp [TransportPacer.withDrain])

theorem Sound.submit (o : TransportRunOptions) (clock expired : ℚ) : Sound (s.submit o clock expired r).1 := by
  unfold SteppingPacer.submit
  dsimp only
  split
  · apply h.withPacer
    · simp [TransportPacer.handOut]
    · simp [TransportPacer.handOut]
  · exact h.withPacer rfl fun _ _ _ hsleeping => hsleeping

theorem Sound.abandon (entry : QueuedOperation) (reason : String) (text : ℚ) :
    Sound (s.abandon entry reason text r).1 := by
  unfold SteppingPacer.abandon
  split
  · exact h
  · apply h.withPacer
    · simp [TransportPacer.noteWithdrawn, TransportPacer.unqueue]
    · simp [TransportPacer.noteWithdrawn, TransportPacer.unqueue]

theorem Sound.complete (entry : QueuedOperation) (outcome : Outcome) : Sound (s.complete entry outcome r).1 := by
  apply h.withPacer
  · simp [TransportPacer.release]
  · simp [TransportPacer.release]

theorem Sound.prepare (event : Event) : Sound (s.prepare event).1 := by
  cases event with
  | submitted o clock expired r => exact h.submit o clock expired
  | abandoned seq reason text r =>
    unfold SteppingPacer.prepare
    cases hhandle : s.pacer.handles[seq]? with
    | none => simpa [hhandle] using h
    | some entry => simpa [hhandle] using h.abandon entry reason text
  | completed seq outcome r =>
    unfold SteppingPacer.prepare
    cases hflying : s.pacer.running.find? fun e => e.seq = seq with
    | none => simpa [hflying] using h
    | some entry => simpa [hflying] using h.complete entry _
  | resumed r => exact h.resume

theorem Sound.step {event : Event} (hup : KeepsUp s event) : Sound (s.step event).1 := by
  have hprepared := h.prepare event
  unfold KeepsUp at hup
  unfold SteppingPacer.step
  rcases hprepare : s.prepare event with ⟨s', _ | r⟩
  · rw [hprepare] at hprepared
    exact hprepared
  · rw [hprepare] at hprepared hup
    exact hprepared.drainStep (hup r rfl)

end

/-- Where the clock keeps up, the head is served at most its largest interval and one slice. -/
theorem delay_run (pacing : EffectiveBrokerPacing) (limits : TransportConcurrencyLimits) {events : List Event}
    (h : Run.Guarded step KeepsUp (new pacing limits) events) :
    Bounded (Run.finish step (new pacing limits) events) := by
  have hnew : Sound (new pacing limits) := ⟨by simp [new], by simp [Bounded, new], by simp [new, TransportPacer.new]⟩
  exact (h.invariant Sound (fun s event hs hup => hs.step hup) hnew).bounded

def readAt (t after : ℚ) : ClockReadings where
  sweep := fun _ => t
  sweepText := fun _ => t
  pick := t
  now := t
  timer := t
  before := t
  after
  expired := t
  refusal := t
  beforeDispatch := .ok ()
  stamp := t
  operation := .ok ()

def zerodhaPacing : EffectiveBrokerPacing := ⟨110, 250⟩

def cancel : TransportRunOptions := ⟨.orderMutation, .recovery, none, false⟩

theorem delay_run_cancels : Bounded (Run.finish step (new zerodhaPacing (.ofOptions none none none))
    [.submitted cancel 0 0 (readAt 0 0), .submitted cancel 1 1 (readAt 1 1), .resumed (readAt 1 1),
      .resumed (readAt 1 60), .resumed (readAt 60 60), .resumed (readAt 60 112), .resumed (readAt 112 112)]) :=
  delay_run zerodhaPacing (.ofOptions none none none) (by decide +kernel)

def setBack : List Event :=
  [.submitted cancel 10000 10000 (readAt 10000 10000), .submitted cancel 0 0 (readAt 0 0), .resumed (readAt 0 0),
    .resumed (readAt 0 110), .resumed (readAt 110 110), .resumed (readAt 110 220), .resumed (readAt 220 220),
    .resumed (readAt 220 330), .resumed (readAt 330 330)]

theorem setBack_unbounded : ¬Bounded (Run.finish step (new zerodhaPacing (.ofOptions none none none)) setBack) := by
  decide +kernel

end SteppingPacer

end BoxEngine
