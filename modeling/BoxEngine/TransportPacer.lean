import Mathlib.Data.List.MinMax
import Mathlib.Data.Prod.Lex
import BoxEngine.Deadline
import BoxEngine.Lib.Fallible

/-!
# The transport pacer

The queue in front of a broker's transport and the drain that dispatches it. Calls outside answer or throw as the
event says and do not come back into the pacer; its clock advances by every wait served.
-/

namespace BoxEngine

open Js Fallible

inductive BrokerPacingClass where
  | orderMutation
  | general
  deriving DecidableEq

structure EffectiveBrokerPacing where
  orderMutationMinIntervalMs : ℚ
  generalMinIntervalMs : ℚ

namespace EffectiveBrokerPacing

def required (p : EffectiveBrokerPacing) : BrokerPacingClass → ℚ
  | .orderMutation => p.orderMutationMinIntervalMs
  | .general => p.generalMinIntervalMs

def pacingWaitMs (p : EffectiveBrokerPacing) (klass : BrokerPacingClass) (lastCallAt : Option ℚ) (now : ℚ) : ℚ :=
  match lastCallAt with
  | none => 0
  | some lastCallAt =>
    let elapsed := now - lastCallAt
    if elapsed < 0 then p.required klass else max 0 (p.required klass - elapsed)

end EffectiveBrokerPacing

inductive TransportUrgency where
  | recovery
  | placement
  | read
  deriving DecidableEq

def URGENCY_RANK : TransportUrgency → ℕ
  | .recovery => 0
  | .placement => 1
  | .read => 2

def STARVATION_GRACE_MS : ℚ := 2000

structure TransportConcurrencyLimits where
  maxInFlight : ℕ
  reservedForRecovery : ℕ
  maxConcurrentReads : ℕ
  reserved_lt : reservedForRecovery < maxInFlight
  reads_pos : 0 < maxConcurrentReads

namespace TransportConcurrencyLimits

variable (value : Option Number)

def positiveIntOr (fallback : ℕ) : ℕ :=
  match value with
  | some (.fin value) => if 1 ≤ ⌊value⌋ then ⌊value⌋.toNat else fallback
  | _ => fallback

def nonNegativeIntOr (fallback : ℕ) : ℕ :=
  match value with
  | some (.fin value) => if 0 ≤ ⌊value⌋ then ⌊value⌋.toNat else fallback
  | _ => fallback

theorem positiveIntOr_pos {fallback : ℕ} (h : 0 < fallback) : 0 < positiveIntOr value fallback := by
  unfold positiveIntOr
  split
  · split
    · omega
    · exact h
  · exact h

def ofOptions (maxInFlight reservedForRecovery maxConcurrentReads : Option Number) : TransportConcurrencyLimits :=
  let width := max 2 (positiveIntOr maxInFlight 4)
  { maxInFlight := width
    reservedForRecovery := min (width - 1) (nonNegativeIntOr reservedForRecovery 1)
    maxConcurrentReads := min width (positiveIntOr maxConcurrentReads 1)
    reserved_lt := by omega
    reads_pos := by
      have hreads : 0 < positiveIntOr maxConcurrentReads 1 := positiveIntOr_pos _ one_pos
      omega }

end TransportConcurrencyLimits

inductive OperationState where
  | queued
  | dispatched
  | settled
  deriving DecidableEq

structure QueuedOperation where
  seq : ℕ
  klass : BrokerPacingClass
  urgency : TransportUrgency
  deadline : Option Deadline
  beforeDispatch : Bool
  enqueuedAt : ℚ
  deriving DecidableEq

/-- How a promise settles; `abandoned` says that nothing was transmitted. -/
inductive Outcome where
  | value
  | rejected (error : String)
  | abandoned (message : String) (klass : BrokerPacingClass) (queuedMs : ℚ)

structure TransportRunOptions where
  klass : BrokerPacingClass
  urgency : TransportUrgency
  deadline : Option Deadline
  beforeDispatch : Bool

inductive Submission where
  | queued (seq : ℕ)
  | expired (seq : ℕ)
  | failed (outcome : Outcome)

structure TransportDispatch where
  entry : QueuedOperation
  sentAt : ℚ
  inFlight : ℕ

abbrev Reading := Except String ℚ

/-- What the calls outside answer to one pass of the drain, those of an operation under its number. -/
structure Pass where
  sweep : ℕ → Reading
  sweepText : ℕ → Reading
  pick : Reading
  now : Reading
  timer : Reading
  before : Reading
  after : Reading
  expired : Reading
  refusal : Reading
  beforeDispatch : Except String Unit
  stamp : Reading
  operation : Except String Unit
  failText : ℕ → Reading

/-! ## The pacer -/

/-- Not scheduled, about to step, with a step that threw, waiting, or with its last callback to run. -/
inductive Drain where
  | idle
  | stepping
  | faulted (message : String)
  | sleeping (next : QueuedOperation) (before slice : ℚ)
  | finishing
  deriving DecidableEq

structure TransportPacer where
  pacing : EffectiveBrokerPacing
  limits : TransportConcurrencyLimits
  lastOrderMutationAt : Option ℚ
  lastGeneralAt : Option ℚ
  lastAnyCallAt : Option ℚ
  queue : List QueuedOperation
  inFlight : ℕ
  readsInFlight : ℕ
  drain : Drain
  faultingEntry : Option QueuedOperation
  handles : List QueuedOperation
  state : ℕ → OperationState
  reachedTransport : ℕ → Bool
  now : ℚ
  /-- In flight, and what was dispatched, settled and withdrawn so far, for the proofs alone. -/
  running : List QueuedOperation
  dispatches : List TransportDispatch
  settlements : List (ℕ × Outcome)
  withdrawn : List ℕ

namespace TransportPacer

def new (pacing : EffectiveBrokerPacing) (limits : TransportConcurrencyLimits) (now : ℚ) : TransportPacer :=
  { pacing, limits
    lastOrderMutationAt := none
    lastGeneralAt := none
    lastAnyCallAt := none
    queue := []
    inFlight := 0
    readsInFlight := 0
    drain := .idle
    faultingEntry := none
    handles := []
    state := fun _ => .queued
    reachedTransport := fun _ => false
    now
    running := []
    dispatches := []
    settlements := []
    withdrawn := [] }

abbrev Action (α : Type) := Fallible String TransportPacer α

def elapse (t : ℚ) (s : TransportPacer) : TransportPacer := { s with now := max s.now t }

def clockNow (reading : Reading) : Action ℚ := do
  let t ← outside reading
  update (elapse t)
  return (← look).now

def unqueue (seq : ℕ) (s : TransportPacer) : TransportPacer := { s with queue := s.queue.filter fun e => e.seq ≠ seq }

def settle (seq : ℕ) (outcome : Outcome) (s : TransportPacer) : TransportPacer :=
  if s.state seq = .settled then s
  else { s with state := Function.update s.state seq .settled, settlements := s.settlements ++ [(seq, outcome)] }

def setFaultingEntry (entry : Option QueuedOperation) (s : TransportPacer) : TransportPacer :=
  { s with faultingEntry := entry }

variable (s : TransportPacer)

def admissible (candidate : QueuedOperation) : Bool :=
  !(s.limits.maxInFlight ≤ s.inFlight) &&
    !(candidate.urgency == .read && s.limits.maxConcurrentReads ≤ s.readsInFlight) &&
    !(candidate.urgency != .recovery && s.limits.maxInFlight - s.inFlight ≤ s.limits.reservedForRecovery)

def candidates : List QueuedOperation :=
  s.queue.filter fun e => s.state e.seq = .queued && s.admissible e

def canDispatchSomething : Bool := !s.candidates.isEmpty

/-- The oldest of those that waited too long, else the most urgent, and of one tier the oldest. -/
def choose (now : ℚ) : Option QueuedOperation :=
  ((s.candidates.filter fun e => STARVATION_GRACE_MS ≤ now - e.enqueuedAt).argmin QueuedOperation.seq).or
    (s.candidates.argmin fun e => toLex (URGENCY_RANK e.urgency, e.seq))

def pickNext (reading : Reading) : Action (Option QueuedOperation) := do
  let s ← look
  if s.queue.isEmpty || s.limits.maxInFlight ≤ s.inFlight then return none
  else
    let now ← clockNow reading
    return (← look).choose now

variable (entry : QueuedOperation)

def deadlineExpired (reading : Reading) : Action Bool :=
  match entry.deadline with
  | none => pure false
  | some deadline => do return deadline.expired (← outside reading)

def refuseExpired (text : Reading) : Action Unit := do
  if (← look).state entry.seq ≠ .queued then return ()
  else
    update (unqueue entry.seq)
    let now ← clockNow text
    update (settle entry.seq (.abandoned
      "The request deadline expired while it was queued behind broker pacing; nothing was transmitted." entry.klass
      (max 0 (now - entry.enqueuedAt))))

def refuseIfExpired (reading text : Reading) : Action Unit := do
  if (← look).state entry.seq ≠ .queued then return ()
  else if ← deadlineExpired entry reading then refuseExpired entry text
  else return ()

def refuseExpiredQueueEntries (p : Pass) : Action Unit := do
  (← look).queue.forM fun entry => refuseIfExpired entry (p.sweep entry.seq) (p.sweepText entry.seq)

variable (error : String)

def failEntry : Action Unit := do
  if (← look).state entry.seq ≠ .queued then return ()
  else
    update (unqueue entry.seq)
    update (settle entry.seq (.abandoned
      ("This request's own deadline or clock faulted (" ++ error ++ "); nothing was transmitted.") entry.klass 0))

def failQueued (entry : QueuedOperation) (text : Reading) : Action Unit := do
  if (← look).state entry.seq ≠ .queued then return ()
  else
    update (unqueue entry.seq)
    let now ← clockNow text
    update (settle entry.seq (.abandoned
      ("The transport scheduler faulted (" ++ error ++ "); nothing was transmitted.") entry.klass
      (max 0 (now - entry.enqueuedAt))))

variable (p : Pass)

def failQueue : Action Unit := do
  (← look).queue.forM fun entry => failQueued error entry (p.failText entry.seq)

def markDispatched (seq : ℕ) (s : TransportPacer) : TransportPacer :=
  { s with
    state := Function.update s.state seq .dispatched
    reachedTransport := Function.update s.reachedTransport seq true }

def occupy (sentAt : ℚ) (s : TransportPacer) : TransportPacer :=
  { s with
    lastAnyCallAt := some sentAt
    lastOrderMutationAt := if entry.klass = .orderMutation then some sentAt else s.lastOrderMutationAt
    lastGeneralAt := if entry.klass = .orderMutation then s.lastGeneralAt else some sentAt
    inFlight := s.inFlight + 1
    readsInFlight := if entry.urgency = .read then s.readsInFlight + 1 else s.readsInFlight }

def invoke (sentAt : ℚ) (s : TransportPacer) : TransportPacer :=
  { s with
    running := s.running ++ [entry]
    dispatches := s.dispatches ++ [⟨entry, sentAt, s.inFlight⟩] }

def release (outcome : Outcome) (s : TransportPacer) : TransportPacer :=
  let s := s.settle entry.seq outcome
  { s with
    inFlight := s.inFlight - 1
    readsInFlight := if entry.urgency = .read then s.readsInFlight - 1 else s.readsInFlight
    running := s.running.filter fun e => e.seq ≠ entry.seq }

def dispatch : Action Unit := do
  if (← look).state entry.seq ≠ .queued then return ()
  else
    update (unqueue entry.seq)
    match if entry.beforeDispatch then p.beforeDispatch else .ok () with
    | .error error => update (settle entry.seq (.rejected error))
    | .ok () =>
      update (markDispatched entry.seq)
      let sentAt ← clockNow p.stamp
      update (occupy entry sentAt)
      update (invoke entry sentAt)
      match p.operation with
      | .error error => update (release entry (.rejected error))
      | .ok () => return ()

/-! ## One step of the drain -/

def waitFor (klass : BrokerPacingClass) (now : ℚ) : ℚ :=
  let lastCallAt :=
    match klass with
    | .orderMutation => s.lastOrderMutationAt
    | .general => s.lastGeneralAt
  max (s.pacing.pacingWaitMs klass lastCallAt now) (s.pacing.pacingWaitMs .orderMutation s.lastAnyCallAt now)

variable (next : QueuedOperation)

def sliceOf (wait : ℚ) (timer : Reading) : Action ℚ :=
  let slice := min wait (max 1 s.pacing.orderMutationMinIntervalMs)
  match next.deadline with
  | none => pure slice
  | some deadline => do return min slice (deadline.timerMs (← outside timer))

def dispatchUnlessExpired (p : Pass) : Action Drain := do
  if ← deadlineExpired next p.expired then
    refuseExpired next p.refusal
    return .stepping
  else
    dispatch next p
    return .stepping

def drainStep : Action Drain := do
  refuseExpiredQueueEntries p
  match ← pickNext p.pick with
  | none => return .finishing
  | some next =>
    update (setFaultingEntry (some next))
    let now ← clockNow p.now
    let s ← look
    let wait := s.waitFor next.klass now
    if 0 < wait then
      let slice ← s.sliceOf next wait p.timer
      let before ← clockNow p.before
      return .sleeping next before slice
    else dispatchUnlessExpired next p

def wake (before slice : ℚ) (p : Pass) : Action Drain := do
  update (elapse (before + slice))
  let after ← clockNow p.after
  if (← look).state next.seq ≠ .queued then
    update (setFaultingEntry none)
    return .stepping
  else if 0 < after - before then
    update (setFaultingEntry none)
    return .stepping
  else if after - before < 0 then
    update (setFaultingEntry none)
    return .stepping
  else dispatchUnlessExpired next p

/-- A step that threw is charged to the entry it was about, else to the whole queue. -/
def contain : Action Unit := do
  let culprit := (← look).faultingEntry
  update (setFaultingEntry none)
  match culprit with
  | some entry => failEntry entry error
  | none => failQueue error p

def withDrain (drain : Drain) (s : TransportPacer) : TransportPacer := { s with drain }

def settleDrain (step : Action Drain) (s : TransportPacer) : TransportPacer :=
  match ends step s with
  | (.ok drain, s) => s.withDrain drain
  | (.error error, s) => s.withDrain (.faulted error)

def startScheduling (s : TransportPacer) : TransportPacer :=
  match s.drain with
  | .idle => settleDrain (drainStep p) s
  | _ => s

def resume (s : TransportPacer) : TransportPacer :=
  match s.drain with
  | .idle => s
  | .stepping => settleDrain (drainStep p) s
  | .faulted error =>
    match ends (contain error p) s with
    | (.ok (), s) => settleDrain (drainStep p) s
    | (.error _, s) => s.withDrain .finishing
  | .sleeping next before slice => settleDrain (wake next before slice p) s
  | .finishing =>
    let s := s.withDrain .idle
    if s.canDispatchSomething then s.startScheduling p else s

variable (s : TransportPacer)

def waitFails : TransportPacer :=
  match s.drain with
  | .sleeping _ _ _ => s.withDrain (.faulted error)
  | _ => s

/-! ## What callers do -/

def handOut : TransportPacer :=
  { s with handles := s.handles ++ [entry], state := Function.update s.state entry.seq .queued }

def enqueue : TransportPacer := { s with queue := s.queue ++ [entry] }

def doorReadings (o : TransportRunOptions) (clock expired : Reading) : Action (ℚ × Bool) := do
  let enqueuedAt ← clockNow clock
  match o.deadline with
  | none => return (enqueuedAt, false)
  | some deadline => return (enqueuedAt, deadline.expired (← outside expired))

def submit (o : TransportRunOptions) (clock expired : Reading) (p : Pass) (s : TransportPacer) :
    TransportPacer × Submission :=
  match ends (doorReadings o clock expired) s with
  | (.error error, s) =>
    (s, .failed (.abandoned
      ("The request's clock or deadline faulted on admission (" ++ error ++ "); nothing was transmitted.") o.klass 0))
  | (.ok (enqueuedAt, alreadyExpired), s) =>
    let entry : QueuedOperation := ⟨s.handles.length, o.klass, o.urgency, o.deadline, o.beforeDispatch, enqueuedAt⟩
    let s := s.handOut entry
    if alreadyExpired then
      (s.settle entry.seq (.abandoned
        "The request deadline had already expired before it could be dispatched; nothing was transmitted." o.klass 0),
        .expired entry.seq)
    else ((s.enqueue entry).startScheduling p, .queued entry.seq)

def withdraw (reason : String) (text : Reading) : Action Bool := do
  if (← look).state entry.seq ≠ .queued then return false
  else
    update (unqueue entry.seq)
    let now ← clockNow text
    update (settle entry.seq (.abandoned
      (reason ++ " The request was still queued and has been withdrawn; nothing was transmitted.") entry.klass
      (max 0 (now - entry.enqueuedAt))))
    return true

def noteWithdrawn (seq : ℕ) (s : TransportPacer) : TransportPacer := { s with withdrawn := s.withdrawn ++ [seq] }

def abandon (reason : String) (text : Reading) (p : Pass) (s : TransportPacer) :
    TransportPacer × Except String Bool :=
  match ends (withdraw entry reason text) s with
  | (.ok true, s) => ((s.noteWithdrawn entry.seq).startScheduling p, .ok true)
  | (answer, s) => (s, answer)

def complete (outcome : Except String Unit) (p : Pass) (s : TransportPacer) : TransportPacer :=
  (s.release entry (match outcome with
    | .ok () => .value
    | .error error => .rejected error)).startScheduling p

end TransportPacer

inductive PacerEvent where
  | submitted (o : TransportRunOptions) (clock expired : Reading) (p : Pass)
  | abandoned (seq : ℕ) (reason : String) (text : Reading) (p : Pass)
  | completed (seq : ℕ) (outcome : Except String Unit) (p : Pass)
  | resumed (p : Pass)
  | waitFailed (error : String)

inductive PacerAnswer where
  | submission (s : Submission)
  | abandon (answer : Except String Bool)
  | none

namespace TransportPacer

/-- A handle is only of an operation given out, and only one in flight completes. -/
def step (s : TransportPacer) : PacerEvent → TransportPacer × PacerAnswer
  | .submitted o clock expired p => let (s, answer) := s.submit o clock expired p; (s, .submission answer)
  | .abandoned seq reason text p =>
    match s.handles[seq]? with
    | none => (s, .none)
    | some entry => let (s, answer) := s.abandon entry reason text p; (s, .abandon answer)
  | .completed seq outcome p =>
    match s.running.find? fun e => e.seq = seq with
    | none => (s, .none)
    | some entry => (s.complete entry outcome p, .none)
  | .resumed p => (s.resume p, .none)
  | .waitFailed error => (s.waitFails error, .none)

end TransportPacer

end BoxEngine
