import BoxEngine.PacerBooks
import BoxEngine.PacerSound

/-!
# Pacers that differ in the records of one operation

What was settled and withdrawn is never read, so two pacers that are the same up to that, for one operation, stay the
same through every event.
-/

namespace BoxEngine

open Js Fallible

namespace TransportPacer

variable {s s' : TransportPacer} {n : ℕ}

def forget (n : ℕ) (s : TransportPacer) : TransportPacer :=
  { s with
    drain := .idle
    settlements := s.settlements.filter fun record => record.1 ≠ n
    withdrawn := s.withdrawn.filter fun m => m ≠ n }

/-- The two pacers differ in the operation `n` at most. -/
def Alike (n : ℕ) (s s' : TransportPacer) : Prop := s.forget n = s'.forget n

structure SameBut (n : ℕ) (s s' : TransportPacer) : Prop where
  alike : Alike n s s'
  drain : s.drain = s'.drain

/-! ## What is read and what is changed -/

section

variable (h : Alike n s s')
include h

theorem Alike.reads {β : Type} (f : TransportPacer → β) (hf : ∀ s, f (s.forget n) = f s) : f s = f s' := by
  rw [← hf s, ← hf s', h]

theorem Alike.state : s.state = s'.state := h.reads TransportPacer.state fun _ => rfl

theorem Alike.queue : s.queue = s'.queue := h.reads TransportPacer.queue fun _ => rfl

theorem Alike.handles : s.handles = s'.handles := h.reads TransportPacer.handles fun _ => rfl

end

theorem Alike.update {f : TransportPacer → TransportPacer} (hf : ∀ s, (f s).forget n = f (s.forget n))
    (h : Alike n s s') : Alike n (f s) (f s') := by
  unfold Alike
  rw [hf, hf, h]

theorem forget_settle (m : ℕ) (o : Outcome) (s : TransportPacer) :
    (s.settle m o).forget n =
      if (s.forget n).state m = .settled then s.forget n
      else
        { s.forget n with
          state := Function.update (s.forget n).state m .settled
          settlements := (s.forget n).settlements ++ [(m, o)].filter fun record => record.1 ≠ n } := by
  unfold settle
  by_cases hsettled : s.state m = .settled
  · rw [if_pos hsettled, if_pos (show (s.forget n).state m = .settled from hsettled)]
  · rw [if_neg hsettled, if_neg (show (s.forget n).state m ≠ .settled from hsettled)]
    simp [forget]

theorem Alike.settle (h : Alike n s s') (m : ℕ) (o : Outcome) : Alike n (s.settle m o) (s'.settle m o) := by
  unfold Alike
  rw [forget_settle, forget_settle, h]

def freeSlots (e : QueuedOperation) (s : TransportPacer) : TransportPacer :=
  { s with
    inFlight := s.inFlight - 1
    readsInFlight := if e.urgency = .read then s.readsInFlight - 1 else s.readsInFlight
    running := s.running.filter fun e' => e'.seq ≠ e.seq }

theorem Alike.release (h : Alike n s s') (e : QueuedOperation) (o : Outcome) :
    Alike n (s.release e o) (s'.release e o) :=
  (h.settle e.seq o).update (f := freeSlots e) fun _ => rfl

theorem Alike.noteWithdrawn (h : Alike n s s') (m : ℕ) : Alike n (s.noteWithdrawn m) (s'.noteWithdrawn m) := by
  have hnote : ∀ s : TransportPacer, (s.noteWithdrawn m).forget n =
      { s.forget n with withdrawn := (s.forget n).withdrawn ++ [m].filter fun m => m ≠ n } := by
    intro s
    simp [TransportPacer.noteWithdrawn, forget]
  unfold Alike
  rw [hnote, hnote, h]

theorem Alike.withDrain (h : Alike n s s') (drain : Drain) : SameBut n (s.withDrain drain) (s'.withDrain drain) :=
  ⟨h, rfl⟩

/-! ## The drain -/

section

variable (n)

theorem respects_change {f : TransportPacer → TransportPacer} (hf : ∀ s, (f s).forget n = f (s.forget n)) :
    Respects (Alike n) (Fallible.update f : Action Unit) :=
  respects_update fun _ _ h => h.update hf

theorem respects_settle (m : ℕ) (o : Outcome) : Respects (Alike n) (Fallible.update (settle m o) : Action Unit) :=
  respects_update fun _ _ h => h.settle m o

variable (e : QueuedOperation) (error : String) (reading : Reading) (p : Pass)

theorem respects_clockNow : Respects (Alike n) (clockNow reading) := by
  apply respects_bind (respects_outside reading)
  intro t
  apply respects_bind (respects_change n (f := elapse t) fun _ => rfl)
  intro _
  apply respects_look_bind
  · intro s s' h
    rw [h.reads TransportPacer.now fun _ => rfl]
  · exact fun s => respects_pure s.now

theorem respects_ifQueued {α : Type} (seq : ℕ) {settled queued : Action α} (hsettled : Respects (Alike n) settled)
    (hqueued : Respects (Alike n) queued) :
    Respects (Alike n) (do if (← look).state seq ≠ .queued then settled else queued) := by
  apply respects_look_bind
  · intro s s' h
    rw [h.state]
  · intro s
    split
    · exact hsettled
    · exact hqueued

theorem respects_deadlineExpired : Respects (Alike n) (deadlineExpired e reading) := by
  unfold deadlineExpired
  split
  · exact respects_pure _
  · exact respects_bind (respects_outside reading) fun _ => respects_pure _

theorem respects_drop (text : Reading) (o : ℚ → Outcome) :
    Respects (Alike n) (do
      Fallible.update (unqueue e.seq)
      let now ← clockNow text
      Fallible.update (settle e.seq (o now)) : Action Unit) := by
  apply respects_bind (respects_change n (f := unqueue e.seq) fun _ => rfl)
  intro _
  apply respects_bind (respects_clockNow n text)
  intro now
  exact respects_settle n e.seq (o now)

theorem respects_refuseExpired (text : Reading) : Respects (Alike n) (refuseExpired e text) :=
  respects_ifQueued n e.seq (respects_pure _) (respects_drop n e text _)

theorem respects_refuseExpiredQueueEntries : Respects (Alike n) (refuseExpiredQueueEntries p) := by
  apply respects_look_bind
  · intro s s' h
    rw [h.queue]
  · intro s
    apply respects_forM
    intro e
    apply respects_ifQueued n e.seq (respects_pure _)
    apply respects_bind (respects_deadlineExpired n e _)
    intro expired
    split
    · exact respects_refuseExpired n e _
    · exact respects_pure _

theorem respects_failEntry : Respects (Alike n) (failEntry e error) := by
  apply respects_ifQueued n e.seq (respects_pure _)
  apply respects_bind (respects_change n (f := unqueue e.seq) fun _ => rfl)
  exact fun _ => respects_settle n e.seq _

theorem respects_failQueue : Respects (Alike n) (failQueue error p) := by
  apply respects_look_bind
  · intro s s' h
    rw [h.queue]
  · intro s
    apply respects_forM
    intro e
    exact respects_ifQueued n e.seq (respects_pure _) (respects_drop n e _ _)

theorem respects_pickNext : Respects (Alike n) (pickNext reading) := by
  apply respects_look_bind
  · intro s s' h
    rw [h.queue, h.reads TransportPacer.limits fun _ => rfl, h.reads TransportPacer.inFlight fun _ => rfl]
  · intro s
    split
    · exact respects_pure _
    · apply respects_bind (respects_clockNow n reading)
      intro now
      apply respects_look_bind
      · intro s s' h
        rw [h.reads (fun s => s.choose now) fun _ => rfl]
      · exact fun s => respects_pure (s.choose now)

theorem respects_dispatch : Respects (Alike n) (dispatch e p) := by
  apply respects_ifQueued n e.seq (respects_pure _)
  apply respects_bind (respects_change n (f := unqueue e.seq) fun _ => rfl)
  intro _
  split
  · exact respects_settle n e.seq _
  · apply respects_bind (respects_change n (f := markDispatched e.seq) fun _ => rfl)
    intro _
    apply respects_bind (respects_clockNow n p.stamp)
    intro sentAt
    apply respects_bind (respects_change n (f := occupy e sentAt) fun _ => rfl)
    intro _
    apply respects_bind (respects_change n (f := invoke e sentAt) fun _ => rfl)
    intro _
    split
    · exact respects_update fun _ _ h => h.release e _
    · exact respects_pure _

theorem respects_dispatchUnlessExpired : Respects (Alike n) (dispatchUnlessExpired e p) := by
  apply respects_bind (respects_deadlineExpired n e p.expired)
  intro expired
  split
  · exact respects_bind (respects_refuseExpired n e p.refusal) fun _ => respects_pure _
  · exact respects_bind (respects_dispatch n e p) fun _ => respects_pure _

theorem respects_sliceOf (s : TransportPacer) (e : QueuedOperation) (wait : ℚ) (timer : Reading) :
    Respects (Alike n) (s.sliceOf e wait timer) := by
  unfold sliceOf
  split
  · exact respects_pure _
  · exact respects_bind (respects_outside timer) fun _ => respects_pure _

theorem respects_drainStep : Respects (Alike n) (drainStep p) := by
  apply respects_bind (respects_refuseExpiredQueueEntries n p)
  intro _
  apply respects_bind (respects_pickNext n p.pick)
  intro next
  cases next with
  | none => exact respects_pure _
  | some next =>
    apply respects_bind (respects_change n (f := setFaultingEntry (some next)) fun _ => rfl)
    intro _
    apply respects_bind (respects_clockNow n p.now)
    intro now
    apply respects_look_bind
    · intro s s' h
      have hwait : s.waitFor next.klass now = s'.waitFor next.klass now :=
        h.reads (fun s => s.waitFor next.klass now) fun _ => rfl
      have hslice : ∀ wait, s.sliceOf next wait p.timer = s'.sliceOf next wait p.timer := fun wait =>
        h.reads (fun s => s.sliceOf next wait p.timer) fun _ => rfl
      simp only [hwait, hslice]
    · intro s
      dsimp only
      split
      · apply respects_bind (respects_sliceOf n s next _ p.timer)
        intro slice
        exact respects_bind (respects_clockNow n p.before) fun _ => respects_pure _
      · exact respects_dispatchUnlessExpired n next p

theorem respects_wake (next : QueuedOperation) (before slice : ℚ) (p : Pass) :
    Respects (Alike n) (wake next before slice p) := by
  have hdone : Respects (Alike n) (do Fallible.update (setFaultingEntry none); return Drain.stepping : Action Drain) :=
    respects_bind (respects_change n (f := setFaultingEntry none) fun _ => rfl) fun _ => respects_pure _
  apply respects_bind (respects_change n (f := elapse (before + slice)) fun _ => rfl)
  intro _
  apply respects_bind (respects_clockNow n p.after)
  intro after
  apply respects_ifQueued n next.seq hdone
  split
  · exact hdone
  · split
    · exact hdone
    · exact respects_dispatchUnlessExpired n next p

theorem respects_contain : Respects (Alike n) (contain error p) := by
  apply respects_look_bind
  · intro s s' h
    rw [h.reads TransportPacer.faultingEntry fun _ => rfl]
  · intro s
    apply respects_bind (respects_change n (f := setFaultingEntry none) fun _ => rfl)
    intro _
    split
    · exact respects_failEntry n _ error
    · exact respects_failQueue n error p

end

/-! ## Events -/

theorem Alike.settleDrain (h : Alike n s s') {step : Action Drain} (hstep : Respects (Alike n) step) :
    SameBut n (settleDrain step s) (settleDrain step s') := by
  unfold TransportPacer.settleDrain
  rcases hstep.cases h with ⟨error, t, t', hend, hend', hnext⟩ | ⟨drain, t, t', hend, hend', hnext⟩
  · rw [hend, hend']
    exact hnext.withDrain _
  · rw [hend, hend']
    exact hnext.withDrain _

theorem SameBut.startScheduling (h : SameBut n s s') (p : Pass) :
    SameBut n (s.startScheduling p) (s'.startScheduling p) := by
  unfold TransportPacer.startScheduling
  rw [← h.drain]
  cases s.drain with
  | idle => exact h.alike.settleDrain (respects_drainStep n p)
  | stepping | faulted _ | sleeping _ _ _ | finishing => exact h

theorem SameBut.resume (h : SameBut n s s') (p : Pass) : SameBut n (s.resume p) (s'.resume p) := by
  unfold TransportPacer.resume
  rw [← h.drain]
  cases s.drain with
  | idle => exact h
  | stepping => exact h.alike.settleDrain (respects_drainStep n p)
  | sleeping next before slice => exact h.alike.settleDrain (respects_wake n next before slice p)
  | faulted error =>
    dsimp only
    rcases (respects_contain n error p).cases h.alike with ⟨m, t, t', hend, hend', hnext⟩ | ⟨u, t, t', hend, hend', hnext⟩
    · rw [hend, hend']
      exact hnext.withDrain _
    · rw [hend, hend']
      exact hnext.settleDrain (respects_drainStep n p)
  | finishing =>
    have hidle : SameBut n (s.withDrain .idle) (s'.withDrain .idle) := h.alike.withDrain _
    have hsome : (s.withDrain .idle).canDispatchSomething = (s'.withDrain .idle).canDispatchSomething :=
      hidle.alike.reads TransportPacer.canDispatchSomething fun _ => rfl
    dsimp only
    rw [← hsome]
    split
    · exact hidle.startScheduling p
    · exact hidle

theorem SameBut.waitFails (h : SameBut n s s') (error : String) : SameBut n (s.waitFails error) (s'.waitFails error) := by
  unfold TransportPacer.waitFails
  rw [← h.drain]
  cases s.drain with
  | sleeping _ _ _ => exact h.alike.withDrain _
  | idle | stepping | faulted _ | finishing => exact h

theorem respects_doorReadings (n : ℕ) (o : TransportRunOptions) (clock expired : Reading) :
    Respects (Alike n) (doorReadings o clock expired) := by
  apply respects_bind (respects_clockNow n clock)
  intro enqueuedAt
  split
  · exact respects_pure _
  · exact respects_bind (respects_outside expired) fun _ => respects_pure _

variable (drain : Drain)

theorem keeps_drain_clockNow (reading : Reading) : Keeps (fun s => s.drain = drain) (clockNow reading) := by
  unfold clockNow
  refine keeps_bind (keeps_outside reading) fun t => ?_
  exact keeps_bind (keeps_update fun _ h => h) fun _ => keeps_bind keeps_look fun s => keeps_pure s.now

theorem keeps_drain_doorReadings (o : TransportRunOptions) (clock expired : Reading) :
    Keeps (fun s => s.drain = drain) (doorReadings o clock expired) := by
  apply keeps_bind (keeps_drain_clockNow drain clock)
  intro enqueuedAt
  split
  · exact keeps_pure _
  · exact keeps_bind (keeps_outside expired) fun _ => keeps_pure _

theorem keeps_drain_withdraw (e : QueuedOperation) (reason : String) (text : Reading) :
    Keeps (fun s => s.drain = drain) (withdraw e reason text) := by
  unfold withdraw
  refine keeps_bind keeps_look fun s => ?_
  split
  · exact keeps_pure _
  · refine keeps_bind (keeps_update fun _ h => h) fun _ => ?_
    refine keeps_bind (keeps_drain_clockNow drain text) fun now => ?_
    exact keeps_bind (keeps_update fun s h => (settle_drain ..).trans h) fun _ => keeps_pure _

section

variable (h : SameBut n s s')
include h

theorem SameBut.cases {α : Type} {m : Action α} (hm : Respects (Alike n) m)
    (hdrain : ∀ drain, Keeps (fun s => s.drain = drain) m) :
    (∃ e t t', ends m s = (.error e, t) ∧ ends m s' = (.error e, t') ∧ SameBut n t t') ∨
      ∃ a t t', ends m s = (.ok a, t) ∧ ends m s' = (.ok a, t') ∧ SameBut n t t' := by
  have hsame : (ends m s).2.drain = (ends m s').2.drain :=
    (hdrain s.drain s rfl).trans (h.drain.trans (hdrain s'.drain s' rfl).symm)
  rcases hm.cases h.alike with ⟨e, t, t', hend, hend', hnext⟩ | ⟨a, t, t', hend, hend', hnext⟩
  · rw [hend, hend'] at hsame
    exact .inl ⟨e, t, t', hend, hend', hnext, hsame⟩
  · rw [hend, hend'] at hsame
    exact .inr ⟨a, t, t', hend, hend', hnext, hsame⟩

theorem SameBut.submit (o : TransportRunOptions) (clock expired : Reading) (p : Pass) :
    SameBut n (s.submit o clock expired p).1 (s'.submit o clock expired p).1 := by
  unfold TransportPacer.submit
  rcases h.cases (respects_doorReadings n o clock expired) fun drain => keeps_drain_doorReadings drain o clock expired with
    ⟨error, t, t', hend, hend', hnext⟩ | ⟨⟨enqueuedAt, alreadyExpired⟩, t, t', hend, hend', hnext⟩
  · rw [hend, hend']
    exact hnext
  · rw [hend, hend']
    dsimp only
    rw [← hnext.alike.handles]
    have hhanded : ∀ e, SameBut n (t.handOut e) (t'.handOut e) := fun e =>
      ⟨hnext.alike.update (f := handOut e) fun _ => rfl, hnext.drain⟩
    split
    · exact ⟨(hhanded _).alike.settle _ _, by simpa using (hhanded _).drain⟩
    · apply SameBut.startScheduling
      exact ⟨(hhanded _).alike.update (f := enqueue _) fun _ => rfl, hnext.drain⟩

theorem SameBut.abandon (e : QueuedOperation) (reason : String) (text : Reading) (p : Pass) :
    SameBut n (s.abandon e reason text p).1 (s'.abandon e reason text p).1 := by
  have hwithdraw : Respects (Alike n) (withdraw e reason text) := by
    apply respects_ifQueued n e.seq (respects_pure _)
    apply respects_bind (respects_change n (f := unqueue e.seq) fun _ => rfl)
    intro _
    apply respects_bind (respects_clockNow n text)
    intro now
    exact respects_bind (respects_settle n e.seq _) fun _ => respects_pure _
  unfold TransportPacer.abandon
  rcases h.cases hwithdraw fun drain => keeps_drain_withdraw drain e reason text with
    ⟨error, t, t', hend, hend', hnext⟩ | ⟨done, t, t', hend, hend', hnext⟩
  · rw [hend, hend']
    exact hnext
  · rw [hend, hend']
    cases done with
    | false => exact hnext
    | true =>
      apply SameBut.startScheduling
      exact ⟨hnext.alike.noteWithdrawn e.seq, hnext.drain⟩

theorem SameBut.complete (e : QueuedOperation) (outcome : Except String Unit) (p : Pass) :
    SameBut n (s.complete e outcome p) (s'.complete e outcome p) := by
  apply SameBut.startScheduling
  refine ⟨h.alike.release e _, ?_⟩
  rw [release_eq, release_eq]
  simpa [landed] using h.drain

theorem SameBut.step (event : PacerEvent) : SameBut n (s.step event).1 (s'.step event).1 := by
  cases event with
  | submitted o clock expired p => exact h.submit o clock expired p
  | abandoned seq reason text p =>
    have hsame : s.handles[seq]? = s'.handles[seq]? := by rw [h.alike.handles]
    cases hhandle : s.handles[seq]? with
    | none => simpa only [TransportPacer.step, hhandle, ← hsame] using h
    | some e => simpa only [TransportPacer.step, hhandle, ← hsame] using h.abandon e reason text p
  | completed seq outcome p =>
    have hsame : s.running = s'.running := h.alike.reads TransportPacer.running fun _ => rfl
    cases hflying : s.running.find? fun e => e.seq = seq with
    | none => simpa only [TransportPacer.step, ← hsame, hflying] using h
    | some e => simpa only [TransportPacer.step, ← hsame, hflying] using h.complete e outcome p
  | resumed p => exact h.resume p
  | waitFailed error => exact h.waitFails error

theorem SameBut.run (events : List PacerEvent) :
    SameBut n (Run.finish TransportPacer.step s events) (Run.finish TransportPacer.step s' events) := by
  induction events generalizing s s' with
  | nil => exact h
  | cons event events ih => exact ih (h.step event)

end

end TransportPacer

/-! ## A faulty entry fails alone -/

/-- The sweep's deadlines and the pacer's own clock answer; those of the step's entry may throw. -/
structure Pass.Contained (p : Pass) : Prop extends Pass.Lossless p where
  sweep : ∀ n, Answers (p.sweep n)
  pick : Answers p.pick
  now : Answers p.now
  before : Answers p.before
  after : Answers p.after
  refusal : Answers p.refusal

def Pass.DeadlineThrew (m : String) (p : Pass) : Prop := p.timer = .error m ∨ p.expired = .error m

def PacerEvent.Contained : PacerEvent → Prop
  | .submitted _ _ _ p => p.Contained
  | .abandoned _ _ text p => Answers text ∧ p.Contained
  | .completed _ _ p => p.Contained
  | .resumed p => p.Contained
  | .waitFailed _ => False

def PacerEvent.DeadlineThrew (m : String) : PacerEvent → Prop
  | .submitted _ _ _ p => p.DeadlineThrew m
  | .abandoned _ _ _ p => p.DeadlineThrew m
  | .completed _ _ p => p.DeadlineThrew m
  | .resumed p => p.DeadlineThrew m
  | .waitFailed _ => False

theorem PacerEvent.Contained.lossless {event : PacerEvent} (h : event.Contained) : event.Lossless := by
  cases event with
  | submitted _ _ _ _ => exact h.toLossless
  | abandoned _ _ _ _ => exact ⟨h.1, h.2.toLossless⟩
  | completed _ _ _ => exact h.toLossless
  | resumed _ => exact h.toLossless
  | waitFailed _ => trivial

namespace TransportPacer

variable {s s' : TransportPacer} {e : QueuedOperation} {n : ℕ} {c : List ℕ} {p : Pass} {m : String}

def ownFault (m : String) (e : QueuedOperation) : Outcome :=
  .abandoned ("This request's own deadline or clock faulted (" ++ m ++ "); nothing was transmitted.") e.klass 0

def removed (n : ℕ) (s : TransportPacer) : TransportPacer :=
  { s.unqueue n with state := Function.update s.state n .settled }

def without (n : ℕ) (s : TransportPacer) : TransportPacer :=
  ((s.removed n).setFaultingEntry none).withDrain .stepping

/-- The fault rejects its own operation and no other. -/
structure Alone (m : String) (e : QueuedOperation) (s : TransportPacer) : Prop where
  rejected : e ∈ s.queue → ∀ p, (ends (contain m p) s).2.settlements = s.settlements ++ [(e.seq, ownFault m e)]
  others : ∀ p later, SameBut e.seq (Run.finish step s (.resumed p :: later))
    (Run.finish step (s.without e.seq) (.resumed p :: later))

def RefusedAlone (m : String) (e : QueuedOperation) (p : Pass) (s : TransportPacer) : Prop :=
  (ends (dispatch e p) s).1 = .ok () ∧
    (ends (dispatch e p) s).2.settlements = s.settlements ++ [(e.seq, .rejected m)] ∧
    Alike e.seq (ends (dispatch e p) s).2 (s.removed e.seq)

structure FaultsAlone (s : TransportPacer) : Prop where
  thrown : ∀ event m, event.Contained → (s.step event).1.drain = .faulted m →
    event.DeadlineThrew m ∨ s.drain = .faulted m ∧ ∀ p, event ≠ .resumed p
  alone : ∀ m, s.drain = .faulted m → ∃ e ∈ s.handles, (e ∈ s.queue ∨ e.seq ∈ s.withdrawn) ∧ Alone m e s
  refused : ∀ e ∈ s.queue, ∀ p m, e.beforeDispatch = true → p.beforeDispatch = .error m → RefusedAlone m e p s

/-! ## Containment -/

theorem removed_settled (hstate : s.state n = .settled) (hqueue : ∀ e ∈ s.queue, e.seq ≠ n) : s.removed n = s := by
  have hsame : s.queue.filter (fun e => e.seq ≠ n) = s.queue := by simpa using hqueue
  unfold removed unqueue
  rw [hsame, ← hstate, Function.update_eq_self]

theorem alike_settle_removed (hstate : s.state n = .queued) (o : Outcome) :
    Alike n ((s.unqueue n).settle n o) (s.removed n) := by
  have hout : (s.unqueue n).state n ≠ .settled := by simp [unqueue, hstate]
  unfold Alike
  rw [forget_settle, if_neg (show ((s.unqueue n).forget n).state n ≠ .settled from hout)]
  simp [removed, forget, unqueue]

theorem contain_culprit (p : Pass) (hculprit : s.faultingEntry = some e) (hstate : s.state e.seq ≠ .dispatched)
    (hqueue : s.state e.seq = .settled → ∀ e' ∈ s.queue, e'.seq ≠ e.seq) :
    (ends (contain m p) s).1 = .ok () ∧
      Alike e.seq (ends (contain m p) s).2 ((s.removed e.seq).setFaultingEntry none) ∧
      (ends (contain m p) s).2.drain = s.drain ∧
      (s.state e.seq = .queued → (ends (contain m p) s).2.settlements = s.settlements ++ [(e.seq, ownFault m e)]) := by
  have hends : ends (contain m p) s = ends (failEntry e m) (s.setFaultingEntry none) := by
    unfold contain
    rw [ends_bind, ends_look]
    simp only [hculprit]
    rfl
  rw [hends]
  unfold failEntry
  rw [ends_bind, ends_look]
  cases hnow : s.state e.seq with
  | dispatched => exact absurd hnow hstate
  | queued =>
    have hqueued : (s.setFaultingEntry none).state e.seq = .queued := hnow
    simp only [hqueued, ne_eq, not_true_eq_false, if_false]
    refine ⟨rfl, alike_settle_removed hqueued _, settle_drain .., fun _ => ?_⟩
    exact settle_settlements (by simp [unqueue, hqueued])
  | settled =>
    have hsettled : (s.setFaultingEntry none).state e.seq = .settled := hnow
    simp only [hsettled, ne_eq, reduceCtorEq, not_false_eq_true, if_true]
    rw [removed_settled hnow (hqueue hnow)]
    exact ⟨rfl, rfl, rfl, fun h => by cases h⟩

structure Culprit (e : QueuedOperation) (s : TransportPacer) : Prop where
  handle : e ∈ s.handles
  faulting : s.faultingEntry = some e
  place : e ∈ s.queue ∨ e.seq ∈ s.withdrawn

theorem Culprit.alone (h : Culprit e s) (hbooks : Books c s) (hdrain : s.drain = .faulted m) : Alone m e s := by
  have hstate : s.state e.seq ≠ .dispatched := by
    rcases h.place with hqueued | hwithdrawn
    · simp [(hbooks.queued e hqueued).2]
    · simp [((hbooks.settled e.seq).mp (hbooks.withdrawn e.seq hwithdrawn).1).2]
  have hqueue : s.state e.seq = .settled → ∀ e' ∈ s.queue, e'.seq ≠ e.seq := by
    intro hsettled e' he' heq
    rw [← heq, (hbooks.queued e' he').2] at hsettled
    cases hsettled
  constructor
  case rejected =>
    intro hqueued p
    exact (contain_culprit p h.faulting hstate hqueue).2.2.2 (hbooks.queued e hqueued).2
  case others =>
    intro p later
    obtain ⟨hok, halike, -, -⟩ := contain_culprit (m := m) p h.faulting hstate hqueue
    apply SameBut.run _ later
    show SameBut e.seq (s.resume p) (settleDrain (drainStep p) (s.without e.seq))
    unfold TransportPacer.resume
    rw [hdrain]
    rcases hend : ends (contain m p) s with ⟨m' | u, s₁⟩
    · rw [hend] at hok
      cases hok
    · rw [hend] at halike
      have hsame : Alike e.seq s₁ (s.without e.seq) := halike
      dsimp only
      rw [hend]
      exact hsame.settleDrain (respects_drainStep e.seq p)

variable {reading : Reading}

theorem total_clockNow (h : Answers reading) : Total (clockNow reading) := by
  obtain ⟨t, rfl⟩ := h
  exact total_bind (total_outside t) fun t => total_bind (total_update (elapse t)) fun _ =>
    total_bind total_look fun s => total_pure s.now

theorem total_refuseExpired (e : QueuedOperation) {text : Reading} (h : Answers text) : Total (refuseExpired e text) := by
  refine total_bind total_look fun s => ?_
  split
  · exact total_pure _
  · refine total_bind (total_update _) fun _ => ?_
    exact total_bind (total_clockNow h) fun now => total_update _

theorem total_refuseExpiredQueueEntries (hp : p.Contained) : Total (refuseExpiredQueueEntries p) := by
  refine total_bind total_look fun s => total_forM fun e => ?_
  obtain ⟨t, ht⟩ := hp.sweep e.seq
  refine total_bind total_look fun s => ?_
  split
  · exact total_pure _
  · apply total_bind
    · unfold deadlineExpired
      split
      · exact total_pure _
      · rw [ht]
        exact total_bind (total_outside t) fun clock => total_pure _
    · intro expired
      split
      · exact total_refuseExpired e (hp.sweepText _)
      · exact total_pure _

theorem total_pickNext (h : Answers reading) : Total (pickNext reading) := by
  refine total_bind total_look fun s => ?_
  split
  · exact total_pure _
  · exact total_bind (total_clockNow h) fun now => total_bind total_look fun s => total_pure _

/-! ## What throws -/

variable {E : String → TransportPacer → Prop}

theorem sweep_answers (hp : p.Contained) : Triple (Core []) (refuseExpiredQueueEntries p) (fun _ => Core []) E :=
  (refuseExpiredQueueEntries_triple hp.toLossless).total (total_refuseExpiredQueueEntries hp)

theorem pickNext_answers (hp : p.Contained) :
    Triple (Core []) (pickNext p.pick) (fun next s => Core [] s ∧ ∀ e, next = some e → Picked e s) E :=
  (pickNext_triple p.pick).total (total_pickNext hp.pick)

theorem clockNow_answers {P : TransportPacer → Prop} (hP : Elapses P) (h : Answers reading) :
    Triple P (clockNow reading) (fun now s => P s ∧ now = s.now) E :=
  (clockNow_triple hP reading (E := fun _ _ => True) fun _ _ _ _ => trivial).total (total_clockNow h)

/-- The fault is the deadline's of the entry the step is about, which is still queued. -/
def Blames (p : Pass) (m : String) (s : TransportPacer) : Prop := (∃ e, Held e s) ∧ p.DeadlineThrew m

theorem expired_blames {P : TransportPacer → Prop} (hP : ∀ s, P s → Held e s) :
    Triple P (deadlineExpired e p.expired) (fun _ => P) (Blames p) := by
  unfold deadlineExpired
  split
  · exact Triple.pure fun _ h => h
  · exact (Triple.outside (fun _ _ _ h => h) fun m s hm h => ⟨⟨e, hP s h⟩, .inr hm⟩).bind fun _ => Triple.pure fun _ h => h

theorem dispatchUnlessExpired_blames (hp : p.Contained) :
    Triple (fun s => Held e s ∧ Clear e s) (dispatchUnlessExpired e p) Stepped (Blames p) := by
  apply (expired_blames fun _ h => h.1).bind
  intro expired
  split
  · have hrefused : Triple (fun s => Held e s ∧ Clear e s) (refuseExpired e p.refusal) (fun _ => Core []) (Blames p) := by
      rintro s ⟨hheld, -⟩
      have hhandle : e ∈ s.handles := (hheld.core.books.queued e hheld.picked.mem).1
      exact (refuseExpired_triple hhandle hp.refusal).imp (fun _ h => h) (fun _ _ h => h.1) (fun _ _ h => h) s
        ⟨hheld.core, rfl⟩
    exact hrefused.bind fun _ => Triple.pure fun _ h => ⟨h, trivial⟩
  · exact ((dispatch_triple hp.stamp).pre fun _ h => ⟨h.1.core, h.1.picked, h.2⟩).bind fun _ =>
      Triple.pure fun _ h => ⟨h, trivial⟩

theorem sliceOf_blames {wait : ℚ} (hwait : 0 < wait) (s₀ : TransportPacer) :
    Triple (Held e) (s₀.sliceOf e wait p.timer) (fun slice s => Held e s ∧ 0 < slice) (Blames p) := by
  have hquantum : 0 < min wait (max 1 s₀.pacing.orderMutationMinIntervalMs) :=
    lt_min hwait (lt_max_of_lt_left one_pos)
  unfold sliceOf
  split
  · exact Triple.pure fun _ h => ⟨h, hquantum⟩
  · apply (Triple.outside (fun _ _ _ h => h) fun m _ hm h => ⟨⟨e, h⟩, .inl hm⟩).bind
    intro clock
    exact Triple.pure fun _ h => ⟨h, lt_min hquantum (Deadline.timerMs_pos _ _)⟩

theorem drainStep_blames (hp : p.Contained) : Triple (Core []) (drainStep p) Stepped (Blames p) := by
  apply (sweep_answers hp).bind
  intro _
  apply (pickNext_answers hp).bind
  intro next
  cases next with
  | none => exact Triple.pure fun _ h => ⟨h.1, trivial⟩
  | some e =>
    have hset : Triple (fun s => Core [] s ∧ ∀ e', some e = some e' → Picked e' s) (update (setFaultingEntry (some e)))
        (fun _ => Held e) (Blames p) := by
      apply Triple.update
      rintro s ⟨hs, hpicked⟩
      have hpicked := hpicked e rfl
      have hhandle := (hs.books.queued e hpicked.mem).1
      exact ⟨hs.setFaultingEntry hhandle, ⟨hpicked.mem, hpicked.admissible, hpicked.oldest⟩, rfl⟩
    apply hset.bind
    intro _
    apply (clockNow_answers Held.elapses hp.now).bind
    intro now
    apply Triple.look_bind
    rintro s ⟨hs, rfl⟩
    dsimp only
    split
    next hwait =>
      apply ((sliceOf_blames hwait s).pre fun _ heq => heq ▸ hs).bind
      intro slice
      have helapses : Elapses fun s => Held e s ∧ 0 < slice := fun s t h => ⟨Held.elapses s t h.1, h.2⟩
      exact (clockNow_answers helapses hp.before).bind fun before => Triple.pure fun _ h => ⟨h.1.1.core, h.1.2⟩
    next hwait =>
      apply (dispatchUnlessExpired_blames hp).pre
      rintro _ rfl
      exact ⟨hs, hs.core.clear hwait⟩

theorem wake_answers (hp : p.Contained) {before slice : ℚ} (hslice : 0 < slice) :
    Triple (Core []) (wake e before slice p) Stepped (Blames p) := by
  have hlate : Elapses fun s => Core [] s ∧ before + slice ≤ s.now :=
    fun s t h => ⟨h.1.elapse t, h.2.trans (le_max_left ..)⟩
  have hwait : Triple (Core []) (update (elapse (before + slice))) (fun _ s => Core [] s ∧ before + slice ≤ s.now)
      (Blames p) :=
    Triple.update fun s h => ⟨h.elapse _, le_max_right ..⟩
  apply hwait.bind
  intro _
  apply (clockNow_answers hlate hp.after).bind
  intro after
  apply Triple.look_bind
  rintro s ⟨⟨hs, hle⟩, rfl⟩
  have hserved : 0 < s.now - before := by linarith
  have hdone : Triple (· = s) (do update (setFaultingEntry none); return Drain.stepping) Stepped (Blames p) := by
    have hclear : Triple (· = s) (update (setFaultingEntry none)) (fun _ => Core []) (Blames p) := by
      apply Triple.update
      rintro _ rfl
      exact hs.clearFaultingEntry
    exact hclear.bind fun _ => Triple.pure fun _ h => ⟨h, trivial⟩
  simp only [hserved, if_true]
  split
  · exact hdone
  · exact hdone

/-! ## Steps of a run -/

structure Faults (threw : String → Prop) (s s' : TransportPacer) : Prop where
  culprit : (∀ m, s.drain = .faulted m → ∃ e, Culprit e s) → ∀ m, s'.drain = .faulted m → ∃ e, Culprit e s'
  thrown : ∀ m, s'.drain = .faulted m → threw m ∨ s.drain = .faulted m

theorem Faults.refl (threw : String → Prop) (s : TransportPacer) : Faults threw s s := ⟨fun h => h, fun _ h => .inr h⟩

theorem Faults.trans {threw : String → Prop} {s₁ : TransportPacer} (h : Faults threw s s₁) (h' : Faults threw s₁ s') :
    Faults threw s s' :=
  ⟨fun hs => h'.culprit (h.culprit hs), fun m hm => (h'.thrown m hm).elim .inl (h.thrown m)⟩

theorem Faults.of_same {threw : String → Prop} (hdrain : s'.drain = s.drain) (hculprit : ∀ e, Culprit e s → Culprit e s') :
    Faults threw s s' where
  culprit := by
    intro hs m hm
    rw [hdrain] at hm
    obtain ⟨e, he⟩ := hs m hm
    exact ⟨e, hculprit e he⟩
  thrown := fun m hm => .inr (hdrain ▸ hm)

theorem settleDrain_faults {step : Action Drain} (hstep : Triple (Core []) step Stepped (Blames p)) (h : Core [] s) :
    ∀ m, (settleDrain step s).drain = .faulted m → p.DeadlineThrew m ∧ ∃ e, Culprit e (settleDrain step s) := by
  intro m hm
  have hend := hstep s h
  unfold settleDrain at hm ⊢
  rcases hends : ends step s with ⟨m' | drain, s₁⟩
  · rw [hends] at hend hm
    cases hm
    obtain ⟨⟨e, hheld⟩, hthrew⟩ := hend
    exact ⟨hthrew, e, ⟨(hheld.core.books.queued e hheld.picked.mem).1, hheld.faulting, .inl hheld.picked.mem⟩⟩
  · rw [hends] at hend hm
    have hsame : drain = .faulted m := hm
    rw [hsame] at hend
    exact absurd hend.2 id

theorem startScheduling_faults (hp : p.Contained) (hcore : s.drain = .idle → Core [] s) :
    Faults (fun m => p.DeadlineThrew m) s (s.startScheduling p) := by
  unfold TransportPacer.startScheduling
  split
  next hidle =>
    have hnew := settleDrain_faults (drainStep_blames hp) (hcore hidle)
    exact ⟨fun _ m hm => (hnew m hm).2, fun m hm => .inl (hnew m hm).1⟩
  next => exact Faults.refl _ s

theorem Inv.resume_faults (h : Inv s) (hp : p.Contained) (hm : (s.resume p).drain = .faulted m) :
    p.DeadlineThrew m ∧ ∃ e, Culprit e (s.resume p) := by
  unfold TransportPacer.resume at hm ⊢
  split at hm
  next hdrain =>
    rw [hdrain] at hm
    cases hm
  next hdrain => exact settleDrain_faults (drainStep_blames hp) (h.core_nil (by simp [charged, hdrain])) m hm
  next m' hdrain =>
    have hfaulted : Core s.faultSeqs s := by
      have hsame : s.charged = s.faultSeqs := by simp [charged, faultSeqs, hdrain]
      rw [← hsame]
      exact h.core
    have hend := contain_triple hp.toLossless m' (E := fun _ _ => False) s hfaulted
    rcases hends : ends (contain m' p) s with ⟨m'' | _, s₁⟩
    · rw [hends] at hend
      exact absurd hend id
    · rw [hends] at hend hm
      exact settleDrain_faults (drainStep_blames hp) hend m hm
  next e before slice hdrain =>
    exact settleDrain_faults (wake_answers hp (h.slices e before slice hdrain))
      (h.core_nil (by simp [charged, hdrain])) m hm
  next hdrain =>
    have hcore : Core [] (s.withDrain .idle) := (h.core_nil (by simp [charged, hdrain])).withDrain _
    dsimp only at hm ⊢
    split at hm
    next hsome =>
      rw [if_pos hsome]
      exact settleDrain_faults (drainStep_blames hp) hcore m hm
    next => cases hm

theorem doorReadings_state (o : TransportRunOptions) (clock expired : Reading) (s : TransportPacer) :
    (ends (doorReadings o clock expired) s).2 = s ∨ ∃ t, (ends (doorReadings o clock expired) s).2 = s.elapse t := by
  unfold doorReadings
  cases clock with
  | error m => exact .inl rfl
  | ok t =>
    cases hdeadline : o.deadline with
    | none => exact .inr ⟨t, rfl⟩
    | some deadline => cases expired <;> exact .inr ⟨t, rfl⟩

theorem Culprit.settle (h : Culprit e s) (n : ℕ) (o : Outcome) : Culprit e (s.settle n o) := by
  constructor
  · simpa using h.handle
  · simpa using h.faulting
  · simpa using h.place

theorem Culprit.handOut (h : Culprit e s) (entry : QueuedOperation) : Culprit e (s.handOut entry) :=
  ⟨List.mem_append_left _ h.handle, h.faulting, h.place⟩

theorem Culprit.enqueue (h : Culprit e s) (entry : QueuedOperation) : Culprit e (s.enqueue entry) :=
  ⟨h.handle, h.faulting, h.place.imp_left (List.mem_append_left _)⟩

theorem Culprit.release (h : Culprit e s) (entry : QueuedOperation) (o : Outcome) : Culprit e (s.release entry o) := by
  have hsettled := h.settle entry.seq o
  exact ⟨hsettled.handle, hsettled.faulting, hsettled.place⟩

theorem Culprit.withdrawn (h : Culprit e s) (n : ℕ) (t : ℚ) (o : Outcome) :
    Culprit e ((((s.unqueue n).elapse t).settle n o).noteWithdrawn n) := by
  constructor
  case handle =>
    show e ∈ (((s.unqueue n).elapse t).settle n o).handles
    rw [settle_handles]
    exact h.handle
  case faulting =>
    show (((s.unqueue n).elapse t).settle n o).faultingEntry = some e
    rw [settle_faultingEntry]
    exact h.faulting
  case place =>
    show e ∈ (((s.unqueue n).elapse t).settle n o).queue ∨ e.seq ∈ (((s.unqueue n).elapse t).settle n o).withdrawn ++ [n]
    rw [settle_queue, settle_withdrawn, List.mem_append, List.mem_singleton]
    by_cases hn : e.seq = n
    · exact .inr (.inr hn)
    · exact h.place.imp (fun hqueued => mem_unqueue.mpr ⟨hqueued, hn⟩) .inl

theorem Inv.submit_faults (h : Inv s) (hp : p.Contained) (o : TransportRunOptions) (clock expired : Reading) :
    Faults (fun m => p.DeadlineThrew m) s (s.submit o clock expired p).1 := by
  have hdoor := doorReadings_triple o clock expired s h
  have hsame : Faults (fun m => p.DeadlineThrew m) s (ends (doorReadings o clock expired) s).2 := by
    rcases doorReadings_state o clock expired s with heq | ⟨t, heq⟩
    · rw [heq]
      exact Faults.refl _ s
    · rw [heq]
      exact Faults.of_same rfl fun e he => ⟨he.handle, he.faulting, he.place⟩
  unfold TransportPacer.submit
  rcases hends : ends (doorReadings o clock expired) s with ⟨m | ⟨enqueuedAt, alreadyExpired⟩, s₁⟩
  · rw [hends] at hsame
    exact hsame
  · rw [hends] at hdoor hsame
    obtain ⟨hs₁, rfl⟩ := hdoor
    dsimp only at hsame ⊢
    split
    · exact hsame.trans (Faults.of_same (settle_drain ..) fun e he => (he.handOut _).settle _ _)
    · have hentered : ∀ entry, Faults (fun m => p.DeadlineThrew m) s ((s₁.handOut entry).enqueue entry) := fun entry =>
        hsame.trans (Faults.of_same rfl fun e he => (he.handOut entry).enqueue entry)
      apply (hentered _).trans
      apply startScheduling_faults hp
      intro hidle
      have hcharged : s₁.charged = [] := by
        have hdrain : s₁.drain = .idle := hidle
        simp [charged, hdrain]
      exact (hs₁.core_nil hcharged).enter rfl rfl

theorem Inv.abandon_faults (h : Inv s) (hp : p.Contained) (he : e ∈ s.handles) (reason : String) {text : Reading}
    (htext : Answers text) : Faults (fun m => p.DeadlineThrew m) s (s.abandon e reason text p).1 := by
  obtain ⟨t, rfl⟩ := htext
  unfold TransportPacer.abandon withdraw
  rw [ends_bind, ends_look]
  by_cases hstate : s.state e.seq = .queued
  · simp only [hstate, ne_eq, not_true_eq_false, if_false]
    have hwithdrawn : ∀ o, Faults (fun m => p.DeadlineThrew m) s
        ((((s.unqueue e.seq).elapse t).settle e.seq o).noteWithdrawn e.seq) := fun o =>
      Faults.of_same (settle_drain ..) fun culprit hculprit => hculprit.withdrawn e.seq t o
    apply (hwithdrawn _).trans
    apply startScheduling_faults hp
    intro hidle
    have hdrain : s.drain = .idle := (settle_drain ((s.unqueue e.seq).elapse t) e.seq _).symm.trans hidle
    exact (h.core_nil (by simp [charged, hdrain])).withdrawn he hstate t _
  · simp only [hstate, ne_eq, not_false_eq_true, if_true]
    exact Faults.refl _ s

theorem Inv.complete_faults (h : Inv s) (hp : p.Contained) (he : e ∈ s.running) (outcome : Except String Unit) :
    Faults (fun m => p.DeadlineThrew m) s (s.complete e outcome p) := by
  have hreleased : ∀ o, Faults (fun m => p.DeadlineThrew m) s (s.release e o) := fun o =>
    Faults.of_same (settle_drain ..) fun culprit hculprit => hculprit.release e o
  apply (hreleased _).trans
  apply startScheduling_faults hp
  intro hidle
  have hdrain : s.drain = .idle := (settle_drain ..).symm.trans hidle
  refine (h.core_nil (by simp [charged, hdrain])).release he ?_
  cases outcome <;> exact fun h => h

theorem Inv.step_faults (h : Inv s) {event : PacerEvent} (hevent : event.Contained) :
    Faults (fun m => event.DeadlineThrew m) s (s.step event).1 := by
  cases event with
  | submitted o clock expired p => exact h.submit_faults hevent o clock expired
  | abandoned seq reason text p =>
    cases hhandle : s.handles[seq]? with
    | none => simpa only [TransportPacer.step, hhandle] using Faults.refl _ s
    | some e =>
      simp only [TransportPacer.step, hhandle]
      exact h.abandon_faults hevent.2 (List.mem_of_getElem? hhandle) reason hevent.1
  | completed seq outcome p =>
    cases hflying : s.running.find? fun e => e.seq = seq with
    | none => simpa only [TransportPacer.step, hflying] using Faults.refl _ s
    | some e =>
      simp only [TransportPacer.step, hflying]
      exact h.complete_faults hevent (List.mem_of_find?_eq_some hflying) outcome
  | resumed p =>
    exact ⟨fun _ m hm => (h.resume_faults hevent hm).2, fun m hm => .inl (h.resume_faults hevent hm).1⟩
  | waitFailed _ => exact absurd hevent id

/-! ## Runs -/

theorem refusedAlone (hstate : s.state e.seq = .queued) (hcheck : e.beforeDispatch = true)
    (hthrew : p.beforeDispatch = .error m) : RefusedAlone m e p s := by
  have hends : ends (dispatch e p) s = (.ok (), (s.unqueue e.seq).settle e.seq (.rejected m)) := by
    unfold dispatch
    rw [ends_bind, ends_look]
    simp only [hstate, hcheck, hthrew, ne_eq, not_true_eq_false, if_false, if_true]
    rfl
  unfold RefusedAlone
  rw [hends]
  exact ⟨rfl, settle_settlements (by simp [unqueue, hstate]), alike_settle_removed hstate _⟩

/-- Where no deadline throws in a sweep, every fault is one entry's own and settles it alone. -/
theorem faults_alone (pacing : EffectiveBrokerPacing) (limits : TransportConcurrencyLimits) (now : ℚ)
    {events : List PacerEvent} (h : ∀ event ∈ events, event.Contained) :
    FaultsAlone (Run.finish step (new pacing limits now) events) := by
  have hguarded : Run.Guarded step (fun _ event => event.Contained) (TransportPacer.new pacing limits now) events := by
    apply Run.guarded_of_forall
    rintro earlier event later rfl
    exact h event (List.mem_append_right _ (.head _))
  obtain ⟨hinv, hculprit⟩ := hguarded.invariant
    (fun s => Inv s ∧ ∀ m, s.drain = .faulted m → ∃ e, Culprit e s)
    (fun s event hs (hevent : event.Contained) => ⟨hs.1.step hevent.lossless, (hs.1.step_faults hevent).culprit hs.2⟩)
    ⟨Inv.new pacing limits now, fun _ hm => nomatch hm⟩
  constructor
  case thrown =>
    intro event m hevent hm
    by_cases hresumed : ∃ p, event = .resumed p
    · obtain ⟨p, rfl⟩ := hresumed
      exact .inl (hinv.resume_faults hevent hm).1
    · exact ((hinv.step_faults hevent).thrown m hm).imp_right fun hdrain => ⟨hdrain, fun p heq => hresumed ⟨p, heq⟩⟩
  case alone =>
    intro m hm
    obtain ⟨e, he⟩ := hculprit m hm
    exact ⟨e, he.handle, he.place, he.alone hinv.core.books hm⟩
  case refused =>
    intro e he p m hcheck hthrew
    exact refusedAlone (hinv.core.books.queued e he).2 hcheck hthrew

theorem readAt_contained (t : ℚ) : (readAt t).Contained where
  toLossless := readAt_lossless t
  sweep := fun _ => ⟨t, rfl⟩
  pick := ⟨t, rfl⟩
  now := ⟨t, rfl⟩
  before := ⟨t, rfl⟩
  after := ⟨t, rfl⟩
  refusal := ⟨t, rfl⟩

def brokenPoll : List PacerEvent :=
  [.submitted cancel (.ok 0) (.ok 0) (readAt 0), .submitted poll (.ok 1) (.ok 1) (readAt 1),
    .submitted { poll with deadline := none } (.ok 2) (.ok 2) (readAt 2),
    .resumed { readAt 2 with timer := .error "deadline exploded" }]

/-- The deadline of a poll throws while another poll waits behind it. -/
theorem faults_alone_poll : let s := Run.finish step (new zerodhaPacing (.ofOptions none none none) 0) brokenPoll
    s.drain = .faulted "deadline exploded" ∧ s.queue.length = 2 ∧ FaultsAlone s := by
  refine ⟨by decide +kernel, by decide +kernel, faults_alone _ _ _ ?_⟩
  simp only [brokenPoll, List.forall_mem_cons]
  exact ⟨readAt_contained 0, readAt_contained 1, readAt_contained 2, { readAt_contained 2 with }, fun _ h => nomatch h⟩

def sweepThrows : Pass :=
  { readAt 2 with sweep := fun seq => if seq = 1 then .error "deadline exploded" else .ok 2 }

def poisoned : List PacerEvent :=
  [.submitted cancel (.ok 0) (.ok 0) (readAt 0), .submitted poll (.ok 1) (.ok 1) (readAt 1),
    .submitted cancel (.ok 2) (.ok 2) (readAt 2), .resumed sweepThrows, .resumed sweepThrows]

theorem poisoned_queue_fails : ¬FaultsAlone (Run.finish step (new zerodhaPacing (.ofOptions none none none) 0) poisoned) := by
  intro h
  obtain ⟨e, -, hplace, halone⟩ := h.alone "deadline exploded" (by decide +kernel)
  rcases hplace with hqueued | hwithdrawn
  · have hlength := congrArg List.length (halone.rejected hqueued (readAt 2))
    rw [List.length_append, List.length_singleton] at hlength
    exact absurd hlength (by decide +kernel)
  · have hnone : (Run.finish step (new zerodhaPacing (.ofOptions none none none) 0) poisoned).withdrawn = [] := by
      decide +kernel
    rw [hnone] at hwithdrawn
    cases hwithdrawn

end TransportPacer

end BoxEngine
