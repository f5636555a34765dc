import BoxEngine.PacerBooks

/-!
# What the pacer is safe from

Every pass keeps the books, as long as no clock reading throws between an operation's removal from the queue and its
settlement or dispatch.
-/

namespace BoxEngine

open Js Fallible

def Answers {α : Type} (r : Except String α) : Prop := ∃ a, r = .ok a

structure Pass.Lossless (p : Pass) : Prop where
  sweepText : ∀ n, Answers (p.sweepText n)
  stamp : Answers p.stamp
  failText : ∀ n, Answers (p.failText n)

def PacerEvent.Lossless : PacerEvent → Prop
  | .submitted _ _ _ p => p.Lossless
  | .abandoned _ _ text p => Answers text ∧ p.Lossless
  | .completed _ _ p => p.Lossless
  | .resumed p => p.Lossless
  | .waitFailed _ => True

namespace TransportPacer

variable {s : TransportPacer} {e : QueuedOperation} {n : ℕ} {c : List ℕ} {p : Pass}

def charged (s : TransportPacer) : List ℕ :=
  match s.drain with
  | .faulted _ => (s.faultingEntry.map QueuedOperation.seq).toList
  | _ => []

structure Safe (s : TransportPacer) : Prop where
  spaced : s.dispatches.Pairwise (Spaced s.pacing)
  width : s.running.length ≤ s.limits.maxInFlight
  reads : (s.running.countP fun e => e.urgency = .read) ≤ s.limits.maxConcurrentReads
  reserve : ∀ d ∈ s.dispatches, d.entry.urgency ≠ .recovery →
    d.inFlight + s.limits.reservedForRecovery ≤ s.limits.maxInFlight
  invokedOnce : (s.dispatches.map fun d => d.entry.seq).Nodup
  settledOnce : s.settledSeqs.Nodup
  settledOnly : ∀ n ∈ s.settledSeqs, (∀ e ∈ s.queue, e.seq ≠ n) ∧ ∀ e ∈ s.running, e.seq ≠ n
  accounted : ∀ e ∈ s.handles, e ∈ s.queue ∨ e ∈ s.running ∨ e.seq ∈ s.charged ∨ e.seq ∈ s.settledSeqs
  settledAtRest : s.drain = .idle → s.running = [] → ∀ e ∈ s.handles, e.seq ∈ s.settledSeqs
  withdrawn : ∀ n ∈ s.withdrawn, s.NeverInvoked n
  abandoned : ∀ n o, (n, o) ∈ s.settlements → Outcome.IsAbandoned o → s.NeverInvoked n
  ordered : s.dispatches.Pairwise fun d d' => d.entry.urgency = d'.entry.urgency → d.entry.seq < d'.entry.seq
  awake : s.drain = .idle → ∀ e ∈ s.queue, s.admissible e = false

structure Picked (e : QueuedOperation) (s : TransportPacer) : Prop where
  mem : e ∈ s.queue
  admissible : s.admissible e
  oldest : ∀ e' ∈ s.queue, e.urgency = e'.urgency → e.seq ≤ e'.seq

theorem admissible_congr {e' : QueuedOperation} (h : e.urgency = e'.urgency) : s.admissible e = s.admissible e' := by
  simp [admissible, h]

theorem mem_candidates : e ∈ s.candidates ↔ e ∈ s.queue ∧ s.state e.seq = .queued ∧ s.admissible e := by
  simp [candidates, List.mem_filter]

theorem Core.picked_of_choose (h : Core c s) {now : ℚ} (hchoose : s.choose now = some e) : Picked e s := by
  have hpeer : ∀ {e e' : QueuedOperation}, e ∈ s.candidates → e' ∈ s.queue → e.urgency = e'.urgency →
      e' ∈ s.candidates := by
    intro e e' he he' hsame
    rw [mem_candidates] at he ⊢
    exact ⟨he', (h.books.queued e' he').2, admissible_congr hsame ▸ he.2.2⟩
  have hpicked : e ∈ s.candidates → (∀ e' ∈ s.queue, e.urgency = e'.urgency → e.seq ≤ e'.seq) → Picked e s :=
    fun he hfirst => ⟨(mem_candidates.mp he).1, (mem_candidates.mp he).2.2, hfirst⟩
  rcases Option.or_eq_some_iff.mp hchoose with hstarved | ⟨-, hbest⟩
  · -- An older one of the same tier has waited at least as long.
    have hmem := List.argmin_mem hstarved
    obtain ⟨hcandidate, hwaited⟩ := List.mem_filter.mp hmem
    apply hpicked hcandidate
    intro e' he' hsame
    by_contra hlt
    have hentered : e'.enqueuedAt ≤ e.enqueuedAt := by
      have hsorted := List.pairwise_iff_getElem.mp h.timed.sorted
      obtain ⟨i, hi, rfl⟩ := List.getElem_of_mem he'
      obtain ⟨j, hj, rfl⟩ := List.getElem_of_mem (mem_candidates.mp hcandidate).1
      rcases Nat.lt_trichotomy i j with hij | rfl | hji
      · exact (hsorted i j hi hj hij).2
      · exact le_rfl
      · have hgt := (hsorted j i hj hi hji).1
        omega
    have hwaited' : e' ∈ s.candidates.filter fun e => STARVATION_GRACE_MS ≤ now - e.enqueuedAt := by
      refine List.mem_filter.mpr ⟨hpeer hcandidate he' hsame, ?_⟩
      rw [decide_eq_true_eq] at hwaited ⊢
      linarith
    exact hlt (List.le_of_mem_argmin hwaited' hstarved)
  · have hcandidate := List.argmin_mem hbest
    apply hpicked hcandidate
    intro e' he' hsame
    have hle := List.le_of_mem_argmin (hpeer hcandidate he' hsame) hbest
    rw [Prod.Lex.toLex_le_toLex, hsame] at hle
    exact (hle.resolve_left (lt_irrefl _)).2

def Elapses (P : TransportPacer → Prop) : Prop := ∀ s t, P s → P (s.elapse t)

variable {E : String → TransportPacer → Prop}

theorem clockNow_triple {P : TransportPacer → Prop} (hP : Elapses P) (r : Reading)
    (hE : ∀ m s, r = .error m → P s → E m s) : Triple P (clockNow r) (fun now s => P s ∧ now = s.now) E := by
  intro s hs
  cases r with
  | ok t => exact ⟨hP s t hs, rfl⟩
  | error m => exact hE m s rfl hs

def Kept (c : List ℕ) (handles : List QueuedOperation) (s : TransportPacer) : Prop := Core c s ∧ s.handles = handles

variable {handles : List QueuedOperation} {text : Reading}

theorem refuseExpired_triple (he : e ∈ handles) (htext : Answers text) :
    Triple (Kept c handles) (refuseExpired e text) (fun _ => Kept c handles) E := by
  obtain ⟨t, rfl⟩ := htext
  rintro s ⟨hcore, rfl⟩
  unfold refuseExpired
  rw [ends_bind, ends_look]
  by_cases hstate : s.state e.seq = .queued
  · simp only [hstate, ne_eq, not_true_eq_false, if_false]
    exact ⟨hcore.refused he hstate t _, settle_handles ..⟩
  · simp only [hstate, ne_eq, not_false_eq_true, if_true]
    exact ⟨hcore, rfl⟩

theorem refuseIfExpired_triple (he : e ∈ handles) (htext : Answers text) (r : Reading) :
    Triple (Kept c handles) (refuseIfExpired e r text) (fun _ => Kept c handles) fun _ => Kept c handles := by
  apply Triple.look_bind
  intro s hs
  split
  · exact Triple.pure fun s' heq => heq ▸ hs
  · apply Triple.bind (Q := fun _ => Kept c handles)
    · unfold deadlineExpired
      split
      · exact Triple.pure fun s' heq => heq ▸ hs
      · apply (Triple.outside (fun _ s' _ heq => heq ▸ hs) fun _ s' _ heq => heq ▸ hs).bind
        exact fun _ => Triple.pure fun _ h => h
    · intro expired
      split
      · exact refuseExpired_triple he htext
      · exact Triple.pure fun _ h => h

theorem refuseExpiredQueueEntries_triple (hp : p.Lossless) :
    Triple (Core c) (refuseExpiredQueueEntries p) (fun _ => Core c) fun _ => Core c := by
  apply Triple.look_bind
  intro s hs
  have hloop : Triple (Kept c s.handles) (s.queue.forM fun entry => refuseIfExpired entry (p.sweep entry.seq)
      (p.sweepText entry.seq)) (fun _ => Kept c s.handles) fun _ => Kept c s.handles :=
    Triple.forM fun e he => refuseIfExpired_triple (hs.books.queued e he).1 (hp.sweepText _) _
  refine hloop.imp ?_ (fun _ _ h => h.1) fun _ _ h => h.1
  rintro _ rfl
  exact ⟨hs, rfl⟩

/-! ## Dispatch -/

structure Clear (e : QueuedOperation) (s : TransportPacer) : Prop where
  floor : ∀ t, s.lastAnyCallAt = some t → t + s.pacing.orderMutationMinIntervalMs ≤ s.now
  interval : ∀ t, s.lastOf e.klass = some t → t + s.pacing.required e.klass ≤ s.now

theorem add_required_le_of_pacingWaitMs {pacing : EffectiveBrokerPacing} {klass : BrokerPacingClass} {last now : ℚ}
    (hpast : last ≤ now) (hwait : pacing.pacingWaitMs klass (some last) now ≤ 0) :
    last + pacing.required klass ≤ now := by
  have helapsed : ¬now - last < 0 := by linarith
  simp only [EffectiveBrokerPacing.pacingWaitMs, helapsed, if_false, max_le_iff] at hwait
  linarith

theorem Core.clear (h : Core c s) (hwait : ¬0 < s.waitFor e.klass s.now) : Clear e s := by
  obtain ⟨hclass, hfloor⟩ := max_le_iff.mp (not_lt.mp hwait)
  constructor
  · intro t ht
    rw [ht] at hfloor
    exact add_required_le_of_pacingWaitMs (h.timed.past t ht) hfloor
  · intro t ht
    have hsame : s.pacing.pacingWaitMs e.klass (s.lastOf e.klass) s.now ≤ 0 := by
      cases hk : e.klass <;> rw [hk] at hclass <;> exact hclass
    rw [ht] at hsame
    exact add_required_le_of_pacingWaitMs (h.timed.pastOf _ t ht) hsame

theorem Core.next (h : Core c s) (hpicked : Picked e s) (hclear : Clear e s) : Next e (s.unqueue e.seq) where
  admissible := hpicked.admissible
  floor := hclear.floor
  interval := hclear.interval
  last := fun d hd hsame => h.timed.behind d hd e hpicked.mem hsame
  first := by
    intro e' he' hsame
    obtain ⟨he', hne⟩ := mem_unqueue.mp he'
    have hle := hpicked.oldest e' he' hsame
    omega

theorem Next.elapse (h : Next e s) (t : ℚ) : Next e (s.elapse t) :=
  { h with
    floor := fun t' ht' => (h.floor t' ht').trans (le_max_left ..)
    interval := fun t' ht' => (h.interval t' ht').trans (le_max_left ..) }

theorem dispatch_triple (hstamp : Answers p.stamp) :
    Triple (fun s => Core c s ∧ Picked e s ∧ Clear e s) (dispatch e p) (fun _ => Core c) E := by
  obtain ⟨t, ht⟩ := hstamp
  rintro s ⟨hcore, hpicked, hclear⟩
  obtain ⟨hhandle, hstate⟩ := hcore.books.queued e hpicked.mem
  have hout : ∀ e' ∈ (s.unqueue e.seq).queue, e'.seq ≠ e.seq := fun _ he' => (mem_unqueue.mp he').2
  have hcharged : Core (e.seq :: c) (s.unqueue e.seq) := hcore.unqueue e.seq
  have hsent : Core c (((s.unqueue e.seq).elapse t).send e ((s.unqueue e.seq).elapse t).now) :=
    (hcharged.elapse t).send hhandle hstate hout ((hcore.next hpicked hclear).elapse t)
  unfold dispatch
  rw [ends_bind, ends_look]
  simp only [hstate, ne_eq, not_true_eq_false, if_false]
  rw [ends_bind, ends_update]
  cases hcheck : (if e.beforeDispatch = true then p.beforeDispatch else .ok ()) with
  | error m => exact hcharged.settle (hcore.books.lt_length hhandle) hstate hout _
  | ok _ =>
    rw [ht]
    cases hop : p.operation with
    | ok _ => exact hsent
    | error m => exact hsent.release (List.mem_append_right _ (List.mem_singleton_self e)) fun h => h

/-! ## One step of the drain -/

def Rests : Drain → Prop
  | .stepping => True
  | .sleeping _ _ slice => 0 < slice
  | .finishing => True
  | _ => False

def faultSeqs (s : TransportPacer) : List ℕ := (s.faultingEntry.map QueuedOperation.seq).toList

def Stepped (drain : Drain) (s : TransportPacer) : Prop := Core [] s ∧ Rests drain

def Faulted (_ : String) (s : TransportPacer) : Prop := Core s.faultSeqs s

theorem pickNext_triple (r : Reading) :
    Triple (Core []) (pickNext r) (fun next s => Core [] s ∧ ∀ e, next = some e → Picked e s) fun _ => Core [] := by
  apply Triple.look_bind
  intro s hs
  split
  · apply Triple.pure
    rintro _ rfl
    exact ⟨hs, by simp⟩
  · have hclock : Triple (Core []) (clockNow r) (fun now s => Core [] s ∧ now = s.now) fun _ => Core [] :=
      clockNow_triple (fun _ t h => h.elapse t) r fun _ _ _ h => h
    have hstart : ∀ s', s' = s → Core [] s' := fun s' heq => heq ▸ hs
    apply (hclock.pre hstart).bind
    intro now
    apply Triple.look_bind
    rintro s' ⟨hs', -⟩
    apply Triple.pure
    rintro _ rfl
    exact ⟨hs', fun e he => hs'.picked_of_choose he⟩

structure Held (e : QueuedOperation) (s : TransportPacer) : Prop where
  core : Core [] s
  picked : Picked e s
  faulting : s.faultingEntry = some e

theorem Held.elapses : Elapses (Held e) := fun _ t h =>
  ⟨h.core.elapse t, ⟨h.picked.mem, h.picked.admissible, h.picked.oldest⟩, h.faulting⟩

theorem Held.faulted (h : Held e s) (m : String) : Faulted m s := h.core.charge

theorem deadlineExpired_triple {P : TransportPacer → Prop} (hP : ∀ s, P s → Held e s) (r : Reading) :
    Triple P (deadlineExpired e r) (fun _ => P) Faulted := by
  unfold deadlineExpired
  split
  · exact Triple.pure fun _ h => h
  · exact (Triple.outside (fun _ _ _ h => h) fun m s _ h => (hP s h).faulted m).bind fun _ => Triple.pure fun _ h => h

theorem refuseHeld_triple (text : Reading) : Triple (Held e) (refuseExpired e text) (fun _ => Core []) Faulted := by
  intro s hs
  obtain ⟨hhandle, hstate⟩ := hs.core.books.queued e hs.picked.mem
  cases text with
  | ok t =>
    have hrefused : Triple (Kept [] s.handles) (refuseExpired e (.ok t)) (fun _ => Core []) Faulted :=
      (refuseExpired_triple hhandle ⟨t, rfl⟩).imp (fun _ h => h) (fun _ _ h => h.1) fun _ _ h => h
    exact hrefused s ⟨hs.core, rfl⟩
  | error m =>
    unfold refuseExpired
    rw [ends_bind, ends_look]
    simp only [hstate, ne_eq, not_true_eq_false, if_false]
    have hcharged : Core [e.seq] (s.unqueue e.seq) := hs.core.unqueue e.seq
    show Core (faultSeqs (s.unqueue e.seq)) (s.unqueue e.seq)
    have hseqs : faultSeqs (s.unqueue e.seq) = [e.seq] := by simp [faultSeqs, TransportPacer.unqueue, hs.faulting]
    rw [hseqs]
    exact hcharged

theorem dispatchUnlessExpired_triple (hp : p.Lossless) :
    Triple (fun s => Held e s ∧ Clear e s) (dispatchUnlessExpired e p) Stepped Faulted := by
  apply (deadlineExpired_triple (fun _ h => h.1) p.expired).bind
  intro expired
  split
  · exact ((refuseHeld_triple p.refusal).pre fun _ h => h.1).bind fun _ => Triple.pure fun _ h => ⟨h, trivial⟩
  · exact ((dispatch_triple hp.stamp).pre fun _ h => ⟨h.1.core, h.1.picked, h.2⟩).bind fun _ =>
      Triple.pure fun _ h => ⟨h, trivial⟩

theorem sliceOf_triple {wait : ℚ} (hwait : 0 < wait) (s₀ : TransportPacer) (r : Reading) :
    Triple (Held e) (s₀.sliceOf e wait r) (fun slice s => Held e s ∧ 0 < slice) Faulted := by
  have hquantum : 0 < min wait (max 1 s₀.pacing.orderMutationMinIntervalMs) :=
    lt_min hwait (lt_max_of_lt_left one_pos)
  unfold sliceOf
  split
  · exact Triple.pure fun _ h => ⟨h, hquantum⟩
  · apply (Triple.outside (fun _ _ _ h => h) fun m _ _ h => h.faulted m).bind
    intro clock
    exact Triple.pure fun _ h => ⟨h, lt_min hquantum (Deadline.timerMs_pos _ _)⟩

theorem drainStep_triple (hp : p.Lossless) : Triple (Core []) (drainStep p) Stepped Faulted := by
  have hsweep := (refuseExpiredQueueEntries_triple (c := []) hp).imp (fun _ h => h) (fun _ _ h => h)
    fun m s h => show Faulted m s from h.charge
  have hpick := (pickNext_triple p.pick).imp (fun _ h => h) (fun _ _ h => h) fun m s h => show Faulted m s from h.charge
  apply hsweep.bind
  intro _
  apply hpick.bind
  intro next
  cases next with
  | none => exact Triple.pure fun _ h => ⟨h.1, trivial⟩
  | some e =>
    have hheld : ∀ s, (Core [] s ∧ ∀ e', some e = some e' → Picked e' s) →
        Held e (s.setFaultingEntry (some e)) := by
      rintro s ⟨hs, hpicked⟩
      have hpicked := hpicked e rfl
      have hhandle := (hs.books.queued e hpicked.mem).1
      exact ⟨hs.setFaultingEntry hhandle, ⟨hpicked.mem, hpicked.admissible, hpicked.oldest⟩, rfl⟩
    have hset : Triple (fun s => Core [] s ∧ ∀ e', some e = some e' → Picked e' s) (update (setFaultingEntry (some e)))
        (fun _ => Held e) Faulted := Triple.update hheld
    have hclock : Triple (Held e) (clockNow p.now) (fun now s => Held e s ∧ now = s.now) Faulted :=
      clockNow_triple Held.elapses p.now fun m _ _ h => h.faulted m
    apply hset.bind
    intro _
    apply hclock.bind
    intro now
    apply Triple.look_bind
    rintro s ⟨hs, hnow⟩
    subst hnow
    dsimp only
    split
    next hwait =>
      apply ((sliceOf_triple hwait s p.timer).pre fun _ heq => heq ▸ hs).bind
      intro slice
      have hbefore : Triple (fun s => Held e s ∧ 0 < slice) (clockNow p.before) (fun _ s => Held e s ∧ 0 < slice)
          Faulted := by
        have helapses : Elapses fun s => Held e s ∧ 0 < slice := fun s t h => ⟨Held.elapses s t h.1, h.2⟩
        have hclock := clockNow_triple helapses p.before fun m _ _ h => h.1.faulted m
        exact hclock.imp (fun _ h => h) (fun _ _ h => h.1) fun _ _ h => h
      exact hbefore.bind fun before => Triple.pure fun _ h => ⟨h.1.core, h.2⟩
    next hwait =>
      apply (dispatchUnlessExpired_triple hp).pre
      rintro _ rfl
      exact ⟨hs, hs.core.clear hwait⟩

theorem wake_triple {before slice : ℚ} (hslice : 0 < slice) : Triple (Core []) (wake e before slice p) Stepped Faulted := by
  have hlate : Elapses fun s => Core [] s ∧ before + slice ≤ s.now :=
    fun s t h => ⟨h.1.elapse t, h.2.trans (le_max_left ..)⟩
  have hwait : Triple (Core []) (update (elapse (before + slice))) (fun _ s => Core [] s ∧ before + slice ≤ s.now)
      Faulted :=
    Triple.update fun s h => ⟨h.elapse _, le_max_right ..⟩
  have hclock : Triple (fun s => Core [] s ∧ before + slice ≤ s.now) (clockNow p.after)
      (fun now s => (Core [] s ∧ before + slice ≤ s.now) ∧ now = s.now) Faulted :=
    clockNow_triple hlate p.after fun m _ _ h => h.1.charge
  apply hwait.bind
  intro _
  apply hclock.bind
  intro after
  apply Triple.look_bind
  rintro s ⟨⟨hs, hle⟩, rfl⟩
  have hserved : 0 < s.now - before := by linarith
  have hdone : Triple (· = s) (do update (setFaultingEntry none); return Drain.stepping) Stepped Faulted := by
    have hclear : Triple (· = s) (update (setFaultingEntry none)) (fun _ => Core []) Faulted := by
      apply Triple.update
      rintro _ rfl
      exact hs.clearFaultingEntry
    exact hclear.bind fun _ => Triple.pure fun _ h => ⟨h, trivial⟩
  simp only [hserved, if_true]
  split
  · exact hdone
  · exact hdone

theorem failQueued_triple (he : e ∈ handles) (htext : Answers text) (m : String) :
    Triple (Kept c handles) (failQueued m e text) (fun _ => Kept c handles) E := by
  obtain ⟨t, rfl⟩ := htext
  rintro s ⟨hcore, rfl⟩
  unfold failQueued
  rw [ends_bind, ends_look]
  by_cases hstate : s.state e.seq = .queued
  · simp only [hstate, ne_eq, not_true_eq_false, if_false]
    exact ⟨hcore.refused he hstate t _, settle_handles ..⟩
  · simp only [hstate, ne_eq, not_false_eq_true, if_true]
    exact ⟨hcore, rfl⟩

theorem failEntry_triple (m : String) :
    Triple (fun s => Core [e.seq] s ∧ e ∈ s.handles) (failEntry e m) (fun _ => Core []) E := by
  rintro s ⟨hcore, hhandle⟩
  unfold failEntry
  rw [ends_bind, ends_look]
  by_cases hstate : s.state e.seq = .queued
  · simp only [hstate, ne_eq, not_true_eq_false, if_false]
    exact (hcore.drop (hcore.books.lt_length hhandle) hstate _).uncharge (by simp)
  · simp only [hstate, ne_eq, not_false_eq_true, if_true]
    exact hcore.uncharge hstate

theorem contain_triple (hp : p.Lossless) (m : String) :
    Triple (fun s => Core s.faultSeqs s) (contain m p) (fun _ => Core []) E := by
  apply Triple.look_bind
  intro s hs
  have hclear : Triple (· = s) (update (setFaultingEntry none))
      (fun _ s' => Core s.faultSeqs s' ∧ s'.handles = s.handles) E := by
    apply Triple.update
    rintro _ rfl
    exact ⟨hs.clearFaultingEntry, rfl⟩
  apply hclear.bind
  intro _
  cases hculprit : s.faultingEntry with
  | some e =>
    have hseqs : s.faultSeqs = [e.seq] := by simp [faultSeqs, hculprit]
    rw [hseqs]
    exact (failEntry_triple m).pre fun s' h => ⟨h.1, h.2.symm ▸ hs.books.faulting e hculprit⟩
  | none =>
    have hseqs : s.faultSeqs = [] := by simp [faultSeqs, hculprit]
    rw [hseqs]
    apply Triple.look_bind
    rintro s' ⟨hs', -⟩
    have hloop : Triple (Kept [] s'.handles) (s'.queue.forM fun entry => failQueued m entry (p.failText entry.seq))
        (fun _ => Kept [] s'.handles) E :=
      Triple.forM fun e he => failQueued_triple (hs'.books.queued e he).1 (hp.failText _) m
    refine hloop.imp ?_ (fun _ _ h => h.1) fun _ _ h => h
    rintro _ rfl
    exact ⟨hs', rfl⟩

/-! ## The invariant of a run -/

structure Going (s : TransportPacer) : Prop where
  core : Core s.charged s
  slices : ∀ e before slice, s.drain = .sleeping e before slice → 0 < slice

structure Inv (s : TransportPacer) : Prop extends Going s where
  awake : s.drain = .idle → ∀ e ∈ s.queue, s.admissible e = false

theorem Going.congr (h : Going s) {s' : TransportPacer} (hcore : Core s.charged s') (hdrain : s'.drain = s.drain)
    (hfault : s'.faultingEntry = s.faultingEntry) : Going s' where
  core := by
    have hsame : s'.charged = s.charged := by simp only [charged, hdrain, hfault]
    rwa [hsame]
  slices := fun e before slice heq => h.slices e before slice (hdrain ▸ heq)

theorem Inv.congr (h : Inv s) {s' : TransportPacer} (hcore : Core s.charged s') (hdrain : s'.drain = s.drain)
    (hfault : s'.faultingEntry = s.faultingEntry) (hqueue : s'.queue = s.queue)
    (hadmissible : ∀ e, s'.admissible e = s.admissible e) : Inv s' where
  toGoing := h.toGoing.congr hcore hdrain hfault
  awake := by
    intro hidle e he
    rw [hadmissible]
    exact h.awake (hdrain ▸ hidle) e (hqueue ▸ he)

theorem Going.core_nil (h : Going s) (hdrain : s.charged = []) : Core [] s := by
  rw [← hdrain]
  exact h.core

theorem inv_settleDrain {step : Action Drain} (hstep : Triple (Core []) step Stepped Faulted) (h : Core [] s) :
    Inv (settleDrain step s) := by
  have hend := hstep s h
  unfold settleDrain
  rcases hends : ends step s with ⟨m | drain, s'⟩
  · rw [hends] at hend
    exact ⟨⟨hend.withDrain _, fun _ _ _ heq => nomatch heq⟩, fun heq => nomatch heq⟩
  · rw [hends] at hend
    obtain ⟨hcore, hrests⟩ := hend
    cases drain with
    | idle => exact absurd hrests id
    | faulted m => exact absurd hrests id
    | stepping | finishing => exact ⟨⟨hcore.withDrain _, fun _ _ _ heq => nomatch heq⟩, fun heq => nomatch heq⟩
    | sleeping e before slice =>
      refine ⟨⟨hcore.withDrain _, ?_⟩, fun heq => nomatch heq⟩
      rintro _ _ _ heq
      cases heq
      exact hrests

theorem Going.startScheduling (h : Going s) (hp : p.Lossless) : Inv (s.startScheduling p) := by
  unfold TransportPacer.startScheduling
  split
  next hidle => exact inv_settleDrain (drainStep_triple hp) (h.core_nil (by simp [charged, hidle]))
  next hbusy => exact ⟨h, fun hidle => absurd hidle hbusy⟩

theorem Inv.resume (h : Inv s) (hp : p.Lossless) : Inv (s.resume p) := by
  unfold TransportPacer.resume
  split
  next => exact h
  next hdrain => exact inv_settleDrain (drainStep_triple hp) (h.core_nil (by simp [charged, hdrain]))
  next m hdrain =>
    have hfaulted : Core s.faultSeqs s := by
      have hsame : s.charged = s.faultSeqs := by simp [charged, faultSeqs, hdrain]
      rw [← hsame]
      exact h.core
    have hend := contain_triple hp m (E := fun _ _ => False) s hfaulted
    rcases hends : ends (contain m p) s with ⟨m' | _, s'⟩
    · rw [hends] at hend
      exact absurd hend id
    · rw [hends] at hend
      exact inv_settleDrain (drainStep_triple hp) hend
  next e before slice hdrain =>
    exact inv_settleDrain (wake_triple (h.slices e before slice hdrain)) (h.core_nil (by simp [charged, hdrain]))
  next hdrain =>
    have hcore : Core [] (s.withDrain .idle) := (h.core_nil (by simp [charged, hdrain])).withDrain _
    have hgoing : Going (s.withDrain .idle) := ⟨hcore, fun _ _ _ heq => nomatch heq⟩
    by_cases hsome : (s.withDrain .idle).canDispatchSomething = true
    · simp only [hsome, if_true]
      exact hgoing.startScheduling hp
    · simp only [hsome, if_false, Bool.false_eq_true]
      refine ⟨hgoing, fun _ e he => ?_⟩
      by_contra hadmissible
      apply hsome
      have hmem : e ∈ (s.withDrain .idle).candidates :=
        mem_candidates.mpr ⟨he, (hcore.books.queued e he).2, by simpa using hadmissible⟩
      simpa [canDispatchSomething] using List.ne_nil_of_mem hmem

theorem Inv.waitFails (h : Inv s) (m : String) : Inv (s.waitFails m) := by
  unfold TransportPacer.waitFails
  split
  next hdrain =>
    have hcore : Core [] s := h.core_nil (by simp [charged, hdrain])
    exact ⟨⟨(hcore.charge).withDrain _, fun _ _ _ heq => nomatch heq⟩, fun heq => nomatch heq⟩
  next => exact h

/-! ## Events -/

theorem Inv.elapse (h : Inv s) (t : ℚ) : Inv (s.elapse t) := h.congr (h.core.elapse t) rfl rfl rfl fun _ => rfl

theorem doorReadings_triple (o : TransportRunOptions) (clock expired : Reading) :
    Triple Inv (doorReadings o clock expired) (fun a s => Inv s ∧ a.1 = s.now) fun _ => Inv := by
  have hclock : Triple Inv (clockNow clock) (fun now s => Inv s ∧ now = s.now) fun _ => Inv :=
    clockNow_triple (fun _ t h => h.elapse t) clock fun _ _ _ h => h
  apply hclock.bind
  intro enqueuedAt
  split
  · exact Triple.pure fun _ h => h
  · exact (Triple.outside (fun _ _ _ h => h) fun _ _ _ h => h.1).bind fun _ => Triple.pure fun _ h => h

theorem Inv.submit (h : Inv s) (hp : p.Lossless) (o : TransportRunOptions) (clock expired : Reading) :
    Inv (s.submit o clock expired p).1 := by
  have hdoor := doorReadings_triple o clock expired s h
  unfold TransportPacer.submit
  rcases hends : ends (doorReadings o clock expired) s with ⟨m | ⟨enqueuedAt, alreadyExpired⟩, s'⟩
  · rw [hends] at hdoor
    exact hdoor
  · rw [hends] at hdoor
    obtain ⟨hs', rfl⟩ := hdoor
    dsimp only
    split
    · have hhanded := hs'.core.handOut
        (e := ⟨s'.handles.length, o.klass, o.urgency, o.deadline, o.beforeDispatch, s'.now⟩) rfl
      have hout : ∀ e ∈ s'.queue, e.seq ≠ s'.handles.length :=
        fun e he => (hs'.core.books.lt_length (hs'.core.books.queued e he).1).ne
      refine hs'.congr (hhanded.settle ?_ (Function.update_self ..) hout _) (settle_drain ..) (settle_faultingEntry ..)
        (settle_queue ..) fun e => settle_admissible ..
      rw [handOut_handles, List.length_append]
      exact Nat.lt_succ_self _
    · apply Going.startScheduling _ hp
      exact hs'.toGoing.congr (hs'.core.enter rfl rfl) rfl rfl

theorem Inv.abandon (h : Inv s) (hp : p.Lossless) (he : e ∈ s.handles) (reason : String) (htext : Answers text) :
    Inv (s.abandon e reason text p).1 := by
  obtain ⟨t, rfl⟩ := htext
  unfold TransportPacer.abandon withdraw
  rw [ends_bind, ends_look]
  by_cases hstate : s.state e.seq = .queued
  · simp only [hstate, ne_eq, not_true_eq_false, if_false]
    apply Going.startScheduling _ hp
    exact h.toGoing.congr (h.core.withdrawn he hstate t _) (settle_drain ..) (settle_faultingEntry ..)
  · simp only [hstate, ne_eq, not_false_eq_true, if_true]
    exact h

theorem Inv.complete (h : Inv s) (hp : p.Lossless) (he : e ∈ s.running) (outcome : Except String Unit) :
    Inv (s.complete e outcome p) := by
  apply Going.startScheduling _ hp
  refine h.toGoing.congr (h.core.release he ?_) (settle_drain ..) (settle_faultingEntry ..)
  cases outcome <;> exact fun h => h

theorem Inv.step (h : Inv s) {event : PacerEvent} (hevent : event.Lossless) : Inv (s.step event).1 := by
  cases event with
  | submitted o clock expired p => exact h.submit hevent o clock expired
  | abandoned seq reason text p =>
    cases hhandle : s.handles[seq]? with
    | none => simpa only [TransportPacer.step, hhandle] using h
    | some e =>
      simp only [TransportPacer.step, hhandle]
      exact h.abandon hevent.2 (List.mem_of_getElem? hhandle) reason hevent.1
  | completed seq outcome p =>
    cases hflying : s.running.find? fun e => e.seq = seq with
    | none => simpa only [TransportPacer.step, hflying] using h
    | some e =>
      simp only [TransportPacer.step, hflying]
      exact h.complete hevent (List.mem_of_find?_eq_some hflying) outcome
  | resumed p => exact h.resume hevent
  | waitFailed m => exact h.waitFails m

theorem Inv.new (pacing : EffectiveBrokerPacing) (limits : TransportConcurrencyLimits) (now : ℚ) :
    Inv (new pacing limits now) := by
  have hbooks : Books [] (TransportPacer.new pacing limits now) := by
    constructor <;> simp [TransportPacer.new, settledSeqs]
  have htimed : Timed (TransportPacer.new pacing limits now) := by
    constructor <;> simp [TransportPacer.new]
    intro klass
    cases klass <;> simp [lastOf]
  have hslots : Slots (TransportPacer.new pacing limits now) := by
    constructor <;> simp [TransportPacer.new]
  refine ⟨⟨⟨hbooks, htimed, hslots⟩, ?_⟩, ?_⟩
  · intro _ _ _ heq
    cases heq
  · intro _ e he
    cases he

/-! ## Safety -/

theorem Slots.admissible_of_idle (h : Slots s) (hrunning : s.running = []) (e : QueuedOperation) : s.admissible e = true := by
  have hcounted := h.counted
  have hreads := h.countedReads
  have hreserve := s.limits.reserved_lt
  have hwidth := s.limits.reads_pos
  rw [hrunning] at hcounted hreads
  simp only [List.length_nil, List.countP_nil] at hcounted hreads
  simp only [TransportPacer.admissible, hcounted, hreads, Bool.and_eq_true, Bool.not_eq_true', decide_eq_false_iff_not,
    Bool.and_eq_false_iff]
  omega

theorem Inv.safe (h : Inv s) : Safe s := by
  have hcore := h.core
  have haccounted : ∀ e ∈ s.handles, e ∈ s.queue ∨ e ∈ s.running ∨ e.seq ∈ s.charged ∨ e.seq ∈ s.settledSeqs := by
    intro e he
    cases hstate : s.state e.seq with
    | queued => exact (hcore.books.waiting e he hstate).imp_right fun hmem => .inr (.inl hmem)
    | dispatched => exact .inr (.inl (hcore.books.dispatched e he hstate))
    | settled => exact .inr (.inr (.inr ((hcore.books.settled _).mpr ⟨hcore.books.lt_length he, hstate⟩)))
  constructor
  case spaced => exact hcore.timed.spaced
  case ordered => exact hcore.timed.ordered
  case reserve => exact hcore.slots.reserve
  case invokedOnce => exact hcore.books.sentOnce
  case settledOnce => exact hcore.books.settledOnce
  case abandoned => exact hcore.books.abandoned
  case awake => exact h.awake
  case accounted => exact haccounted
  case width => exact hcore.slots.counted ▸ hcore.slots.width
  case reads => exact hcore.slots.countedReads ▸ hcore.slots.reads
  case withdrawn => exact fun n hn => (hcore.books.withdrawn n hn).2
  case settledOnly =>
    intro n hn
    have hstate := ((hcore.books.settled n).mp hn).2
    constructor
    · rintro e he rfl
      simp [(hcore.books.queued e he).2] at hstate
    · rintro e he rfl
      simp [(hcore.books.flying e he).2] at hstate
  case settledAtRest =>
    intro hidle hrunning e he
    have hqueue : s.queue = [] := by
      apply List.eq_nil_iff_forall_not_mem.mpr
      intro e' he'
      have hadmissible := hcore.slots.admissible_of_idle hrunning e'
      rw [h.awake hidle e' he'] at hadmissible
      cases hadmissible
    have hcharged : s.charged = [] := by simp [charged, hidle]
    simpa [hqueue, hrunning, hcharged] using haccounted e he

/-- In every run that loses no operation to a throwing clock, every state it reaches is safe. -/
theorem safe_run (pacing : EffectiveBrokerPacing) (limits : TransportConcurrencyLimits) (now : ℚ) {events : List PacerEvent}
    (h : ∀ event ∈ events, event.Lossless) : Safe (Run.finish step (new pacing limits now) events) := by
  have hguarded : Run.Guarded step (fun _ event => event.Lossless) (TransportPacer.new pacing limits now) events := by
    apply Run.guarded_of_forall
    rintro earlier event later rfl
    exact h event (List.mem_append_right _ (.head _))
  exact (hguarded.invariant Inv (fun s event hs hevent => hs.step hevent) (Inv.new pacing limits now)).safe

def readAt (t : ℚ) : Pass where
  sweep := fun _ => .ok t
  sweepText := fun _ => .ok t
  pick := .ok t
  now := .ok t
  timer := .ok t
  before := .ok t
  after := .ok t
  expired := .ok t
  refusal := .ok t
  beforeDispatch := .ok ()
  stamp := .ok t
  operation := .ok ()
  failText := fun _ => .ok t

def zerodhaPacing : EffectiveBrokerPacing := ⟨110, 250⟩

def cancel : TransportRunOptions := ⟨.orderMutation, .recovery, none, false⟩

def poll : TransportRunOptions := ⟨.general, .read, some ⟨500, 500⟩, false⟩

theorem readAt_lossless (t : ℚ) : (readAt t).Lossless := ⟨fun _ => ⟨t, rfl⟩, ⟨t, rfl⟩, fun _ => ⟨t, rfl⟩⟩

/-- A cancel goes out, a poll waits behind it and is withdrawn, and the cancel completes. -/
theorem safe_run_cancel : Safe (Run.finish step (new zerodhaPacing (.ofOptions none none none) 0)
    [.submitted cancel (.ok 0) (.ok 0) (readAt 0), .submitted poll (.ok 1) (.ok 1) (readAt 1), .resumed (readAt 2),
      .abandoned 1 "gave up" (.ok 3) (readAt 3), .completed 0 (.ok ()) (readAt 4)]) := by
  apply safe_run
  simp only [List.forall_mem_cons]
  exact ⟨readAt_lossless 0, readAt_lossless 1, readAt_lossless 2, ⟨⟨3, rfl⟩, readAt_lossless 3⟩, readAt_lossless 4,
    fun _ h => nomatch h⟩

def stampThrows : List PacerEvent :=
  [.submitted cancel (.ok 0) (.ok 0) { readAt 0 with stamp := .error "clock exploded" }, .resumed (readAt 0),
    .resumed (readAt 0)]

/-- A cancel whose dispatch stamp throws: the drain comes to rest and its promise never settles. -/
theorem cancel_lost : ¬Safe (Run.finish step (new zerodhaPacing (.ofOptions none none none) 0) stampThrows) := by
  intro h
  have hrest := h.settledAtRest (by decide +kernel) (by decide +kernel)
  have hhandles : (Run.finish step (new zerodhaPacing (.ofOptions none none none) 0) stampThrows).handles =
      [⟨0, .orderMutation, .recovery, none, false, 0⟩] := by decide +kernel
  have hsettled : (Run.finish step (new zerodhaPacing (.ofOptions none none none) 0) stampThrows).settledSeqs = [] := by
    decide +kernel
  rw [hhandles, hsettled] at hrest
  simp at hrest

end TransportPacer

end BoxEngine
