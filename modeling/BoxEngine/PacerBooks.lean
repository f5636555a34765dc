import BoxEngine.TransportPacer
import BoxEngine.Lib.Keyed
import BoxEngine.Lib.Run

/-!
# The pacer's books

Every operation is in the queue, in flight, settled, or charged with a fault. Dispatch respects the pacing and the
slots.
-/

namespace BoxEngine

open Js Fallible

def Outcome.IsAbandoned : Outcome → Prop
  | .abandoned _ _ _ => True
  | _ => False

namespace TransportPacer

variable {s : TransportPacer} {e : QueuedOperation} {n : ℕ} {c : List ℕ} {o : Outcome} {t : ℚ}

/-! ## What is kept -/

/-- The second of two dispatches keeps the floor, and the interval of a shared class. -/
def Spaced (pacing : EffectiveBrokerPacing) (d d' : TransportDispatch) : Prop :=
  d.sentAt + pacing.orderMutationMinIntervalMs ≤ d'.sentAt ∧
    (d.entry.klass = d'.entry.klass → d.sentAt + pacing.required d'.entry.klass ≤ d'.sentAt)

def settledSeqs (s : TransportPacer) : List ℕ := s.settlements.map Prod.fst

def NeverInvoked (s : TransportPacer) (n : ℕ) : Prop := ∀ d ∈ s.dispatches, d.entry.seq ≠ n

def lastOf (s : TransportPacer) : BrokerPacingClass → Option ℚ
  | .orderMutation => s.lastOrderMutationAt
  | .general => s.lastGeneralAt

/-- Where each operation is; one of `c` may have left the queue and have no place yet. -/
structure Books (c : List ℕ) (s : TransportPacer) : Prop where
  numbered : ∀ (n : ℕ) (e : QueuedOperation), s.handles[n]? = some e → e.seq = n
  faulting : ∀ e, s.faultingEntry = some e → e ∈ s.handles
  queued : ∀ e ∈ s.queue, e ∈ s.handles ∧ s.state e.seq = .queued
  waiting : ∀ e ∈ s.handles, s.state e.seq = .queued → e ∈ s.queue ∨ e.seq ∈ c
  flying : ∀ e ∈ s.running, e ∈ s.handles ∧ s.state e.seq = .dispatched
  apart : (s.running.map QueuedOperation.seq).Nodup
  dispatched : ∀ e ∈ s.handles, s.state e.seq = .dispatched → e ∈ s.running
  settled : ∀ n, n ∈ s.settledSeqs ↔ n < s.handles.length ∧ s.state n = .settled
  settledOnce : s.settledSeqs.Nodup
  sent : ∀ d ∈ s.dispatches, d.entry.seq < s.handles.length ∧ s.state d.entry.seq ≠ .queued
  sentOnce : (s.dispatches.map fun d => d.entry.seq).Nodup
  withdrawn : ∀ n ∈ s.withdrawn, n ∈ s.settledSeqs ∧ s.NeverInvoked n
  abandoned : ∀ n o, (n, o) ∈ s.settlements → Outcome.IsAbandoned o → s.NeverInvoked n

/-- The queue is in order of entry, and nothing carries a time to come. -/
structure Timed (s : TransportPacer) : Prop where
  entered : ∀ e ∈ s.queue, e.enqueuedAt ≤ s.now
  sorted : s.queue.Pairwise fun e e' => e.seq < e'.seq ∧ e.enqueuedAt ≤ e'.enqueuedAt
  past : ∀ t, s.lastAnyCallAt = some t → t ≤ s.now
  stamped : ∀ d ∈ s.dispatches, (∃ t, s.lastAnyCallAt = some t ∧ d.sentAt ≤ t) ∧
    ∃ t, s.lastOf d.entry.klass = some t ∧ d.sentAt ≤ t
  pastOf : ∀ klass t, s.lastOf klass = some t → t ≤ s.now
  spaced : s.dispatches.Pairwise (Spaced s.pacing)
  behind : ∀ d ∈ s.dispatches, ∀ e ∈ s.queue, d.entry.urgency = e.urgency → d.entry.seq < e.seq
  ordered : s.dispatches.Pairwise fun d d' => d.entry.urgency = d'.entry.urgency → d.entry.seq < d'.entry.seq

/-- The counters are those of the operations running, within the limits. -/
structure Slots (s : TransportPacer) : Prop where
  counted : s.inFlight = s.running.length
  countedReads : s.readsInFlight = s.running.countP fun e => e.urgency = .read
  width : s.inFlight ≤ s.limits.maxInFlight
  reads : s.readsInFlight ≤ s.limits.maxConcurrentReads
  reserve : ∀ d ∈ s.dispatches, d.entry.urgency ≠ .recovery →
    d.inFlight + s.limits.reservedForRecovery ≤ s.limits.maxInFlight

structure Core (c : List ℕ) (s : TransportPacer) : Prop where
  books : Books c s
  timed : Timed s
  slots : Slots s

theorem Books.lt_length (h : Books c s) (he : e ∈ s.handles) : e.seq < s.handles.length := by
  obtain ⟨n, hn⟩ := List.mem_iff_getElem?.mp he
  rw [h.numbered n e hn]
  exact (List.getElem?_eq_some_iff.mp hn).1

theorem Books.ext_seq (h : Books c s) {e' : QueuedOperation} (he : e ∈ s.handles) (he' : e' ∈ s.handles)
    (heq : e.seq = e'.seq) : e = e' := by
  obtain ⟨n, hn⟩ := List.mem_iff_getElem?.mp he
  obtain ⟨n', hn'⟩ := List.mem_iff_getElem?.mp he'
  have hnn : n = n' := by rw [← h.numbered n e hn, heq, h.numbered n' e' hn']
  subst hnn
  exact Option.some_inj.mp (hn.symm.trans hn')

theorem Core.charge (h : Core [] s) : Core c s :=
  { h with
    books :=
      { h.books with waiting := fun e he hq => .inl ((h.books.waiting e he hq).resolve_right (List.not_mem_nil)) } }

theorem Core.uncharge (h : Core (n :: c) s) (hn : s.state n ≠ .queued) : Core c s := by
  refine { h with books := { h.books with waiting := ?_ } }
  intro e he hq
  rcases h.books.waiting e he hq with hin | hcharged
  · exact .inl hin
  · rcases List.mem_cons.mp hcharged with heq | hcharged
    · rw [heq] at hq
      exact absurd hq hn
    · exact .inr hcharged

/-! ## The queue -/

theorem Core.elapse (h : Core c s) (t : ℚ) : Core c (s.elapse t) where
  books := { h.books with }
  timed :=
    { h.timed with
      entered := fun e he => (h.timed.entered e he).trans (le_max_left ..)
      past := fun t' ht' => (h.timed.past t' ht').trans (le_max_left ..)
      pastOf := fun klass t' ht' => (h.timed.pastOf klass t' ht').trans (le_max_left ..) }
  slots := { h.slots with }

theorem Core.withDrain (h : Core c s) (drain : Drain) : Core c (s.withDrain drain) :=
  ⟨{ h.books with }, { h.timed with }, { h.slots with }⟩

theorem Core.setFaultingEntry (h : Core c s) (he : e ∈ s.handles) : Core c (s.setFaultingEntry (some e)) where
  books :=
    { h.books with
      faulting := fun e' he' => by
        rw [← Option.some_inj.mp he']
        exact he }
  timed := { h.timed with }
  slots := { h.slots with }

theorem Core.clearFaultingEntry (h : Core c s) : Core c (s.setFaultingEntry none) where
  books := { h.books with faulting := fun _ he' => nomatch he' }
  timed := { h.timed with }
  slots := { h.slots with }

theorem mem_unqueue : e ∈ (s.unqueue n).queue ↔ e ∈ s.queue ∧ e.seq ≠ n := by
  simp [unqueue, List.mem_filter]

theorem Timed.unqueue (h : Timed s) (n : ℕ) : Timed (s.unqueue n) :=
  { h with
    entered := fun e he => h.entered e (mem_unqueue.mp he).1
    sorted := h.sorted.filter _
    behind := fun d hd e he => h.behind d hd e (mem_unqueue.mp he).1 }

theorem Core.unqueue (h : Core c s) (n : ℕ) : Core (n :: c) (s.unqueue n) where
  books :=
    { h.books with
      queued := fun e he => h.books.queued e (mem_unqueue.mp he).1
      waiting := by
        intro e he hq
        rcases h.books.waiting e he hq with hin | hcharged
        · by_cases hn : e.seq = n
          · exact .inr (List.mem_cons.mpr (.inl hn))
          · exact .inl (mem_unqueue.mpr ⟨hin, hn⟩)
        · exact .inr (.tail _ hcharged) }
  timed := h.timed.unqueue n
  slots := { h.slots with }

section

variable (s : TransportPacer) (n : ℕ) (o : Outcome)

@[simp] theorem settle_limits : (s.settle n o).limits = s.limits := by unfold settle; split <;> rfl

@[simp] theorem settle_queue : (s.settle n o).queue = s.queue := by unfold settle; split <;> rfl

@[simp] theorem settle_running : (s.settle n o).running = s.running := by unfold settle; split <;> rfl

@[simp] theorem settle_handles : (s.settle n o).handles = s.handles := by unfold settle; split <;> rfl

@[simp] theorem settle_dispatches : (s.settle n o).dispatches = s.dispatches := by unfold settle; split <;> rfl

@[simp] theorem settle_withdrawn : (s.settle n o).withdrawn = s.withdrawn := by unfold settle; split <;> rfl

@[simp] theorem settle_faultingEntry : (s.settle n o).faultingEntry = s.faultingEntry := by
  unfold settle; split <;> rfl

@[simp] theorem settle_drain : (s.settle n o).drain = s.drain := by unfold settle; split <;> rfl

@[simp] theorem settle_admissible : (s.settle n o).admissible e = s.admissible e := by unfold settle; split <;> rfl

theorem settle_state : (s.settle n o).state = Function.update s.state n .settled := by
  unfold settle
  split
  next h => rw [← h, Function.update_eq_self]
  next => rfl

@[simp] theorem settle_state_self : (s.settle n o).state n = .settled := by simp [settle_state]

end

theorem settle_state_of_ne {m : ℕ} (h : m ≠ n) : (s.settle n o).state m = s.state m := by simp [settle_state, h]

theorem settle_settlements (h : s.state n ≠ .settled) : (s.settle n o).settlements = s.settlements ++ [(n, o)] := by
  simp [settle, h]

def landed (n : ℕ) (s : TransportPacer) : TransportPacer := { s with running := s.running.filter fun e => e.seq ≠ n }

theorem landed_of_not_mem (h : ∀ e ∈ s.running, e.seq ≠ n) : s.landed n = s := by
  have hsame : s.running.filter (fun e => e.seq ≠ n) = s.running := by simpa using h
  unfold landed
  rw [hsame]

theorem mem_landed : e ∈ (s.landed n).running ↔ e ∈ s.running ∧ e.seq ≠ n := by simp [landed]

theorem Books.settle (h : Books c s) (hlt : n < s.handles.length) (hstate : s.state n ≠ .settled)
    (hqueue : ∀ e ∈ s.queue, e.seq ≠ n) (hnever : Outcome.IsAbandoned o → s.NeverInvoked n) :
    Books c ((s.settle n o).landed n) := by
  have hfresh : n ∉ s.settledSeqs := fun hmem => hstate ((h.settled n).mp hmem).2
  have hseqs : ((s.settle n o).landed n).settledSeqs = s.settledSeqs ++ [n] := by
    simp [settledSeqs, landed, settle_settlements hstate]
  have hhandles : ((s.settle n o).landed n).handles = s.handles := settle_handles s n o
  -- settling moves the entry's own state and no other
  have hkeep : ∀ m ≠ n, ((s.settle n o).landed n).state m = s.state m := fun m hm => settle_state_of_ne hm
  have hself : ((s.settle n o).landed n).state n = .settled := settle_state_self s n o
  have hdispatches : ((s.settle n o).landed n).dispatches = s.dispatches := settle_dispatches s n o
  have hrunning : ∀ e, e ∈ ((s.settle n o).landed n).running ↔ e ∈ s.running ∧ e.seq ≠ n := by
    intro e
    rw [mem_landed, settle_running]
  constructor
  case numbered =>
    rw [hhandles]
    exact h.numbered
  case faulting =>
    rw [hhandles]
    simpa [landed] using h.faulting
  case apart =>
    have hsub : ((s.settle n o).landed n).running.Sublist s.running := by
      rw [← settle_running s n o]
      exact List.filter_sublist
    exact h.apart.sublist (hsub.map _)
  case sentOnce =>
    rw [hdispatches]
    exact h.sentOnce
  case queued =>
    intro e he
    replace he : e ∈ s.queue := by simpa [landed] using he
    rw [hhandles, hkeep _ (hqueue e he)]
    exact h.queued e he
  case waiting =>
    intro e he hq
    rw [hhandles] at he
    by_cases hn : e.seq = n
    · simp [hn, hself] at hq
    · rw [hkeep _ hn] at hq
      simpa [landed] using h.waiting e he hq
  case flying =>
    intro e he
    obtain ⟨he, hn⟩ := (hrunning e).mp he
    rw [hhandles, hkeep _ hn]
    exact h.flying e he
  case dispatched =>
    intro e he hd
    rw [hhandles] at he
    by_cases hn : e.seq = n
    · simp [hn, hself] at hd
    · rw [hkeep _ hn] at hd
      exact (hrunning e).mpr ⟨h.dispatched e he hd, hn⟩
  case settled =>
    intro m
    rw [hseqs, List.mem_append, List.mem_singleton, h.settled m, hhandles]
    by_cases hm : m = n
    · simp [hm, hlt, hself]
    · simp [hm, hkeep m hm]
  case settledOnce =>
    rw [hseqs]
    apply Run.pairwise_snoc h.settledOnce
    exact fun m hm heq => hfresh (heq ▸ hm)
  case sent =>
    intro d hd
    rw [hdispatches] at hd
    rw [hhandles]
    refine ⟨(h.sent d hd).1, ?_⟩
    by_cases hn : d.entry.seq = n
    · simp [hn, hself]
    · rw [hkeep _ hn]
      exact (h.sent d hd).2
  case withdrawn =>
    intro m hm
    replace hm : m ∈ s.withdrawn := by simpa [landed] using hm
    unfold NeverInvoked
    rw [hseqs, hdispatches]
    exact ⟨List.mem_append_left _ (h.withdrawn m hm).1, (h.withdrawn m hm).2⟩
  case abandoned =>
    intro m o' hmem ho'
    unfold NeverInvoked
    rw [hdispatches]
    replace hmem : (m, o') ∈ (s.settle n o).settlements := hmem
    rw [settle_settlements hstate] at hmem
    rcases List.mem_append.mp hmem with hmem | hmem
    · exact h.abandoned m o' hmem ho'
    · cases List.mem_singleton.mp hmem
      exact hnever ho'

theorem Timed.settle (h : Timed s) (n : ℕ) (o : Outcome) : Timed (s.settle n o) := by
  unfold TransportPacer.settle
  split
  · exact h
  · exact { h with }

theorem Slots.settle (h : Slots s) (n : ℕ) (o : Outcome) : Slots (s.settle n o) := by
  unfold TransportPacer.settle
  split
  · exact h
  · exact { h with }

theorem Core.settle (h : Core (n :: c) s) (hlt : n < s.handles.length) (hstate : s.state n = .queued)
    (hqueue : ∀ e ∈ s.queue, e.seq ≠ n) (o : Outcome) : Core c (s.settle n o) := by
  have hrunning : ∀ e ∈ (s.settle n o).running, e.seq ≠ n := by
    rw [settle_running]
    rintro e he rfl
    simp [(h.books.flying e he).2] at hstate
  have hnever : s.NeverInvoked n := by
    rintro d hd rfl
    exact (h.books.sent d hd).2 hstate
  have hbooks := h.books.settle (o := o) hlt (by simp [hstate]) hqueue fun _ => hnever
  rw [landed_of_not_mem hrunning] at hbooks
  have hcore : Core (n :: c) (s.settle n o) := ⟨hbooks, h.timed.settle n o, h.slots.settle n o⟩
  apply hcore.uncharge
  simp

theorem Core.drop (h : Core c s) (hlt : n < s.handles.length) (hstate : s.state n = .queued) (o : Outcome) :
    Core c ((s.unqueue n).settle n o) :=
  (h.unqueue n).settle hlt hstate (fun _ he => (mem_unqueue.mp he).2) o

/-! ## Dispatch -/

structure Next (e : QueuedOperation) (s : TransportPacer) : Prop where
  admissible : s.admissible e
  first : ∀ e' ∈ s.queue, e.urgency = e'.urgency → e.seq < e'.seq
  last : ∀ d ∈ s.dispatches, d.entry.urgency = e.urgency → d.entry.seq < e.seq
  floor : ∀ t, s.lastAnyCallAt = some t → t + s.pacing.orderMutationMinIntervalMs ≤ s.now
  interval : ∀ t, s.lastOf e.klass = some t → t + s.pacing.required e.klass ≤ s.now

def send (e : QueuedOperation) (t : ℚ) (s : TransportPacer) : TransportPacer :=
  ((s.markDispatched e.seq).occupy e t).invoke e t

theorem send_dispatches : (s.send e t).dispatches = s.dispatches ++ [⟨e, t, s.inFlight + 1⟩] := rfl

theorem send_running : (s.send e t).running = s.running ++ [e] := rfl

theorem send_lastOf (klass : BrokerPacingClass) :
    (s.send e t).lastOf klass = if klass = e.klass then some t else s.lastOf klass := by
  cases klass <;> cases hk : e.klass <;> simp [send, markDispatched, occupy, invoke, lastOf, hk]

theorem Books.send (h : Books (e.seq :: c) s) (he : e ∈ s.handles) (hstate : s.state e.seq = .queued)
    (hqueue : ∀ e' ∈ s.queue, e'.seq ≠ e.seq) : Books c (s.send e t) := by
  have hkeep : ∀ m ≠ e.seq, (s.send e t).state m = s.state m := fun m hm => Function.update_of_ne hm ..
  have hself : (s.send e t).state e.seq = .dispatched := Function.update_self ..
  -- an entry that is still queued was never dispatched
  have hfresh : ∀ d ∈ s.dispatches, d.entry.seq ≠ e.seq := fun d hd heq => (h.sent d hd).2 (heq ▸ hstate)
  have hunsettled : e.seq ∉ s.settledSeqs := by
    intro hmem
    simp [((h.settled _).mp hmem).2] at hstate
  have hnever : ∀ n, n ∈ s.settledSeqs → s.NeverInvoked n → (s.send e t).NeverInvoked n := by
    intro n hn hnever
    apply Run.forall_mem_snoc hnever
    rintro rfl
    exact hunsettled hn
  constructor
  case numbered => exact h.numbered
  case faulting => exact h.faulting
  case settledOnce => exact h.settledOnce
  case queued =>
    intro e' he'
    rw [hkeep _ (hqueue e' he')]
    exact h.queued e' he'
  case waiting =>
    intro e' he' hq
    by_cases hn : e'.seq = e.seq
    · simp [hn, hself] at hq
    · rw [hkeep _ hn] at hq
      exact (h.waiting e' he' hq).imp_right fun hmem => (List.mem_cons.mp hmem).resolve_left hn
  case flying =>
    apply Run.forall_mem_snoc
    · intro e' he'
      have hne : e'.seq ≠ e.seq := by
        intro heq
        simp [← heq, (h.flying e' he').2] at hstate
      rw [hkeep _ hne]
      exact h.flying e' he'
    · exact ⟨he, hself⟩
  case apart =>
    rw [send_running, List.map_append]
    apply Run.pairwise_snoc h.apart
    intro n hn
    obtain ⟨e', he', rfl⟩ := List.mem_map.mp hn
    intro heq
    simp [← heq, (h.flying e' he').2] at hstate
  case dispatched =>
    intro e' he' hd
    rw [send_running, List.mem_append, List.mem_singleton]
    by_cases hn : e'.seq = e.seq
    · exact .inr (h.ext_seq he' he hn)
    · rw [hkeep _ hn] at hd
      exact .inl (h.dispatched e' he' hd)
  case settled =>
    intro m
    by_cases hm : m = e.seq
    · subst hm
      rw [hself]
      exact ⟨fun hmem => absurd hmem hunsettled, by simp⟩
    · rw [hkeep m hm]
      exact h.settled m
  case sent =>
    apply Run.forall_mem_snoc
    · intro d hd
      rw [hkeep _ (hfresh d hd)]
      exact h.sent d hd
    · exact ⟨h.lt_length he, by simp [hself]⟩
  case sentOnce =>
    rw [send_dispatches, List.map_append]
    apply Run.pairwise_snoc h.sentOnce
    intro n hn
    obtain ⟨d, hd, rfl⟩ := List.mem_map.mp hn
    exact hfresh d hd
  case withdrawn =>
    intro n hn
    exact ⟨(h.withdrawn n hn).1, hnever n (h.withdrawn n hn).1 (h.withdrawn n hn).2⟩
  case abandoned =>
    intro n o hmem ho
    exact hnever n (List.mem_map.mpr ⟨(n, o), hmem, rfl⟩) (h.abandoned n o hmem ho)

theorem Timed.send (h : Timed s) (hnext : Next e s) : Timed (s.send e s.now) where
  entered := h.entered
  sorted := h.sorted
  past := fun t ht => (Option.some_inj.mp ht).ge
  pastOf := by
    intro klass t ht
    rw [send_lastOf] at ht
    split at ht
    · exact (Option.some_inj.mp ht).ge
    · exact h.pastOf klass t ht
  stamped := by
    apply Run.forall_mem_snoc
    · intro d hd
      obtain ⟨⟨t, ht, hle⟩, t', ht', hle'⟩ := h.stamped d hd
      refine ⟨⟨s.now, rfl, hle.trans (h.past t ht)⟩, ?_⟩
      rw [send_lastOf]
      split
      · exact ⟨s.now, rfl, hle'.trans (h.pastOf _ t' ht')⟩
      · exact ⟨t', ht', hle'⟩
    · refine ⟨⟨s.now, rfl, le_rfl⟩, s.now, ?_, le_rfl⟩
      rw [send_lastOf, if_pos rfl]
  spaced := by
    apply Run.pairwise_snoc h.spaced
    intro d hd
    obtain ⟨⟨t, ht, hle⟩, t', ht', hle'⟩ := h.stamped d hd
    have hfloor := hnext.floor t ht
    refine ⟨by linarith, ?_⟩
    intro hclass
    rw [hclass] at ht'
    have hinterval := hnext.interval t' ht'
    show d.sentAt + s.pacing.required e.klass ≤ s.now
    linarith
  behind := by
    apply Run.forall_mem_snoc h.behind
    exact hnext.first
  ordered := by
    apply Run.pairwise_snoc h.ordered
    exact hnext.last

theorem Slots.send (h : Slots s) (hnext : Next e s) : Slots (s.send e t) := by
  have hadm := hnext.admissible
  simp only [TransportPacer.admissible, Bool.and_eq_true, Bool.not_eq_true', decide_eq_false_iff_not, not_le,
    Bool.and_eq_false_iff, beq_eq_false_iff_ne, bne_eq_false_iff_eq] at hadm
  obtain ⟨⟨hwidth, hreads⟩, hreserve⟩ := hadm
  constructor
  case counted => simp [TransportPacer.send, markDispatched, occupy, invoke, h.counted]
  case countedReads =>
    by_cases hread : e.urgency = .read <;>
      simp [TransportPacer.send, markDispatched, occupy, invoke, h.countedReads, hread]
  case width => exact hwidth
  case reads =>
    have hold := h.reads
    simp only [TransportPacer.send, markDispatched, occupy, invoke]
    split
    next hread =>
      rcases hreads with hne | hlt
      · exact absurd hread hne
      · exact hlt
    next => exact hold
  case reserve =>
    apply Run.forall_mem_snoc h.reserve
    intro hne
    have hleft : s.limits.reservedForRecovery < s.limits.maxInFlight - s.inFlight := hreserve.resolve_left hne
    show s.inFlight + 1 + s.limits.reservedForRecovery ≤ s.limits.maxInFlight
    omega

theorem Core.send (h : Core (e.seq :: c) s) (he : e ∈ s.handles) (hstate : s.state e.seq = .queued)
    (hqueue : ∀ e' ∈ s.queue, e'.seq ≠ e.seq) (hnext : Next e s) : Core c (s.send e s.now) :=
  ⟨h.books.send he hstate hqueue, h.timed.send hnext, h.slots.send hnext⟩

/-! ## The end of an operation -/

theorem release_eq : s.release e o = { (s.settle e.seq o).landed e.seq with
    inFlight := s.inFlight - 1
    readsInFlight := if e.urgency = .read then s.readsInFlight - 1 else s.readsInFlight } := by
  unfold release settle landed
  split <;> rfl

theorem Slots.release (h : Slots s) (happart : (s.running.map QueuedOperation.seq).Nodup) (he : e ∈ s.running) :
    Slots (s.release e o) := by
  have hperm : s.running.Perm (e :: s.running.filter fun e' => e'.seq ≠ e.seq) := Keyed.perm_filter_ne happart he
  have hlength := hperm.length_eq
  have hcount := hperm.countP_eq fun e' => e'.urgency = .read
  rw [List.length_cons] at hlength
  rw [List.countP_cons] at hcount
  have hcounted := h.counted
  have hreads := h.countedReads
  have hrunning : (s.release e o).running = s.running.filter fun e' => e'.seq ≠ e.seq := by
    rw [release_eq]
    simp [landed]
  have hinFlight : (s.release e o).inFlight = s.inFlight - 1 := by rw [release_eq]
  have hreadsInFlight : (s.release e o).readsInFlight =
      if e.urgency = .read then s.readsInFlight - 1 else s.readsInFlight := by rw [release_eq]
  have hlimits : (s.release e o).limits = s.limits := settle_limits s e.seq o
  have hdispatches : (s.release e o).dispatches = s.dispatches := settle_dispatches s e.seq o
  constructor
  case counted =>
    rw [hinFlight, hrunning]
    omega
  case countedReads =>
    rw [hreadsInFlight, hrunning]
    by_cases hread : e.urgency = .read
    · simp only [hread, decide_true, if_true] at hcount ⊢
      omega
    · simp only [hread, decide_false, Bool.false_eq_true, if_false] at hcount ⊢
      omega
  case width =>
    rw [hinFlight, hlimits]
    exact (Nat.sub_le _ _).trans h.width
  case reads =>
    rw [hreadsInFlight, hlimits]
    split
    · exact (Nat.sub_le _ _).trans h.reads
    · exact h.reads
  case reserve =>
    rw [hdispatches, hlimits]
    exact h.reserve

theorem Timed.release (h : Timed s) : Timed (s.release e o) := { h.settle e.seq o with }

theorem Core.release (h : Core c s) (he : e ∈ s.running) (hreal : ¬Outcome.IsAbandoned o) : Core c (s.release e o) := by
  obtain ⟨hhandle, hstate⟩ := h.books.flying e he
  have hqueue : ∀ e' ∈ s.queue, e'.seq ≠ e.seq := by
    intro e' he' heq
    simp [heq ▸ (h.books.queued e' he').2] at hstate
  have hbooks := h.books.settle (o := o) (h.books.lt_length hhandle) (by simp [hstate]) hqueue fun ho => absurd ho hreal
  refine ⟨?_, h.timed.release, h.slots.release h.books.apart he⟩
  rw [release_eq]
  exact { hbooks with }

/-! ## Admission -/

theorem handOut_handles : (s.handOut e).handles = s.handles ++ [e] := rfl

theorem Books.handOut (h : Books c s) (hseq : e.seq = s.handles.length) : Books (e.seq :: c) (s.handOut e) := by
  have hself : (s.handOut e).state e.seq = .queued := Function.update_self ..
  have hkeep : ∀ m ≠ e.seq, (s.handOut e).state m = s.state m := fun m hm => Function.update_of_ne hm ..
  have hold : ∀ m < s.handles.length, (s.handOut e).state m = s.state m := fun m hm => hkeep m (by omega)
  have holder : ∀ e' ∈ s.handles, e' ∈ (s.handOut e).handles ∧ (s.handOut e).state e'.seq = s.state e'.seq :=
    fun e' he' => ⟨List.mem_append_left _ he', hold _ (h.lt_length he')⟩
  constructor
  case apart => exact h.apart
  case settledOnce => exact h.settledOnce
  case sentOnce => exact h.sentOnce
  case withdrawn => exact h.withdrawn
  case abandoned => exact h.abandoned
  case numbered =>
    intro n e' hn
    rw [handOut_handles] at hn
    rcases Nat.lt_or_ge n s.handles.length with hlt | hge
    · rw [List.getElem?_append_left hlt] at hn
      exact h.numbered n e' hn
    · rw [List.getElem?_append_right hge] at hn
      obtain ⟨hlt, hsame⟩ := List.getElem?_eq_some_iff.mp hn
      have hn : n = s.handles.length := by
        rw [List.length_singleton] at hlt
        omega
      simp only [List.getElem_singleton] at hsame
      rw [← hsame, hseq, hn]
  case faulting =>
    intro e' he'
    exact (holder e' (h.faulting e' he')).1
  case queued =>
    intro e' he'
    obtain ⟨hmem, hsame⟩ := holder e' (h.queued e' he').1
    exact ⟨hmem, hsame.trans (h.queued e' he').2⟩
  case waiting =>
    apply Run.forall_mem_snoc
    · intro e' he' hq
      rw [(holder e' he').2] at hq
      exact (h.waiting e' he' hq).imp_right (.tail _)
    · intro _
      exact .inr (.head _)
  case flying =>
    intro e' he'
    obtain ⟨hmem, hsame⟩ := holder e' (h.flying e' he').1
    exact ⟨hmem, hsame.trans (h.flying e' he').2⟩
  case dispatched =>
    apply Run.forall_mem_snoc
    · intro e' he' hd
      rw [(holder e' he').2] at hd
      exact h.dispatched e' he' hd
    · intro hd
      simp [hself] at hd
  case settled =>
    intro m
    show m ∈ s.settledSeqs ↔ _
    rw [h.settled m, handOut_handles, List.length_append, List.length_singleton]
    by_cases hm : m = e.seq
    · rw [hm, hself, hseq]
      simp
    · have hlt : m < s.handles.length + 1 ↔ m < s.handles.length := by omega
      rw [hkeep m hm, hlt]
  case sent =>
    intro d hd
    rw [hold _ (h.sent d hd).1, handOut_handles, List.length_append]
    exact ⟨Nat.lt_add_right _ (h.sent d hd).1, (h.sent d hd).2⟩

theorem Core.handOut (h : Core c s) (hseq : e.seq = s.handles.length) : Core (e.seq :: c) (s.handOut e) :=
  ⟨h.books.handOut hseq, { h.timed with }, { h.slots with }⟩

theorem Core.enter (h : Core c s) (hseq : e.seq = s.handles.length) (hentered : e.enqueuedAt = s.now) :
    Core c ((s.handOut e).enqueue e) := by
  have hhanded := h.books.handOut hseq
  have hbooks : Books c ((s.handOut e).enqueue e) :=
    { hhanded with
      queued := by
        apply Run.forall_mem_snoc hhanded.queued
        exact ⟨List.mem_append_right _ (List.mem_singleton_self e), Function.update_self ..⟩
      waiting := by
        intro e' he' hq
        rcases hhanded.waiting e' he' hq with hin | hcharged
        · exact .inl (List.mem_append_left _ hin)
        · rcases List.mem_cons.mp hcharged with heq | hcharged
          · rw [hhanded.ext_seq he' (List.mem_append_right _ (List.mem_singleton_self e)) heq]
            exact .inl (List.mem_append_right _ (List.mem_singleton_self e))
          · exact .inr hcharged }
  have holder : ∀ e' ∈ s.queue, e'.seq < e.seq := by
    intro e' he'
    rw [hseq]
    exact h.books.lt_length (h.books.queued e' he').1
  have htimed : Timed ((s.handOut e).enqueue e) :=
    { h.timed with
      entered := Run.forall_mem_snoc h.timed.entered hentered.le
      sorted := by
        apply Run.pairwise_snoc h.timed.sorted
        intro e' he'
        exact ⟨holder e' he', hentered ▸ h.timed.entered e' he'⟩
      behind := by
        intro d hd
        apply Run.forall_mem_snoc (h.timed.behind d hd)
        intro _
        rw [hseq]
        exact (h.books.sent d hd).1 }
  exact ⟨hbooks, htimed, { h.slots with }⟩

theorem Core.noteWithdrawn (h : Core c s) (hn : n ∈ s.settledSeqs) (hnever : s.NeverInvoked n) :
    Core c (s.noteWithdrawn n) :=
  { h with
    books := { h.books with withdrawn := Run.forall_mem_snoc h.books.withdrawn ⟨hn, hnever⟩ }
    timed := { h.timed with }
    slots := { h.slots with } }

theorem Core.refused (h : Core c s) (he : e ∈ s.handles) (hstate : s.state e.seq = .queued) (t : ℚ) (o : Outcome) :
    Core c (((s.unqueue e.seq).elapse t).settle e.seq o) :=
  ((h.unqueue e.seq).elapse t).settle (h.books.lt_length he) hstate (fun _ he' => (mem_unqueue.mp he').2) o

theorem Core.withdrawn (h : Core c s) (he : e ∈ s.handles) (hstate : s.state e.seq = .queued) (t : ℚ) (o : Outcome) :
    Core c ((((s.unqueue e.seq).elapse t).settle e.seq o).noteWithdrawn e.seq) := by
  have hcore := h.refused he hstate t o
  apply hcore.noteWithdrawn
  · exact (hcore.books.settled e.seq).mpr ⟨(settle_handles ..).symm ▸ h.books.lt_length he, settle_state_self ..⟩
  · intro d hd heq
    rw [settle_dispatches] at hd
    exact (h.books.sent d hd).2 (heq ▸ hstate)

end TransportPacer

end BoxEngine
