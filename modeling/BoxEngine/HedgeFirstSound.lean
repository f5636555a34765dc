import BoxEngine.DispatchSound
import BoxEngine.Lib.Fallible
import BoxEngine.TransportGateSound

/-!
# Hedges first

A gate holds its dependents until every hedge has decided. No leg stays parked, provided that a leg parks only where
the hedges of its attempt have registered.
-/

namespace BoxEngine

open Js OrderManager

/-! ## Executions -/

def Resumption.Settles (r : Resumption) : Prop := r.decides = true → r.execution.isOver = true

namespace Execution

def isParked (e : Execution) : Bool :=
  match e.phase with
  | .parked => true
  | _ => false

variable {e : Execution} {blocked : Option String} {answer : ExecutionAnswer}

theorem woken_isOver : e.woken.isOver = e.isOver := by
  obtain ⟨action, slot, phase, postBegan, hedgeFailureReason, terminalOrder⟩ := e
  cases phase <;> rfl

theorem woken_isParked : e.woken.isParked = false := by
  obtain ⟨action, slot, phase, postBegan, hedgeFailureReason, terminalOrder⟩ := e
  cases phase <;> rfl

theorem woken_action : e.woken.action = e.action := congrArg Prod.fst e.woken_key

theorem isParked_iff : e.isParked = true ↔ e.phase = .parked := by
  obtain ⟨action, slot, phase, postBegan, hedgeFailureReason, terminalOrder⟩ := e
  cases phase <;> simp [isParked]

theorem isParked_answered (given : AdapterAnswer) : (e.answered given).execution.isParked = false := by
  unfold answered
  split <;> rfl

theorem isOver_answered (given : AdapterAnswer) (h : (e.answered given).decides = true) :
    (e.answered given).execution.isOver = true := by
  unfold answered at h ⊢
  split at h <;> first | rfl | cases h

theorem recordedAs_over (p : PersistResult) (recorded : RecordedAs) :
    (e.recordedAs p recorded).execution.isOver = true ∧ (e.recordedAs p recorded).execution.isParked = false := by
  cases recorded <;> exact ⟨rfl, rfl⟩

theorem resume_settles : (e.resume blocked answer).Settles := by
  unfold resume
  split
  case h_10 => exact isOver_answered _
  case h_13 => exact fun _ => (recordedAs_over _ _).1
  all_goals repeat' split
  all_goals first
    | exact fun _ => rfl
    | rintro ⟨⟩

theorem resume_parked (hasleep : e.isParked = false) :
    (e.resume blocked answer).execution.isParked = true →
      e.phase = .entering ∧ blocked = none ∧ ∃ facts, answer = .transitioned true .submitting facts := by
  unfold resume
  split
  case h_5 applied state facts hphase =>
    split
    · rintro ⟨⟩
    · rename_i happlied
      split
      · rintro ⟨⟩
      · rename_i hstate
        split
        · rintro ⟨⟩
        · obtain rfl : applied = true := by simpa using happlied
          obtain rfl : state = .submitting := by simpa using hstate
          exact fun _ => ⟨hphase, rfl, facts, rfl⟩
  case h_10 =>
    rw [isParked_answered]
    rintro ⟨⟩
  case h_13 =>
    intro hparked
    exact absurd ((recordedAs_over _ _).2.symm.trans hparked) (by decide)
  -- elsewhere the execution is at another place, or where it was
  all_goals repeat' split
  all_goals first
    | rintro ⟨⟩
    | exact fun hparked => absurd (hasleep.symm.trans hparked) (by decide)

end Execution

namespace OrderManager

variable {limits : OrderManagerLimits} {m m' : OrderManager} {ask : QueueAsk} {leg : SubmitAction}

def Live (m : OrderManager) (leg : SubmitAction) : Prop :=
  QueueAction.submit leg ∈ m.queue ∨ ∃ e ∈ m.running, e.action = .submit leg ∧ e.isOver = false

def Parks (m : OrderManager) (leg : SubmitAction) : Prop :=
  ∃ e ∈ m.running, e.action = .submit leg ∧ e.isParked = true

def Bars (m : OrderManager) : Prop := Barred m.disposed m.entryTransportGates m.Live m.Parks

theorem live_mem_actions (h : m.Live leg) : QueueAction.submit leg ∈ m.work.actions := by
  rcases h with h | ⟨e, he, haction, -⟩
  · exact List.mem_append_left _ h
  · refine List.mem_append_right _ (List.mem_map.mpr ⟨e.key, List.mem_map_of_mem he, haction⟩)

/-! ## Executions woken and put back -/

variable (waiters : List EntryTransportWaiter)

theorem live_wake : (m.wake waiters).Live = m.Live := by
  funext leg
  refine propext (or_congr_right ?_)
  constructor
  · rintro ⟨e', he', haction, hover⟩
    obtain ⟨e, he, rfl⟩ := List.mem_map.mp he'
    refine ⟨e, he, ?_⟩
    split at haction
    · rename_i hwoken
      rw [if_pos hwoken, Execution.woken_isOver] at hover
      exact ⟨Execution.woken_action ▸ haction, hover⟩
    · rename_i hwoken
      rw [if_neg hwoken] at hover
      exact ⟨haction, hover⟩
  · rintro ⟨e, he, haction, hover⟩
    refine ⟨_, List.mem_map_of_mem he, ?_⟩
    split
    · exact ⟨Execution.woken_action.trans haction, Execution.woken_isOver.trans hover⟩
    · exact ⟨haction, hover⟩

theorem parks_wake :
    (m.wake waiters).Parks = fun leg => m.Parks leg ∧ leg.sequence ∉ waiters.map EntryTransportWaiter.leg := by
  funext leg
  refine propext ?_
  constructor
  · rintro ⟨e', he', haction, hparked⟩
    obtain ⟨e, he, rfl⟩ := List.mem_map.mp he'
    split at haction
    · rename_i hwoken
      rw [if_pos hwoken, Execution.woken_isParked] at hparked
      cases hparked
    · rename_i hwoken
      rw [if_neg hwoken] at hparked
      refine ⟨⟨e, he, haction, hparked⟩, ?_⟩
      rwa [Execution.sequence, haction] at hwoken
  · rintro ⟨⟨e, he, haction, hparked⟩, hasleep⟩
    refine ⟨_, List.mem_map_of_mem he, ?_⟩
    have hsequence : e.sequence ∉ waiters.map EntryTransportWaiter.leg := by
      rw [Execution.sequence, haction]
      exact hasleep
    rw [if_neg hsequence]
    exact ⟨haction, hparked⟩

section Put

variable {e e' : Execution} (he : e ∈ m.running) (hkey : e'.key = e.key)

theorem mem_put {x : Execution} (hx : x ∈ (m.putExecution e').running) :
    x = e' ∨ (x ∈ m.running ∧ x.sequence ≠ e'.sequence) := Keyed.mem_replace (f := Execution.sequence) hx

include he hkey in
theorem self_mem_put : e' ∈ (m.putExecution e').running :=
  Keyed.mem_replace_self (f := Execution.sequence) he (congrArg (fun key => key.1.sequence) hkey.symm)

theorem mem_put_of_ne {x : Execution} (hx : x ∈ m.running) (hne : x.sequence ≠ e'.sequence) :
    x ∈ (m.putExecution e').running := Keyed.mem_replace_of_ne (f := Execution.sequence) hx hne

variable (hdistinct : (m.running.map Execution.sequence).Nodup)

include he hkey hdistinct in
theorem exists_put (P : Execution → Prop) :
    (∃ x ∈ (m.putExecution e').running, P x) ↔ P e' ∨ ∃ x ∈ m.running, x ≠ e ∧ P x := by
  have hsequence : e'.sequence = e.sequence := congrArg (fun key => key.1.sequence) hkey
  constructor
  · rintro ⟨x, hx, hp⟩
    rcases mem_put hx with rfl | ⟨hin, hne⟩
    · exact .inl hp
    · refine .inr ⟨x, hin, ?_, hp⟩
      rintro rfl
      exact hne hsequence.symm
  · rintro (hp | ⟨x, hx, hne, hp⟩)
    · exact ⟨e', self_mem_put he hkey, hp⟩
    · refine ⟨x, mem_put_of_ne hx ?_, hp⟩
      intro heq
      exact hne (List.inj_on_of_nodup_map hdistinct hx he (heq.trans hsequence))

include he hkey hdistinct in
theorem parks_put (hbefore : e.isParked = false) (hafter : e'.isParked = false) :
    (m.putExecution e').Parks = m.Parks := by
  funext leg
  refine propext ((exists_put he hkey hdistinct _).trans ?_)
  constructor
  · rintro (⟨-, hparked⟩ | ⟨x, hx, -, hp⟩)
    · rw [hafter] at hparked
      cases hparked
    · exact ⟨x, hx, hp⟩
  · rintro ⟨x, hx, hp⟩
    refine .inr ⟨x, hx, ?_, hp⟩
    rintro rfl
    rw [hbefore] at hp
    cases hp.2

include he hkey hdistinct in
theorem parks_put_parked (hbefore : e.isParked = false) (hafter : e'.isParked = true) {parking : SubmitAction}
    (haction : e.action = .submit parking) : (m.putExecution e').Parks = fun leg => leg = parking ∨ m.Parks leg := by
  have haction' : e'.action = .submit parking := (congrArg Prod.fst hkey : e'.action = e.action).trans haction
  funext leg
  refine propext ((exists_put he hkey hdistinct _).trans (or_congr ?_ ?_))
  · rw [haction', QueueAction.submit.injEq, and_iff_left hafter]
    exact eq_comm
  · constructor
    · rintro ⟨x, hx, -, hp⟩
      exact ⟨x, hx, hp⟩
    · rintro ⟨x, hx, hp⟩
      refine ⟨x, hx, ?_, hp⟩
      rintro rfl
      rw [hbefore] at hp
      cases hp.2

include he hkey hdistinct in
theorem live_put (hover : e'.isOver = e.isOver) : (m.putExecution e').Live = m.Live := by
  have haction : e'.action = e.action := congrArg Prod.fst hkey
  funext leg
  refine propext (or_congr_right ((exists_put he hkey hdistinct _).trans ?_))
  constructor
  · rintro (⟨hleg, hopen⟩ | ⟨x, hx, -, hp⟩)
    · exact ⟨e, he, haction ▸ hleg, hover ▸ hopen⟩
    · exact ⟨x, hx, hp⟩
  · rintro ⟨x, hx, hp⟩
    by_cases hxe : x = e
    · subst hxe
      exact .inl ⟨haction.trans hp.1, hover.trans hp.2⟩
    · exact .inr ⟨x, hx, hxe, hp⟩

include he hkey hdistinct in
theorem live_put_over (hover : e'.isOver = true) (hlive : (m.putExecution e').Live leg) :
    m.Live leg ∧ (QueueAction.submit leg ∈ m.queue ∨ ∃ x ∈ m.running, x ≠ e ∧ x.action = .submit leg) := by
  rcases hlive with hqueued | hrunning
  · exact ⟨.inl hqueued, .inl hqueued⟩
  · rcases (exists_put he hkey hdistinct _).mp hrunning with ⟨-, hopen⟩ | ⟨x, hx, hne, hp⟩
    · rw [hover] at hopen
      cases hopen
    · exact ⟨.inr ⟨x, hx, hp⟩, .inr ⟨x, hx, hne, hp.1⟩⟩

end Put

/-! ## The queue keeps the gates -/

theorem parks_running (h : m.Parks leg) : ∃ e ∈ m.running, e.action = .submit leg ∧ e.isOver = false := by
  obtain ⟨e, he, haction, hparked⟩ := h
  refine ⟨e, he, haction, ?_⟩
  rw [Execution.isOver, Execution.isParked_iff.mp hparked]

theorem bars_decide (h : m.Bars) (order : SizedRequest) (guard : LiveEntryTransportGuard) (outcome : TransportOutcome)
    (reason : Option String) (terminalOrder : Option BrokerOrder)
    (hregistered : ∀ gate, m.entryTransportGates order.request.attemptId = some gate →
      guard.transportRank ∈ gate.registered)
    (hleft : ∀ leg, m.Live leg → leg.attemptId = order.request.attemptId → ∀ other ∈ leg.entry,
      other.transportRank ≠ guard.transportRank) :
    (m.decideEntryTransportRank order guard outcome reason terminalOrder).Bars := by
  unfold decideEntryTransportRank
  dsimp only
  split
  · exact h
  · rename_i gate hgate
    change Barred m.disposed _ (m.wake _).Live (m.wake _).Parks
    rw [live_wake, parks_wake]
    exact Barred.decided h hgate guard order.request outcome reason terminalOrder (hregistered gate hgate) hleft

section

variable {scheduling : SchedulingLimits} {action : QueueAction} {rest : List QueueAction}

theorem bars_shift (h : m.Bars) (hqueue : m.queue = action :: rest) :
    Bars { m with queue := rest } := by
  refine Barred.leave h ?_ fun leg hleg => .inr (parks_running (m := m) hleg)
  rintro leg (hqueued | hrunning)
  · exact .inl (hqueue ▸ .tail _ hqueued)
  · exact .inr hrunning

theorem head_left (hs : m.work.Scheduled scheduling) (hqueue : m.queue = action :: rest) :
    action ∉ (OrderManager.work { m with queue := rest }).actions := by
  have hdistinct := hs.distinct
  rw [Work.shift_actions hqueue, List.map_cons, List.nodup_cons] at hdistinct
  intro hmem
  exact hdistinct.1 (List.mem_map_of_mem hmem)

theorem bars_refuse (h : m.Bars) (hs : m.work.Scheduled scheduling) (hqueue : m.queue = action :: rest)
    (reason : String) : (OrderManager.refuseQueued { m with queue := rest } action reason).Bars := by
  have hshift := bars_shift h hqueue
  unfold refuseQueued
  split
  · exact hshift
  · rename_i leg
    dsimp only
    split
    · exact hshift
    · rename_i guard hguard
      have hlive : m.Live leg := .inl (hqueue ▸ List.mem_cons_self ..)
      have hmember : guard ∈ leg.entry := hguard
      apply bars_decide
      · exact hshift
      · intro gate hgate
        exact ((h.stands _ gate hgate).enrolled leg hlive rfl guard hmember).1
      · intro other hother hattempt guard' hguard' heq
        have hin : m.Live other := by
          rcases hother with hqueued | hrunning
          · exact .inl (hqueue ▸ .tail _ hqueued)
          · exact .inr hrunning
        obtain rfl := h.byRank other leg hin hlive hattempt guard' hguard' guard hmember heq
        exact head_left hs hqueue (live_mem_actions (m := { m with queue := rest }) hother)

theorem bars_start (h : m.Bars) (hqueue : m.queue = action :: rest) (slot : BoxSchedulingSlot) :
    (OrderManager.startAction { m with queue := rest } action slot).Bars := by
  have hover : (Execution.start action slot).isOver = false := by cases action <;> rfl
  have hparked : (Execution.start action slot).isParked = false := by cases action <;> rfl
  have hlive : (OrderManager.startAction { m with queue := rest } action slot).Live = m.Live := by
    funext leg
    refine propext ?_
    constructor
    · rintro (hqueued | ⟨e, he, hleg, hopen⟩)
      · exact .inl (hqueue ▸ .tail _ hqueued)
      · rcases List.mem_append.mp he with he | he
        · exact .inr ⟨e, he, hleg, hopen⟩
        · rw [List.mem_singleton.mp he] at hleg
          refine .inl (hqueue ▸ ?_)
          rw [show action = .submit leg from hleg]
          exact .head _
    · rintro (hqueued | ⟨e, he, hrest⟩)
      · rw [hqueue] at hqueued
        rcases List.mem_cons.mp hqueued with heq | hqueued
        · exact .inr ⟨_, List.mem_append_right _ (List.mem_singleton_self _), heq.symm, hover⟩
        · exact .inl hqueued
      · exact .inr ⟨e, List.mem_append_left _ he, hrest⟩
  have hparks : (OrderManager.startAction { m with queue := rest } action slot).Parks = m.Parks := by
    funext leg
    refine propext ?_
    constructor
    · rintro ⟨e, he, hleg, hasleep⟩
      rcases List.mem_append.mp he with he | he
      · exact ⟨e, he, hleg, hasleep⟩
      · rw [List.mem_singleton.mp he, hparked] at hasleep
        cases hasleep
    · rintro ⟨e, he, hrest⟩
      exact ⟨e, List.mem_append_left _ he, hrest⟩
  unfold Bars
  rw [hlive, hparks]
  exact h

theorem bars_pump (h : m.Bars) (hs : m.work.Scheduled limits.scheduling) : (m.pump limits ask).Bars := by
  refine (pumpFrom_keeps (P := fun m => m.Bars ∧ m.work.Scheduled limits.scheduling) ?_ ?_ _ ⟨h, hs⟩).1
  · intro m action rest slot reason hm _ hqueue _
    refine ⟨bars_refuse hm.1 hm.2 hqueue reason, ?_⟩
    rw [work_refuseQueued]
    exact hm.2.shift hqueue
  · intro m action rest slot hm _ hqueue hadmitted _
    refine ⟨bars_start hm.1 hqueue slot, ?_⟩
    rw [work_start]
    exact hm.2.start hqueue hadmitted

end

/-! ## Submitting keeps the gates -/

structure Enters (m : OrderManager) (call : SubmitCall) (guard : LiveEntryTransportGuard) : Prop where
  planned : guard.Planned
  disposed : m.disposed = true → ∀ action ∈ m.work.actions, action.attemptOf = call.order.request.attemptId →
    action.entryGuard = none
  unregistered : ∀ gate, m.entryTransportGates call.order.request.attemptId = some gate →
    guard.transportRank ∉ gate.registered
  ranks : ∀ action ∈ m.work.actions, action.attemptOf = call.order.request.attemptId →
    ∀ other ∈ action.entryGuard, other.transportRank ≠ guard.transportRank

section

variable {call : SubmitCall} {guard : LiveEntryTransportGuard}

theorem bars_ensure (h : m.Bars) (hin : m.Enters call guard) :
    (m.ensureEntryTransportGate call.order guard call.accountKey).Bars := by
  refine Barred.register h hin.planned call.order.request call.accountKey ?_ hin.unregistered
  intro hdisposed leg hleg hattempt
  exact hin.disposed hdisposed _ (live_mem_actions hleg) hattempt

theorem ensured_gate (m : OrderManager) (order : SizedRequest) (guard : LiveEntryTransportGuard) (accountKey : String) :
    (m.ensureEntryTransportGate order guard accountKey).entryTransportGates order.request.attemptId =
      some (((m.entryTransportGates order.request.attemptId).getD
        (.new order.request.attemptId guard accountKey)).register guard order.request) := Function.update_self ..

theorem accept_rest (m : OrderManager) (call : SubmitCall) :
    (m.accept call).running = m.running ∧ (m.accept call).entryTransportGates = m.entryTransportGates ∧
      (m.accept call).disposed = m.disposed := by
  unfold accept reserve
  dsimp only
  split
  · exact ⟨rfl, rfl, rfl⟩
  · split <;> exact ⟨rfl, rfl, rfl⟩

theorem live_accept (m : OrderManager) (call : SubmitCall) :
    (m.accept call).Live = fun leg => leg = ⟨call.order, call.entryGuard, m.sequence⟩ ∨ m.Live leg := by
  have hqueue : (m.accept call).queue.Perm (call.action m.sequence :: m.queue) := by
    rw [show (m.accept call).queue = _ from congrArg Work.queue (work_accept call)]
    exact Work.enqueue_queue_perm ..
  funext leg
  refine propext ?_
  rw [Live, Live, (accept_rest m call).1, hqueue.mem_iff, List.mem_cons, or_assoc]
  refine or_congr_left ?_
  rw [SubmitCall.action, QueueAction.submit.injEq]

theorem parks_accept (m : OrderManager) (call : SubmitCall) : (m.accept call).Parks = m.Parks := by
  unfold Parks
  rw [(accept_rest m call).1]

theorem bars_accept (h : m.Bars) (hs : m.work.Scheduled limits.scheduling)
    (hplanned : ∀ guard ∈ call.entryGuard, guard.Planned)
    (hgate : call.entryGuard ≠ none → m.entryTransportGates call.order.request.attemptId ≠ none)
    (hrank : ∀ guard ∈ call.entryGuard, ∀ gate, m.entryTransportGates call.order.request.attemptId = some gate →
      guard.transportRank ∈ gate.registered ∧ ¬ gate.hasDecided guard.transportRank = true)
    (hunique : ∀ action ∈ m.work.actions, action.attemptOf = call.order.request.attemptId →
      ∀ other ∈ action.entryGuard, ∀ guard ∈ call.entryGuard, other.transportRank ≠ guard.transportRank) :
    (m.accept call).Bars := by
  unfold Bars
  rw [live_accept, parks_accept, (accept_rest m call).2.1, (accept_rest m call).2.2]
  refine Barred.join h hplanned ?_ hgate hrank ?_
  · intro other hother
    exact (hs.below _ (live_mem_actions hother)).ne
  · intro other hother hattempt guard hguard guard' hguard'
    exact hunique _ (live_mem_actions hother) hattempt guard hguard guard' hguard'

theorem scheduled_accept (hs : m.work.Scheduled limits.scheduling) (call : SubmitCall) :
    (m.accept call).work.Scheduled limits.scheduling := by
  rw [work_accept]
  exact hs.enqueue rfl

theorem bars_submit (h : m.Bars) (hs : m.work.Scheduled limits.scheduling)
    (hin : ∀ guard ∈ call.entryGuard, m.Enters call guard) : (m.submit limits call).Bars := by
  unfold submit
  dsimp only
  cases hguard : call.entryGuard with
  | none =>
    rw [Option.elim_none]
    split
    · unfold releaseOnReject
      rw [hguard]
      exact h
    · have hnone : ∀ guard, guard ∉ call.entryGuard := by simp [hguard]
      refine bars_pump (bars_accept h hs ?_ ?_ ?_ ?_) (scheduled_accept hs call)
      · exact fun guard hmem => absurd hmem (hnone guard)
      · exact fun hsome => absurd hguard hsome
      · exact fun guard hmem => absurd hmem (hnone guard)
      · exact fun _ _ _ _ _ guard hmem => absurd hmem (hnone guard)
  | some guard =>
    have hentering := hin guard hguard
    have hensured := bars_ensure h hentering
    rw [Option.elim_some]
    split
    · unfold releaseOnReject
      rw [hguard]
      refine bars_decide hensured call.order guard .noPost _ none ?_ ?_
      · intro gate hgate
        rw [ensured_gate] at hgate
        obtain rfl := Option.some_inj.mp hgate
        exact (EntryTransportGate.mem_register _).mpr (.inl rfl)
      · intro leg hleg hattempt other hother
        exact hentering.ranks _ (live_mem_actions (m := m) hleg) hattempt other hother
    · have hsome : ∀ other ∈ call.entryGuard, other = guard := by
        intro other hother
        exact Option.mem_unique hother hguard
      refine bars_pump (bars_accept hensured hs ?_ ?_ ?_ ?_)
        (scheduled_accept (m := m.ensureEntryTransportGate call.order guard call.accountKey) hs call)
      · intro other hother
        rw [hsome other hother]
        exact hentering.planned
      · intro _
        rw [ensured_gate]
        simp
      · intro other hother gate hgate
        rw [hsome other hother]
        rw [ensured_gate] at hgate
        obtain rfl := Option.some_inj.mp hgate
        exact ⟨(EntryTransportGate.mem_register _).mpr (.inl rfl),
          Barred.register_undecided h call.order.request call.accountKey hentering.unregistered⟩
      · intro action haction hattempt other hother guard' hguard'
        rw [hsome guard' hguard']
        exact hentering.ranks action haction hattempt other hother

def SameRanks (m m' : OrderManager) : Prop :=
  ∀ attempt gate', m'.entryTransportGates attempt = some gate' →
    ∃ gate, m.entryTransportGates attempt = some gate ∧ gate'.registered = gate.registered

theorem SameRanks.refl : SameRanks m m := fun _ gate' h => ⟨gate', h, rfl⟩

theorem sameRanks_decide (order : SizedRequest) (guard : LiveEntryTransportGuard) (outcome : TransportOutcome)
    (reason : Option String) (terminalOrder : Option BrokerOrder) :
    SameRanks m (m.decideEntryTransportRank order guard outcome reason terminalOrder) := by
  unfold decideEntryTransportRank
  dsimp only
  split
  · exact .refl
  · rename_i gate hgate
    intro attempt gate' hsome
    by_cases hattempt : attempt = order.request.attemptId
    · rw [hattempt] at hsome ⊢
      simp only [Function.update_self] at hsome
      split at hsome
      · cases hsome
      · obtain rfl := Option.some_inj.mp hsome
        exact ⟨gate, hgate, rfl⟩
    · simp only [Function.update_of_ne hattempt] at hsome
      exact ⟨gate', hsome, rfl⟩

theorem SameRanks.trans {m'' : OrderManager} (h : SameRanks m m') (h' : SameRanks m' m'') : SameRanks m m'' := by
  intro attempt gate'' hsome
  obtain ⟨gate', hgate', hranks'⟩ := h' attempt gate'' hsome
  obtain ⟨gate, hgate, hranks⟩ := h attempt gate' hgate'
  exact ⟨gate, hgate, hranks'.trans hranks⟩

theorem sameRanks_pump : SameRanks m (m.pump limits ask) := by
  refine pumpFrom_keeps (P := SameRanks m) ?_ ?_ _ .refl
  · intro m' action rest slot reason h _ _ _
    refine h.trans ?_
    unfold refuseQueued
    split
    · exact .refl
    · dsimp only
      split
      · exact .refl
      · refine SameRanks.trans ?_ (sameRanks_decide _ _ _ _ _)
        intro attempt gate hgate
        exact ⟨gate, hgate, rfl⟩
  · intro m' action rest slot h _ _ _ _
    exact h

theorem submit_ranks {attempt : String} {gate' : EntryTransportGate} {rank : ℕ}
    (hsome : (m.submit limits call).entryTransportGates attempt = some gate') (hrank : rank ∈ gate'.registered) :
    (∃ gate, m.entryTransportGates attempt = some gate ∧ rank ∈ gate.registered) ∨
      call.order.request.attemptId = attempt ∧ ∃ guard ∈ call.entryGuard, guard.transportRank = rank := by
  have hregistered : ∀ gate, (call.entryGuard.elim m fun guard =>
      m.ensureEntryTransportGate call.order guard call.accountKey).entryTransportGates attempt = some gate →
      rank ∈ gate.registered → (∃ gate, m.entryTransportGates attempt = some gate ∧ rank ∈ gate.registered) ∨
        call.order.request.attemptId = attempt ∧ ∃ guard ∈ call.entryGuard, guard.transportRank = rank := by
    intro gate hgate hmem
    cases hguard : call.entryGuard with
    | none =>
      rw [hguard] at hgate
      exact .inl ⟨gate, hgate, hmem⟩
    | some guard =>
      rw [hguard, Option.elim_some] at hgate
      by_cases hattempt : call.order.request.attemptId = attempt
      · subst hattempt
        rw [ensured_gate] at hgate
        obtain rfl := Option.some_inj.mp hgate
        rcases (EntryTransportGate.mem_register _).mp hmem with rfl | hmem
        · exact .inr ⟨rfl, guard, rfl, rfl⟩
        · cases hbefore : m.entryTransportGates call.order.request.attemptId with
          | none =>
            rw [hbefore] at hmem
            cases hmem
          | some before =>
            rw [hbefore] at hmem
            exact .inl ⟨before, rfl, hmem⟩
      · rw [show (m.ensureEntryTransportGate call.order guard call.accountKey).entryTransportGates attempt =
          m.entryTransportGates attempt from Function.update_of_ne (Ne.symm hattempt) ..] at hgate
        exact .inl ⟨gate, hgate, hmem⟩
  have hsame : SameRanks (call.entryGuard.elim m fun guard =>
      m.ensureEntryTransportGate call.order guard call.accountKey) (m.submit limits call) := by
    unfold submit
    dsimp only
    split
    · unfold releaseOnReject
      split
      · exact .refl
      · exact sameRanks_decide _ _ _ _ _
    · refine SameRanks.trans ?_ sameRanks_pump
      intro attempt gate hgate
      exact ⟨gate, (accept_rest _ call).2.1 ▸ hgate, rfl⟩
  obtain ⟨gate, hgate, heq⟩ := hsame attempt gate' hsome
  exact hregistered gate hgate (heq ▸ hrank)

theorem submit_work_disposed (hdisposed : m.disposed = true) : (m.submit limits call).work = m.work := by
  rcases submit_cases m limits call with hwork | ⟨hopen, -⟩
  · exact hwork
  · exact absurd (hdisposed.symm.trans hopen) (by decide)

theorem submit_disposed : (m.submit limits call).disposed = m.disposed := by
  rcases submit_cases m limits call with hwork | ⟨-, m', hwork, heq⟩
  · exact congrArg Work.disposed hwork
  · rw [heq]
    have hm' : m'.disposed = m.disposed := congrArg Work.disposed hwork
    exact pumpFrom_work (P := fun w => w.disposed = m.disposed) (fun _ _ _ _ h _ _ => h) (fun _ _ _ _ h _ _ => h) _ hm'

theorem enters_submit {next : SubmitCall} (h : m.Enters next guard)
    (hranks : call.order.request.attemptId = next.order.request.attemptId →
      ∀ other ∈ call.entryGuard, other.transportRank ≠ guard.transportRank) :
    (m.submit limits call).Enters next guard where
  planned := h.planned
  disposed := by
    intro hdisposed action haction
    rw [submit_disposed] at hdisposed
    rw [submit_work_disposed hdisposed] at haction
    exact h.disposed hdisposed action haction
  unregistered := by
    intro gate' hsome hmem
    rcases submit_ranks hsome hmem with ⟨gate, hgate, hrank⟩ | ⟨hattempt, other, hother, heq⟩
    · exact h.unregistered gate hgate hrank
    · exact hranks hattempt other hother heq
  ranks := by
    intro action haction hattempt other hother
    rcases submit_actions call action haction with rfl | haction
    · exact hranks hattempt other hother
    · exact h.ranks action haction hattempt other hother

end

/-! ## Executions keep the gates -/

theorem Bars.congr (h : m.Bars) (hdisposed : m'.disposed = m.disposed)
    (hgates : m'.entryTransportGates = m.entryTransportGates) (hqueue : m'.queue = m.queue)
    (hrunning : m'.running = m.running) : m'.Bars := by
  have hlive : m'.Live = m.Live := by
    unfold Live
    rw [hqueue, hrunning]
  have hparks : m'.Parks = m.Parks := by
    unfold Parks
    rw [hrunning]
  unfold Bars
  rw [hdisposed, hgates, hlive, hparks]
  exact h

theorem gates_persisted (p : PersistResult) : (m.persisted p).entryTransportGates = m.entryTransportGates := by
  unfold persisted
  dsimp only
  split
  · split <;> rfl
  · split <;> rfl

theorem bars_persisted (h : m.Bars) (p : PersistResult) : (m.persisted p).Bars :=
  h.congr (congrArg Work.disposed (work_persisted p)) (gates_persisted p) (congrArg Work.queue (work_persisted p))
    (running_persisted p)

section

variable {e : Execution} (hs : m.work.Scheduled limits.scheduling) (he : e ∈ m.running) (hopen : e.isOver = false)
  (hasleep : e.isParked = false)

include hs he hasleep in
theorem bars_put (h : m.Bars) {e' : Execution} (hkey : e'.key = e.key) (hparked : e'.isParked = false)
    (hover : e'.isOver = true ∨ e'.isOver = e.isOver) : (m.putExecution e').Bars := by
  have hdistinct := running_distinct hs
  have hparks := parks_put he hkey hdistinct hasleep hparked
  unfold Bars
  rw [hparks]
  refine Barred.leave h ?_ ?_
  · intro leg hleg
    rcases hover with hover | hover
    · exact (live_put_over he hkey hdistinct hover hleg).1
    · rwa [live_put he hkey hdistinct hover] at hleg
  · intro leg hleg
    rw [← hparks] at hleg
    exact .inr (parks_running hleg)

include hs he hopen hasleep in
theorem bars_ended (h : m.Bars) {e' : Execution} (hkey : e'.key = e.key) (hover : e'.isOver = true)
    {order : SizedRequest} {guard : LiveEntryTransportGuard} {sequence : ℕ}
    (haction : e.action = .submit ⟨order, some guard, sequence⟩) (outcome : TransportOutcome)
    (reason : Option String) (terminalOrder : Option BrokerOrder) :
    ((m.putExecution e').decideEntryTransportRank order guard outcome reason terminalOrder).Bars := by
  have hparked : e'.isParked = false := by
    by_contra hparked
    rw [Bool.not_eq_false, Execution.isParked_iff] at hparked
    rw [Execution.isOver, hparked] at hover
    cases hover
  have hlive : m.Live ⟨order, some guard, sequence⟩ := .inr ⟨e, he, haction, hopen⟩
  have hdistinct := running_distinct hs
  refine bars_decide (bars_put hs he hasleep h hkey hparked (.inl hover)) order guard outcome reason terminalOrder ?_ ?_
  · intro gate hgate
    exact ((h.stands _ gate hgate).enrolled _ hlive rfl guard rfl).1
  · intro other hother hattempt guard' hguard' heq
    obtain ⟨hin, helse⟩ := live_put_over he hkey hdistinct hover hother
    obtain rfl := h.byRank other _ hin hlive hattempt guard' hguard' guard rfl heq
    rcases helse with hqueued | ⟨x, hx, hne, hxaction⟩
    · have hnodup := hs.distinct
      unfold Work.actions at hnodup
      rw [List.map_append, List.nodup_append] at hnodup
      refine hnodup.2.2 _ (List.mem_map_of_mem hqueued) _ ?_ rfl
      exact List.mem_map.mpr ⟨e.key.1, List.mem_map_of_mem (List.mem_map_of_mem he), congrArg _ haction⟩
    · refine hne (List.inj_on_of_nodup_map hdistinct hx he ?_)
      rw [Execution.sequence, Execution.sequence, hxaction, haction]

end

theorem bars_told (h : m.Bars) (e : Execution) (r : Resumption) : (m.told e r).Bars := by
  have hgates : (m.told e r).entryTransportGates = m.entryTransportGates :=
    told_cases entryTransportGates (fun _ p => gates_persisted p) (fun _ _ _ => rfl) (fun _ _ => rfl) e r
  exact h.congr (congrArg Work.disposed (work_told e r)) hgates (congrArg Work.queue (work_told e r)) (running_told e r)

/-! ## Placing an execution -/

/-- **A leg parks only where the hedges of its attempt have registered.** -/
def ParksBehindHedges (m : OrderManager) : OrderManagerEvent → Prop
  | .resumed leg (.transitioned true .submitting facts) =>
    ∀ e ∈ m.running, e.sequence = leg → e.phase = .entering →
      m.verdict e (.transitioned true .submitting facts) = none →
      ∀ action guard gate, e.action = .submit action → action.entry = some guard → guard.hedge = false →
        m.entryTransportGates action.attemptId = some gate → gate.entryHedgesDecided guard.transportRank = false →
        ∀ rank < gate.hedgeCount, rank ∈ gate.registered
  | _ => True

section

variable {e : Execution} {r : Resumption} (hs : m.work.Scheduled limits.scheduling) (he : e ∈ m.running)
  (hopen : e.isOver = false) (hasleep : e.isParked = false)

include hs he hopen hasleep in
theorem bars_place (h : m.Bars) (hkey : r.execution.key = e.key) (hsettles : r.Settles)
    (hkept : r.execution.isOver = true ∨ r.execution.isOver = e.isOver)
    (hbehind : r.execution.isParked = true → ∀ action guard gate, e.action = .submit action →
      action.entry = some guard → guard.hedge = false → m.entryTransportGates action.attemptId = some gate →
      gate.entryHedgesDecided guard.transportRank = false → ∀ rank < gate.hedgeCount, rank ∈ gate.registered) :
    (m.place r).Bars := by
  have haction : r.execution.action = e.action := congrArg Prod.fst hkey
  unfold place
  dsimp only
  split
  · rename_i hphase
    have hparked : r.execution.isParked = true := Execution.isParked_iff.mpr hphase
    have hsending : (m.putExecution { r.execution with phase := .sending }).Bars := by
      refine bars_put hs he hasleep h hkey rfl (.inr ?_)
      exact hopen.symm
    unfold awaitEntryTransportTurn
    dsimp only
    split
    · exact hsending
    · rename_i action hsubmit
      rw [haction] at hsubmit
      split
      · rename_i guard gate hguard hgate
        split
        · exact hsending
        · rename_i hheld
          simp only [not_or, Bool.not_eq_true] at hheld
          have hlive : m.Live action := .inr ⟨e, he, hsubmit, hopen⟩
          have hcount := (h.stands _ gate hgate).count
          have hranks := hbehind hparked action guard gate hsubmit hguard hheld.1 hgate hheld.2
          rw [hcount] at hranks
          have hpark := Barred.park h hlive hguard hheld.1 hgate (by simp [hheld.2]) hranks
          have hdistinct := running_distinct hs
          have hover : r.execution.isOver = e.isOver := by
            rw [hopen, Execution.isOver, hphase]
          rw [← parks_put_parked he hkey hdistinct hasleep hparked hsubmit, ← live_put he hkey hdistinct hover] at hpark
          exact hpark
      · exact hsending
  · rename_i hphase
    have hparked : r.execution.isParked = false := by
      by_contra hparked
      rw [Bool.not_eq_false, Execution.isParked_iff] at hparked
      exact hphase hparked
    split
    · rename_i order guard sequence hdecides hsubmit
      rw [haction] at hsubmit
      exact bars_ended hs he hopen hasleep h hkey (hsettles hdecides) hsubmit _ _ _
    · exact bars_put hs he hasleep h hkey hparked hkept

end

/-! ## Every event keeps the gates -/

theorem bars_resumed (h : m.Bars) (hs : m.work.Scheduled limits.scheduling) (leg : ℕ) (answer : ExecutionAnswer)
    (hbehind : m.ParksBehindHedges (.resumed leg answer)) : (m.resumed leg answer).Bars := by
  unfold resumed
  split
  · exact h
  · rename_i e hfound
    have hleg : e.sequence = leg := by simpa using List.find?_some hfound
    have he : e ∈ m.running := List.mem_of_find?_eq_some hfound
    split
    · exact h
    · exact h
    · rename_i hparked hover
      have hasleep : e.isParked = false := by
        by_contra hne
        rw [Bool.not_eq_false, Execution.isParked_iff] at hne
        exact hparked hne
      have hopen : e.isOver = false := by
        unfold Execution.isOver
        split
        · rename_i hphase
          exact absurd hphase hover
        · rfl
      have htold : (m.told e (e.resume (m.verdict e answer) answer)).work.Scheduled limits.scheduling := by
        rw [work_told]
        exact hs
      refine bars_place htold ?_ hopen hasleep (bars_told h _ _) Execution.resume_key Execution.resume_settles ?_ ?_
      · rw [running_told]
        exact he
      · cases hend : (e.resume (m.verdict e answer) answer).execution.isOver
        · exact .inr hopen.symm
        · exact .inl rfl
      · intro hparks action guard gate haction hguard hdependent hgate hheld
        obtain ⟨hphase, hverdict, facts, rfl⟩ := Execution.resume_parked hasleep hparks
        rw [show (m.told e _).entryTransportGates = m.entryTransportGates from
          told_cases entryTransportGates (fun _ p => gates_persisted p) (fun _ _ _ => rfl) (fun _ _ => rfl) _ _] at hgate
        exact hbehind e he hleg hphase hverdict action guard gate haction hguard hdependent hgate hheld

theorem running_settled (m : OrderManager) (e : Execution) :
    (m.settled e).running = m.running.filter fun other => other.sequence ≠ e.sequence := by
  unfold settled
  cases e.action.leg with
  | none => rfl
  | some action =>
    dsimp only [Option.elim_some]
    split <;> rfl

theorem gates_settled (m : OrderManager) (e : Execution) : (m.settled e).entryTransportGates = m.entryTransportGates := by
  unfold settled
  cases e.action.leg with
  | none => rfl
  | some action =>
    dsimp only [Option.elim_some]
    split <;> rfl

theorem gates_rebuilt (unresolved : List UnresolvedIntent) (positions : Option (List (String × ℤ))) :
    (m.rebuilt unresolved positions).entryTransportGates = m.entryTransportGates := by
  unfold rebuilt
  dsimp only
  split <;> rfl

theorem bars_settled (h : m.Bars) (hs : m.work.Scheduled limits.scheduling) {e : Execution} (he : e ∈ m.running)
    (hover : e.isOver = true) : (m.settled e).Bars := by
  have hrunning := running_settled m e
  have hgates := gates_settled m e
  have hwork := work_settled m e
  have hkeeps : ∀ x ∈ m.running, x.isOver = false → x ∈ (m.settled e).running := by
    intro x hx hopen
    rw [hrunning]
    refine List.mem_filter.mpr ⟨hx, ?_⟩
    rw [decide_eq_true_eq]
    intro heq
    obtain rfl := List.inj_on_of_nodup_map (running_distinct hs) hx he heq
    rw [hover] at hopen
    cases hopen
  have hlive : (m.settled e).Live = m.Live := by
    funext leg
    refine propext ?_
    rw [Live, Live, show (m.settled e).queue = m.queue from congrArg Work.queue hwork]
    refine or_congr_right ⟨?_, ?_⟩
    · rintro ⟨x, hx, hrest⟩
      rw [hrunning] at hx
      exact ⟨x, List.mem_of_mem_filter hx, hrest⟩
    · rintro ⟨x, hx, haction, hopen⟩
      exact ⟨x, hkeeps x hx hopen, haction, hopen⟩
  have hparks : (m.settled e).Parks = m.Parks := by
    funext leg
    refine propext ⟨?_, ?_⟩
    · rintro ⟨x, hx, hrest⟩
      rw [hrunning] at hx
      exact ⟨x, List.mem_of_mem_filter hx, hrest⟩
    · rintro ⟨x, hx, haction, hparked⟩
      refine ⟨x, hkeeps x hx ?_, haction, hparked⟩
      rw [Execution.isOver, Execution.isParked_iff.mp hparked]
  unfold Bars
  rw [hlive, hparks, hgates, show (m.settled e).disposed = m.disposed from congrArg Work.disposed hwork]
  exact h

theorem bars_cancel (h : m.Bars) (action : CancelAction) : (m.enqueue (.cancel action)).Bars := by
  have hlive : (m.enqueue (.cancel action)).Live = m.Live := by
    funext leg
    refine propext (or_congr_left ?_)
    refine (Work.enqueue_queue_perm m.work (.cancel action)).mem_iff.trans ?_
    simp [OrderManager.work]
  unfold Bars
  rw [hlive]
  exact h

theorem bars_dispose (h : m.Bars) : m.dispose.Bars := by
  have hparks : m.dispose.Parks = fun _ => False := by
    funext leg
    refine propext ⟨?_, False.elim⟩
    rintro ⟨e', he', -, hparked⟩
    obtain ⟨e, -, rfl⟩ := List.mem_map.mp he'
    rw [Execution.woken_isParked] at hparked
    cases hparked
  unfold Bars
  rw [hparks]
  refine Barred.clear h ?_
  rintro leg (hqueued | ⟨e', he', haction, hopen⟩)
  · cases hqueued
  · obtain ⟨e, he, rfl⟩ := List.mem_map.mp he'
    exact .inr ⟨e, he, Execution.woken_action ▸ haction, Execution.woken_isOver ▸ hopen⟩

/-- **An attempt's legs are submitted as planned**: once, in one block, ranked by slot, under a fresh id. -/
def SubmitsAttempts (m : OrderManager) : OrderManagerEvent → Prop
  | .submit calls =>
    (∀ call ∈ calls, ∀ guard ∈ call.entryGuard, guard.Planned ∧
      m.entryTransportGates call.order.request.attemptId = none ∧
      ∀ action ∈ m.work.actions, action.attemptOf = call.order.request.attemptId → action.entryGuard = none) ∧
    calls.Pairwise fun earlier later => earlier.order.request.attemptId = later.order.request.attemptId →
      ∀ guard ∈ earlier.entryGuard, ∀ guard' ∈ later.entryGuard, guard.transportRank ≠ guard'.transportRank
  | _ => True

theorem bars_step (h : m.Bars) (hs : m.work.Scheduled limits.scheduling) {event : OrderManagerEvent}
    (hattempts : m.SubmitsAttempts event) (hbehind : m.ParksBehindHedges event) : (step limits m event).1.Bars := by
  cases event with
  | submit calls =>
    change (Run.finish (submitStep limits) m calls).Bars
    obtain ⟨hnew, hblock⟩ := hattempts
    have henters : ∀ call ∈ calls, ∀ guard ∈ call.entryGuard, m.Enters call guard := by
      intro call hcall guard hguard
      obtain ⟨hplanned, hgate, hactions⟩ := hnew call hcall guard hguard
      refine ⟨hplanned, fun _ => hactions, ?_, ?_⟩
      · intro gate hsome
        rw [hgate] at hsome
        cases hsome
      · intro action haction hattempt other hother
        rw [hactions action haction hattempt] at hother
        cases hother
    clear hnew
    induction calls generalizing m with
    | nil => exact h
    | cons call calls ih =>
      obtain ⟨hranks, hcalls⟩ := List.pairwise_cons.mp hblock
      refine ih (bars_submit h hs (henters call (.head _))) (scheduled_submit hs call) trivial hcalls ?_
      intro next hnext guard hguard
      refine enters_submit (henters next (.tail _ hnext) guard hguard) ?_
      intro hattempt other hother
      exact hranks next hnext hattempt other hother guard hguard
  | cancel clientOrderId attemptId ask =>
    have hscheduled : (m.work.enqueue (.cancel ⟨clientOrderId, attemptId, m.sequence⟩)).Scheduled limits.scheduling :=
      hs.enqueue rfl
    exact bars_pump (bars_cancel h _) hscheduled
  | resumed leg answer => exact bars_resumed h hs leg answer hbehind
  | finished leg ask =>
    change (m.finished limits leg ask).Bars
    rcases finished_cases m limits leg ask with heq | ⟨e, he, hover, heq⟩
    · rw [heq]
      exact h
    · rw [heq]
      refine bars_pump (bars_settled h hs he hover) ?_
      rw [work_settled]
      exact hs.finish (List.mem_map_of_mem he)
  | known clientOrderId state => exact h.congr rfl rfl rfl rfl
  | snapshot p => exact bars_persisted h p
  | rebuilt unresolved positions =>
    have hwork := work_rebuilt (m := m) unresolved positions
    exact h.congr (congrArg Work.disposed hwork) (gates_rebuilt ..) (congrArg Work.queue hwork) (running_rebuilt ..)
  | dispose => exact bars_dispose h

theorem bars_booted : booted.Bars where
  planned := by rintro leg (hqueued | ⟨e, he, -⟩) <;> cases ‹_ ∈ _›
  bySequence := by rintro a b (hqueued | ⟨e, he, -⟩) <;> cases ‹_ ∈ _›
  byRank := by rintro a b (hqueued | ⟨e, he, -⟩) <;> cases ‹_ ∈ _›
  manned := by rintro leg (hqueued | ⟨e, he, -⟩) <;> cases ‹_ ∈ _›
  stands := by rintro _ _ ⟨⟩
  undecided := by rintro _ _ ⟨⟩
  parks := by rintro leg ⟨e, he, -⟩; cases he

end OrderManager

/-! ## What a hedge proves -/

theorem finite_of_zeroExposure {order : BrokerOrder} (h : verifyZeroBrokerExposure order = none) :
    order.filledQuantity.isFinite = true := by
  unfold verifyZeroBrokerExposure at h
  dsimp only at h
  split at h
  · cases h
  · rename_i hfinite
    simpa using hfinite

theorem finite_authoritativeOrder (order : BrokerOrder) (durable : BoxOrderIntent) :
    (authoritativeOrder order durable).filledQuantity.isFinite = true := by
  unfold authoritativeOrder mergeBrokerOrderSnapshot
  dsimp only
  rw [if_neg (by simp)]
  rfl

structure Execution.Proven (e : Execution) : Prop where
  terminal : ∀ order ∈ e.terminalOrder, order.filledQuantity.isFinite = true
  rejected : ∀ order message, e.phase = .recording (.rejected order message) → order.filledQuantity.isFinite = true

structure EntryTransportGate.Proven (gate : EntryTransportGate) : Prop where
  confirmed : ∀ role evidence, gate.coverage.evidenceByRole role = some evidence →
    ∀ filled ∈ evidence.confirmedFillQuantity, filled.isFinite = true
  required : ∀ rank req, gate.hedgeRequirements rank = some req → req.requiredQuantity.isFinite = true

namespace Execution

variable {e : Execution} {blocked : Option String} {answer : ExecutionAnswer}

section

variable (h : e.Proven)
include h

theorem Proven.woken : e.woken.Proven := by
  unfold Execution.woken
  split
  · exact ⟨h.terminal, by rintro _ _ ⟨⟩⟩
  · exact h

theorem Proven.elsewhere {e' : Execution} (hterminal : e'.terminalOrder = e.terminalOrder)
    (hphase : ∀ order message, e'.phase ≠ .recording (.rejected order message)) : e'.Proven :=
  ⟨hterminal ▸ h.terminal, fun order message heq => absurd heq (hphase order message)⟩

theorem Proven.answered (given : AdapterAnswer) : (e.answered given).execution.Proven := by
  unfold Execution.answered
  split
  · refine h.elsewhere rfl ?_
    intro order message
    simp only [goes]
    split <;> simp
  · exact h.elsewhere rfl (by simp [goes])
  · rename_i order
    refine ⟨h.terminal, ?_⟩
    intro other message heq
    simp only [goes] at heq
    split at heq
    · rename_i hproven
      simp only [ExecutionPhase.recording.injEq, RecordedAs.rejected.injEq] at heq
      rw [← heq.1]
      exact finite_of_zeroExposure (by simpa using hproven)
    · cases heq
  all_goals exact h.elsewhere rfl (by simp [goes, ends])

theorem Proven.recordedAs (p : PersistResult) {recorded : RecordedAs} (hphase : e.phase = .recording recorded) :
    (e.recordedAs p recorded).execution.Proven := by
  cases recorded with
  | accepted order =>
    refine ⟨?_, by simp [Execution.recordedAs, ends]⟩
    intro terminal hterminal
    obtain rfl := Option.some_inj.mp hterminal
    exact finite_authoritativeOrder order p.row
  | rejected order message =>
    refine ⟨?_, by simp [Execution.recordedAs, ends]⟩
    intro terminal hterminal
    obtain rfl := Option.some_inj.mp hterminal
    exact h.rejected _ message hphase
  | _ => exact h.elsewhere rfl (by simp [Execution.recordedAs, ends])

theorem Proven.resume : (e.resume blocked answer).execution.Proven := by
  unfold Execution.resume
  split
  case h_10 => exact h.answered _
  case h_13 hphase => exact h.recordedAs _ hphase
  case h_9 hphase =>
    split
    · exact ⟨h.terminal, h.rejected⟩
    · exact ⟨h.terminal, h.rejected⟩
  case h_16 => exact h
  case h_17 => exact h
  case h_19 => exact h
  all_goals repeat' split
  all_goals exact h.elsewhere rfl (by simp [goes, ends, refuses])

end

end Execution

namespace EntryTransportGate.Proven

variable {gate : EntryTransportGate} {guard : LiveEntryTransportGuard}

theorem new (attemptId : String) (guard : LiveEntryTransportGuard) (accountKey : String) :
    (EntryTransportGate.new attemptId guard accountKey).Proven where
  confirmed := by rintro _ _ ⟨⟩
  required := by rintro _ _ ⟨⟩

theorem register (h : gate.Proven) (guard : LiveEntryTransportGuard) (order : SizedRequest) :
    (gate.register guard order.request).Proven where
  confirmed := h.confirmed
  required := by
    intro rank req hreq
    by_cases hhedge : guard.hedge = true
    · simp only [EntryTransportGate.register, if_pos hhedge] at hreq
      by_cases hrank : rank = guard.transportRank
      · subst hrank
        rw [Function.update_self] at hreq
        obtain rfl := Option.some_inj.mp hreq
        simp [requirementOf, order.sized]
      · rw [Function.update_of_ne hrank] at hreq
        exact h.required rank req hreq
    · simp only [EntryTransportGate.register, if_neg hhedge] at hreq
      exact h.required rank req hreq

theorem evidence_finite (gate : EntryTransportGate) (request : BrokerOrderRequest) (outcome : TransportOutcome)
    (order : Option BrokerOrder) (reason : Option String)
    (hfinite : ∀ terminal ∈ order, terminal.filledQuantity.isFinite = true) :
    ∀ filled ∈ (gate.hedgeEvidenceFrom request outcome order reason).confirmedFillQuantity, filled.isFinite = true := by
  unfold hedgeEvidenceFrom
  dsimp only
  split
  · rename_i terminal hterminal
    intro filled hfilled
    obtain rfl := Option.some_inj.mp hfilled
    exact hfinite terminal (Option.filter_eq_some_iff.mp hterminal).1
  · split
    · rintro _ ⟨⟩
    · rintro _ ⟨⟩

theorem decide (h : gate.Proven) (guard : LiveEntryTransportGuard) (request : BrokerOrderRequest)
    (outcome : TransportOutcome) (reason : Option String) {order : Option BrokerOrder}
    (hfinite : ∀ terminal ∈ order, terminal.filledQuantity.isFinite = true) :
    (gate.decide request guard outcome reason order).wakeReady.Proven where
  confirmed := by
    change ∀ role evidence, (if guard.hedge = true then
      gate.coverage.record (gate.hedgeEvidenceFrom request outcome order reason) else gate.coverage).evidenceByRole role =
        some evidence → _
    intro role evidence hevidence
    split at hevidence
    · unfold HedgeCoverageLedger.record at hevidence
      split at hevidence
      · exact h.confirmed role evidence hevidence
      · split at hevidence
        · exact h.confirmed role evidence hevidence
        · by_cases hrole : role = (gate.hedgeEvidenceFrom request outcome order reason).role
          · subst hrole
            simp only [Function.update_self, Option.some.injEq] at hevidence
            rw [← hevidence]
            exact evidence_finite gate request outcome order reason hfinite
          · simp only [Function.update_of_ne hrole] at hevidence
            exact h.confirmed role evidence hevidence
    · exact h.confirmed role evidence hevidence
  required := h.required

end EntryTransportGate.Proven

namespace OrderManager

variable {limits : OrderManagerLimits} {m : OrderManager} {ask : QueueAsk}

structure Proves (m : OrderManager) : Prop where
  running : ∀ e ∈ m.running, e.Proven
  gates : ∀ attempt gate, m.entryTransportGates attempt = some gate → gate.Proven

section

variable (h : m.Proves)
include h

theorem proves_decide (order : SizedRequest) (guard : LiveEntryTransportGuard) (outcome : TransportOutcome)
    (reason : Option String) {terminalOrder : Option BrokerOrder}
    (hfinite : ∀ terminal ∈ terminalOrder, terminal.filledQuantity.isFinite = true) :
    (m.decideEntryTransportRank order guard outcome reason terminalOrder).Proves := by
  unfold decideEntryTransportRank
  dsimp only
  split
  · exact h
  · rename_i gate hgate
    constructor
    · intro e' he'
      obtain ⟨e, he, rfl⟩ := List.mem_map.mp he'
      split
      · exact (h.running e he).woken
      · exact h.running e he
    · intro attempt gate' hsome
      by_cases hattempt : attempt = order.request.attemptId
      · rw [hattempt] at hsome
        simp only [Function.update_self] at hsome
        split at hsome
        · cases hsome
        · obtain rfl := Option.some_inj.mp hsome
          exact (h.gates _ gate hgate).decide guard order.request outcome reason hfinite
      · simp only [Function.update_of_ne hattempt] at hsome
        exact h.gates attempt gate' hsome

theorem proves_refuse (action : QueueAction) (reason : String) : (m.refuseQueued action reason).Proves := by
  unfold refuseQueued
  split
  · exact h
  · dsimp only
    split
    · exact ⟨h.running, h.gates⟩
    · apply proves_decide
      · exact ⟨h.running, h.gates⟩
      · rintro _ ⟨⟩

theorem proves_pump : (m.pump limits ask).Proves := by
  refine pumpFrom_keeps (P := Proves) ?_ ?_ _ h
  · intro m action rest slot reason hm _ _ _
    exact proves_refuse (m := { m with queue := rest }) ⟨hm.running, hm.gates⟩ action reason
  · intro m action rest slot hm _ _ _ _
    refine ⟨?_, hm.gates⟩
    intro e he
    rcases List.mem_append.mp he with he | he
    · exact hm.running e he
    · rw [List.mem_singleton.mp he]
      refine ⟨by rintro _ ⟨⟩, ?_⟩
      cases action <;> rintro _ _ ⟨⟩

theorem proves_submit (call : SubmitCall) : (m.submit limits call).Proves := by
  have hregistered : (call.entryGuard.elim m fun guard =>
      m.ensureEntryTransportGate call.order guard call.accountKey).Proves := by
    cases call.entryGuard with
    | none => exact h
    | some guard =>
      refine ⟨h.running, ?_⟩
      intro attempt gate hsome
      by_cases hattempt : attempt = call.order.request.attemptId
      · rw [hattempt, Option.elim_some, ensured_gate] at hsome
        obtain rfl := Option.some_inj.mp hsome
        refine EntryTransportGate.Proven.register ?_ guard call.order
        cases hgate : m.entryTransportGates call.order.request.attemptId with
        | none => exact .new ..
        | some gate => exact h.gates _ gate hgate
      · rw [Option.elim_some, show (m.ensureEntryTransportGate call.order guard call.accountKey).entryTransportGates
          attempt = m.entryTransportGates attempt from Function.update_of_ne hattempt ..] at hsome
        exact h.gates attempt gate hsome
  unfold submit
  dsimp only
  split
  · unfold releaseOnReject
    split
    · exact hregistered
    · exact proves_decide hregistered _ _ _ _ (by rintro _ ⟨⟩)
  · refine proves_pump ⟨?_, ?_⟩
    · rw [(accept_rest _ call).1]
      exact hregistered.running
    · rw [(accept_rest _ call).2.1]
      exact hregistered.gates

theorem proves_put {e : Execution} (he : e.Proven) : (m.putExecution e).Proves := by
  refine ⟨?_, h.gates⟩
  intro other hother
  rcases mem_put hother with rfl | ⟨hin, -⟩
  · exact he
  · exact h.running other hin

theorem proves_place {r : Resumption} (he : r.execution.Proven) : (m.place r).Proves := by
  unfold place
  dsimp only
  split
  · have hsending : (m.putExecution { r.execution with phase := .sending }).Proves :=
      proves_put h (he.elsewhere rfl (by simp))
    unfold awaitEntryTransportTurn
    dsimp only
    split
    · exact hsending
    · rename_i action _
      split
      · rename_i guard gate _ hgate
        split
        · exact hsending
        · apply proves_put
          · refine ⟨h.running, ?_⟩
            intro attempt gate' hsome
            by_cases hattempt : attempt = action.order.request.attemptId
            · rw [hattempt] at hsome
              simp only [Function.update_self, Option.some.injEq] at hsome
              rw [← hsome]
              exact ⟨(h.gates _ gate hgate).confirmed, (h.gates _ gate hgate).required⟩
            · simp only [Function.update_of_ne hattempt] at hsome
              exact h.gates attempt gate' hsome
          · exact he
      · exact hsending
  · split
    · exact proves_decide (proves_put h he) _ _ _ _ he.terminal
    · exact proves_put h he

theorem proves_step (event : OrderManagerEvent) : (step limits m event).1.Proves := by
  have hsame : ∀ m' : OrderManager, m'.running = m.running → m'.entryTransportGates = m.entryTransportGates → m'.Proves := by
    intro m' hrunning hgates
    exact ⟨hrunning ▸ h.running, hgates ▸ h.gates⟩
  cases event with
  | submit calls =>
    change (Run.finish (submitStep limits) m calls).Proves
    clear hsame
    induction calls generalizing m with
    | nil => exact h
    | cons call calls ih => exact ih (proves_submit h call)
  | cancel clientOrderId attemptId ask => exact proves_pump (hsame _ rfl rfl)
  | resumed leg answer =>
    change (m.resumed leg answer).Proves
    unfold resumed
    split
    · exact h
    · rename_i e hfound
      split
      · exact h
      · exact h
      · refine proves_place (hsame _ (running_told ..) ?_) (h.running e (List.mem_of_find?_eq_some hfound)).resume
        exact told_cases entryTransportGates (fun _ p => gates_persisted p) (fun _ _ _ => rfl) (fun _ _ => rfl) _ _
  | finished leg ask =>
    change (m.finished limits leg ask).Proves
    rcases finished_cases m limits leg ask with heq | ⟨e, -, -, heq⟩
    · rw [heq]
      exact h
    · rw [heq]
      refine proves_pump ⟨?_, ?_⟩
      · intro x hx
        rw [running_settled] at hx
        exact h.running x (List.mem_of_mem_filter hx)
      · rw [gates_settled]
        exact h.gates
  | known clientOrderId state => exact hsame _ rfl rfl
  | snapshot p => exact hsame _ (running_persisted p) (gates_persisted p)
  | rebuilt unresolved positions => exact hsame _ (running_rebuilt ..) (gates_rebuilt ..)
  | dispose =>
    refine ⟨?_, by rintro _ _ ⟨⟩⟩
    intro e' he'
    obtain ⟨e, he, rfl⟩ := List.mem_map.mp he'
    exact (h.running e he).woken

end

end OrderManager

/-! ## Permission to post -/

namespace EntryTransportGate

def Covers (gate : EntryTransportGate) (rank : ℕ) : Prop :=
  ∃ req evidence filled, gate.hedgeRequirements rank = some req ∧
    gate.coverage.evidenceByRole req.role = some evidence ∧ evidence.terminal = true ∧
    evidence.attemptId = req.attemptId ∧ evidence.side = req.side ∧ req.side = .buy ∧
    HedgeCoverageLedger.sameNumber evidence.token req.token = true ∧ evidence.tradingsymbol = req.tradingsymbol ∧
    evidence.brokerAccount = req.brokerAccount ∧ evidence.confirmedFillQuantity = some filled ∧
    req.requiredQuantity ≤ filled

theorem covered_of_coverageFor {ledger : HedgeCoverageLedger} {req : HedgeRequirement} (h : ledger.coverageFor req = none) :
    ∃ evidence filled, ledger.evidenceByRole req.role = some evidence ∧ evidence.terminal = true ∧
      evidence.attemptId = req.attemptId ∧ evidence.side = req.side ∧ req.side = .buy ∧
      HedgeCoverageLedger.sameNumber evidence.token req.token = true ∧ evidence.tradingsymbol = req.tradingsymbol ∧
      evidence.brokerAccount = req.brokerAccount ∧ evidence.confirmedFillQuantity = some filled ∧
      ¬ filled < req.requiredQuantity := by
  unfold HedgeCoverageLedger.coverageFor at h
  dsimp only at h
  split at h
  · cases h
  · split at h
    · cases h
    · rename_i evidence hevidence
      split at h
      · cases h
      · rename_i hattempt
        split at h
        · cases h
        · rename_i hside
          split at h
          · cases h
          · rename_i hcontract
            split at h
            · cases h
            · rename_i haccount
              split at h
              · cases h
              · rename_i hterminal
                split at h
                · cases h
                · rename_i filled hfilled
                  split at h
                  · cases h
                  · rename_i henough
                    simp only [not_or, not_not] at hattempt hside hcontract haccount hterminal
                    exact ⟨evidence, filled, hevidence, hterminal, hattempt, hside.1, hside.2, hcontract.1, hcontract.2,
                      haccount, hfilled, henough⟩

theorem mem_requirements {gate : EntryTransportGate} {reqs : List HedgeRequirement} (h : gate.requirements = .ok reqs) :
    ∀ rank < gate.hedgeCount, ∃ req ∈ reqs, gate.hedgeRequirements rank = some req := by
  intro rank hrank
  obtain ⟨req, hmem, hreq⟩ := Fallible.mem_of_mapM h rank (List.mem_range.mpr hrank)
  refine ⟨req, hmem, ?_⟩
  cases hstated : gate.hedgeRequirements rank with
  | none =>
    rw [hstated] at hreq
    cases hreq
  | some stated =>
    rw [hstated] at hreq
    cases hreq
    rfl

theorem covers_of_gap {gate : EntryTransportGate} {attemptId : String} (hproven : gate.Proven)
    (h : entryHedgeCoverageGap attemptId (some gate) .prePost = none) : ∀ rank < gate.hedgeCount, gate.Covers rank := by
  intro rank hrank
  unfold entryHedgeCoverageGap at h
  rw [if_neg (by simp)] at h
  dsimp only at h
  split at h
  · cases h
  · rename_i reqs hreqs
    obtain ⟨req, hmem, hreq⟩ := mem_requirements hreqs rank hrank
    unfold HedgeCoverageLedger.coverageGapFor at h
    split at h
    · cases h
    · have hnone := List.findSome?_eq_none_iff.mp h req hmem
      obtain ⟨evidence, filled, hevidence, hterminal, hattempt, hside, hbuy, htoken, hsymbol, haccount, hfilled, henough⟩ :=
        covered_of_coverageFor (Option.map_eq_none_iff.mp hnone)
      have hreached : req.requiredQuantity ≤ filled :=
        Number.le_of_not_lt (hproven.confirmed _ evidence hevidence filled hfilled) (hproven.required rank req hreq) henough
      exact ⟨req, evidence, filled, hreq, hevidence, hterminal, hattempt, hside, hbuy, htoken, hsymbol, haccount, hfilled,
        hreached⟩

end EntryTransportGate

namespace OrderManager

variable {limits : OrderManagerLimits} {m : OrderManager}

theorem gap_of_guard {inputs : LiveEntryGuardInputs} (h : evaluateLiveEntryGuard inputs = none) :
    inputs.hedgeCoverageGap = none := by
  unfold evaluateLiveEntryGuard at h
  dsimp only at h
  by_contra hgap
  obtain ⟨gap, hgap⟩ := Option.ne_none_iff_exists'.mp hgap
  rw [hgap] at h
  split at h
  · cases h
  · split at h
    · cases h
    · split at h
      · cases h
      · split at h
        · cases h
        · split at h
          · cases h
          · cases h

theorem gap_of_checkpoint {action : SubmitAction} {guard : LiveEntryTransportGuard} {facts : CheckpointFacts}
    (hguard : action.entry = some guard) (hdependent : guard.hedge = false)
    (h : m.checkpoint action .prePost facts = none) :
    entryHedgeCoverageGap action.attemptId (m.entryTransportGates action.attemptId) .prePost = none := by
  unfold checkpoint at h
  rw [hguard, Option.bind_some] at h
  cases hobjection : facts.objection with
  | some objection =>
    rw [hobjection] at h
    cases h
  | none =>
    rw [hobjection] at h
    have hgap := gap_of_guard (Option.map_eq_none_iff.mp h)
    simpa [hdependent, SubmitAction.attemptId] using hgap

/-! ## Every run -/

theorem resume_posts {e : Execution} {blocked : Option String} {facts : CheckpointFacts}
    (h : (e.resume blocked (.asked facts)).posts = true) : e.phase = .sending ∧ blocked = none := by
  obtain ⟨action, slot, phase, postBegan, hedgeFailureReason, terminalOrder⟩ := e
  cases phase with
  | sending =>
    cases blocked with
    | none => exact ⟨rfl, rfl⟩
    | some reason => cases h
  | recording recorded => cases recorded <;> cases h
  | _ => cases h

structure HedgeFirst (m : OrderManager) : Prop where
  covered : ∀ e ∈ m.running, ∀ action guard facts, e.action = .submit action → action.entry = some guard →
    guard.hedge = false → (e.resume (m.verdict e (.asked facts)) (.asked facts)).posts = true →
    ∃ gate, m.entryTransportGates action.attemptId = some gate ∧ guard.hedgeCount = gate.hedgeCount ∧
      ∀ rank < guard.hedgeCount, gate.Covers rank
  woken : ∀ e ∈ m.running, ∀ action, e.action = .submit action → e.isParked = true →
    ∃ gate, m.entryTransportGates action.attemptId = some gate ∧
      ∃ rank ∈ gate.registered, rank < gate.hedgeCount ∧ gate.hasDecided rank = false
  dropped : ∀ attempt gate, m.entryTransportGates attempt = some gate →
    ∃ rank ∈ gate.registered, gate.hasDecided rank = false

theorem hedgeFirst_of_bars (h : m.Bars) (hproves : m.Proves) : m.HedgeFirst where
  covered := by
    intro e he action guard facts haction hguard hdependent hposts
    obtain ⟨hphase, hverdict⟩ := resume_posts hposts
    have hlive : m.Live action := by
      refine .inr ⟨e, he, haction, ?_⟩
      rw [Execution.isOver, hphase]
    have hcheckpoint : m.checkpoint action .prePost facts = none := by
      simpa [verdict, haction, QueueAction.leg] using hverdict
    have hgap := gap_of_checkpoint hguard hdependent hcheckpoint
    cases hgate : m.entryTransportGates action.attemptId with
    | none =>
      rw [hgate] at hgap
      cases hgap
    | some gate =>
      have hcount : guard.hedgeCount = gate.hedgeCount :=
        (h.planned action hlive guard hguard).count.trans (h.stands _ gate hgate).count.symm
      rw [hgate] at hgap
      refine ⟨gate, rfl, hcount, ?_⟩
      rw [hcount]
      exact EntryTransportGate.covers_of_gap (hproves.gates _ gate hgate) hgap
  woken := by
    intro e he action haction hparked
    obtain ⟨hlive, guard, hguard, hdependent, gate, hgate, hwaiter⟩ := h.parks action ⟨e, he, haction, hparked⟩
    have hstands := h.stands _ gate hgate
    have hrank : gate.hedgeCount ≤ guard.transportRank := by
      rw [hstands.count]
      exact (h.planned action hlive guard hguard).dependent hdependent
    have hbarred := hstands.barred _ hwaiter
    rw [EntryTransportGate.entryHedgesDecided_iff hrank] at hbarred
    push Not at hbarred
    obtain ⟨rank, hlt, hopen⟩ := hbarred
    have hbehind := hstands.behind (List.ne_nil_of_mem hwaiter)
    exact ⟨gate, hgate, rank, hbehind rank (hstands.count ▸ hlt), hlt, by simpa using hopen⟩
  dropped := by
    intro attempt gate hgate
    obtain ⟨rank, hrank, hopen⟩ := h.undecided attempt gate hgate
    exact ⟨rank, hrank, by simpa using hopen⟩

/-- **Hedges first**, as long as no leg parks at a gate that misses a hedge. -/
theorem hedge_first (limits : OrderManagerLimits) {events : List OrderManagerEvent}
    (h : Run.Guarded (step limits) (fun m event => m.SubmitsAttempts event ∧ m.ParksBehindHedges event) booted events) :
    (Run.finish (step limits) booted events).HedgeFirst := by
  have hkept := h.invariant (fun m => m.Bars ∧ m.Proves ∧ m.Disciplined limits.scheduling) ?_
    ⟨bars_booted, ⟨by rintro _ ⟨⟩, by rintro _ _ ⟨⟩⟩, disciplined_run limits []⟩
  · exact hedgeFirst_of_bars hkept.1 hkept.2.1
  · rintro m event ⟨hbars, hproves, hdisciplined⟩ ⟨hattempts, hbehind⟩
    exact ⟨bars_step hbars hdisciplined.1 hattempts hbehind, proves_step hproves event,
      disciplined_step hdisciplined event⟩

/-! ## A hedge refused before its siblings register -/

theorem submitsAttempts_of_order {direction : BoxDirection} {submit : EntrySubmissionSlot → SubmitCall} {attempt : String}
    (hguard : ∀ slot, (submit slot).entry = some (slot.guard direction))
    (hattempt : ∀ slot, (submit slot).order.request.attemptId = attempt) (hgate : m.entryTransportGates attempt = none)
    (hactions : ∀ action ∈ m.work.actions, action.attemptOf = attempt → action.entryGuard = none) :
    m.SubmitsAttempts (.submit ((entrySubmissionOrder direction).map submit)) := by
  have hentry : ∀ slot, ∀ guard ∈ (submit slot).entryGuard, guard = slot.guard direction := by
    intro slot guard hmem
    unfold SubmitCall.entryGuard at hmem
    split at hmem
    · rw [hguard slot] at hmem
      exact (Option.some_inj.mp hmem).symm
    · cases hmem
  constructor
  · intro call hcall guard hmem
    obtain ⟨slot, hslot, rfl⟩ := List.mem_map.mp hcall
    rw [hattempt slot]
    exact ⟨⟨direction, slot, hslot, hentry slot guard hmem⟩, hgate, hactions⟩
  · have hranks : (entrySubmissionOrder direction).Pairwise fun earlier later => earlier.rank ≠ later.rank := by
      cases direction <;> decide
    rw [List.pairwise_map]
    refine hranks.imp ?_
    intro earlier later hne _ guard hmem guard' hmem'
    rw [hentry earlier guard hmem, hentry later guard' hmem']
    exact hne

def calm : CheckpointFacts := ⟨none, openGuard⟩

variable (order : SizedRequest)

def answerTo (state : BrokerOrderState) (filled : ℕ) : BrokerOrder :=
  { legOrder state order.units filled (some (.fin 10)) with
    clientOrderId := order.clientOrderId
    role := order.request.role
    attemptId := order.request.attemptId
    purpose := order.purpose
    tradingsymbol := order.request.tradingsymbol
    token := order.request.token
    side := order.request.side }

def rowOf (state : BrokerOrderState) (filled : ℕ) : BoxOrderIntent :=
  { legIntent state order.request.role order.request.side order.units filled with
    clientOrderId := order.clientOrderId
    attemptId := order.request.attemptId
    purpose := order.purpose
    tradingsymbol := order.request.tradingsymbol
    token := order.request.token }

def written (state : BrokerOrderState) (previous current : ℕ) : PersistResult :=
  ⟨rowOf order state current, state, true, some previous, some current⟩

def prepared (leg : ℕ) : List OrderManagerEvent :=
  [.resumed leg (.created .created calm), .resumed leg (.transitioned true .submitting calm)]

def sentAndFilled (leg : ℕ) (order : SizedRequest) : List OrderManagerEvent :=
  [.resumed leg (.asked calm), .resumed leg (.submitted (.order (answerTo order .complete order.units))),
    .resumed leg (.wrote (written order .complete 0 order.units)), .finished leg fun _ => none]

def coldCall (slot : EntrySubmissionSlot) : SubmitCall :=
  { entryCall "a1" slot with blocked := if slot.rank = 0 then some "Entry cannot be sent: the feed is warming up." else none }

def secondHedge : SizedRequest := boxLeg .entry "a1" ⟨.k2Pe, .buy, 1, true⟩

def coldRun : List OrderManagerEvent :=
  .submit ((entrySubmissionOrder .longBox).map coldCall) :: (prepared 0 ++ sentAndFilled 0 secondHedge ++ prepared 1)

def oneLotLimits : OrderManagerLimits := ⟨⟨.fin 1, .fin 4⟩, 75, 300⟩

/-- The second hedge has filled, no other hedge is registered, and the SELL is parked. -/
theorem parked_for_good :
    Run.Guarded (step oneLotLimits) SubmitsAttempts booted coldRun ∧
      ¬ (Run.finish (step oneLotLimits) booted coldRun).HedgeFirst := by
  refine ⟨⟨submitsAttempts_of_order (fun _ => rfl) (fun _ => rfl) rfl (by rintro _ ⟨⟩), ?_⟩, ?_⟩
  · exact ⟨trivial, trivial, trivial, trivial, trivial, trivial, trivial, trivial, trivial⟩
  · intro h
    have hparked : ((Run.finish (step oneLotLimits) booted coldRun).running.any fun e =>
        e.isParked && (e.action.leg.any fun action =>
          ((Run.finish (step oneLotLimits) booted coldRun).entryTransportGates action.attemptId).any fun gate =>
            gate.registered.all fun rank => gate.hedgeCount ≤ rank || gate.hasDecided rank)) = true := by
      decide +kernel
    obtain ⟨e, he, hchecked⟩ := List.any_eq_true.mp hparked
    obtain ⟨hasleep, hgates⟩ := Bool.and_eq_true_iff.mp hchecked
    cases haction : e.action with
    | cancel action =>
      rw [haction] at hgates
      cases hgates
    | submit action =>
      obtain ⟨gate, hgate, rank, hmem, hlt, hopen⟩ := h.woken e he action haction hasleep
      rw [haction, QueueAction.leg, Option.any_some, hgate, Option.any_some] at hgates
      have hdecided := List.all_eq_true.mp hgates rank hmem
      simp [hopen, Nat.not_le_of_lt hlt] at hdecided

theorem parksBehind_of_one (attempt : String) (event : OrderManagerEvent)
    (hrunning : m.running.all (fun e => e.action.attemptOf = attempt) = true)
    (hgate : (m.entryTransportGates attempt).all (fun gate =>
      (List.range gate.hedgeCount).all fun rank => rank ∈ gate.registered) = true) : m.ParksBehindHedges event := by
  unfold ParksBehindHedges
  split
  · intro e he _ _ _ action guard gate haction _ _ hsome _ rank hlt
    have hattempt := of_decide_eq_true (List.all_eq_true.mp hrunning e he)
    rw [haction] at hattempt
    rw [show action.attemptId = attempt from hattempt] at hsome
    rw [hsome, Option.all_some] at hgate
    exact of_decide_eq_true (List.all_eq_true.mp hgate rank (List.mem_range.mpr hlt))
  · trivial

/-- A SELL parks where both hedges have registered. -/
theorem hedge_first_parked :
    (Run.finish (step oneLotLimits) booted (.submit (entryBlock "a1") :: prepared 2)).running.any Execution.isParked = true ∧
      (Run.finish (step oneLotLimits) booted (.submit (entryBlock "a1") :: prepared 2)).HedgeFirst := by
  refine ⟨by decide +kernel, hedge_first oneLotLimits ⟨⟨?_, trivial⟩, ⟨trivial, trivial⟩, ⟨trivial, ?_⟩, trivial⟩⟩
  · exact submitsAttempts_of_order (fun _ => rfl) (fun _ => rfl) rfl (by rintro _ ⟨⟩)
  · exact parksBehind_of_one "a1" _ (by decide +kernel) (by decide +kernel)

end OrderManager

end BoxEngine
