import BoxEngine.LiveEntry
import BoxEngine.OrderManager

/-!
# What the queue dispatches

The slots in use are those of the executions in flight; what is dispatched is at the front of a sorted queue; a
dependent never flies before its hedges.
-/

namespace BoxEngine

open OrderManager

/-! ## Counting slots -/

namespace SlotCounters

variable {slots : SlotCounters} {l l' : List (QueueAction × BoxSchedulingSlot)} {x : QueueAction × BoxSchedulingSlot}

def onBase (x : QueueAction × BoxSchedulingSlot) : Bool := x.2 = .base

def isEntry (x : QueueAction × BoxSchedulingSlot) : Bool := x.1.purposeOf = .entry

structure Counts (slots : SlotCounters) (l : List (QueueAction × BoxSchedulingSlot)) : Prop where
  base : slots.baseInFlight = l.countP onBase
  burst : slots.burstInFlight = l.countP fun x => ¬ onBase x
  entries : slots.entryInFlight = l.countP isEntry
  owner : ∀ x ∈ l, isEntry x = true → slots.entryAttemptInFlight = some x.1.attemptOf

theorem Counts.zero : SlotCounters.zero.Counts [] := ⟨rfl, rfl, rfl, by simp⟩

theorem Counts.perm (h : slots.Counts l) (hperm : l.Perm l') : slots.Counts l' where
  base := by rw [h.base, hperm.countP_eq]
  burst := by rw [h.burst, hperm.countP_eq]
  entries := by rw [h.entries, hperm.countP_eq]
  owner y hy := h.owner y (hperm.mem_iff.mpr hy)

theorem Counts.occupy (h : slots.Counts l)
    (hown : isEntry x = true → ∀ y ∈ l, isEntry y = true → y.1.attemptOf = x.1.attemptOf) :
    (slots.occupySlot x.1.schedulingRequest x.2).Counts (l ++ [x]) := by
  obtain ⟨action, slot⟩ := x
  constructor
  · cases slot <;> simp [occupySlot, onBase, h.base]
  · cases slot <;> simp [occupySlot, onBase, h.burst]
  · by_cases hentry : action.purposeOf = .entry
    · simp [occupySlot, isEntry, h.entries, QueueAction.schedulingRequest, hentry]
    · simp [occupySlot, isEntry, h.entries, QueueAction.schedulingRequest, hentry]
  · intro y hy hyentry
    by_cases hentry : action.purposeOf = .entry
    · rw [show (slots.occupySlot action.schedulingRequest slot).entryAttemptInFlight = some action.attemptOf by
        simp [occupySlot, QueueAction.schedulingRequest, hentry]]
      rcases List.mem_append.mp hy with hy | hy
      · rw [hown (by simp [isEntry, hentry]) y hy hyentry]
      · rw [List.mem_singleton.mp hy]
    · rw [show (slots.occupySlot action.schedulingRequest slot).entryAttemptInFlight = slots.entryAttemptInFlight by
        simp [occupySlot, QueueAction.schedulingRequest, hentry]]
      rcases List.mem_append.mp hy with hy | hy
      · exact h.owner y hy hyentry
      · rw [List.mem_singleton.mp hy] at hyentry
        simp [isEntry, hentry] at hyentry

theorem Counts.free (h : slots.Counts l) (hperm : l.Perm (x :: l')) :
    (slots.releaseSlot x.1.schedulingRequest x.2).Counts l' := by
  have hx := h.perm hperm
  obtain ⟨action, slot⟩ := x
  constructor
  · cases slot <;> simp [releaseSlot, hx.base, onBase]
  · cases slot <;> simp [releaseSlot, hx.burst, onBase]
  · by_cases hentry : action.purposeOf = .entry
    · simp [releaseSlot, hx.entries, isEntry, QueueAction.schedulingRequest, hentry]
    · simp [releaseSlot, hx.entries, isEntry, QueueAction.schedulingRequest, hentry]
  · intro y hy hyentry
    have howner := hx.owner y (.tail _ hy) hyentry
    have hpos : 0 < l'.countP isEntry := List.countP_pos_iff.mpr ⟨y, hy, hyentry⟩
    by_cases hentry : action.purposeOf = .entry
    · have hentries : slots.entryInFlight = l'.countP isEntry + 1 := by
        rw [hx.entries, List.countP_cons_of_pos]
        simp [isEntry, hentry]
      simp only [releaseSlot, QueueAction.schedulingRequest, hentry, true_and]
      rw [if_neg (by omega), howner]
    · simp [releaseSlot, QueueAction.schedulingRequest, hentry, howner]

end SlotCounters

/-! ## Admission -/

section

variable {request : BoxSchedulingRequest} {occupancy : BoxSchedulingOccupancy} {limits : SchedulingLimits}
  {slot : BoxSchedulingSlot}

def SchedulingLimits.width (limits : SchedulingLimits) : ℕ :=
  max (baseConcurrency limits.maxConcurrentExecutions) (clampEntrySubmitConcurrency limits.entrySubmitConcurrency)

theorem admit_cases (h : admitBoxOperation request occupancy limits = .ok slot) :
    (slot = .base ∧ occupancy.baseInFlight < baseConcurrency limits.maxConcurrentExecutions ∨
      slot = .entryBurst ∧ request.purpose = .entry ∧
        baseConcurrency limits.maxConcurrentExecutions ≤ occupancy.baseInFlight ∧
        occupancy.baseInFlight + occupancy.burstInFlight < limits.width) ∧
      (request.purpose = .entry → ∀ owner, occupancy.entryAttemptId = some owner → owner = request.attemptId) := by
  unfold admitBoxOperation at h
  dsimp only at h
  split at h
  · rename_i hentry
    split at h
    · rename_i hbase
      cases h
      exact ⟨.inl ⟨rfl, hbase⟩, fun hpurpose => absurd hpurpose hentry⟩
    · cases h
  · rename_i hentry
    split at h
    · cases h
    · rename_i hfilter
      have howner : ∀ owner, occupancy.entryAttemptId = some owner → owner = request.attemptId := by
        intro owner hsome
        rw [hsome] at hfilter
        by_contra hne
        simp [Option.filter, hne] at hfilter
      split at h
      · rename_i hbase
        cases h
        exact ⟨.inl ⟨rfl, hbase⟩, fun _ => howner⟩
      · rename_i hbase
        split at h
        · cases h
        · rename_i hwidth
          split at h
          · cases h
          · split at h
            · cases h
            · rename_i htotal
              cases h
              refine ⟨.inr ⟨rfl, by simpa using hentry, Nat.le_of_not_lt hbase, ?_⟩, fun _ => howner⟩
              exact (Nat.lt_of_not_le htotal).trans_le (Nat.le_max_right _ _)

theorem admit_protective (h : request.purpose ≠ .entry) :
    admitBoxOperation request occupancy limits = .ok .base ↔
      occupancy.baseInFlight < baseConcurrency limits.maxConcurrentExecutions := by
  unfold admitBoxOperation
  rw [if_pos h]
  by_cases hbase : occupancy.baseInFlight < baseConcurrency limits.maxConcurrentExecutions
  · simp [hbase]
  · simp [hbase]

end

namespace Execution

variable {e : Execution} {blocked : Option String} {answer : ExecutionAnswer}

def key (e : Execution) : QueueAction × BoxSchedulingSlot := (e.action, e.slot)

theorem answered_key (given : AdapterAnswer) : (e.answered given).execution.key = e.key := by
  unfold answered
  split <;> rfl

theorem recordedAs_key (p : PersistResult) (recorded : RecordedAs) : (e.recordedAs p recorded).execution.key = e.key := by
  cases recorded <;> rfl

theorem resume_key : (e.resume blocked answer).execution.key = e.key := by
  unfold resume
  split <;> try rfl
  case h_10 => exact answered_key _
  case h_13 => exact recordedAs_key _ _
  all_goals repeat' split
  all_goals rfl

theorem woken_key : e.woken.key = e.key := by
  unfold woken
  split <;> rfl

@[simp] theorem key_sequence : e.key.1.sequence = e.sequence := rfl

end Execution

/-- What the queue and its slots hold, and what was dispatched from where. -/
structure Work where
  disposed : Bool
  queue : List QueueAction
  sequence : ℕ
  slots : SlotCounters
  inFlight : List (QueueAction × BoxSchedulingSlot)
  dispatched : List Dispatch

def OrderManager.work (m : OrderManager) : Work :=
  ⟨m.disposed, m.queue, m.sequence, m.slots, m.running.map Execution.key, m.dispatched⟩

namespace Work

variable (w : Work)

def actions : List QueueAction := w.queue ++ w.inFlight.map Prod.fst

def enqueue (action : QueueAction) : Work :=
  { w with queue := (w.queue ++ [action]).insertionSort QueueAction.before, sequence := w.sequence + 1 }

def shift (rest : List QueueAction) : Work := { w with queue := rest }

def start (action : QueueAction) (slot : BoxSchedulingSlot) : Work :=
  { w with
    slots := w.slots.occupySlot action.schedulingRequest slot
    inFlight := w.inFlight ++ [(action, slot)]
    dispatched := w.dispatched ++ [⟨action, slot, w.slots, w.queue⟩] }

def finish (x : QueueAction × BoxSchedulingSlot) : Work :=
  { w with
    slots := w.slots.releaseSlot x.1.schedulingRequest x.2
    inFlight := w.inFlight.filter fun other => other.1.sequence ≠ x.1.sequence }

end Work

namespace OrderManager

variable {limits : OrderManagerLimits} {m : OrderManager} {ask : QueueAsk}

/-! ## What leaves the work alone -/

theorem work_ensure (order : SizedRequest) (guard : LiveEntryTransportGuard) (accountKey : String) :
    (m.ensureEntryTransportGate order guard accountKey).work = m.work := rfl

theorem work_wake (waiters : List EntryTransportWaiter) : (m.wake waiters).work = m.work := by
  have hkeys : (m.wake waiters).running.map Execution.key = m.running.map Execution.key := by
    unfold wake
    rw [List.map_map]
    refine List.map_congr_left ?_
    intro e _
    rw [Function.comp_apply]
    split
    · exact Execution.woken_key
    · rfl
  unfold work
  rw [hkeys]
  rfl

theorem work_decide (order : SizedRequest) (guard : LiveEntryTransportGuard) (outcome : TransportOutcome)
    (reason : Option String) (terminalOrder : Option BrokerOrder) :
    (m.decideEntryTransportRank order guard outcome reason terminalOrder).work = m.work := by
  unfold decideEntryTransportRank
  dsimp only
  split
  · rfl
  · change (m.wake _).work = m.work
    exact work_wake _

variable (e : Execution)

theorem work_await : (m.awaitEntryTransportTurn e).1.work = m.work := by
  unfold awaitEntryTransportTurn
  dsimp only
  split
  · rfl
  · split
    · split <;> rfl
    · rfl

theorem await_running : (m.awaitEntryTransportTurn e).1.running = m.running := by
  unfold awaitEntryTransportTurn
  dsimp only
  split
  · rfl
  · split
    · split <;> rfl
    · rfl

theorem await_key : (m.awaitEntryTransportTurn e).2.key = e.key := by
  unfold awaitEntryTransportTurn
  dsimp only
  split
  · rfl
  · split
    · split <;> rfl
    · rfl

theorem work_put {e e' : Execution} (he : e ∈ m.running) (hkey : e'.key = e.key)
    (hdistinct : (m.running.map Execution.sequence).Nodup) : (m.putExecution e').work = m.work := by
  have hkeys : (m.putExecution e').running.map Execution.key = m.running.map Execution.key := by
    unfold putExecution
    rw [List.map_map]
    refine List.map_congr_left ?_
    intro other hother
    rw [Function.comp_apply]
    split
    · rename_i hsequence
      have hsame : other = e := by
        refine List.inj_on_of_nodup_map hdistinct hother he ?_
        rw [hsequence, ← Execution.key_sequence, hkey, Execution.key_sequence]
      rw [hkey, hsame]
    · rfl
  unfold work
  rw [hkeys]
  rfl

theorem work_refuseQueued (action : QueueAction) (reason : String) : (m.refuseQueued action reason).work = m.work := by
  unfold refuseQueued
  split
  · rfl
  · dsimp only
    split
    · rfl
    · exact work_decide ..

theorem work_releaseOnReject (call : SubmitCall) (message : String) : (m.releaseOnReject call message).work = m.work := by
  unfold releaseOnReject
  split
  · rfl
  · exact work_decide ..

theorem work_accept (call : SubmitCall) :
    (m.accept call).work = m.work.enqueue (.submit ⟨call.order, call.entryGuard, m.sequence⟩) := by
  unfold accept reserve
  dsimp only
  split
  · rfl
  · split <;> rfl

theorem work_persisted (p : PersistResult) : (m.persisted p).work = m.work := by
  unfold persisted
  dsimp only
  split
  · split <;> rfl
  · split <;> rfl

theorem running_persisted (p : PersistResult) : (m.persisted p).running = m.running := by
  unfold persisted
  dsimp only
  split
  · split <;> rfl
  · split <;> rfl

theorem running_rebuilt (unresolved : List UnresolvedIntent) (positions : Option (List (String × ℤ))) :
    (m.rebuilt unresolved positions).running = m.running := by
  unfold rebuilt
  dsimp only
  split <;> rfl

theorem work_rebuilt (unresolved : List UnresolvedIntent) (positions : Option (List (String × ℤ))) :
    (m.rebuilt unresolved positions).work = m.work := by
  unfold rebuilt
  dsimp only
  split <;> rfl

theorem told_cases {α : Type} (f : OrderManager → α) (hpersisted : ∀ (m : OrderManager) p, f (m.persisted p) = f m)
    (hknow : ∀ (m : OrderManager) id state, f (m.know id state) = f m)
    (hsent : ∀ (m : OrderManager) action, f (m.noteSent action) = f m) (e : Execution) (r : Resumption) :
    f (m.told e r) = f m := by
  have hwrote : f (r.wrote.elim m m.persisted) = f m := by
    cases r.wrote
    · rfl
    · exact hpersisted m _
  unfold told
  dsimp only
  generalize r.wrote.elim m m.persisted = wrote at hwrote ⊢
  have hknown : f (r.known.elim wrote fun state =>
      e.action.leg.elim wrote fun action => wrote.know action.order.clientOrderId state) = f wrote := by
    cases r.known
    · rfl
    · cases e.action.leg
      · rfl
      · exact hknow wrote _ _
  generalize (r.known.elim wrote fun state =>
    e.action.leg.elim wrote fun action => wrote.know action.order.clientOrderId state) = known at hknown ⊢
  split
  · cases e.action.leg
    · exact hknown.trans hwrote
    · exact (hsent _ _).trans (hknown.trans hwrote)
  · exact hknown.trans hwrote

theorem work_told (r : Resumption) : (m.told e r).work = m.work :=
  told_cases work (fun _ p => work_persisted p) (fun _ _ _ => rfl) (fun _ _ => rfl) e r

theorem running_told (r : Resumption) : (m.told e r).running = m.running :=
  told_cases running (fun _ p => running_persisted p) (fun _ _ _ => rfl) (fun _ _ => rfl) e r

theorem work_place {e : Execution} {r : Resumption} (he : e ∈ m.running) (hkey : r.execution.key = e.key)
    (hdistinct : (m.running.map Execution.sequence).Nodup) : (m.place r).work = m.work := by
  unfold place
  dsimp only
  split
  · refine (work_put (e := e) ?_ ((await_key _).trans hkey) ?_).trans (work_await _)
    · rw [await_running]
      exact he
    · rw [await_running]
      exact hdistinct
  · split
    · exact (work_decide ..).trans (work_put he hkey hdistinct)
    · exact work_put he hkey hdistinct

theorem work_resumed (leg : ℕ) (answer : ExecutionAnswer) (hdistinct : (m.running.map Execution.sequence).Nodup) :
    (m.resumed leg answer).work = m.work := by
  unfold resumed
  split
  · rfl
  · rename_i e hfound
    split
    · rfl
    · rfl
    · refine (work_place (e := e) ?_ Execution.resume_key ?_).trans (work_told ..)
      · rw [running_told]
        exact List.mem_of_find?_eq_some hfound
      · rw [running_told]
        exact hdistinct

/-! ## The pump -/

theorem pumpFrom_keeps {P : OrderManager → Prop}
    (hrefuse : ∀ (m : OrderManager) action rest slot reason, P m → m.disposed = false → m.queue = action :: rest →
      admitBoxOperation action.schedulingRequest m.slots.occupancy limits.scheduling = .ok slot →
      P (OrderManager.refuseQueued { m with queue := rest } action reason))
    (hstart : ∀ (m : OrderManager) action rest slot, P m → m.disposed = false → m.queue = action :: rest →
      admitBoxOperation action.schedulingRequest m.slots.occupancy limits.scheduling = .ok slot →
      OrderManager.queuedActionBlockReason { m with queue := rest } limits ask action = none →
      P (OrderManager.startAction { m with queue := rest } action slot)) (fuel : ℕ) (h : P m) :
    P (m.pumpFrom limits ask fuel) := by
  induction fuel generalizing m with
  | zero => exact h
  | succ fuel ih =>
    rw [pumpFrom]
    split
    · exact h
    · rename_i hopen
      split
      · exact h
      · rename_i action rest hqueue
        split
        · exact h
        · rename_i slot hadmitted
          apply ih
          split
          · exact hrefuse m action rest slot _ h (by simpa using hopen) hqueue hadmitted
          · rename_i hallowed
            exact hstart m action rest slot h (by simpa using hopen) hqueue hadmitted hallowed

theorem work_start (action : QueueAction) (slot : BoxSchedulingSlot) :
    (m.startAction action slot).work = m.work.start action slot := by
  unfold work startAction
  rw [List.map_append]
  rfl

theorem pumpFrom_work {P : Work → Prop}
    (hshift : ∀ (w : Work) action rest slot, P w → w.queue = action :: rest →
      admitBoxOperation action.schedulingRequest w.slots.occupancy limits.scheduling = .ok slot → P (w.shift rest))
    (hstart : ∀ (w : Work) action rest slot, P w → w.queue = action :: rest →
      admitBoxOperation action.schedulingRequest w.slots.occupancy limits.scheduling = .ok slot →
      P ((w.shift rest).start action slot)) (fuel : ℕ) (h : P m.work) : P (m.pumpFrom limits ask fuel).work := by
  refine pumpFrom_keeps (P := fun m => P m.work) ?_ ?_ fuel h
  · intro m action rest slot reason hm _ hqueue hadmitted
    rw [work_refuseQueued]
    exact hshift m.work action rest slot hm hqueue hadmitted
  · intro m action rest slot hm _ hqueue hadmitted _
    rw [work_start]
    exact hstart m.work action rest slot hm hqueue hadmitted

end OrderManager

def Work.Quiet (limits : SchedulingLimits) (w : Work) : Prop :=
  w.disposed = false → ∀ action rest, w.queue = action :: rest → action.purposeOf ≠ .entry →
    baseConcurrency limits.maxConcurrentExecutions ≤ w.slots.baseInFlight

namespace OrderManager

variable {limits : OrderManagerLimits} {m : OrderManager} {ask : QueueAsk}

theorem pumpFrom_quiet (fuel : ℕ) (h : m.queue.length ≤ fuel) :
    (m.pumpFrom limits ask fuel).work.Quiet limits.scheduling := by
  induction fuel generalizing m with
  | zero =>
    intro _ action rest hqueue
    have hnil : m.queue = [] := List.length_eq_zero_iff.mp (by omega)
    exact absurd (hnil.symm.trans hqueue) (by simp)
  | succ fuel ih =>
    rw [pumpFrom]
    split
    · rename_i hdisposed
      intro hopen
      exact absurd (hopen.symm.trans hdisposed) (by decide)
    · split
      · rename_i hnil
        intro _ action rest hqueue
        exact absurd (hnil.symm.trans hqueue) (by simp)
      · rename_i action rest hqueue
        split
        · rename_i hrefused
          intro _ head tail hhead hpurpose
          obtain ⟨rfl, rfl⟩ := List.cons.inj (hqueue.symm.trans hhead)
          by_contra hfree
          have hadmitted : admitBoxOperation action.schedulingRequest m.slots.occupancy limits.scheduling = .ok .base :=
            (admit_protective hpurpose).mpr (Nat.lt_of_not_le hfree)
          rw [hrefused] at hadmitted
          cases hadmitted
        · apply ih
          have hlength : rest.length ≤ fuel := by
            rw [hqueue, List.length_cons] at h
            omega
          split
          · rw [show (OrderManager.refuseQueued { m with queue := rest } action _).queue = rest from
              congrArg Work.queue (work_refuseQueued (m := { m with queue := rest }) action _)]
            exact hlength
          · exact hlength

end OrderManager

/-! ## What every state of the work keeps -/

structure Dispatch.Orderly (limits : SchedulingLimits) (d : Dispatch) : Prop where
  first : ∀ waiting ∈ d.waiting, d.action.priority ≤ waiting.priority
  onBase : d.action.purposeOf ≠ .entry →
    d.slot = .base ∧ d.occupied.baseInFlight < baseConcurrency limits.maxConcurrentExecutions

/-- The slots are counted and within their limits, and dispatches were orderly. -/
structure Work.Scheduled (limits : SchedulingLimits) (w : Work) : Prop where
  slots : w.slots.Counts w.inFlight
  base : w.slots.baseInFlight ≤ baseConcurrency limits.maxConcurrentExecutions
  burst : w.slots.burstInFlight = 0 ∨
    baseConcurrency limits.maxConcurrentExecutions + w.slots.burstInFlight ≤ limits.width
  sorted : w.queue.Pairwise QueueAction.before
  distinct : (w.actions.map QueueAction.sequence).Nodup
  below : ∀ action ∈ w.actions, action.sequence < w.sequence
  orderly : ∀ d ∈ w.dispatched, d.Orderly limits

namespace QueueAction

theorem before_trans {a b c : QueueAction} (h : a.before b) (h' : b.before c) : a.before c := by
  unfold before at h h' ⊢
  omega

theorem before_total (a b : QueueAction) : a.before b ∨ b.before a := by
  unfold before
  omega

instance instIsTransBefore : IsTrans QueueAction before := ⟨fun _ _ _ => before_trans⟩

instance instTotalBefore : Std.Total before := ⟨before_total⟩

end QueueAction

namespace Work

variable {limits : SchedulingLimits} {w : Work} {action : QueueAction} {rest : List QueueAction}
  {slot : BoxSchedulingSlot}

theorem enqueue_queue_perm (w : Work) (action : QueueAction) : (w.enqueue action).queue.Perm (action :: w.queue) :=
  (List.perm_insertionSort _ _).trans (List.perm_append_singleton action w.queue)

theorem enqueue_actions_perm (w : Work) (action : QueueAction) :
    (w.enqueue action).actions.Perm (action :: w.actions) := (enqueue_queue_perm w action).append_right _

theorem shift_actions (h : w.queue = action :: rest) : w.actions = action :: (w.shift rest).actions := by
  unfold actions
  rw [h]
  rfl

theorem start_actions_perm (w : Work) (action : QueueAction) (slot : BoxSchedulingSlot) :
    (w.start action slot).actions.Perm (action :: w.actions) := by
  have hactions : (w.start action slot).actions = w.actions ++ [action] := by
    simp [actions, start]
  rw [hactions]
  exact List.perm_append_singleton action w.actions

namespace Scheduled

theorem booted : OrderManager.booted.work.Scheduled limits where
  slots := .zero
  base := Nat.zero_le _
  burst := .inl rfl
  sorted := .nil
  distinct := .nil
  below := by simp [OrderManager.booted, OrderManager.work, actions]
  orderly := by simp [OrderManager.booted, OrderManager.work]

section

variable (h : w.Scheduled limits)
include h

theorem enqueue (hsequence : action.sequence = w.sequence) :
    (w.enqueue action).Scheduled limits where
  slots := h.slots
  base := h.base
  burst := h.burst
  sorted := List.pairwise_insertionSort QueueAction.before (w.queue ++ [action])
  distinct := by
    rw [((enqueue_actions_perm w action).map QueueAction.sequence).nodup_iff, List.map_cons, List.nodup_cons]
    refine ⟨?_, h.distinct⟩
    intro hmem
    obtain ⟨other, hother, heq⟩ := List.mem_map.mp hmem
    have := h.below other hother
    omega
  below := by
    intro other hother
    rcases List.mem_cons.mp ((enqueue_actions_perm w action).mem_iff.mp hother) with rfl | hother
    · exact Nat.lt_succ_of_le hsequence.le
    · exact Nat.lt_succ_of_lt (h.below other hother)
  orderly := h.orderly

theorem shift (hqueue : w.queue = action :: rest) : (w.shift rest).Scheduled limits where
  slots := h.slots
  base := h.base
  burst := h.burst
  sorted := by
    have hsorted := h.sorted
    rw [hqueue] at hsorted
    exact hsorted.tail
  distinct := by
    have hdistinct := h.distinct
    rw [shift_actions hqueue] at hdistinct
    exact (List.nodup_cons.mp hdistinct).2
  below other hother := h.below other (shift_actions hqueue ▸ .tail _ hother)
  orderly := h.orderly

theorem start (hqueue : w.queue = action :: rest)
    (hadmitted : admitBoxOperation action.schedulingRequest w.slots.occupancy limits = .ok slot) :
    ((w.shift rest).start action slot).Scheduled limits := by
  have hshift := h.shift hqueue
  obtain ⟨hslot, howner⟩ := admit_cases hadmitted
  have hperm := start_actions_perm (w.shift rest) action slot
  rw [← shift_actions hqueue] at hperm
  refine ⟨h.slots.occupy (x := (action, slot)) ?_, ?_, ?_, hshift.sorted, ?_, ?_, ?_⟩
  · intro hentry y hy hyentry
    exact howner (of_decide_eq_true hentry) _ (h.slots.owner y hy hyentry)
  · rcases hslot with ⟨rfl, hfree⟩ | ⟨rfl, -⟩
    · exact hfree
    · exact h.base
  · rcases hslot with ⟨rfl, -⟩ | ⟨rfl, -, hfull, hwidth⟩
    · exact h.burst
    · refine .inr ?_
      change _ + (w.slots.burstInFlight + 1) ≤ _
      simp only [SlotCounters.occupancy] at hfull hwidth
      have := h.base
      omega
  · rw [(hperm.map QueueAction.sequence).nodup_iff]
    exact h.distinct
  · intro other hother
    exact h.below other (hperm.mem_iff.mp hother)
  · intro d hd
    rcases List.mem_append.mp hd with hd | hd
    · exact h.orderly d hd
    · rw [List.mem_singleton.mp hd]
      constructor
      · intro waiting hwaiting
        have hsorted := h.sorted
        rw [hqueue] at hsorted
        rcases (List.pairwise_cons.mp hsorted).1 waiting hwaiting with hlt | heq
        · exact hlt.le
        · exact heq.1.le
      · intro hpurpose
        rcases hslot with ⟨rfl, hfree⟩ | ⟨-, hentry, -⟩
        · exact ⟨rfl, hfree⟩
        · exact absurd hentry hpurpose

theorem finish {x : QueueAction × BoxSchedulingSlot} (hx : x ∈ w.inFlight) : (w.finish x).Scheduled limits := by
  have hkeys : (w.inFlight.map fun y => y.1.sequence).Nodup := by
    have hdistinct := h.distinct
    unfold actions at hdistinct
    rw [List.map_append, List.map_map] at hdistinct
    exact (List.nodup_append.mp hdistinct).2.1
  have hperm : w.inFlight.Perm (x :: w.inFlight.filter fun y => y.1.sequence ≠ x.1.sequence) := by
    have hsplit := List.filter_append_perm (fun y => decide (y.1.sequence = x.1.sequence)) w.inFlight
    rw [Keyed.filter_of_mem hkeys hx] at hsplit
    simpa using hsplit.symm
  have hsub : (w.finish x).actions.Sublist w.actions :=
    List.Sublist.append_left (List.filter_sublist.map Prod.fst) w.queue
  refine ⟨h.slots.free hperm, ?_, ?_, h.sorted, h.distinct.sublist (hsub.map _), ?_, h.orderly⟩
  · have := h.base
    simp only [Work.finish, SlotCounters.releaseSlot]
    split <;> omega
  · have := h.burst
    simp only [Work.finish, SlotCounters.releaseSlot]
    split <;> omega
  · intro other hother
    exact h.below other (hsub.subset hother)

end

end Scheduled

end Work

namespace OrderManager

variable {limits : OrderManagerLimits} {m : OrderManager} {ask : QueueAsk}
variable {scheduling : SchedulingLimits}

theorem running_distinct (h : m.work.Scheduled scheduling) : (m.running.map Execution.sequence).Nodup := by
  have hdistinct := h.distinct
  unfold Work.actions at hdistinct
  rw [List.map_append] at hdistinct
  have hkeys := (List.nodup_append.mp hdistinct).2.1
  simpa [OrderManager.work, Function.comp_def] using hkeys

/-! ## What each event does to the work -/

theorem submit_cases (m : OrderManager) (limits : OrderManagerLimits) (call : SubmitCall) :
    (m.submit limits call).work = m.work ∨
      m.disposed = false ∧
        ∃ m' : OrderManager, m'.work = m.work.enqueue (.submit ⟨call.order, call.entryGuard, m.sequence⟩) ∧
          m.submit limits call = m'.pump limits call.ask := by
  have hregistered : ∀ guard : Option LiveEntryTransportGuard,
      (guard.elim m fun guard => m.ensureEntryTransportGate call.order guard call.accountKey).work = m.work := by
    intro guard
    cases guard with
    | none => rfl
    | some guard => exact work_ensure ..
  unfold submit
  dsimp only
  split
  · exact .inl ((work_releaseOnReject ..).trans (hregistered _))
  · rename_i hallowed
    have hsequence := congrArg Work.sequence (hregistered call.entryGuard)
    have hdisposed : _ = m.disposed := congrArg Work.disposed (hregistered call.entryGuard)
    refine .inr ⟨?_, _, ?_, rfl⟩
    · by_contra hclosed
      rw [Bool.not_eq_false] at hclosed
      have hshut : (call.entryGuard.elim m fun guard =>
          m.ensureEntryTransportGate call.order guard call.accountKey).disposed = true := hdisposed.trans hclosed
      rw [submitBlockReason, if_pos hshut] at hallowed
      simp at hallowed
    rw [work_accept, hregistered]
    exact congrArg (fun sequence => m.work.enqueue (.submit ⟨call.order, call.entryGuard, sequence⟩)) hsequence

theorem finished_cases (m : OrderManager) (limits : OrderManagerLimits) (leg : ℕ) (ask : QueueAsk) :
    m.finished limits leg ask = m ∨
      ∃ e ∈ m.running, e.isOver = true ∧ m.finished limits leg ask = (m.settled e).pump limits ask := by
  unfold finished
  split
  · exact .inl rfl
  · rename_i e hfound
    split
    · rename_i hover
      exact .inr ⟨e, List.mem_of_find?_eq_some hfound, hover, rfl⟩
    · exact .inl rfl

theorem work_settled (m : OrderManager) (e : Execution) : (m.settled e).work = m.work.finish e.key := by
  have hfilter : (m.running.filter fun other => other.sequence ≠ e.sequence).map Execution.key =
      (m.running.map Execution.key).filter fun other => other.1.sequence ≠ e.key.1.sequence := by
    rw [List.filter_map]
    rfl
  unfold settled
  cases e.action.leg with
  | none =>
    simp only [OrderManager.work, Work.finish, Option.elim_none, hfilter]
    rfl
  | some action =>
    dsimp only [Option.elim_some]
    split
    · simp only [OrderManager.work, Work.finish, dropActive, hfilter]
      rfl
    · simp only [OrderManager.work, Work.finish, dropActive, release, hfilter]
      rfl

theorem work_dispose : m.dispose.work = { m.work with disposed := true, queue := [] } := by
  have hkeys : (m.running.map Execution.woken).map Execution.key = m.running.map Execution.key := by
    rw [List.map_map]
    exact List.map_congr_left fun e _ => Execution.woken_key
  unfold OrderManager.work dispose
  rw [hkeys]

/-! ## Every event keeps the discipline -/

theorem pump_scheduled (h : m.work.Scheduled limits.scheduling) : (m.pump limits ask).work.Scheduled limits.scheduling :=
  pumpFrom_work (fun _ _ _ _ hw hqueue _ => hw.shift hqueue) (fun _ _ _ _ hw hqueue hadmitted => hw.start hqueue hadmitted) _ h

theorem pump_quiet : (m.pump limits ask).work.Quiet limits.scheduling := pumpFrom_quiet _ le_rfl

def Disciplined (limits : SchedulingLimits) (m : OrderManager) : Prop := m.work.Scheduled limits ∧ m.work.Quiet limits

theorem Disciplined.of_work {m' : OrderManager} (h : m.Disciplined scheduling)
    (hwork : m'.work = m.work) : m'.Disciplined scheduling := by
  unfold Disciplined
  rw [hwork]
  exact h

theorem scheduled_submit (h : m.work.Scheduled limits.scheduling) (call : SubmitCall) :
    (m.submit limits call).work.Scheduled limits.scheduling := by
  rcases submit_cases m limits call with hwork | ⟨-, m', hwork, heq⟩
  · rw [hwork]
    exact h
  · rw [heq]
    apply pump_scheduled
    rw [hwork]
    exact h.enqueue rfl

section

variable (h : m.Disciplined limits.scheduling)
include h

theorem disciplined_submit (call : SubmitCall) : (m.submit limits call).Disciplined limits.scheduling := by
  refine ⟨scheduled_submit h.1 call, ?_⟩
  rcases submit_cases m limits call with hwork | ⟨-, m', -, heq⟩
  · rw [hwork]
    exact h.2
  · rw [heq]
    exact pump_quiet

theorem disciplined_finished (leg : ℕ) : (m.finished limits leg ask).Disciplined limits.scheduling := by
  rcases finished_cases m limits leg ask with heq | ⟨e, he, -, heq⟩
  · rw [heq]
    exact h
  · rw [heq]
    refine ⟨pump_scheduled ?_, pump_quiet⟩
    rw [work_settled]
    exact h.1.finish (List.mem_map_of_mem he)

theorem disciplined_step (event : OrderManagerEvent) : (step limits m event).1.Disciplined limits.scheduling := by
  cases event with
  | submit calls =>
    change (Run.finish (submitStep limits) m calls).Disciplined limits.scheduling
    induction calls generalizing m with
    | nil => exact h
    | cons call calls ih => exact ih (disciplined_submit h call)
  | cancel clientOrderId attemptId ask =>
    have hscheduled : (m.work.enqueue (.cancel ⟨clientOrderId, attemptId, m.sequence⟩)).Scheduled limits.scheduling :=
      h.1.enqueue rfl
    exact ⟨pump_scheduled hscheduled, pump_quiet⟩
  | resumed leg answer => exact h.of_work (work_resumed leg answer (running_distinct h.1))
  | finished leg ask => exact disciplined_finished h leg
  | known clientOrderId state => exact h.of_work rfl
  | snapshot p => exact h.of_work (work_persisted p)
  | rebuilt unresolved positions => exact h.of_work (work_rebuilt unresolved positions)
  | dispose =>
    change m.dispose.Disciplined limits.scheduling
    unfold Disciplined
    rw [work_dispose]
    constructor
    · exact
        { slots := h.1.slots
          base := h.1.base
          burst := h.1.burst
          sorted := .nil
          distinct := h.1.distinct.sublist ((List.sublist_append_right _ _).map _)
          below := fun action haction => h.1.below action (List.mem_append_right _ haction)
          orderly := h.1.orderly }
    · intro hopen
      cases hopen

end

theorem disciplined_run (limits : OrderManagerLimits) (events : List OrderManagerEvent) :
    (Run.finish (step limits) booted events).Disciplined limits.scheduling := by
  have hall : Run.Guarded (step limits) (fun _ _ => True) booted events :=
    Run.guarded_of_forall fun _ _ _ _ => trivial
  refine hall.invariant (Disciplined limits.scheduling) ?_ ⟨.booted, ?_⟩
  · intro m event h _
    exact disciplined_step h event
  · intro _ action rest hqueue
    cases hqueue

end OrderManager

/-! ## Hedges before dependents -/

namespace QueueAction

def entryGuard : QueueAction → Option LiveEntryTransportGuard
  | submit action => action.entry
  | cancel _ => none

/-- A SELL of an entry depends on the BUYs of the same entry. -/
def dependsOn (a b : QueueAction) : Prop :=
  a.attemptOf = b.attemptOf ∧ a.entryGuard.any (fun guard => ¬ guard.hedge) ∧ b.entryGuard.any fun guard => guard.hedge

instance instDecidableDependsOn (a b : QueueAction) : Decidable (a.dependsOn b) :=
  inferInstanceAs (Decidable (_ ∧ _ ∧ _))

end QueueAction

def OrderManager.SubmitCall.action (call : SubmitCall) (sequence : ℕ) : QueueAction :=
  .submit ⟨call.order, call.entryGuard, sequence⟩

def SubmitsHedgesFirst (m : OrderManager) : OrderManagerEvent → Prop
  | .submit calls =>
    (∀ call ∈ calls, ∀ action ∈ m.work.actions, ¬ action.dependsOn (call.action m.sequence)) ∧
      calls.Pairwise fun earlier later => ¬ (earlier.action 0).dependsOn (later.action 0)
  | _ => True

theorem hedgesFirst_of_submissionOrder (direction : BoxDirection) {submit : EntrySubmissionSlot → SubmitCall}
    (hsubmit : ∀ slot, ∃ count, (submit slot).entry = some ⟨slot.rank, slot.hedge, count⟩) :
    ((entrySubmissionOrder direction).map submit).Pairwise fun earlier later =>
      ¬ (earlier.action 0).dependsOn (later.action 0) := by
  have horder : (entrySubmissionOrder direction).Pairwise fun earlier later =>
      later.hedge = true → earlier.hedge = true := by
    cases direction <;> decide
  rw [List.pairwise_map]
  refine horder.imp ?_
  rintro earlier later hhedge ⟨-, hdependent, hlater⟩
  obtain ⟨count, hcount⟩ := hsubmit earlier
  obtain ⟨count', hcount'⟩ := hsubmit later
  have hlast : later.hedge = true := by
    by_cases hentry : (submit later).order.purpose = .entry
    · simpa [SubmitCall.action, SubmitCall.entryGuard, QueueAction.entryGuard, hcount', hentry] using hlater
    · simp [SubmitCall.action, SubmitCall.entryGuard, QueueAction.entryGuard, hentry] at hlater
  by_cases hentry : (submit earlier).order.purpose = .entry
  · simp [SubmitCall.action, SubmitCall.entryGuard, QueueAction.entryGuard, hcount, hentry, hhedge hlast] at hdependent
  · simp [SubmitCall.action, SubmitCall.entryGuard, QueueAction.entryGuard, hentry] at hdependent

structure Work.HedgesFirst (w : Work) : Prop where
  entries : ∀ action ∈ w.actions, action.entryGuard ≠ none → action.purposeOf = .entry
  earlier : ∀ a ∈ w.queue, ∀ b ∈ w.queue, a.dependsOn b → b.sequence < a.sequence
  covered : ∀ x ∈ w.inFlight, ∀ b ∈ w.queue, ¬ x.1.dependsOn b

namespace Work.HedgesFirst

variable {limits : SchedulingLimits} {w : Work} {action : QueueAction} {rest : List QueueAction}
  {slot : BoxSchedulingSlot}

section

variable (h : w.HedgesFirst)
include h

theorem enqueue (hs : w.Scheduled limits) (hsequence : action.sequence = w.sequence)
    (hentry : action.entryGuard ≠ none → action.purposeOf = .entry) (hfirst : ∀ a ∈ w.actions, ¬ a.dependsOn action) :
    (w.enqueue action).HedgesFirst := by
  have hqueue : ∀ a, a ∈ (w.enqueue action).queue ↔ a = action ∨ a ∈ w.queue := fun a => by
    rw [(enqueue_queue_perm w action).mem_iff, List.mem_cons]
  have hself : ¬ action.dependsOn action := by
    rintro ⟨-, hdependent, hhedge⟩
    cases hguard : action.entryGuard with
    | none => simp [hguard] at hhedge
    | some guard => simp_all
  constructor
  · intro a ha
    rcases List.mem_cons.mp ((enqueue_actions_perm w action).mem_iff.mp ha) with rfl | ha
    · exact hentry
    · exact h.entries a ha
  · intro a ha b hb hdep
    rcases (hqueue b).mp hb with hb | hb
    · rcases (hqueue a).mp ha with ha | ha
      · rw [ha, hb] at hdep
        exact absurd hdep hself
      · rw [hb] at hdep
        exact absurd hdep (hfirst a (List.mem_append_left _ ha))
    · rcases (hqueue a).mp ha with ha | ha
      · rw [ha, hsequence]
        exact hs.below b (List.mem_append_left _ hb)
      · exact h.earlier a ha b hb hdep
  · intro x hx b hb hdep
    rcases (hqueue b).mp hb with rfl | hb
    · exact hfirst x.1 (List.mem_append_right _ (List.mem_map_of_mem hx)) hdep
    · exact h.covered x hx b hb hdep

theorem shift (hqueue : w.queue = action :: rest) : (w.shift rest).HedgesFirst := by
  have hrest : ∀ a ∈ rest, a ∈ w.queue := fun a ha => hqueue ▸ .tail _ ha
  refine ⟨?_, fun a ha b hb => h.earlier a (hrest a ha) b (hrest b hb), fun x hx b hb => h.covered x hx b (hrest b hb)⟩
  intro a ha
  exact h.entries a (shift_actions hqueue ▸ .tail _ ha)

theorem start (hs : w.Scheduled limits) (hqueue : w.queue = action :: rest) :
    ((w.shift rest).start action slot).HedgesFirst := by
  have hshift := h.shift hqueue
  have hactions : ∀ a ∈ w.queue, a.entryGuard ≠ none → a.purposeOf = .entry :=
    fun a ha => h.entries a (List.mem_append_left _ ha)
  have hhead : action ∈ w.queue := hqueue ▸ List.mem_cons_self ..
  refine ⟨?_, hshift.earlier, ?_⟩
  · intro a ha
    rcases List.mem_cons.mp ((start_actions_perm (w.shift rest) action slot).mem_iff.mp ha) with rfl | ha
    · exact hactions _ hhead
    · exact hshift.entries a ha
  · intro x hx b hb hdep
    rcases List.mem_append.mp hx with hx | hx
    · exact hshift.covered x hx b hb hdep
    · rw [List.mem_singleton.mp hx] at hdep
      have hbq : b ∈ w.queue := hqueue ▸ .tail _ hb
      have hlt := h.earlier action hhead b hbq hdep
      have hsorted := hs.sorted
      rw [hqueue] at hsorted
      have hbefore := (List.pairwise_cons.mp hsorted).1 b hb
      have hpriority : action.priority = b.priority := by
        unfold QueueAction.priority
        rw [hactions action hhead, hactions b hbq]
        · rintro hnone
          have := hdep.2.2
          simp [hnone] at this
        · rintro hnone
          have := hdep.2.1
          simp [hnone] at this
      unfold QueueAction.before at hbefore
      omega

theorem finish (x : QueueAction × BoxSchedulingSlot) : (w.finish x).HedgesFirst := by
  have hsub : (w.finish x).actions.Sublist w.actions :=
    List.Sublist.append_left (List.filter_sublist.map Prod.fst) w.queue
  refine ⟨fun a ha => h.entries a (hsub.subset ha), h.earlier, ?_⟩
  intro y hy
  exact h.covered y (List.mem_of_mem_filter hy)

end

end Work.HedgesFirst

namespace OrderManager

variable {limits : OrderManagerLimits} {m : OrderManager} {ask : QueueAsk}

theorem pump_actions : ∀ action ∈ (m.pump limits ask).work.actions, action ∈ m.work.actions := by
  refine pumpFrom_work (P := fun w => ∀ action ∈ w.actions, action ∈ m.work.actions) ?_ ?_ _ fun _ h => h
  · intro w action rest _ h hqueue _ other hother
    exact h other (Work.shift_actions hqueue ▸ .tail _ hother)
  · intro w action rest slot h hqueue _ other hother
    have hperm := Work.start_actions_perm (w.shift rest) action slot
    rw [← Work.shift_actions hqueue] at hperm
    exact h other (hperm.mem_iff.mp hother)

theorem submit_actions (call : SubmitCall) :
    ∀ action ∈ (m.submit limits call).work.actions, action = call.action m.sequence ∨ action ∈ m.work.actions := by
  intro action haction
  rcases submit_cases m limits call with hwork | ⟨-, m', hwork, heq⟩
  · rw [hwork] at haction
    exact .inr haction
  · rw [heq] at haction
    have hmem := pump_actions action haction
    rw [hwork, (Work.enqueue_actions_perm ..).mem_iff, List.mem_cons] at hmem
    exact hmem

theorem pump_hedgesFirst (h : m.work.HedgesFirst) (hs : m.work.Scheduled limits.scheduling) :
    (m.pump limits ask).work.HedgesFirst := by
  refine (pumpFrom_work (P := fun w => w.Scheduled limits.scheduling ∧ w.HedgesFirst) ?_ ?_ _ ⟨hs, h⟩).2
  · intro w action rest _ hw hqueue _
    exact ⟨hw.1.shift hqueue, hw.2.shift hqueue⟩
  · intro w action rest slot hw hqueue hadmitted
    exact ⟨hw.1.start hqueue hadmitted, hw.2.start hw.1 hqueue⟩

theorem hedgesFirst_submit (h : m.work.HedgesFirst) (hs : m.work.Scheduled limits.scheduling) {call : SubmitCall}
    (hfirst : ∀ action ∈ m.work.actions, ¬ action.dependsOn (call.action m.sequence)) :
    (m.submit limits call).work.HedgesFirst := by
  rcases submit_cases m limits call with hwork | ⟨-, m', hwork, heq⟩
  · rw [hwork]
    exact h
  · have hentry : (call.action m.sequence).entryGuard ≠ none → (call.action m.sequence).purposeOf = .entry := by
      intro hguard
      by_contra hpurpose
      exact hguard (if_neg hpurpose)
    rw [heq]
    apply pump_hedgesFirst
    · rw [hwork]
      exact h.enqueue hs rfl hentry hfirst
    · rw [hwork]
      exact hs.enqueue rfl

theorem hedgesFirst_step (h : m.work.HedgesFirst) (hd : m.Disciplined limits.scheduling) {event : OrderManagerEvent}
    (hplanned : SubmitsHedgesFirst m event) : (step limits m event).1.work.HedgesFirst := by
  cases event with
  | submit calls =>
    change (Run.finish (submitStep limits) m calls).work.HedgesFirst
    obtain ⟨hfresh, hblock⟩ := hplanned
    -- call by call: a submit keeps the order, and what comes later in the block depends on it
    induction calls generalizing m with
    | nil => exact h
    | cons call calls ih =>
      obtain ⟨hcall, hcalls⟩ := List.pairwise_cons.mp hblock
      refine ih (hedgesFirst_submit h hd.1 (hfresh call (.head _))) (disciplined_submit hd call) ?_ hcalls
      intro later hlater action haction
      rcases submit_actions call action haction with rfl | haction
      · exact hcall later hlater
      · exact hfresh later (.tail _ hlater) action haction
  | cancel clientOrderId attemptId ask =>
    have hscheduled : (m.work.enqueue (.cancel ⟨clientOrderId, attemptId, m.sequence⟩)).Scheduled limits.scheduling :=
      hd.1.enqueue rfl
    refine pump_hedgesFirst (h.enqueue hd.1 rfl ?_ ?_) hscheduled
    · intro hguard
      exact absurd rfl hguard
    · rintro action _ ⟨-, -, hhedge⟩
      cases hhedge
  | resumed leg answer =>
    rw [show (step limits m (.resumed leg answer)).1.work = m.work from
      work_resumed leg answer (running_distinct hd.1)]
    exact h
  | finished leg ask =>
    change (m.finished limits leg ask).work.HedgesFirst
    rcases finished_cases m limits leg ask with heq | ⟨e, he, -, heq⟩
    · rw [heq]
      exact h
    · rw [heq]
      apply pump_hedgesFirst
      · rw [work_settled]
        exact h.finish e.key
      · rw [work_settled]
        exact hd.1.finish (List.mem_map_of_mem he)
  | known clientOrderId state => exact h
  | snapshot p =>
    rw [show (step limits m (.snapshot p)).1.work = m.work from work_persisted p]
    exact h
  | rebuilt unresolved positions =>
    rw [show (step limits m (.rebuilt unresolved positions)).1.work = m.work from work_rebuilt unresolved positions]
    exact h
  | dispose =>
    rw [show (step limits m .dispose).1.work = _ from work_dispose]
    exact
      { entries := fun action haction => h.entries action (List.mem_append_right _ haction)
        earlier := by simp
        covered := by simp }

theorem hedgesFirst_run {events : List OrderManagerEvent}
    (h : Run.Guarded (step limits) SubmitsHedgesFirst booted events) :
    (Run.finish (step limits) booted events).work.HedgesFirst := by
  refine (h.invariant (fun m => m.work.HedgesFirst ∧ m.Disciplined limits.scheduling) ?_ ⟨?_, disciplined_run limits []⟩).1
  · intro m event hm hplanned
    exact ⟨hedgesFirst_step hm.1 hm.2 hplanned, disciplined_step hm.2 event⟩
  · exact ⟨by simp [booted, work, Work.actions], by simp [booted, work], by simp [booted, work]⟩

/-- **What holds of the slots, the queue and the dispatches after any events.** -/
theorem dispatches_in_order (limits : OrderManagerLimits) (events : List OrderManagerEvent) :
    let m := Run.finish (step limits) booted events
    let base := baseConcurrency limits.scheduling.maxConcurrentExecutions
    let burst := clampEntrySubmitConcurrency limits.scheduling.entrySubmitConcurrency
    m.work.inFlight.countP SlotCounters.onBase ≤ base ∧
    (∀ x ∈ m.work.inFlight, ∀ y ∈ m.work.inFlight, x.1.purposeOf = .entry → y.1.purposeOf = .entry →
      x.1.attemptOf = y.1.attemptOf) ∧
    m.work.inFlight.countP SlotCounters.isEntry ≤ max base burst ∧
    (m.disposed = false → ∀ action rest, m.queue = action :: rest → action.purposeOf ≠ .entry →
      m.work.inFlight.countP SlotCounters.onBase = base) ∧
    (∀ d ∈ m.dispatched, (d.action.purposeOf ≠ .entry → d.slot = .base ∧ d.occupied.baseInFlight < base) ∧
      ∀ waiting ∈ d.waiting, d.action.priority ≤ waiting.priority) ∧
    (Run.Guarded (step limits) SubmitsHedgesFirst booted events →
      ∀ x ∈ m.work.inFlight, ∀ waiting ∈ m.queue, ¬ x.1.dependsOn waiting) := by
  intro m base burst
  obtain ⟨hs, hquiet⟩ := disciplined_run limits events
  refine ⟨?_, ?_, ?_, ?_, ?_, ?_⟩
  · rw [← hs.slots.base]
    exact hs.base
  · intro x hx y hy hxentry hyentry
    have hxowner := hs.slots.owner x hx (decide_eq_true hxentry)
    have hyowner := hs.slots.owner y hy (decide_eq_true hyentry)
    exact Option.some_inj.mp (hxowner.symm.trans hyowner)
  · have htotal : m.work.inFlight.countP SlotCounters.isEntry ≤ m.work.inFlight.length := List.countP_le_length
    have hsplit : m.work.inFlight.length = m.work.slots.baseInFlight + m.work.slots.burstInFlight := by
      rw [hs.slots.base, hs.slots.burst]
      exact List.length_eq_countP_add_countP _
    have hwidth : base ≤ max base burst := Nat.le_max_left _ _
    have hcap : m.work.slots.baseInFlight ≤ base := hs.base
    rcases hs.burst with hnone | hsome
    · have hempty : m.work.slots.burstInFlight = 0 := hnone
      omega
    · have hroom : base + m.work.slots.burstInFlight ≤ max base burst := hsome
      omega
  · intro hopen action rest hqueue hpurpose
    rw [← hs.slots.base]
    exact Nat.le_antisymm hs.base (hquiet hopen action rest hqueue hpurpose)
  · intro d hd
    exact ⟨(hs.orderly d hd).onBase, (hs.orderly d hd).first⟩
  · intro hplanned
    exact (hedgesFirst_run hplanned).covered

def boxLeg (purpose : BoxOrderPurpose) (attemptId : String) (slot : EntrySubmissionSlot) : SizedRequest where
  request :=
    { clientOrderId := boxClientOrderId attemptId purpose slot.role "1"
      role := slot.role
      tradeId := some attemptId
      attemptId
      purpose
      phase := if purpose = .entry then .entry else .exit
      exchange := "NFO"
      tradingsymbol := slot.role.label
      token := .fin 1002
      side := slot.side
      quantity := .fin (75 : ℕ)
      pricing := ⟨.fin 10, .fin (1 / 20), .fin 4, .fin 10⟩ }
  units := 75
  sized := rfl

def openGuard : GuardFacts := ⟨true, true, true, true, true, none, none⟩

def entryCall (attemptId : String) (slot : EntrySubmissionSlot) : SubmitCall where
  order := boxLeg .entry attemptId slot
  entry := some ⟨slot.rank, slot.hedge, 2⟩
  accountKey := "DHAN"
  guard := openGuard
  blocked := none
  drift := none
  ask := fun _ => none

def entryBlock (attemptId : String) : List SubmitCall := (entrySubmissionOrder .longBox).map (entryCall attemptId)

/-- The queue keeps the order of the block: submitted first, a SELL holds the base slot while its hedges wait. -/
theorem sell_before_hedges :
    let m := Run.finish (step ⟨⟨.fin 1, .fin 1⟩, 75, 300⟩) booted [.submit (entryBlock "a1").reverse]
    ∃ x ∈ m.work.inFlight, ∃ waiting ∈ m.queue, x.1.dependsOn waiting := by
  decide +kernel

/-- Both hedges are in flight, both SELLs wait. -/
theorem dispatches_in_order_attempt :
    let m := Run.finish (step ⟨⟨.fin 1, .fin 2⟩, 75, 300⟩) booted [.submit (entryBlock "a1")]
    (m.work.inFlight.length = 2 ∧ m.queue.length = 2) ∧
      ∀ x ∈ m.work.inFlight, ∀ waiting ∈ m.queue, ¬ x.1.dependsOn waiting := by
  refine ⟨by decide +kernel, (dispatches_in_order ⟨⟨.fin 1, .fin 2⟩, 75, 300⟩ _).2.2.2.2.2 ⟨⟨?_, ?_⟩, trivial⟩⟩
  · intro call _ action haction
    cases haction
  · exact hedgesFirst_of_submissionOrder .longBox fun slot => ⟨2, rfl⟩

end OrderManager

end BoxEngine
