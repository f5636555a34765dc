import BoxEngine.StreamFrames

/-!
# Sweeps and the connections they examine

A sweep may outlive its connection. Its generation ties it to an epoch, and epochs open by an authorisation and close
by a drop, a lost session or a disable alone.
-/

namespace BoxEngine

open Js Run

namespace OrderStreamConsumer

open OrderStreamStateMachine (isEstablished)

/-! ## Epochs -/

def Authenticates (c : OrderStreamConsumer) : ConsumerCall → Prop
  | .onAuthenticated _ _ => c.machine.current ≠ .disabled ∧ c.machine.isEstablished = false
  | .driveQuoteSocketLifecycle true _ => c.machine.current ≠ .disabled ∧ c.machine.isEstablished = false
  | _ => False

def Interrupts (c : OrderStreamConsumer) : ConsumerCall → Prop
  | .onDisconnected => True
  | .onSessionLost => True
  | .setStreamEnabled false => True
  | .driveQuoteSocketLifecycle false _ => True
  | call => Authenticates c call

inductive EpochStep (c : OrderStreamConsumer) (call : ConsumerCall) (c' : OrderStreamConsumer) : Prop
  | kept (gen : c'.machine.gen = c.machine.gen) (established : c'.machine.isEstablished = c.machine.isEstablished)
      (quiet : c.machine.isEstablished = true → ¬ Interrupts c call)
  | opened (authenticates : Authenticates c call) (gen : c'.machine.gen = c.machine.gen + 1)
  | closed (gen : c.machine.gen < c'.machine.gen) (established : c'.machine.isEstablished = false)

variable (c : OrderStreamConsumer) (m : OrderStreamStateMachine) (id : ℕ)

theorem epoch_onConnecting :
    m.onConnecting.gen = m.gen ∧ m.onConnecting.isEstablished = m.isEstablished ∧
      (m.onConnecting.current = .disabled ↔ m.current = .disabled) := by
  unfold OrderStreamStateMachine.onConnecting
  by_cases hd : m.current = .disabled
  · rw [if_pos hd]; exact ⟨rfl, rfl, Iff.rfl⟩
  · rw [if_neg hd]
    by_cases he : m.isEstablished = true
    · rw [if_pos he]; exact ⟨rfl, rfl, Iff.rfl⟩
    · rw [if_neg he]
      exact ⟨rfl, by rw [Bool.not_eq_true] at he; rw [he]; simp [isEstablished], by simp [hd]⟩

theorem epoch_onSocketOpen :
    m.onSocketOpen.gen = m.gen ∧ m.onSocketOpen.isEstablished = m.isEstablished ∧
      (m.onSocketOpen.current = .disabled ↔ m.current = .disabled) := by
  unfold OrderStreamStateMachine.onSocketOpen
  by_cases hd : m.current = .disabled
  · rw [if_pos hd]; exact ⟨rfl, rfl, Iff.rfl⟩
  · rw [if_neg hd]
    by_cases he : m.isEstablished = true
    · rw [if_pos he]; exact ⟨rfl, rfl, Iff.rfl⟩
    · rw [if_neg he]
      exact ⟨rfl, by rw [Bool.not_eq_true] at he; rw [he]; simp [isEstablished], by simp [hd]⟩

theorem epoch_markSynchronized (g : Option ℕ) :
    (m.markSynchronized g).1.gen = m.gen ∧ (m.markSynchronized g).1.isEstablished = m.isEstablished := by
  rcases markSynchronized_cases m g with heq | ⟨-, -, heq⟩
  · rw [heq]; exact ⟨rfl, rfl⟩
  · rw [heq]
    refine ⟨rfl, ?_⟩
    cases hm : m.current <;> simp [isEstablished, hm]

theorem epoch_onIdle : m.onIdle.gen = m.gen ∧ m.onIdle.isEstablished = m.isEstablished := by
  unfold OrderStreamStateMachine.onIdle
  cases hm : m.current <;> simp [isEstablished, hm]

theorem established_ne_disabled {m : OrderStreamStateMachine} (h : m.isEstablished = true) :
    m.current ≠ .disabled := by
  intro hd
  rcases isEstablished_iff.mp h with hm | hm | hm <;> rw [hd] at hm <;> cases hm

theorem epoch_onAuthenticated (evidence : OrderStreamAuthEvidence) (now : Number) :
    EpochStep c (.onAuthenticated evidence now) (c.onAuthenticated evidence now) := by
  unfold onAuthenticated
  rcases onAuthenticated_cases c.machine evidence with ⟨hwas, known, heq⟩ | ⟨hd, he, heq⟩
  · simp only [heq, if_true]
    refine .kept rfl rfl ?_
    rintro hest ⟨-, hnot⟩
    rw [hest] at hnot; cases hnot
  · have hgen : ¬ c.machine.gen + 1 = c.machine.gen := by omega
    simp only [heq, if_neg hgen]
    exact .opened ⟨hd, he⟩ rfl

theorem epoch_onDisconnected (call : ConsumerCall) : EpochStep c call c.onDisconnected := by
  unfold onDisconnected OrderStreamStateMachine.onDisconnected
  by_cases h : c.machine.current = .disabled ∨ c.machine.current = .authExpired
  · simp only [if_pos h]
    refine .kept rfl rfl ?_
    intro hest
    rcases isEstablished_iff.mp hest with hm | hm | hm <;> simp [hm] at h
  · simp only [if_neg h]
    exact .closed (Nat.lt_succ_self _) (by simp [isEstablished])

theorem epoch_onSessionLost (call : ConsumerCall) : EpochStep c call c.onSessionLost := by
  unfold onSessionLost OrderStreamStateMachine.onSessionLost
  by_cases h : c.machine.current = .disabled
  · simp only [if_pos h]
    exact .kept rfl rfl fun hest => absurd h (established_ne_disabled hest)
  · simp only [if_neg h]
    exact .closed (Nat.lt_succ_self _) (by simp [isEstablished])

theorem epoch_setStreamEnabled (enabled : Bool) :
    EpochStep c (.setStreamEnabled enabled) (c.setStreamEnabled enabled) := by
  unfold setStreamEnabled OrderStreamStateMachine.setEnabled
  cases enabled with
  | false => exact .closed (Nat.lt_succ_self _) (by simp [isEstablished])
  | true =>
    have hquiet : ¬ Interrupts c (.setStreamEnabled true) := id
    by_cases h : c.machine.current = .disabled
    · simp only [if_true, if_pos h]
      exact .kept rfl (by simp [isEstablished, h]) fun _ => hquiet
    · simp only [if_true, if_neg h]
      exact .kept rfl rfl fun _ => hquiet

theorem machine_sweepEnded (verdict : SweepVerdict) (now : Number) :
    (c.sweepEnded id verdict now).machine = c.machine ∨
      ∃ s ∈ c.sweeps, s.id = id ∧ s.generation = c.machine.gen ∧ verdict.Accepts ∧
        (c.sweepEnded id verdict now).machine = (c.machine.markSynchronized (some s.generation)).1 := by
  unfold sweepEnded
  split
  · exact .inl rfl
  · rename_i s hfind
    have hmatch : s.id = id ∧ s.settled = false := by simpa using List.find?_some hfind
    rcases executeSweep_cases _ s.generation verdict now with hs | ⟨haccepts, hgen, -, hs⟩
    · exact .inl hs.machine
    · exact .inr ⟨s, List.mem_of_find?_eq_some hfind, hmatch.1, hgen, haccepts, hs.machine⟩

theorem epoch_driveQuoteSocketLifecycle (connected : Bool) (now : Number) :
    EpochStep c (.driveQuoteSocketLifecycle connected now) (c.driveQuoteSocketLifecycle connected now) := by
  unfold driveQuoteSocketLifecycle
  by_cases hd : c.machine.current = .disabled
  · simp only [if_pos hd]
    exact .kept rfl rfl fun hest => absurd hd (established_ne_disabled hest)
  · simp only [if_neg hd]
    cases connected with
    | false => exact epoch_onDisconnected c _
    | true =>
      obtain ⟨hgen, hest, hdis⟩ := epoch_onConnecting c.machine
      obtain ⟨hgen', hest', hdis'⟩ := epoch_onSocketOpen c.machine.onConnecting
      have hauth := epoch_onAuthenticated c.onConnecting.onSocketOpen .brokerAcknowledged now
      have hrun := (stream_runReconnectReconciliation (c.onConnecting.onSocketOpen.onAuthenticated .brokerAcknowledged now)).1
      cases hauth with
      | kept gen established _ =>
        refine .kept ?_ ?_ ?_
        · exact (congrArg _ hrun).trans (gen.trans (hgen'.trans hgen))
        · exact (congrArg _ hrun).trans (established.trans (hest'.trans hest))
        · rintro he ⟨-, hnot⟩
          rw [he] at hnot; cases hnot
      | opened authenticates gen =>
        refine .opened ⟨hd, ?_⟩ ?_
        · exact (hest'.trans hest).symm.trans authenticates.2
        · exact (congrArg _ hrun).trans (gen.trans (congrArg (· + 1) (hgen'.trans hgen)))
      | closed gen established =>
        refine .closed ?_ ?_
        · exact lt_of_eq_of_lt (hgen'.trans hgen).symm (lt_of_lt_of_eq gen (congrArg _ hrun).symm)
        · exact (congrArg _ hrun).trans established

theorem epoch_same {c c' : OrderStreamConsumer} {call : ConsumerCall} (h : c'.machine = c.machine)
    (hquiet : ¬ Interrupts c call) : EpochStep c call c' :=
  .kept (by rw [h]) (by rw [h]) fun _ => hquiet

theorem epoch_call (toUpperCase : String → String) (c : OrderStreamConsumer) (call : ConsumerCall) :
    EpochStep c call (c.call toUpperCase call).1 := by
  cases call with
  | registerIntent args session => exact epoch_same (same_registerIntent c args session).machine id
  | markOrderSettled id => exact epoch_same rfl False.elim
  | learnBrokerOrderId id given => exact epoch_same (same_learnBrokerOrderId c id given).machine False.elim
  | ingestStreamObservation obs now reply =>
    exact epoch_same (same_ingest toUpperCase c obs now reply .orderUpdate).machine False.elim
  | ingestRestObservation obs source now reply =>
    exact epoch_same (same_ingestRestObservation toUpperCase c obs now reply source).machine False.elim
  | onConnecting => exact .kept (epoch_onConnecting c.machine).1 (epoch_onConnecting c.machine).2.1 fun _ => id
  | onSocketOpen => exact .kept (epoch_onSocketOpen c.machine).1 (epoch_onSocketOpen c.machine).2.1 fun _ => id
  | onAuthenticated evidence now => exact epoch_onAuthenticated c evidence now
  | markSynchronized g =>
    exact .kept (epoch_markSynchronized c.machine g).1 (epoch_markSynchronized c.machine g).2 fun _ => id
  | noteRestVerifiedSession =>
    refine .kept ?_ ?_ fun _ => id
    · rw [call, noteRestVerifiedSession, OrderStreamStateMachine.noteRestVerifiedSession]
      split <;> rfl
    · rw [call, noteRestVerifiedSession, OrderStreamStateMachine.noteRestVerifiedSession]
      split <;> rfl
  | onIdle => exact .kept (epoch_onIdle c.machine).1 (epoch_onIdle c.machine).2 fun _ => id
  | evaluateIdle now =>
    rcases evaluateIdle_cases c now with heq | heq
    · rw [call, heq]
      exact epoch_same rfl id
    · rw [call, heq]
      exact .kept (epoch_onIdle c.machine).1 (epoch_onIdle c.machine).2 fun _ => id
  | onDisconnected => exact epoch_onDisconnected c _
  | onSessionLost => exact epoch_onSessionLost c _
  | setStreamEnabled enabled => exact epoch_setStreamEnabled c enabled
  | driveQuoteSocketLifecycle connected now => exact epoch_driveQuoteSocketLifecycle c connected now
  | runReconnectReconciliation => exact epoch_same (stream_runReconnectReconciliation c).1 id
  | ensureReconciled now =>
    rcases ensureReconciled_cases c now with heq | heq
    · rw [call, heq]
      exact epoch_same rfl id
    · rw [call, heq]
      exact epoch_same (stream_runReconnectReconciliation c).1 id
  | sweepEnded id verdict now =>
    rcases machine_sweepEnded c id verdict now with heq | ⟨s, -, -, -, -, heq⟩
    · exact epoch_same heq False.elim
    · refine .kept ?_ ?_ fun _ => False.elim
      · rw [call, heq]
        exact (epoch_markSynchronized c.machine _).1
      · rw [call, heq]
        exact (epoch_markSynchronized c.machine _).2
  | sweepReleased id =>
    refine epoch_same ?_ False.elim
    rw [call, sweepReleased]
    split <;> rfl

/-! ## Barriers -/

def inFlight (c : OrderStreamConsumer) : List (ℕ × ℕ) := c.sweeps.map fun t => (t.id, t.generation)

inductive BarrierStep (c c' : OrderStreamConsumer) : Prop
  | kept (inFlight : c'.inFlight = c.inFlight) (started : c'.sweepsStarted = c.sweepsStarted)
      (barrier : c'.sweepInFlight = c.sweepInFlight)
      (generation : c'.sweepInFlightGeneration = c.sweepInFlightGeneration)
  | started (free : ¬ (c.sweepInFlight ≠ none ∧ c.sweepInFlightGeneration = some c'.machine.gen))
      (inFlight : c'.inFlight = (c.sweepsStarted, c'.machine.gen) :: c.inFlight)
      (started : c'.sweepsStarted = c.sweepsStarted + 1) (barrier : c'.sweepInFlight = some c.sweepsStarted)
      (generation : c'.sweepInFlightGeneration = some c'.machine.gen)
  | released (id : ℕ) (inFlight : c'.inFlight = c.inFlight.filter fun k => k.1 ≠ id)
      (started : c'.sweepsStarted = c.sweepsStarted)
      (barrier : c.sweepInFlight ≠ some id →
        c'.sweepInFlight = c.sweepInFlight ∧ c'.sweepInFlightGeneration = c.sweepInFlightGeneration)

theorem SameStream.barrier {c c' : OrderStreamConsumer} (h : SameStream c c') : BarrierStep c c' :=
  .kept (by rw [inFlight, inFlight, h.sweeps]) h.sweepsStarted h.sweepInFlight h.sweepInFlightGeneration

theorem barrier_runReconnectReconciliation : BarrierStep c c.runReconnectReconciliation := by
  unfold runReconnectReconciliation
  by_cases hjoin : c.sweepInFlight ≠ none ∧ c.sweepInFlightGeneration = some c.machine.gen
  · simp only [if_pos hjoin]
    exact .kept rfl rfl rfl rfl
  · simp only [if_neg hjoin]
    split
    · exact .kept rfl rfl rfl rfl
    · split
      · exact .kept rfl rfl rfl rfl
      · exact .started hjoin rfl rfl rfl rfl

theorem barrier_sweepEnded (verdict : SweepVerdict) (now : Number) : BarrierStep c (c.sweepEnded id verdict now) := by
  unfold sweepEnded
  split
  · exact .kept rfl rfl rfl rfl
  · rename_i s _
    have hkeys : (c.settle id).sweeps.map (fun t => (t.id, t.generation)) = c.inFlight := by
      rw [settle, List.map_map]
      refine List.map_congr_left ?_
      intro t _
      by_cases h : t.id = id <;> simp [h]
    rcases executeSweep_cases (c.settle id) s.generation verdict now with hs | ⟨-, -, -, hs⟩
    · exact .kept (by rw [inFlight, hs.sweeps, hkeys]) hs.sweepsStarted hs.sweepInFlight hs.sweepInFlightGeneration
    · exact .kept (by rw [inFlight, hs.sweeps, hkeys]) hs.sweepsStarted hs.sweepInFlight hs.sweepInFlightGeneration

theorem barrier_sweepReleased : BarrierStep c (c.sweepReleased id) := by
  unfold sweepReleased
  split
  · exact .kept rfl rfl rfl rfl
  · refine .released id ?_ rfl ?_
    · simp only [inFlight, List.filter_map]
      rfl
    · intro h
      exact ⟨if_neg h, if_neg h⟩

theorem barrier_onAuthenticated (evidence : OrderStreamAuthEvidence) (now : Number) :
    (c.onAuthenticated evidence now).inFlight = c.inFlight ∧
      (c.onAuthenticated evidence now).sweepsStarted = c.sweepsStarted ∧
      (c.onAuthenticated evidence now).sweepInFlight = c.sweepInFlight ∧
      (c.onAuthenticated evidence now).sweepInFlightGeneration = c.sweepInFlightGeneration := by
  unfold onAuthenticated
  simp only
  split <;> exact ⟨rfl, rfl, rfl, rfl⟩

theorem barrier_driveQuoteSocketLifecycle (connected : Bool) (now : Number) :
    BarrierStep c (c.driveQuoteSocketLifecycle connected now) := by
  unfold driveQuoteSocketLifecycle
  split
  · exact .kept rfl rfl rfl rfl
  · cases connected with
    | false => exact .kept rfl rfl rfl rfl
    | true =>
      obtain ⟨hkeys, hstarted, hbarrier, hgeneration⟩ :=
        barrier_onAuthenticated c.onConnecting.onSocketOpen .brokerAcknowledged now
      have hrun := barrier_runReconnectReconciliation
        (c.onConnecting.onSocketOpen.onAuthenticated .brokerAcknowledged now)
      simp only [if_true]
      generalize c.onConnecting.onSocketOpen.onAuthenticated .brokerAcknowledged now = d at *
      cases hrun with
      | kept inFlight started barrier generation =>
        exact .kept (inFlight.trans hkeys) (started.trans hstarted) (barrier.trans hbarrier) (generation.trans hgeneration)
      | started free inFlight started barrier generation =>
        rw [hbarrier, hgeneration] at free
        rw [hkeys, hstarted] at inFlight
        rw [hstarted] at started barrier
        exact .started free inFlight started barrier generation
      | released id inFlight started barrier =>
        rw [hkeys] at inFlight
        rw [hbarrier, hgeneration] at barrier
        exact .released id inFlight (started.trans hstarted) barrier

theorem barrier_call (toUpperCase : String → String) (c : OrderStreamConsumer) (call : ConsumerCall) :
    BarrierStep c (c.call toUpperCase call).1 := by
  cases call with
  | registerIntent args session => exact (same_registerIntent c args session).barrier
  | learnBrokerOrderId id given => exact (same_learnBrokerOrderId c id given).barrier
  | ingestStreamObservation obs now reply => exact (same_ingest toUpperCase c obs now reply .orderUpdate).barrier
  | ingestRestObservation obs source now reply =>
    exact (same_ingestRestObservation toUpperCase c obs now reply source).barrier
  | onAuthenticated evidence now =>
    obtain ⟨hkeys, hstarted, hbarrier, hgeneration⟩ := barrier_onAuthenticated c evidence now
    exact .kept hkeys hstarted hbarrier hgeneration
  | evaluateIdle now =>
    rcases evaluateIdle_cases c now with heq | heq
    · rw [call, heq]
      exact .kept rfl rfl rfl rfl
    · rw [call, heq]
      exact .kept rfl rfl rfl rfl
  | driveQuoteSocketLifecycle connected now => exact barrier_driveQuoteSocketLifecycle c connected now
  | runReconnectReconciliation => exact barrier_runReconnectReconciliation c
  | ensureReconciled now =>
    rcases ensureReconciled_cases c now with heq | heq
    · rw [call, heq]
      exact .kept rfl rfl rfl rfl
    · rw [call, heq]
      exact barrier_runReconnectReconciliation c
  | sweepEnded id verdict now => exact barrier_sweepEnded c id verdict now
  | sweepReleased id => exact barrier_sweepReleased c id
  | markOrderSettled | onConnecting | onSocketOpen | markSynchronized | noteRestVerifiedSession | onIdle
  | onDisconnected | onSessionLost | setStreamEnabled => exact .kept rfl rfl rfl rfl

/-- A sweep in flight is of this connection or an earlier one, and at most one is of this one. -/
structure Barriers (c : OrderStreamConsumer) : Prop where
  past : ∀ k ∈ c.inFlight, k.2 ≤ c.machine.gen
  registered : ∀ k ∈ c.inFlight, k.2 = c.machine.gen →
    c.sweepInFlight = some k.1 ∧ c.sweepInFlightGeneration = some k.2
  single : (c.inFlight.map Prod.snd).Nodup

theorem EpochStep.gen_le {c c' : OrderStreamConsumer} {call : ConsumerCall} (h : EpochStep c call c') :
    c.machine.gen ≤ c'.machine.gen := by
  cases h with
  | kept gen _ _ => omega
  | opened _ gen => omega
  | closed gen _ => omega

theorem Barriers.step {c c' : OrderStreamConsumer} (h : Barriers c) (hgen : c.machine.gen ≤ c'.machine.gen)
    (hb : BarrierStep c c') : Barriers c' := by
  cases hb with
  | kept inFlight started barrier generation =>
    refine ⟨?_, ?_, by rw [inFlight]; exact h.single⟩
    · intro k hk
      rw [inFlight] at hk
      exact (h.past k hk).trans hgen
    · intro k hk heq
      rw [inFlight] at hk
      rw [barrier, generation]
      exact h.registered k hk (by have := h.past k hk; omega)
  | started free inFlight started barrier generation =>
    -- a sweep starts only where none of this connection is in flight
    have hnone : ∀ k ∈ c.inFlight, k.2 ≠ c'.machine.gen := by
      intro k hk heq
      obtain ⟨hreg, hreg'⟩ := h.registered k hk (by have := h.past k hk; omega)
      exact free ⟨by rw [hreg]; simp, by rw [hreg', heq]⟩
    refine ⟨?_, ?_, ?_⟩
    · intro k hk
      rw [inFlight] at hk
      rcases List.mem_cons.mp hk with rfl | hk
      · exact le_rfl
      · exact (h.past k hk).trans hgen
    · intro k hk heq
      rw [inFlight] at hk
      rcases List.mem_cons.mp hk with rfl | hk
      · exact ⟨barrier, generation⟩
      · exact absurd heq (hnone k hk)
    · rw [inFlight, List.map_cons, List.nodup_cons]
      refine ⟨?_, h.single⟩
      intro hmem
      obtain ⟨k, hk, heq⟩ := List.mem_map.mp hmem
      exact hnone k hk heq
  | released id inFlight started barrier =>
    have hsub : ∀ k ∈ c'.inFlight, k ∈ c.inFlight ∧ k.1 ≠ id := by
      intro k hk
      rw [inFlight] at hk
      simpa using List.mem_filter.mp hk
    refine ⟨fun k hk => (h.past k (hsub k hk).1).trans hgen, ?_, ?_⟩
    · intro k hk heq
      obtain ⟨hk, hne⟩ := hsub k hk
      obtain ⟨hreg, hreg'⟩ := h.registered k hk (by have := h.past k hk; omega)
      obtain ⟨hbarrier, hgeneration⟩ := barrier (by rw [hreg]; simpa using hne)
      rw [hbarrier, hgeneration]
      exact ⟨hreg, hreg'⟩
    · rw [inFlight]
      exact h.single.sublist (List.filter_sublist.map _)

/-! ## Runs -/

section
variable (toUpperCase : String → String) (opts : OrderStreamConsumerOptions)

/-- The call that opened the connection, and nothing that interrupts it since. -/
structure OpenedBy (past before : List ConsumerCall) (a : ConsumerCall) (since : List ConsumerCall) : Prop where
  split : past = before ++ a :: since
  authenticates : Authenticates (run toUpperCase opts before) a
  quiet : Guarded (call toUpperCase) (fun c x => ¬ Interrupts c x) (run toUpperCase opts (before ++ [a])) since

def Starts (c : OrderStreamConsumer) (x : ConsumerCall) (id : ℕ) : Prop :=
  c.sweepsStarted = id ∧ (c.call toUpperCase x).1.sweepsStarted = id + 1

def StartedSinceOpened (past : List ConsumerCall) (id : ℕ) : Prop :=
  ∃ before a since, OpenedBy toUpperCase opts past before a since ∧
    ∃ xs x ys, a :: since = xs ++ x :: ys ∧ Starts toUpperCase (run toUpperCase opts (before ++ xs)) x id

structure Remembers (c : OrderStreamConsumer) (past : List ConsumerCall) : Prop where
  state : c = run toUpperCase opts past
  barriers : Barriers c
  opened : c.machine.isEstablished = true → ∃ before a since, OpenedBy toUpperCase opts past before a since
  started : c.machine.isEstablished = true → ∀ k ∈ c.inFlight, k.2 = c.machine.gen →
    StartedSinceOpened toUpperCase opts past k.1

theorem remembers_new : Remembers toUpperCase opts (new opts) [] where
  state := rfl
  barriers := ⟨by simp [inFlight, new], by simp [inFlight, new], by simp [inFlight, new]⟩
  opened h := by cases hopts : opts.streamEnabled <;> simp [new, OrderStreamStateMachine.new, hopts, isEstablished] at h
  started _ k hk := by simp [inFlight, new] at hk

variable {toUpperCase opts}

theorem OpenedBy.snoc {past before since : List ConsumerCall} {a x : ConsumerCall}
    (h : OpenedBy toUpperCase opts past before a since) (hx : ¬ Interrupts (run toUpperCase opts past) x) :
    OpenedBy toUpperCase opts (past ++ [x]) before a (since ++ [x]) where
  split := by rw [h.split]; simp
  authenticates := h.authenticates
  quiet := by
    refine h.quiet.snoc ?_
    rw [run, ← finish_append]
    have : before ++ [a] ++ since = past := by rw [h.split]; simp
    rw [this]
    exact hx

theorem BarrierStep.mem {c : OrderStreamConsumer} {x : ConsumerCall} (h : BarrierStep c (c.call toUpperCase x).1)
    {k : ℕ × ℕ} (hk : k ∈ (c.call toUpperCase x).1.inFlight) : k ∈ c.inFlight ∨ Starts toUpperCase c x k.1 := by
  cases h with
  | kept inFlight _ _ _ => exact .inl (inFlight ▸ hk)
  | started _ inFlight started _ _ =>
    rw [inFlight] at hk
    rcases List.mem_cons.mp hk with rfl | hk
    · exact .inr ⟨rfl, started⟩
    · exact .inl hk
  | released id inFlight _ _ =>
    rw [inFlight] at hk
    exact .inl (List.mem_filter.mp hk).1

theorem Remembers.step {c : OrderStreamConsumer} {past : List ConsumerCall} (h : Remembers toUpperCase opts c past)
    (x : ConsumerCall) : Remembers toUpperCase opts (c.call toUpperCase x).1 (past ++ [x]) := by
  obtain ⟨rfl, hbarriers, hopened, hstarted⟩ := h
  have hepoch := epoch_call toUpperCase (run toUpperCase opts past) x
  have hb := barrier_call toUpperCase (run toUpperCase opts past) x
  have hbarriers' := hbarriers.step hepoch.gen_le hb
  refine ⟨(run_snoc toUpperCase opts past x).symm, hbarriers', ?_, ?_⟩
  · intro hest
    cases hepoch with
    | kept _ established quiet =>
      rw [established] at hest
      obtain ⟨before, a, since, ho⟩ := hopened hest
      exact ⟨before, a, since ++ [x], ho.snoc (quiet hest)⟩
    | opened authenticates _ => exact ⟨past, x, [], rfl, authenticates, trivial⟩
    | closed _ established => rw [established] at hest; cases hest
  · intro hest k hk hgen
    cases hepoch with
    | kept gen established quiet =>
      rw [established] at hest
      rcases hb.mem hk with hk | hk
      · -- an older sweep of the same epoch
        obtain ⟨before, a, since, ho, xs, y, ys, hsplit, hy⟩ := hstarted hest k hk (hgen.trans gen)
        refine ⟨before, a, since ++ [x], ho.snoc (quiet hest), xs, y, ys ++ [x], ?_, hy⟩
        rw [← List.cons_append, hsplit]
        simp
      · obtain ⟨before, a, since, ho⟩ := hopened hest
        refine ⟨before, a, since ++ [x], ho.snoc (quiet hest), a :: since, x, [], by simp, ?_⟩
        rw [← ho.split]
        exact hk
    | opened authenticates gen =>
      rcases hb.mem hk with hk | hk
      · have := hbarriers.past k hk
        omega
      · exact ⟨past, x, [], ⟨rfl, authenticates, trivial⟩, [], x, [], rfl, by simpa using hk⟩
    | closed _ established => rw [established] at hest; cases hest

variable (toUpperCase opts) in
theorem remembers_run (calls : List ConsumerCall) : Remembers toUpperCase opts (run toUpperCase opts calls) calls :=
  history (fun _ _ x h => h.step x) (remembers_new toUpperCase opts) calls

end

/-- **A verdict promotes only the connection it examined**, and no two sweeps of a generation overlap. -/
theorem sweep_promotes_own_connection (toUpperCase : String → String) (opts : OrderStreamConsumerOptions)
    (calls : List ConsumerCall) :
    ((run toUpperCase opts calls).inFlight.map Prod.snd).Nodup ∧
      ∀ before id verdict now after, calls = before ++ .sweepEnded id verdict now :: after →
        (run toUpperCase opts before).machine.current ≠ .ready →
        (run toUpperCase opts (before ++ [.sweepEnded id verdict now])).machine.current = .ready →
        verdict.Accepts ∧ StartedSinceOpened toUpperCase opts before id := by
  refine ⟨(remembers_run toUpperCase opts calls).barriers.single, ?_⟩
  rintro before id verdict now after - hnot hready
  have h := remembers_run toUpperCase opts before
  rw [run_snoc] at hready
  generalize run toUpperCase opts before = c at h hnot hready
  rcases machine_sweepEnded c id verdict now with heq | ⟨s, hs, rfl, hgen, haccepts, heq⟩
  · exact absurd ((congrArg _ heq).symm.trans hready) hnot
  · refine ⟨haccepts, h.started ?_ (s.id, s.generation) (List.mem_map_of_mem hs) hgen⟩
    have hmark : (c.machine.markSynchronized (some s.generation)).1.current = .ready := (congrArg _ heq).symm.trans hready
    rw [← (epoch_markSynchronized c.machine (some s.generation)).2]
    exact isEstablished_iff.mpr (.inr (.inl hmark))

def sweptConnection : List ConsumerCall :=
  [.onConnecting, .onSocketOpen, .onAuthenticated .loginSubmitted (.fin 0), .runReconnectReconciliation]

theorem sweep_promotes_own_connection_swept :
    (run String.toUpper wired (sweptConnection ++ [.sweepEnded 0 (.returned none) (.fin 0)])).machine.current = .ready ∧
      StartedSinceOpened String.toUpper wired sweptConnection 0 := by
  have hready : (run String.toUpper wired
    (sweptConnection ++ [.sweepEnded 0 (.returned none) (.fin 0)])).machine.current = .ready := by decide
  refine ⟨hready, ?_⟩
  exact ((sweep_promotes_own_connection String.toUpper wired
    (sweptConnection ++ [.sweepEnded 0 (.returned none) (.fin 0)])).2 sweptConnection 0 (.returned none) (.fin 0) []
    rfl (by decide) hready).2

end OrderStreamConsumer

end BoxEngine
