import BoxEngine.StreamFrames

/-!
# Published health

Lifecycle machine and projection stay in step as long as no connection attempt is announced while a connection is
established.
-/

namespace BoxEngine

open Js Run

namespace OrderStreamConsumer

open OrderStreamStateMachine (isEstablished)

/-! ## Machine and projection in step -/

structure InStep (m : OrderStreamStateMachine) (p : OrderUpdateProjection) : Prop where
  disabled : m.current = .disabled ↔ p.streamState = .disabled
  established : m.isEstablished = true → p.streamConnected = true ∧ p.streamAuthorised = true
  ready : m.current = .ready → m.reconcileOwed = false ∧ p.reconcileOwed = false

variable {m : OrderStreamStateMachine} {p : OrderUpdateProjection}

theorem InStep.signal {p' : OrderUpdateProjection} (h : InStep m p) (hs : OrderUpdateProjection.SameSignal p p') :
    InStep m p' :=
  ⟨by rw [hs.streamState]; exact h.disabled, by rw [hs.streamConnected, hs.streamAuthorised]; exact h.established,
    by rw [hs.reconcileOwed]; exact h.ready⟩

theorem inStep_idle (hm : m.current ≠ .disabled) (he : m.isEstablished = false) (hp : p.streamState ≠ .disabled) :
    InStep m p := by
  refine ⟨⟨fun h => absurd h hm, fun h => absurd h hp⟩, fun h => ?_, fun h => ?_⟩
  · rw [he] at h; cases h
  · have : m.isEstablished = true := isEstablished_iff.mpr (.inr (.inl h))
    rw [he] at this; cases this

theorem inStep_new (enabled : Bool) :
    InStep (OrderStreamStateMachine.new enabled) (OrderUpdateProjection.new.setStreamEnabled enabled) := by
  cases enabled with
  | false => exact ⟨by decide, by decide, by decide⟩
  | true => exact inStep_idle (by decide) (by decide) (by decide)

section

variable (h : InStep m p)
include h

theorem InStep.onConnecting (hm : m.isEstablished = false) : InStep m.onConnecting p.onStreamConnecting := by
  by_cases hd : m.current = .disabled
  · rw [OrderStreamStateMachine.onConnecting, if_pos hd, OrderUpdateProjection.onStreamConnecting,
      if_pos (h.disabled.mp hd)]
    exact h
  · rw [OrderStreamStateMachine.onConnecting, if_neg hd, hm, OrderUpdateProjection.onStreamConnecting,
      if_neg (h.disabled.not.mp hd)]
    exact inStep_idle (by simp) (by simp [isEstablished]) (by simp)

theorem InStep.onSocketOpen : InStep m.onSocketOpen p := by
  unfold OrderStreamStateMachine.onSocketOpen
  by_cases hd : m.current = .disabled
  · rw [if_pos hd]; exact h
  · rw [if_neg hd]
    by_cases he : m.isEstablished
    · rw [if_pos he]; exact h
    · rw [if_neg he]
      exact inStep_idle (by simp) (by simp [isEstablished]) (h.disabled.not.mp hd)

theorem InStep.onIdle : InStep m.onIdle p.onStreamIdle := by
  have hp : p.onStreamIdle.streamState = .disabled ↔ p.streamState = .disabled := by
    unfold OrderUpdateProjection.onStreamIdle
    split
    · rename_i hlive
      rcases hlive with hlive | hlive <;> simp [hlive]
    · rfl
  have hsame : p.onStreamIdle.streamConnected = p.streamConnected ∧
      p.onStreamIdle.streamAuthorised = p.streamAuthorised ∧ p.onStreamIdle.reconcileOwed = p.reconcileOwed := by
    unfold OrderUpdateProjection.onStreamIdle
    split <;> exact ⟨rfl, rfl, rfl⟩
  rw [OrderStreamStateMachine.onIdle]
  by_cases hm : m.current = .ready ∨ m.current = .reconciling
  · rw [if_pos hm]
    have hest : m.isEstablished = true := isEstablished_iff.mpr (by tauto)
    refine ⟨?_, ?_, by simp⟩
    · rw [hp, ← h.disabled]
      rcases hm with hm | hm <;> simp [hm]
    · intro _
      rw [hsame.1, hsame.2.1]
      exact h.established hest
  · rw [if_neg hm]
    refine ⟨h.disabled.trans hp.symm, ?_, ?_⟩
    · rw [hsame.1, hsame.2.1]; exact h.established
    · rw [hsame.2.2]; exact h.ready

theorem InStep.onDisconnected : InStep m.onDisconnected p.onStreamDisconnected := by
  rw [OrderStreamStateMachine.onDisconnected, OrderUpdateProjection.onStreamDisconnected]
  by_cases hd : m.current = .disabled
  · rw [if_pos (.inl hd), if_pos (h.disabled.mp hd)]
    exact h
  · rw [if_neg (h.disabled.not.mp hd)]
    by_cases ha : m.current = .authExpired
    · rw [if_pos (.inr ha)]
      exact inStep_idle hd (by simp [isEstablished, ha]) (by simp)
    · rw [if_neg (by tauto)]
      exact inStep_idle (by simp) (by simp [isEstablished]) (by simp)

theorem InStep.onSessionLost : InStep m.onSessionLost p.onStreamSessionLost := by
  rw [OrderStreamStateMachine.onSessionLost, OrderUpdateProjection.onStreamSessionLost]
  by_cases hd : m.current = .disabled
  · rw [if_pos hd, if_pos (h.disabled.mp hd)]
    exact h
  · rw [if_neg hd, if_neg (h.disabled.not.mp hd)]
    exact inStep_idle (by simp) (by simp [isEstablished]) (by simp)

theorem InStep.setEnabled (enabled : Bool) : InStep (m.setEnabled enabled) (p.setStreamEnabled enabled) := by
  rw [OrderStreamStateMachine.setEnabled, OrderUpdateProjection.setStreamEnabled]
  cases enabled with
  | false => exact ⟨by simp, by simp [isEstablished], by simp⟩
  | true =>
    by_cases hd : m.current = .disabled
    · simp only [if_true, if_pos hd, if_pos (h.disabled.mp hd)]
      exact inStep_idle (by simp) (by simp [isEstablished]) (by simp)
    · simp only [if_true, if_neg hd, if_neg (h.disabled.not.mp hd)]
      exact h

theorem InStep.noteRestVerifiedSession : InStep m.noteRestVerifiedSession p := by
  unfold OrderStreamStateMachine.noteRestVerifiedSession
  split
  · exact h
  · exact ⟨h.disabled, h.established, h.ready⟩

theorem InStep.markSynchronized (atGeneration : Option ℕ) :
    InStep (m.markSynchronized atGeneration).1
      (if (m.markSynchronized atGeneration).2 then p.markReconciled else p) := by
  rcases markSynchronized_cases m atGeneration with heq | ⟨hd, -, heq⟩
  · rw [heq]
    exact h
  · have hp := h.disabled.not.mp hd
    rw [heq, if_pos rfl, OrderUpdateProjection.markReconciled, if_neg hp]
    refine ⟨?_, ?_, fun _ => ⟨rfl, rfl⟩⟩
    · by_cases hm : m.current = .reconciling ∨ m.current = .degraded
      · by_cases hc : p.streamConnected <;> simp [hm, hc, hp]
      · by_cases hc : p.streamConnected <;> simp [hm, hc, hp, hd]
    · intro hest
      refine h.established (isEstablished_iff.mpr ?_)
      rw [isEstablished_iff] at hest
      by_cases hm : m.current = .reconciling ∨ m.current = .degraded
      · tauto
      · simpa [hm] using hest

end

theorem inStep_onAuthenticated {c : OrderStreamConsumer} (h : InStep c.machine c.proj)
    (evidence : OrderStreamAuthEvidence) (now : Number) :
    InStep (c.onAuthenticated evidence now).machine (c.onAuthenticated evidence now).proj := by
  unfold onAuthenticated
  rcases onAuthenticated_cases c.machine evidence with ⟨-, known, heq⟩ | ⟨hd, -, heq⟩
  · simp only [heq]
    exact ⟨h.disabled, h.established, h.ready⟩
  · have hgen : ¬ c.machine.gen + 1 = c.machine.gen := by omega
    simp only [heq, if_neg hgen, OrderUpdateProjection.onStreamConnected, if_neg (h.disabled.not.mp hd)]
    cases c.machine.everConnected <;> exact ⟨by simp, by simp, by simp⟩

variable {c : OrderStreamConsumer}

theorem inStep_sweepEnded (h : InStep c.machine c.proj) (id : ℕ) (verdict : SweepVerdict) (now : Number) :
    InStep (c.sweepEnded id verdict now).machine (c.sweepEnded id verdict now).proj := by
  unfold sweepEnded
  split
  · exact h
  · rename_i s _
    rcases executeSweep_cases (c.settle id) s.generation verdict now with hs | ⟨-, -, happlied, hs⟩
    · rw [hs.machine]
      exact h.signal hs.signal
    · have hsettled : InStep (c.settle id).machine (c.settle id).proj := h
      have hm := hsettled.markSynchronized (some s.generation)
      rw [if_pos happlied] at hm
      rw [hs.machine]
      exact hm.signal hs.signal

theorem inStep_runReconnectReconciliation (h : InStep c.machine c.proj) :
    InStep c.runReconnectReconciliation.machine c.runReconnectReconciliation.proj := by
  rw [(stream_runReconnectReconciliation c).1, (stream_runReconnectReconciliation c).2]
  exact h

/-! ## Whole runs -/

def NoRepeatedConnecting (c : OrderStreamConsumer) : ConsumerCall → Prop
  | .onConnecting => c.machine.isEstablished = false
  | .driveQuoteSocketLifecycle true _ => c.machine.isEstablished = false
  | _ => True

theorem inStep_driveQuoteSocketLifecycle (h : InStep c.machine c.proj) (connected : Bool) (now : Number)
    (hc : NoRepeatedConnecting c (.driveQuoteSocketLifecycle connected now)) :
    InStep (c.driveQuoteSocketLifecycle connected now).machine (c.driveQuoteSocketLifecycle connected now).proj := by
  unfold driveQuoteSocketLifecycle
  split
  · exact h
  · cases connected with
    | false => exact h.onDisconnected
    | true =>
      refine inStep_runReconnectReconciliation (inStep_onAuthenticated ?_ .brokerAcknowledged now)
      exact (h.onConnecting hc).onSocketOpen

theorem inStep_call (toUpperCase : String → String) (call : ConsumerCall) (h : InStep c.machine c.proj)
    (hc : NoRepeatedConnecting c call) :
    InStep (c.call toUpperCase call).1.machine (c.call toUpperCase call).1.proj := by
  have same : ∀ {c' : OrderStreamConsumer}, SameStream c c' → InStep c'.machine c'.proj := by
    intro c' hs
    rw [hs.machine]
    exact h.signal hs.signal
  cases call with
  | registerIntent args session => exact same (same_registerIntent c args session)
  | markOrderSettled id => exact h
  | learnBrokerOrderId id given => exact same (same_learnBrokerOrderId c id given)
  | ingestStreamObservation obs now reply => exact same (same_ingest toUpperCase c obs now reply .orderUpdate)
  | ingestRestObservation obs source now reply =>
    exact same (same_ingestRestObservation toUpperCase c obs now reply source)
  | onConnecting => exact h.onConnecting hc
  | onSocketOpen => exact h.onSocketOpen
  | onAuthenticated evidence now => exact inStep_onAuthenticated h evidence now
  | markSynchronized g => exact h.markSynchronized g
  | noteRestVerifiedSession => exact h.noteRestVerifiedSession
  | onIdle => exact h.onIdle
  | evaluateIdle now =>
    rcases evaluateIdle_cases c now with heq | heq
    · rw [call, heq]; exact h
    · rw [call, heq]; exact h.onIdle
  | onDisconnected => exact h.onDisconnected
  | onSessionLost => exact h.onSessionLost
  | setStreamEnabled enabled => exact h.setEnabled enabled
  | driveQuoteSocketLifecycle connected now => exact inStep_driveQuoteSocketLifecycle h connected now hc
  | runReconnectReconciliation => exact inStep_runReconnectReconciliation h
  | ensureReconciled now =>
    rcases ensureReconciled_cases c now with heq | heq
    · rw [call, heq]; exact h
    · rw [call, heq]; exact inStep_runReconnectReconciliation h
  | sweepEnded id verdict now => exact inStep_sweepEnded h id verdict now
  | sweepReleased id =>
    rw [call, sweepReleased]
    split <;> exact h

/-- **Health never flatters**: a stream published as live is connected, authorised and reconciled. -/
theorem health_never_flatters (toUpperCase : String → String) (opts : OrderStreamConsumerOptions)
    (calls : List ConsumerCall) (hcalls : Guarded (call toUpperCase) NoRepeatedConnecting (new opts) calls)
    (hlive : (run toUpperCase opts calls).health.state = .live) :
    (run toUpperCase opts calls).health.connected = true ∧
      (run toUpperCase opts calls).health.authorised = true ∧
      (run toUpperCase opts calls).health.reconcilePending = false := by
  have h : InStep (run toUpperCase opts calls).machine (run toUpperCase opts calls).proj :=
    Guarded.invariant (fun c => InStep c.machine c.proj) (fun c a hI hok => inStep_call toUpperCase a hI hok)
      (inStep_new opts.streamEnabled) hcalls
  generalize run toUpperCase opts calls = c at h hlive ⊢
  have hready : c.machine.current = .ready := by
    cases hm : c.machine.current <;> simp_all [health, publishedStateForLifecycle]
  obtain ⟨hconnected, hauthorised⟩ := h.established (isEstablished_iff.mpr (.inr (.inl hready)))
  obtain ⟨howed, howed'⟩ := h.ready hready
  exact ⟨hconnected, hauthorised, by simp [health, reconcilePending, howed, howed']⟩

def firstConnection : List ConsumerCall :=
  [.onConnecting, .onSocketOpen, .onAuthenticated .loginSubmitted (.fin 0), .markSynchronized none]

theorem health_never_flatters_firstConnection :
    (run String.toUpper wired firstConnection).health.state = .live ∧
      (run String.toUpper wired firstConnection).health.connected = true := by
  have hlive : (run String.toUpper wired firstConnection).health.state = .live := by decide
  have hcalls : Guarded (call String.toUpper) NoRepeatedConnecting (new wired) firstConnection :=
    ⟨by unfold NoRepeatedConnecting; decide, trivial, trivial, trivial, trivial⟩
  exact ⟨hlive, (health_never_flatters String.toUpper wired firstConnection hcalls hlive).1⟩

/-- A repeated connecting report is absorbed by the machine and not by the projection. -/
theorem health_flatters :
    (run String.toUpper wired (firstConnection ++ [.onConnecting])).health.state = .live ∧
      (run String.toUpper wired (firstConnection ++ [.onConnecting])).health.connected = false := by
  decide

end OrderStreamConsumer

end BoxEngine
