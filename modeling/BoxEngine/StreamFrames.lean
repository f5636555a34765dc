import BoxEngine.StreamLifecycle

/-!
# What a call can do to the stream

Observations and registrations leave the stream side of the consumer alone; a synchronization, an
authorisation and a sweep's verdict do one of two things each.
-/

namespace BoxEngine

open Js Run

namespace OrderUpdateProjection

/-- The two projections show the same stream. -/
structure SameSignal (p p' : OrderUpdateProjection) : Prop where
  streamState : p'.streamState = p.streamState
  streamConnected : p'.streamConnected = p.streamConnected
  streamAuthorised : p'.streamAuthorised = p.streamAuthorised
  reconcileOwed : p'.reconcileOwed = p.reconcileOwed

theorem SameSignal.trans {p q r : OrderUpdateProjection} (h : SameSignal p q) (h' : SameSignal q r) :
    SameSignal p r :=
  ⟨h'.1.trans h.1, h'.2.trans h.2, h'.3.trans h.3, h'.4.trans h.4⟩

variable (p : OrderUpdateProjection)

theorem signal_learnBrokerOrderId (c : String) (given : Option String) :
    SameSignal p (p.learnBrokerOrderId c given) := by
  unfold learnBrokerOrderId
  exact ⟨rfl, rfl, rfl, rfl⟩

theorem signal_register (order : RegisteredOrder) : SameSignal p (p.register order) := by
  unfold register
  refine SameSignal.trans ?_ (signal_learnBrokerOrderId _ _ _)
  exact ⟨rfl, rfl, rfl, rfl⟩

theorem signal_deliver (obs : NormalizedOrderObservation) (c : String) : SameSignal p (p.deliver obs c).1 := by
  unfold deliver
  cases p.ledgers c with
  | none => exact ⟨rfl, rfl, rfl, rfl⟩
  | some ledger => by_cases h : obs.quantityAbsent <;> simp only [h] <;> exact ⟨rfl, rfl, rfl, rfl⟩

theorem signal_ingest (obs : NormalizedOrderObservation) : SameSignal p (p.ingest obs).1 := by
  have hd : SameSignal p (p.noteDelivery obs) := by
    unfold noteDelivery
    split <;> exact ⟨rfl, rfl, rfl, rfl⟩
  unfold ingest
  generalize p.noteDelivery obs = q at hd ⊢
  by_cases hm : obs.malformed
  · simp only [hm]
    exact hd
  · simp only [hm]
    cases q.resolveOwner obs with
    | none => exact hd.trans ⟨rfl, rfl, rfl, rfl⟩
    | some c =>
      by_cases hf : q.namesForeignAccount obs c
      · simp only [hf]
        exact hd.trans ⟨rfl, rfl, rfl, rfl⟩
      · have hu : SameSignal q (q.noteUnverified obs c) := by
          unfold noteUnverified
          split <;> exact ⟨rfl, rfl, rfl, rfl⟩
        simp only [hf]
        exact ((hd.trans hu).trans (signal_learnBrokerOrderId _ c obs.brokerOrderId)).trans (signal_deliver _ obs c)

end OrderUpdateProjection

namespace OrderStreamConsumer

/-- The two consumers are in the same state of the stream. -/
structure SameStream (c c' : OrderStreamConsumer) : Prop where
  opts : c'.opts = c.opts
  machine : c'.machine = c.machine
  signal : OrderUpdateProjection.SameSignal c.proj c'.proj
  sweeps : c'.sweeps = c.sweeps
  sweepsStarted : c'.sweepsStarted = c.sweepsStarted
  sweepInFlight : c'.sweepInFlight = c.sweepInFlight
  sweepInFlightGeneration : c'.sweepInFlightGeneration = c.sweepInFlightGeneration

variable (c : OrderStreamConsumer) (id : String)

theorem SameStream.refl : SameStream c c :=
  ⟨rfl, rfl, ⟨rfl, rfl, rfl, rfl⟩, rfl, rfl, rfl, rfl⟩

theorem SameStream.trans {c d e : OrderStreamConsumer} (h : SameStream c d) (h' : SameStream d e) :
    SameStream c e :=
  ⟨h'.1.trans h.1, h'.2.trans h.2, h.3.trans h'.3, h'.4.trans h.4, h'.5.trans h.5, h'.6.trans h.6, h'.7.trans h.7⟩

/-! ## Observations and registrations -/

theorem same_noteForwarded (toUpperCase : String → String) (c : OrderStreamConsumer) (id : String)
    (obs : NormalizedOrderObservation) : SameStream c (c.noteForwarded toUpperCase id obs) :=
  ⟨rfl, rfl, ⟨rfl, rfl, rfl, rfl⟩, rfl, rfl, rfl, rfl⟩

theorem same_settleIfTerminal (merged : Option BrokerOrderState) (result : IngestResult) :
    SameStream c (c.settleIfTerminal id merged result) := by
  unfold settleIfTerminal
  split
  · exact ⟨rfl, rfl, ⟨rfl, rfl, rfl, rfl⟩, rfl, rfl, rfl, rfl⟩
  · split <;> exact ⟨rfl, rfl, ⟨rfl, rfl, rfl, rfl⟩, rfl, rfl, rfl, rfl⟩

theorem same_scheduleReconciliation : SameStream c (c.scheduleReconciliation id) := by
  unfold scheduleReconciliation
  split <;> exact ⟨rfl, rfl, ⟨rfl, rfl, rfl, rfl⟩, rfl, rfl, rfl, rfl⟩

theorem same_escalateWhen (condition : Bool) (id : String) : SameStream c (c.escalateWhen condition id) := by
  unfold escalateWhen
  split
  · exact same_scheduleReconciliation c id
  · exact SameStream.refl c

section
variable (toUpperCase : String → String) (c : OrderStreamConsumer) (id : String) (obs : NormalizedOrderObservation)
  (result : IngestResult) (now : Number) (reply : AdapterReply)

theorem same_forward (absent : Bool) : SameStream c (c.forward toUpperCase id obs absent result now reply).1 :=
  (same_noteForwarded toUpperCase c id obs).trans (same_settleIfTerminal _ id _ result)

theorem same_ingestConfirmed : SameStream c (c.ingestConfirmed toUpperCase id obs result now reply).1 := by
  unfold ingestConfirmed
  simp only
  split
  · exact same_scheduleReconciliation c id
  · have hescalated := (same_escalateWhen c (result.apply.map (·.outcome) = some .appliedOverfill) id).trans
      (same_escalateWhen _ (c.classifyNonQuantityChange toUpperCase id obs).contradictsTerminal id)
    split
    · exact hescalated.trans (same_forward toUpperCase _ id obs result now reply false)
    · exact hescalated.trans (same_settleIfTerminal _ id none result)

theorem same_ingestOwned : SameStream c (c.ingestOwned toUpperCase id obs result now reply).1 := by
  unfold ingestOwned
  split
  · exact (same_forward toUpperCase c id obs result now reply true).trans (same_scheduleReconciliation _ id)
  · exact same_ingestConfirmed toUpperCase c id obs result now reply

theorem same_observe : SameStream c (c.observe obs).1 :=
  ⟨rfl, rfl, OrderUpdateProjection.signal_ingest c.proj obs, rfl, rfl, rfl, rfl⟩

/-- No observation changes the state of the stream. -/
theorem same_ingest (source : FillEventSource) : SameStream c (c.ingest toUpperCase obs source now reply).1 := by
  have h := same_observe c (stamp obs source now)
  unfold ingest
  generalize c.observe (stamp obs source now) = observed at h ⊢
  obtain ⟨d, result⟩ := observed
  simp only at h ⊢
  split
  · exact h.trans (same_ingestOwned toUpperCase d _ _ _ now reply)
  · exact h

theorem same_ingestRestObservation (source : FillEventSource) :
    SameStream c (c.ingestRestObservation toUpperCase obs source now reply).1 := by
  have h := same_ingest toUpperCase c obs now reply source
  unfold ingestRestObservation
  simp only
  split
  · split
    · exact ⟨h.1, h.2, h.3, h.4, h.5, h.6, h.7⟩
    · exact h
  · exact h

theorem same_registerIntent (args : RegisterIntentArgs) (session : Option String) :
    SameStream c (c.registerIntent args session) :=
  ⟨rfl, rfl, OrderUpdateProjection.signal_register c.proj _, rfl, rfl, rfl, rfl⟩

theorem same_learnBrokerOrderId (given : Option String) : SameStream c (c.learnBrokerOrderId id given) := by
  have hp := OrderUpdateProjection.signal_learnBrokerOrderId c.proj id given
  unfold learnBrokerOrderId
  exact ⟨rfl, rfl, hp, rfl, rfl, rfl, rfl⟩

end

open OrderStreamStateMachine (isEstablished)

theorem isEstablished_iff {m : OrderStreamStateMachine} :
    m.isEstablished = true ↔ m.current = .reconciling ∨ m.current = .ready ∨ m.current = .degraded := by
  simp [isEstablished, or_assoc]

theorem markSynchronized_cases (m : OrderStreamStateMachine) (atGeneration : Option ℕ) :
    m.markSynchronized atGeneration = (m, false) ∨
      m.current ≠ .disabled ∧ (∀ g, atGeneration = some g → g = m.gen) ∧
        m.markSynchronized atGeneration =
          ({ m with
              reconcileOwed := false
              authEvidence := strongerAuthEvidence m.authEvidence .restVerified
              current := if m.current = .reconciling ∨ m.current = .degraded then .ready else m.current }, true) := by
  unfold OrderStreamStateMachine.markSynchronized
  by_cases hd : m.current = .disabled
  · rw [if_pos hd]
    exact .inl rfl
  · rw [if_neg hd]
    by_cases hgen : atGeneration.any (fun g => g ≠ m.gen) = true
    · rw [if_pos hgen]
      exact .inl rfl
    · rw [if_neg hgen]
      refine .inr ⟨hd, ?_, rfl⟩
      rintro g rfl
      simpa using hgen

theorem onAuthenticated_cases (m : OrderStreamStateMachine) (evidence : OrderStreamAuthEvidence) :
    (m.current = .disabled ∨ m.isEstablished = true) ∧
        (∃ known, m.onAuthenticated evidence = { m with authEvidence := known }) ∨
      m.current ≠ .disabled ∧ m.isEstablished = false ∧
        m.onAuthenticated evidence = ⟨.reconciling, true, true, m.gen + 1, evidence⟩ := by
  unfold OrderStreamStateMachine.onAuthenticated
  by_cases hd : m.current = .disabled
  · rw [if_pos hd]
    exact .inl ⟨.inl hd, m.authEvidence, rfl⟩
  · rw [if_neg hd]
    by_cases he : m.isEstablished = true
    · rw [if_pos he]
      exact .inl ⟨.inr he, _, rfl⟩
    · rw [if_neg he]
      exact .inr ⟨hd, by simpa using he, rfl⟩

/-! ## Sweeps and polls -/

theorem same_noteSweepFailure (g : ℕ) (reason : String) (now : Number) :
    SameStream c (c.noteSweepFailure g reason now) := by
  unfold noteSweepFailure
  simp only
  split <;> exact ⟨rfl, rfl, ⟨rfl, rfl, rfl, rfl⟩, rfl, rfl, rfl, rfl⟩

end OrderStreamConsumer

def SweepVerdict.Accepts : SweepVerdict → Prop
  | .threw _ => False
  | .returned outcome => ∀ o, outcome = some o → o.synchronized = true

namespace OrderStreamConsumer

variable (c : OrderStreamConsumer) (now : Number)

/-- A sweep's verdict is noted, or synchronizes the stream it was asked for. -/
theorem executeSweep_cases (g : ℕ) (verdict : SweepVerdict) (now : Number) :
    SameStream c (c.executeSweep g verdict now) ∨
      verdict.Accepts ∧ g = c.machine.gen ∧ (c.machine.markSynchronized (some g)).2 = true ∧
        SameStream { c with machine := (c.machine.markSynchronized (some g)).1, proj := c.proj.markReconciled }
          (c.executeSweep g verdict now) := by
  unfold executeSweep
  cases verdict with
  | threw message => exact .inl (same_noteSweepFailure c g _ now)
  | returned outcome =>
    by_cases hg : g = c.machine.gen
    · simp only [ne_eq, hg, not_true_eq_false, if_false]
      cases ho : outcome.filter fun o => !o.synchronized with
      | some o => exact .inl (same_noteSweepFailure c _ _ now)
      | none =>
        have haccepts : SweepVerdict.Accepts (.returned outcome) := by
          rintro o rfl
          simpa using Option.filter_eq_none_iff.mp ho o rfl
        simp only
        split
        · rename_i happlied
          refine .inr ⟨haccepts, trivial, happlied, ?_⟩
          exact ⟨rfl, rfl, ⟨rfl, rfl, rfl, rfl⟩, rfl, rfl, rfl, rfl⟩
        · exact .inl (SameStream.refl c)
    · simp only [ne_eq, hg, not_false_eq_true, if_true]
      exact .inl ⟨rfl, rfl, ⟨rfl, rfl, rfl, rfl⟩, rfl, rfl, rfl, rfl⟩

theorem stream_runReconnectReconciliation :
    c.runReconnectReconciliation.machine = c.machine ∧ c.runReconnectReconciliation.proj = c.proj := by
  unfold runReconnectReconciliation
  split
  · exact ⟨rfl, rfl⟩
  · split
    · exact ⟨rfl, rfl⟩
    · split <;> exact ⟨rfl, rfl⟩

theorem evaluateIdle_cases : c.evaluateIdle now = c ∨ c.evaluateIdle now = c.onIdle := by
  unfold evaluateIdle
  split
  · exact .inl rfl
  · split
    · exact .inl rfl
    · split
      · exact .inl rfl
      · split
        · exact .inr rfl
        · exact .inl rfl

theorem ensureReconciled_cases :
    c.ensureReconciled now = c ∨ c.ensureReconciled now = c.runReconnectReconciliation := by
  unfold ensureReconciled
  repeat' split
  all_goals first | exact .inl rfl | exact .inr rfl

def wired : OrderStreamConsumerOptions where
  adapter := true
  streamEnabled := true
  restReconcile := true
  reconcileSweep := true
  reconcileRetryBaseMs := none
  reconcileRetryMaxMs := none
  expectedIdleMs := none

def run (toUpperCase : String → String) (opts : OrderStreamConsumerOptions) (calls : List ConsumerCall) :
    OrderStreamConsumer :=
  finish (call toUpperCase) (new opts) calls

theorem run_snoc (toUpperCase : String → String) (opts : OrderStreamConsumerOptions) (calls : List ConsumerCall)
    (x : ConsumerCall) :
    run toUpperCase opts (calls ++ [x]) = ((run toUpperCase opts calls).call toUpperCase x).1 := by
  rw [run, finish_append]
  rfl

end OrderStreamConsumer

end BoxEngine
