import BoxEngine.Consumer
import BoxEngine.Lib.Run

/-!
# The consumer's stream lifecycle

Transport events reach lifecycle machine and projection. A sweep's verdict and the release of its barrier come in
later steps.
-/

namespace BoxEngine

open Js Run

/-! ## Sweeps -/

structure ReconcileSweepOutcome where
  synchronized : Bool
  reason : Option String

inductive SweepVerdict where
  | threw (message : String)
  | returned (outcome : Option ReconcileSweepOutcome)

namespace OrderStreamConsumer

variable (c : OrderStreamConsumer)

def reconcilePending : Bool := c.machine.reconcileOwed || c.proj.reconcileOwed

/-- Join the sweep already running for this epoch, else start one and publish its barrier. -/
def runReconnectReconciliation : OrderStreamConsumer :=
  if c.sweepInFlight ≠ none ∧ c.sweepInFlightGeneration = some c.machine.gen then c
  else if c.reconcilePending = false then c
  else if c.opts.reconcileSweep = false then
    { c with
      lastSweepFailure :=
        some "no reconciliation sweep is wired, so nothing can prove the account is synchronized" }
  else
    { c with
      sweeps := ⟨c.sweepsStarted, c.machine.gen, false⟩ :: c.sweeps
      sweepsStarted := c.sweepsStarted + 1
      sweepInFlight := some c.sweepsStarted
      sweepInFlightGeneration := some c.machine.gen }

def noteSweepFailure (atGeneration : ℕ) (reason : String) (now : Number) : OrderStreamConsumer :=
  let c := { c with lastSweepFailure := some reason }
  if atGeneration ≠ c.machine.gen then c
  else
    let base := Number.max (.fin 250) (c.opts.reconcileRetryBaseMs.getD (.fin 2000))
    let max := Number.max base (c.opts.reconcileRetryMaxMs.getD (.fin 60000))
    let delay := Number.min max (base.scaleTwo (Nat.min 8 c.sweepAttempts))
    { c with sweepAttempts := c.sweepAttempts + 1, nextSweepNotBeforeWall := some (now.add delay) }

/-- A verdict counts for the connection that asked for it and for no later one. -/
def executeSweep (startedAtGeneration : ℕ) (verdict : SweepVerdict) (now : Number) : OrderStreamConsumer :=
  match verdict with
  | .threw message => c.noteSweepFailure startedAtGeneration ("reconciliation sweep failed: " ++ message) now
  | .returned outcome =>
    if startedAtGeneration ≠ c.machine.gen then
      { c with
        lastSweepFailure := some
          ("a reconciliation result arrived for a superseded connection and was discarded; " ++
            "the current connection still owes its own reconciliation") }
    else match outcome.filter fun o => !o.synchronized with
      | some outcome =>
        c.noteSweepFailure startedAtGeneration
          (outcome.reason.getD "the reconciliation sweep reported the account inconsistent") now
      | none =>
        let (machine, applied) := c.machine.markSynchronized (some startedAtGeneration)
        if applied then
          { c with
            machine
            proj := c.proj.markReconciled
            sweepAttempts := 0
            nextSweepNotBeforeWall := none
            lastSweepFailure := none }
        else c

def settle (id : ℕ) : OrderStreamConsumer :=
  { c with sweeps := c.sweeps.map fun t => if t.id = id then { t with settled := true } else t }

def sweepEnded (id : ℕ) (verdict : SweepVerdict) (now : Number) : OrderStreamConsumer :=
  match c.sweeps.find? fun s => s.id = id ∧ s.settled = false with
  | none => c
  | some s => (c.settle id).executeSweep s.generation verdict now

/-- The `finally` of a settled sweep: the barrier is cleared only if it is still this sweep's. -/
def sweepReleased (id : ℕ) : OrderStreamConsumer :=
  match c.sweeps.find? fun s => s.id = id ∧ s.settled = true with
  | none => c
  | some _ =>
    { c with
      sweeps := c.sweeps.filter fun t => t.id ≠ id
      sweepInFlight := if c.sweepInFlight = some id then none else c.sweepInFlight
      sweepInFlightGeneration := if c.sweepInFlight = some id then none else c.sweepInFlightGeneration }

/-- Start a sweep for a live connection that owes one, once the backoff allows. -/
def ensureReconciled (now : Number) : OrderStreamConsumer :=
  if c.reconcilePending = false then c
  else if c.sweepInFlight ≠ none ∧ c.sweepInFlightGeneration = some c.machine.gen then c
  else if c.opts.reconcileSweep = false then c
  else if c.machine.isEstablished = false then c
  else if c.nextSweepNotBeforeWall.any fun notBefore => now < notBefore then c
  else c.runReconnectReconciliation

def onConnecting : OrderStreamConsumer :=
  { c with machine := c.machine.onConnecting, proj := c.proj.onStreamConnecting }

def onSocketOpen : OrderStreamConsumer :=
  { c with machine := c.machine.onSocketOpen }

def onAuthenticated (evidence : OrderStreamAuthEvidence) (now : Number) : OrderStreamConsumer :=
  let reconnect := c.machine.everConnected
  let machine := c.machine.onAuthenticated evidence
  if machine.gen = c.machine.gen then { c with machine }
  else
    { c with
      machine
      proj := c.proj.onStreamConnected true reconnect
      sweepAttempts := 0
      nextSweepNotBeforeWall := none
      lastStreamEventAtWall := some now }

def markSynchronized (atGeneration : Option ℕ) : OrderStreamConsumer × Bool :=
  let (machine, applied) := c.machine.markSynchronized atGeneration
  ({ c with machine, proj := if applied then c.proj.markReconciled else c.proj }, applied)

def noteRestVerifiedSession : OrderStreamConsumer :=
  { c with machine := c.machine.noteRestVerifiedSession }

def onIdle : OrderStreamConsumer :=
  { c with machine := c.machine.onIdle, proj := c.proj.onStreamIdle }

def onDisconnected : OrderStreamConsumer :=
  { c with machine := c.machine.onDisconnected, proj := c.proj.onStreamDisconnected }

def onSessionLost : OrderStreamConsumer :=
  { c with machine := c.machine.onSessionLost, proj := c.proj.onStreamSessionLost }

def setStreamEnabled (enabled : Bool) : OrderStreamConsumer :=
  { c with machine := c.machine.setEnabled enabled, proj := c.proj.setStreamEnabled enabled }

def evaluateIdle (now : Number) : OrderStreamConsumer :=
  if c.workingOrders = ∅ then c
  else if c.machine.current ≠ .ready ∧ c.machine.current ≠ .reconciling then c
  else match c.lastStreamEventAtWall with
    | none => c
    | some since => if c.expectedIdleMs < now.sub since then c.onIdle else c

def driveQuoteSocketLifecycle (connected : Bool) (now : Number) : OrderStreamConsumer :=
  if c.machine.current = .disabled then c
  else if connected then
    (c.onConnecting.onSocketOpen.onAuthenticated .brokerAcknowledged now).runReconnectReconciliation
  else c.onDisconnected

end OrderStreamConsumer

/-! ## Published health -/

structure OrderStreamHealth where
  state : OrderStreamState
  connected : Bool
  authorised : Bool
  lastEventAt : Option Number
  disconnects : ℕ
  reconcilePending : Bool
  detail : String
  lifecycle : OrderStreamLifecycleState

def publishedStateForLifecycle : OrderStreamLifecycleState → OrderStreamState
  | .disabled => .disabled
  | .connecting => .connecting
  | .authenticating => .connecting
  | .reconciling => .reconnectedPendingReconcile
  | .ready => .live
  | .degraded => .degraded
  | .disconnected => .down
  | .authExpired => .authExpired

def describeLifecycle (lifecycle : OrderStreamLifecycleState) (evidence : OrderStreamAuthEvidence)
    (sweepFailure : Option String) : String :=
  let assumed :=
    if evidence = .loginSubmitted then
      " Authorisation is ASSUMED, not acknowledged: the login frame was sent and has not been " ++
        "rejected, but this protocol publishes no authentication response, so only a successful " ++
        "REST round trip can establish the session."
    else ""
  match lifecycle with
  | .disabled => "Order-update stream disabled — fills are observed by REST polling only."
  | .connecting => "Connecting to the order-update stream…"
  | .authenticating => "Order-update socket open but not yet authorised — a route is not readiness."
  | .reconciling =>
    "Order-update stream connected — a REST reconciliation is owed before it is trusted." ++ assumed ++
      (match sweepFailure with
        | none => ""
        | some failure => " Reconciliation is not complete: " ++ failure)
  | .ready => "Order-update stream live — fills observed here first, REST reconciles."
  | .degraded =>
    "Order-update stream connected but NOT delivering (no event within the expected idle bound " ++
      "while a fill is expected) — REST polling is observing fills. New entry is paused; exit, " ++
      "reduction and protective cancel continue."
  | .disconnected => "Order-update stream is down — REST polling remains the source of truth."
  | .authExpired =>
    "The session behind the order-update stream was rejected or expired — reconnecting with it " ++
      "is pointless. REST polling observes fills; the broker will refuse all but a cancel."

def OrderStreamConsumer.health (c : OrderStreamConsumer) : OrderStreamHealth :=
  let state := publishedStateForLifecycle c.machine.current
  { state
    connected := c.proj.streamConnected
    authorised := c.proj.streamAuthorised
    lastEventAt := c.proj.lastEventAtWall
    disconnects := c.proj.disconnectCount
    reconcilePending := c.reconcilePending
    detail :=
      if state = c.proj.streamState ∧ c.lastSweepFailure = none ∧ c.machine.authEvidence ≠ .loginSubmitted then
        c.proj.describeStream
      else describeLifecycle c.machine.current c.machine.authEvidence c.lastSweepFailure
    lifecycle := c.machine.current }

inductive ConsumerCall where
  | registerIntent (args : RegisterIntentArgs) (session : Option String)
  | markOrderSettled (clientOrderId : String)
  | learnBrokerOrderId (clientOrderId : String) (brokerOrderId : Option String)
  | ingestStreamObservation (obs : NormalizedOrderObservation) (now : Number) (reply : AdapterReply)
  | ingestRestObservation (obs : NormalizedOrderObservation) (source : FillEventSource) (now : Number)
      (reply : AdapterReply)
  | onConnecting
  | onSocketOpen
  | onAuthenticated (evidence : OrderStreamAuthEvidence) (now : Number)
  | markSynchronized (atGeneration : Option ℕ)
  | noteRestVerifiedSession
  | onIdle
  | evaluateIdle (now : Number)
  | onDisconnected
  | onSessionLost
  | setStreamEnabled (enabled : Bool)
  | driveQuoteSocketLifecycle (connected : Bool) (now : Number)
  | runReconnectReconciliation
  | ensureReconciled (now : Number)
  | sweepEnded (id : ℕ) (verdict : SweepVerdict) (now : Number)
  | sweepReleased (id : ℕ)

def OrderStreamConsumer.call (toUpperCase : String → String) (c : OrderStreamConsumer) :
    ConsumerCall → OrderStreamConsumer × Option IngestOutput
  | .registerIntent args session => (c.registerIntent args session, none)
  | .markOrderSettled clientOrderId => (c.markOrderSettled clientOrderId, none)
  | .learnBrokerOrderId clientOrderId brokerOrderId => (c.learnBrokerOrderId clientOrderId brokerOrderId, none)
  | .ingestStreamObservation obs now reply =>
    ((c.ingestStreamObservation toUpperCase obs now reply).1,
      some (c.ingestStreamObservation toUpperCase obs now reply).2)
  | .ingestRestObservation obs source now reply =>
    ((c.ingestRestObservation toUpperCase obs source now reply).1,
      some (c.ingestRestObservation toUpperCase obs source now reply).2)
  | .onConnecting => (c.onConnecting, none)
  | .onSocketOpen => (c.onSocketOpen, none)
  | .onAuthenticated evidence now => (c.onAuthenticated evidence now, none)
  | .markSynchronized atGeneration => ((c.markSynchronized atGeneration).1, none)
  | .noteRestVerifiedSession => (c.noteRestVerifiedSession, none)
  | .onIdle => (c.onIdle, none)
  | .evaluateIdle now => (c.evaluateIdle now, none)
  | .onDisconnected => (c.onDisconnected, none)
  | .onSessionLost => (c.onSessionLost, none)
  | .setStreamEnabled enabled => (c.setStreamEnabled enabled, none)
  | .driveQuoteSocketLifecycle connected now => (c.driveQuoteSocketLifecycle connected now, none)
  | .runReconnectReconciliation => (c.runReconnectReconciliation, none)
  | .ensureReconciled now => (c.ensureReconciled now, none)
  | .sweepEnded id verdict now => (c.sweepEnded id verdict now, none)
  | .sweepReleased id => (c.sweepReleased id, none)

end BoxEngine
