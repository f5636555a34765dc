import Mathlib.Data.Nat.Notation

/-!
# The order-stream lifecycle machine

`gen` counts connection epochs: it moves on every accepted authorisation, drop, lost session and disable.
-/

namespace BoxEngine

inductive OrderStreamLifecycleState where
  | disabled
  | connecting
  | authenticating
  | reconciling
  | ready
  | degraded
  | disconnected
  | authExpired
  deriving DecidableEq

inductive OrderStreamAuthEvidence where
  | none
  | loginSubmitted
  | brokerAcknowledged
  | restVerified
  deriving DecidableEq

def OrderStreamAuthEvidence.rank : OrderStreamAuthEvidence → ℕ
  | .none => 0
  | .loginSubmitted => 1
  | .brokerAcknowledged => 2
  | .restVerified => 3

def strongerAuthEvidence (a b : OrderStreamAuthEvidence) : OrderStreamAuthEvidence :=
  if a.rank < b.rank then b else a

/-- One connection after another, each numbered, each owing its own reconciliation. -/
structure OrderStreamStateMachine where
  current : OrderStreamLifecycleState
  everConnected : Bool
  reconcileOwed : Bool
  gen : ℕ
  authEvidence : OrderStreamAuthEvidence

namespace OrderStreamStateMachine

def new (enabled : Bool) : OrderStreamStateMachine where
  current := if enabled then .disconnected else .disabled
  everConnected := false
  reconcileOwed := false
  gen := 0
  authEvidence := .none

variable (m : OrderStreamStateMachine)

/-- Past authentication: the epoch is allocated, its reconciliation owed or proven. -/
def isEstablished : Bool :=
  m.current = .reconciling || m.current = .ready || m.current = .degraded

def setEnabled (enabled : Bool) : OrderStreamStateMachine :=
  if enabled then
    if m.current = .disabled then { m with current := .disconnected } else m
  else { m with gen := m.gen + 1, current := .disabled, reconcileOwed := false, authEvidence := .none }

def onConnecting : OrderStreamStateMachine :=
  if m.current = .disabled then m
  else if m.isEstablished then m
  else { m with current := .connecting }

def onSocketOpen : OrderStreamStateMachine :=
  if m.current = .disabled then m
  else if m.isEstablished then m
  else { m with current := .authenticating }

def onAuthenticated (evidence : OrderStreamAuthEvidence) : OrderStreamStateMachine :=
  if m.current = .disabled then m
  else if m.isEstablished then
    -- A duplicate callback: the epoch stays, so the sweep already running for it stays valid.
    { m with authEvidence := strongerAuthEvidence m.authEvidence evidence }
  else
    { everConnected := true
      reconcileOwed := true
      authEvidence := evidence
      gen := m.gen + 1
      current := .reconciling }

def noteRestVerifiedSession : OrderStreamStateMachine :=
  if m.current = .disabled then m
  else { m with authEvidence := strongerAuthEvidence m.authEvidence .restVerified }

def markSynchronized (atGeneration : Option ℕ) : OrderStreamStateMachine × Bool :=
  if m.current = .disabled then (m, false)
  else if atGeneration.any fun g => g ≠ m.gen then (m, false)
  else
    ({ m with
        reconcileOwed := false
        authEvidence := strongerAuthEvidence m.authEvidence .restVerified
        current := if m.current = .reconciling ∨ m.current = .degraded then .ready else m.current }, true)

def onIdle : OrderStreamStateMachine :=
  if m.current = .ready ∨ m.current = .reconciling then { m with current := .degraded } else m

def onDisconnected : OrderStreamStateMachine :=
  if m.current = .disabled ∨ m.current = .authExpired then m
  else { m with gen := m.gen + 1, reconcileOwed := true, authEvidence := .none, current := .disconnected }

def onSessionLost : OrderStreamStateMachine :=
  if m.current = .disabled then m
  else { m with gen := m.gen + 1, reconcileOwed := true, authEvidence := .none, current := .authExpired }

end OrderStreamStateMachine

end BoxEngine
