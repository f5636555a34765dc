import BoxEngine.HedgeCoverage

/-!
# The hedge-first gate of an entry attempt

One gate an attempt: the ranks that registered, how each was decided, who is parked behind the BUY
hedges, and the proof of their fills.
-/

namespace BoxEngine

open Js

structure LiveEntryTransportGuard where
  transportRank : ℕ
  hedge : Bool
  hedgeCount : ℕ

inductive TransportOutcome where
  | posted | noPost
  deriving DecidableEq

structure EntryTransportWaiter where
  rank : ℕ
  leg : ℕ

structure EntryTransportGate where
  registered : List ℕ
  decided : List (ℕ × TransportOutcome)
  waiters : List EntryTransportWaiter
  hedgeFailure : Option String
  coverage : HedgeCoverageLedger
  hedgeRequirements : ℕ → Option HedgeRequirement
  hedgeCount : ℕ
  brokerAccountKey : String

namespace EntryTransportGate

def new (attemptId : String) (guard : LiveEntryTransportGuard) (brokerAccountKey : String) : EntryTransportGate where
  registered := []
  decided := []
  waiters := []
  hedgeFailure := none
  coverage := .new attemptId
  hedgeRequirements _ := none
  hedgeCount := guard.hedgeCount
  brokerAccountKey

variable (gate : EntryTransportGate)
variable (request : BrokerOrderRequest)

def requirementOf : HedgeRequirement where
  attemptId := request.attemptId
  role := request.role
  token := request.token
  tradingsymbol := request.tradingsymbol
  side := request.side
  brokerAccount := gate.brokerAccountKey
  requiredQuantity := request.quantity

def register (guard : LiveEntryTransportGuard) (request : BrokerOrderRequest) : EntryTransportGate :=
  { gate with
    registered := if guard.transportRank ∈ gate.registered then gate.registered else gate.registered ++ [guard.transportRank]
    hedgeCount := max gate.hedgeCount guard.hedgeCount
    hedgeRequirements :=
      if guard.hedge then Function.update gate.hedgeRequirements guard.transportRank (some (gate.requirementOf request))
      else gate.hedgeRequirements }

def hasDecided (rank : ℕ) : Bool := rank ∈ gate.decided.map Prod.fst

def entryAllRanksDecided : Bool := gate.registered.all gate.hasDecided

def entryHedgesDecided (rank : ℕ) : Bool :=
  rank < gate.hedgeCount || (List.range gate.hedgeCount).all gate.hasDecided

def alreadyExposed : Bool := gate.decided.any fun entry => entry.2 = .posted

/-! ## Deciding a rank -/

/-- Only a terminal snapshot of the broker carries a quantity, under the broker's own contract and side. -/
def hedgeEvidenceFrom (outcome : TransportOutcome)
    (order : Option BrokerOrder) (reason : Option String) : HedgeOutcomeEvidence :=
  let unproven : HedgeOutcomeEvidence :=
    { attemptId := request.attemptId
      role := request.role
      token := (order.map BrokerOrder.token).getD request.token
      tradingsymbol := (order.map BrokerOrder.tradingsymbol).getD request.tradingsymbol
      side := (order.map BrokerOrder.side).getD request.side
      brokerAccount := gate.brokerAccountKey
      requestedQuantity := request.quantity
      confirmedFillQuantity := none
      terminal := false
      detail :=
        match reason, order with
        | some reason, _ => s!"hedge outcome not proven terminal: {reason}"
        | none, some order =>
          let state := order.state.label
          s!"hedge state {state} is not a terminal proof of fill"
        | none, none => "hedge outcome not proven terminal" }
  match order.filter fun order => isBrokerOrderTerminal order.state with
  | some order =>
    let state := order.state.label
    let filled := order.filledQuantity.toText
    let quantity := order.quantity.toText
    let contract := order.tradingsymbol
    let token := order.token.toText
    { unproven with
      confirmedFillQuantity := some order.filledQuantity
      terminal := true
      detail := s!"broker terminal {state} filled {filled}/{quantity} on {contract}/{token}" }
  | none =>
    -- an order that was never posted is proven unfilled
    if outcome = .noPost then
      { unproven with
        token := request.token
        tradingsymbol := request.tradingsymbol
        side := request.side
        terminal := true
        detail :=
          match reason with
          | some reason => s!"no broker POST: {reason}"
          | none => "no broker POST" }
    else unproven

def ready : List EntryTransportWaiter :=
  gate.waiters.filter fun waiter => gate.entryHedgesDecided waiter.rank

def wakeReady : EntryTransportGate :=
  { gate with waiters := gate.waiters.filter fun waiter => ¬ gate.entryHedgesDecided waiter.rank }

def hedgeFailureText (outcome : TransportOutcome) (reason : String) : String :=
  let role := request.role.label
  let side := sideLabel request.side
  let how := if outcome = .noPost then "did not reach the broker" else "failed at the broker"
  s!"{role} ({side}) {how}: {reason}"

def decide (guard : LiveEntryTransportGuard)
    (outcome : TransportOutcome) (reason : Option String) (terminalOrder : Option BrokerOrder) : EntryTransportGate :=
  { gate with
    decided := if gate.hasDecided guard.transportRank then gate.decided else gate.decided ++ [(guard.transportRank, outcome)]
    hedgeFailure :=
      if guard.hedge then gate.hedgeFailure <|> reason.map (hedgeFailureText request outcome) else gate.hedgeFailure
    coverage :=
      if guard.hedge then gate.coverage.record (gate.hedgeEvidenceFrom request outcome terminalOrder reason)
      else gate.coverage }

/-- The gate is dropped once nobody waits and every registered rank has decided. -/
def droppable : Bool := gate.waiters.isEmpty && gate.entryAllRanksDecided

def requirements : Except ℕ (List HedgeRequirement) :=
  (List.range gate.hedgeCount).mapM fun rank =>
    match gate.hedgeRequirements rank with
    | some req => .ok req
    | none => .error rank

end EntryTransportGate

def entryHedgeCoverageGap (attemptId : String) (gate : Option EntryTransportGate) (stage : LiveEntryGuardStage) :
    Option String :=
  if stage ≠ .prePost then none
  else
    match gate with
    | none => some s!"no transport gate for attempt {attemptId}; hedge coverage is unprovable"
    | some gate =>
      match gate.requirements with
      | .error rank =>
        some s!"hedge rank {rank} has not declared its identity for attempt {attemptId}; coverage is unprovable"
      | .ok reqs => gate.coverage.coverageGapFor reqs

/-- Coherence and economics object at the last checkpoint, while nothing of the attempt has been sent. -/
def sendBoundaryGap (gate : Option EntryTransportGate) (stage : LiveEntryGuardStage) (objection : Option String) :
    Option String :=
  if stage ≠ .prePost ∨ gate.any EntryTransportGate.alreadyExposed then none else objection

end BoxEngine
