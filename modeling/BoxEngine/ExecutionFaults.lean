import BoxEngine.Lib.Text

/-!
# Execution faults

An error that escaped an entry is classed by the stage that was running, and by its message only where
several subsystems share a stage.
-/

namespace BoxEngine

open Js

structure Thrown where
  errorType : String
  message : String

/-- What a fault was about, by the stage it came from and its message. -/
inductive ExecutionFaultClass where
  | reservationError
  | reservationAuthorityUnavailable
  | executionGatewayError
  | executionSimulatorError
  | executionInvariantError
  | tradePersistenceError
  | positionBookError
  | chargeCalculationError
  | brokerStateError
  | unknownInternalError
  deriving DecidableEq

def ExecutionFaultClass.label : ExecutionFaultClass → String
  | .reservationError => "reservation_error"
  | .reservationAuthorityUnavailable => "reservation_authority_unavailable"
  | .executionGatewayError => "execution_gateway_error"
  | .executionSimulatorError => "execution_simulator_error"
  | .executionInvariantError => "execution_invariant_error"
  | .tradePersistenceError => "trade_persistence_error"
  | .positionBookError => "position_book_error"
  | .chargeCalculationError => "charge_calculation_error"
  | .brokerStateError => "broker_state_error"
  | .unknownInternalError => "unknown_internal_error"

inductive ExecutionStage where
  | reservation
  | preDecision
  | execution
  | finalQualification
  | tradePersistence
  | positionBook
  deriving DecidableEq

def ExecutionStage.label : ExecutionStage → String
  | .reservation => "reservation"
  | .preDecision => "pre_decision"
  | .execution => "execution"
  | .finalQualification => "final_qualification"
  | .tradePersistence => "trade_persistence"
  | .positionBook => "position_book"

/-- The first text occurs and the second one after it. -/
def containsThen (first second : List Char) : List Char → Bool
  | [] => false
  | c :: text =>
    startsWithFold first (c :: text) &&
        containsFold second (((c :: text).drop first.length).takeWhile fun c => c ≠ '\n') ||
      containsThen first second text

/-- The message blames the durable store. -/
def durableAuthority (message : String) : Bool :=
  matchesAny ["reservation", "fencing token", "server timestamp", "connection is not ready"] message ||
    containsThen "is missing the ".toList " index".toList message.toList

def persistence : String → Bool :=
  matchesAny ["persistence is unavailable", "order intent", "mongo", "topology", "e11000", "server selection",
    "write concern", "disappeared"]

def brokerUnknown : String → Bool :=
  matchesAny ["unknown", "ambiguous", "reconcil", "uncertain", "timeout", "time out", "timedout", "timed out",
    "quarantin"]

def invariantMessage : String → Bool :=
  matchesAny ["invariant", "must never", "overfill", "regressed", "impossible"]

def gatewayMessage : String → Bool :=
  matchesAny ["execution manager is unavailable", "live execution is blocked", "no executable reference price"]

def chargesMessage : String → Bool :=
  matchesAny ["charge", "unpriced", "fee", "brokerage", "stt", "gst"]

def isProgrammingError (error : Thrown) : Bool :=
  error.errorType = "TypeError" || error.errorType = "RangeError" || error.errorType = "ReferenceError"

/-- The stage decides first, then what the message blames and whether the program is at fault. -/
def classifyExecutionFault (stage : ExecutionStage) (error : Thrown) : ExecutionFaultClass :=
  let message := error.message
  match stage with
  | .reservation =>
    if durableAuthority message || persistence message then .reservationAuthorityUnavailable
    else if isProgrammingError error then .executionInvariantError
    else .reservationError
  | .preDecision | .finalQualification =>
    if isProgrammingError error then .executionInvariantError else .chargeCalculationError
  | .positionBook => if isProgrammingError error then .executionInvariantError else .positionBookError
  | .tradePersistence =>
    if chargesMessage message && !persistence message then .chargeCalculationError
    else if isProgrammingError error then .executionInvariantError
    else .tradePersistenceError
  | .execution =>
    if invariantMessage message then .executionInvariantError
    else if brokerUnknown message then .brokerStateError
    else if durableAuthority message then .reservationAuthorityUnavailable
    else if persistence message then .tradePersistenceError
    else if gatewayMessage message then .executionGatewayError
    else if chargesMessage message then .chargeCalculationError
    else if isProgrammingError error then .executionSimulatorError
    else .executionGatewayError

structure ExecutionFaultEvent where
  faultClass : ExecutionFaultClass
  stage : ExecutionStage
  broker : Option String
  errorType : String
  message : String
  candidateKey : String
  reservationHeld : Bool
  exposureExisted : Bool
  reachedBroker : Option Bool

end BoxEngine
