import BoxEngine.OwnedExecutions
import BoxEngine.ResidualProjection

/-!
# The residual-flattening loop

What a failed entry left, worked by passes that do not wait for one another and shrunk by what the attempt's row
answers. A store call is processed at one step and answered at a later one. Nothing of the engine reads the first
owners and what was sent.
-/

namespace BoxEngine

open Js

inductive BrokerId where
  | zerodha
  | dhan
  deriving DecidableEq

inductive RecordedMode where
  | stated (mode : ExecutionMode)
  | other (text : String)
  deriving DecidableEq

structure ResidualOwner where
  mode : RecordedMode
  broker : BrokerId
  deriving DecidableEq

structure AttemptRow where
  id : String
  owner : ResidualOwner
  snapshot : ProjectionSnapshot

/-- `residualByAttempt` and `residualOwnershipByAttempt`, which are set and deleted together. -/
structure OutstandingResidual where
  id : AttemptId
  residual : List ResidualLegExposure
  owner : ResidualOwner

structure PendingProjection where
  id : AttemptId
  command : ProjectionCommand

inductive LoopAwait where
  | retry (id : AttemptId) (command : ProjectionCommand)
  | flatten (id : AttemptId) (residual : List ResidualLegExposure) (expectedVersion : Option ℕ)
  | projection (id : AttemptId) (command : ProjectionCommand)

structure LoopPass where
  awaiting : LoopAwait
  reply : Option ProjectionResult
  retries : List PendingProjection
  residuals : List OutstandingResidual

structure SentFlatten where
  id : AttemptId
  mode : ExecutionMode
  broker : BrokerId
  owner : Option ResidualOwner

structure ResidualLoop where
  activeBroker : BrokerId
  switching : Option BrokerId
  loaded : Bool
  attemptRows : List AttemptRow
  residualByAttempt : List OutstandingResidual
  residualProjectionVersion : AttemptId → Option ℕ
  pendingResidualPersists : List PendingProjection
  residualFlattenInFlight : Finset AttemptId
  passes : List LoopPass
  owners : AttemptId → Option ResidualOwner
  sent : List SentFlatten

inductive LoopEvent where
  | loaded
  | attempted (key : String) (residual : List ResidualLegExposure) (attemptId : Option String) (now : Number)
  | recovering (id : String)
  | tick (healthy : Bool)
  | flattened (pass : ℕ) (remaining : List ResidualLegExposure) (charges : Number) (day : String) (healthy : Bool)
  | flattenThrew (pass : ℕ)
  | processed (pass : ℕ)
  | answered (pass : ℕ) (healthy : Bool)
  | storeThrew (pass : ℕ) (healthy : Bool)
  | switchStarted (target : BrokerId)
  | switched

def AttemptId.text : AttemptId → String
  | .stored id => id
  | .unstored key now => "local:" ++ key ++ ":" ++ now.toText

def statedExecutionMode : RecordedMode → Option ExecutionMode
  | .stated mode => some mode
  | .other _ => none

def isPaperExecutionMode (mode : ExecutionMode) : Bool := mode ≠ .live

namespace ResidualLoop

section

variable (mode : ExecutionMode)
variable (s : ResidualLoop)
variable (id : AttemptId)

def outstanding : Option OutstandingResidual :=
  s.residualByAttempt.find? fun entry => entry.id = id

/-- Whether this process must not flatten the attempt; one without a recorded owner is its own. -/
def residualOwnershipMismatch : Bool :=
  match s.outstanding id with
  | none => false
  | some entry =>
    (statedExecutionMode entry.owner.mode).any (fun stated => isPaperExecutionMode stated ≠ isPaperExecutionMode mode) ||
      decide (entry.owner.broker ≠ s.activeBroker)

def own : ResidualOwner := ⟨.stated mode, s.activeBroker⟩

def registerResidual (residual : List ResidualLegExposure) (version : ℕ) (owner : ResidualOwner) : ResidualLoop :=
  let residualProjectionVersion := Function.update s.residualProjectionVersion id (some version)
  if residual.isEmpty then
    { s with
      residualProjectionVersion
      residualByAttempt := s.residualByAttempt.filter fun entry => entry.id ≠ id }
  else
    { s with
      residualProjectionVersion
      residualByAttempt := Keyed.put OutstandingResidual.id s.residualByAttempt ⟨id, residual, owner⟩
      owners := if (s.outstanding id).isSome then s.owners else Function.update s.owners id (some owner) }

def compactProjectionBookkeeping : ResidualLoop :=
  { s with
    residualProjectionVersion := fun id =>
      if (s.outstanding id).isSome ∨ id ∈ s.pendingResidualPersists.map PendingProjection.id then
        s.residualProjectionVersion id
      else none }

def acknowledge (result : ProjectionResult) : ResidualLoop :=
  match result.status, result.residualExposure, result.projectionVersion, result.projectionIdentity with
  | .notFound, _, _, _ => s
  | _, some residual, some version, some _ =>
    let acknowledged : ResidualLoop :=
      { s with pendingResidualPersists := s.pendingResidualPersists.filter fun pending => pending.id ≠ id }
    let registered := acknowledged.registerResidual id residual version (s.own mode)
    if residual.isEmpty then registered.compactProjectionBookkeeping else registered
  | _, _, _, _ => s

def comeTo (s : ResidualLoop) : List OutstandingResidual → ResidualLoop × Option LoopPass
  | [] => (s, none)
  | entry :: rest =>
    if entry.id ∈ s.pendingResidualPersists.map PendingProjection.id then comeTo s rest
    else if entry.id ∈ s.residualFlattenInFlight then comeTo s rest
    else if s.residualOwnershipMismatch mode entry.id then comeTo s rest
    else if entry.residual.any residualRejectionBudgetExhausted then comeTo s rest
    else
      ({ s with
          residualFlattenInFlight := insert entry.id s.residualFlattenInFlight
          sent := s.sent ++ [⟨entry.id, mode, s.activeBroker, s.owners entry.id⟩] },
        some ⟨.flatten entry.id entry.residual none, none, [], rest⟩)

def retryNext (healthy : Bool) : List PendingProjection → ResidualLoop × Option LoopPass
  | pending :: rest => (s, some ⟨.retry pending.id pending.command, none, rest, []⟩)
  | [] => if healthy then s.comeTo mode s.residualByAttempt else (s, none)

def continueWith (n : ℕ) (next : ResidualLoop × Option LoopPass) : ResidualLoop :=
  match next.2 with
  | some pass => { next.1 with passes := next.1.passes.set n pass }
  | none => { next.1 with passes := next.1.passes.eraseIdx n }

def park (command : ProjectionCommand) : ResidualLoop :=
  { s with pendingResidualPersists := Keyed.put PendingProjection.id s.pendingResidualPersists ⟨id, command⟩ }

def leave : ResidualLoop :=
  { s with residualFlattenInFlight := s.residualFlattenInFlight.erase id }

/-- What a pass awaits is over. A retry that found nothing stays pending; a first write that did is parked. -/
def resume (n : ℕ) (pass : LoopPass) (result : Option ProjectionResult) (healthy : Bool) : ResidualLoop :=
  match pass.awaiting with
  | .retry id _ =>
    let s := result.elim s (s.acknowledge mode id)
    continueWith n (s.retryNext mode healthy pass.retries)
  | .flatten id _ _ => continueWith n ((s.leave id).comeTo mode pass.residuals)
  | .projection id command =>
    let s := result.elim s (s.acknowledge mode id)
    let parked := if result.all fun result => result.status = .notFound then s.park id command else s
    continueWith n ((parked.leave id).comeTo mode pass.residuals)

end

def project (sha256 : Sha256) (rows : List AttemptRow) (id : AttemptId) (command : ProjectionCommand) :
    List AttemptRow × ProjectionResult :=
  match id with
  | .unstored _ _ => (rows, notFoundResult)
  | .stored id =>
    match rows.find? fun row => row.id = id with
    | none => (rows, notFoundResult)
    | some row =>
      let (result, after) := applyBoxExecutionAttemptProjection sha256 (some row.snapshot) command
      (Keyed.replace AttemptRow.id rows { row with snapshot := after.getD row.snapshot }, result)

def LoopAwait.call : LoopAwait → Option (AttemptId × ProjectionCommand)
  | .retry id command => some (id, command)
  | .projection id command => some (id, command)
  | .flatten _ _ _ => none

/-! ## Steps -/

variable (sha256 : Sha256) (mode : ExecutionMode)

def newAttempt (id : String) (residual : List ResidualLegExposure) : AttemptRow where
  id
  owner := ⟨.stated mode, .zerodha⟩
  snapshot :=
    { projectionVersion := some (.fin 0)
      residualProjectionIdentity := some (residualProjectionIdentity sha256 residual)
      residualExposure := some residual
      flattenCharges := some (.fin 0)
      flattenChargeDay := none
      flattenChargesForDay := some (.fin 0)
      appliedFlattenApplications := some []
      resolved := some residual.isEmpty }

variable (s : ResidualLoop)

def registerRow (row : AttemptRow) : ResidualLoop :=
  if row.snapshot.resolved = some false ∧ (row.snapshot.residualExposure.getD []).isEmpty = false then
    s.registerResidual (.stored row.id) (row.snapshot.residualExposure.getD []) (readVersion row.snapshot.projectionVersion)
      row.owner
  else s

def tick (healthy : Bool) : ResidualLoop :=
  if s.residualByAttempt.isEmpty && s.pendingResidualPersists.isEmpty then s
  else
    let (s, pass) := s.retryNext mode healthy s.pendingResidualPersists
    { s with passes := s.passes ++ pass.toList }

def command (id : AttemptId) (residual : List ResidualLegExposure) (expectedVersion : Option ℕ)
    (remaining : List ResidualLegExposure) (charges : Number) (day : String) : ProjectionCommand :=
  createResidualProjectionCommand sha256
    ⟨id.text, .fin (expectedVersion.getD ((s.residualProjectionVersion id).getD 0)), residual, remaining, charges, day⟩

def flattened (n : ℕ) (remaining : List ResidualLegExposure) (charges : Number) (day : String)
    (healthy : Bool) : ResidualLoop :=
  match s.passes[n]? with
  | some pass =>
    match pass.awaiting with
    | .flatten id residual expectedVersion =>
      let command := s.command sha256 id residual expectedVersion remaining charges day
      if command.changes then { s with passes := s.passes.set n { pass with awaiting := .projection id command } }
      else s.resume mode n pass none healthy
    | _ => s
  | none => s

def step : LoopEvent → ResidualLoop × Unit
  | .loaded => (if s.loaded then s else { s.attemptRows.foldl registerRow s with loaded := true }, ())
  | .attempted key residual attemptId now =>
    let stored := attemptId.filter fun id => id ∉ s.attemptRows.map AttemptRow.id
    let s := { s with attemptRows := s.attemptRows ++ stored.toList.map fun id => newAttempt sha256 mode id residual }
    (if residual.isEmpty then s
      else s.registerResidual (stored.elim (.unstored key now) .stored) residual 0 (s.own mode), ())
  | .recovering id =>
    match s.attemptRows.find? fun row => row.id = id with
    | none => (s, ())
    | some row =>
      let residual := row.snapshot.residualExposure.getD []
      let version := readVersion row.snapshot.projectionVersion
      let registered := s.registerResidual (.stored id) residual version (s.own mode)
      -- Flattening nothing sends nothing and changes nothing.
      (if residual.isEmpty then registered
        else { registered with
          residualFlattenInFlight := insert (.stored id) s.residualFlattenInFlight
          sent := s.sent ++ [⟨.stored id, mode, s.activeBroker, registered.owners (.stored id)⟩]
          passes := s.passes ++ [⟨.flatten (.stored id) residual (some version), none, [], []⟩] }, ())
  | .tick healthy => (s.tick mode healthy, ())
  | .flattened n remaining charges day healthy => (s.flattened sha256 mode n remaining charges day healthy, ())
  | .flattenThrew n =>
    (match s.passes[n]? with
      | some pass => match pass.awaiting with
        | .flatten _ _ _ => s.resume mode n pass none true
        | _ => s
      | none => s, ())
  | .processed n =>
    (match s.passes[n]? with
      | some pass => match pass.reply, LoopAwait.call pass.awaiting with
        | none, some (id, command) =>
          let (attemptRows, result) := project sha256 s.attemptRows id command
          { s with attemptRows, passes := s.passes.set n { pass with reply := some result } }
        | _, _ => s
      | none => s, ())
  | .answered n healthy =>
    (match s.passes[n]? with
      | some pass => match pass.reply with
        | some result => s.resume mode n pass (some result) healthy
        | none => s
      | none => s, ())
  | .storeThrew n healthy =>
    (match s.passes[n]? with
      | some pass => match LoopAwait.call pass.awaiting with
        | some _ => s.resume mode n pass none healthy
        | none => s
      | none => s, ())
  | .switchStarted target => (if s.residualByAttempt.isEmpty then { s with switching := some target } else s, ())
  | .switched =>
    (match s.switching with
      | some target => { s with activeBroker := target, switching := none }
      | none => s, ())

/-! ## Only the store writes rows -/

section

variable {mode : ExecutionMode}
variable (s : ResidualLoop)

@[simp] theorem registerResidual_attemptRows (id : AttemptId) (residual : List ResidualLegExposure) (version : ℕ)
    (owner : ResidualOwner) : (s.registerResidual id residual version owner).attemptRows = s.attemptRows := by
  unfold registerResidual
  split <;> rfl

@[simp] theorem acknowledge_attemptRows (id : AttemptId) (result : ProjectionResult) :
    (s.acknowledge mode id result).attemptRows = s.attemptRows := by
  unfold acknowledge
  split
  · rfl
  · simp only
    split
    · exact registerResidual_attemptRows ..
    · exact registerResidual_attemptRows ..
  · rfl

@[simp] theorem comeTo_attemptRows (residuals : List OutstandingResidual) :
    (s.comeTo mode residuals).1.attemptRows = s.attemptRows := by
  induction residuals with
  | nil => rfl
  | cons entry rest ih =>
    unfold comeTo
    split
    · exact ih
    · split
      · exact ih
      · split
        · exact ih
        · split
          · exact ih
          · rfl

@[simp] theorem retryNext_attemptRows (healthy : Bool) (retries : List PendingProjection) :
    (s.retryNext mode healthy retries).1.attemptRows = s.attemptRows := by
  cases retries with
  | nil =>
    simp only [retryNext]
    split
    · exact comeTo_attemptRows ..
    · rfl
  | cons pending rest => rfl

@[simp] theorem continueWith_attemptRows (n : ℕ) (next : ResidualLoop × Option LoopPass) :
    (continueWith n next).attemptRows = next.1.attemptRows := by
  unfold continueWith
  split <;> rfl

@[simp] theorem resume_attemptRows (n : ℕ) (pass : LoopPass) (result : Option ProjectionResult) (healthy : Bool) :
    (s.resume mode n pass result healthy).attemptRows = s.attemptRows := by
  have hacknowledged : ∀ id, (result.elim s (s.acknowledge mode id)).attemptRows = s.attemptRows := by
    intro id
    cases result with
    | none => rfl
    | some result => exact acknowledge_attemptRows ..
  unfold resume
  split
  · simp [hacknowledged]
  · simp [leave]
  · simp only [continueWith_attemptRows, comeTo_attemptRows, leave]
    split
    · exact hacknowledged _
    · exact hacknowledged _

end

end ResidualLoop

end BoxEngine
