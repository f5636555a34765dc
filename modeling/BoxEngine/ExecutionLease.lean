import BoxEngine.ExecutionLeaseStore
import BoxEngine.Lib.Run
import BoxEngine.Lib.Text

/-!
# The execution lease manager

A manager caches what the table last told it and ages that by its own clock. A statement runs, and its answer arrives,
at any later time.
-/

namespace BoxEngine

namespace Ownership

/-! ## State -/

structure ExecutionLeaseManagerDeps where
  deployment : String
  owner : String
  ttlMs : Option ℚ
  guardMarginMs : Option ℚ
  clock : ℚ
  reconcileAfterTakeover : Bool

namespace ExecutionLeaseManagerDeps

variable (deps : ExecutionLeaseManagerDeps)

def now (at_ : ℚ) : ℚ := at_ + deps.clock

def ttl : ℚ := max 2000 (deps.ttlMs.getD 30000)

def margin : ℚ := max 0 (deps.guardMarginMs.getD 5000)

end ExecutionLeaseManagerDeps

structure Surroundings where
  broker : String
  account : Option String
  persistenceAvailable : Bool
  liveCapable : Bool

def Surroundings.scope? (around : Surroundings) (deployment : String) : Option String :=
  around.account.map fun account => executionLeaseScope deployment around.broker account

inductive ExecutionLeaseUse where
  | newEntry
  | exposureReduction
  deriving DecidableEq

structure ObservedLease where
  scope : String
  owner : String
  fence : ℕ
  account : String
  broker : String
  remainingAtObservationMs : ℤ
  observedAtLocal : ℚ
  reconciled : Bool
  takeoverReason : TakeoverReason
  deriving DecidableEq

def ObservedLease.name (lease : ObservedLease) : LeaseName := ⟨lease.scope, lease.owner, lease.fence⟩

inductive ExecutionLeaseState where
  | inactive (detail : String)
  | held (lease : ObservedLease)
  | refused (detail : String) (holder : Option String) (scope : Option String)
  | lost (detail : String) (scope : Option String)
  | unavailable (detail : String)
  deriving DecidableEq

/-- The scope that a proven-foreign state was proved for, where the state is one. -/
def ExecutionLeaseState.foreign? : ExecutionLeaseState → Option (Option String)
  | refused _ _ scope => some scope
  | lost _ scope => some scope
  | _ => none

/-- A statement on its way. Its duration is charged from `chargedFrom`, a reading of the duration clock. -/
structure StoreCall where
  statement : LeaseStatement
  chargedFrom : ℚ
  answer : Option QueryResult

def StoreCall.issue (statement : LeaseStatement) (chargedFrom : ℚ) : StoreCall := ⟨statement, chargedFrom, none⟩

inductive RefreshStage where
  | releasing
  | renewing
  | drawing
  | upserting
  | reading (raced : Bool)
  deriving DecidableEq

structure LeaseTarget where
  broker : String
  account : String
  scope : String

/-- `since` is the number of proven-foreign states installed before the pass began. -/
structure RefreshPass where
  target : LeaseTarget
  stage : RefreshStage
  call : StoreCall
  since : ℕ

structure Reconciliation where
  name : LeaseName
  call : Option StoreCall
  since : ℕ

/-- `initialising` counts the waiting calls of `initialise`; no method reads `evidence`, the proven-foreign states so
far. -/
structure BoxExecutionLeaseManager where
  around : Surroundings
  state : ExecutionLeaseState
  disposed : Bool
  currentScope : Option String
  inFlight : Option RefreshPass
  reconcileInFlight : Option Reconciliation
  releases : List StoreCall
  initialising : ℕ
  evidence : ℕ

structure StoreError where
  uniqueViolation : Bool
  message : String

inductive BlockReason where
  | clockBackwards (lease : ObservedLease) (elapsed : ℚ)
  | unprovable (lease : ObservedLease) (elapsed remaining margin : ℚ)
  | notReconciled (takeoverReason : TakeoverReason)
  | heldElsewhere (detail : String)
  | noLongerOwned (detail : String)
  | notEstablished (detail : String)
  | cannotEstablish (detail : String)

namespace BoxExecutionLeaseManager

variable (deps : ExecutionLeaseManagerDeps) (now : ℚ) (m : BoxExecutionLeaseManager)

def new (around : Surroundings) : BoxExecutionLeaseManager where
  around := around
  state := .inactive "the execution lease has not been acquired yet"
  disposed := false
  currentScope := none
  inFlight := none
  reconcileInFlight := none
  releases := []
  initialising := 0
  evidence := 0

def dispatchBlockReason (use : ExecutionLeaseUse) : Option BlockReason :=
  if ¬ m.around.liveCapable then none
  else
    match m.state with
    | .held lease =>
      let elapsed := deps.now now - lease.observedAtLocal
      let remaining := lease.remainingAtObservationMs - elapsed
      if elapsed < 0 then some (.clockBackwards lease elapsed)
      else if remaining ≤ deps.margin then some (.unprovable lease elapsed remaining deps.margin)
      else if use = .newEntry ∧ ¬ lease.reconciled then some (.notReconciled lease.takeoverReason)
      else none
    | .refused detail _ _ => some (.heldElsewhere detail)
    | .lost detail _ => some (.noLongerOwned detail)
    | .unavailable detail => if use = .exposureReduction then none else some (.cannotEstablish detail)
    | .inactive detail => if use = .exposureReduction then none else some (.notEstablished detail)

def adopt (state : ExecutionLeaseState) : BoxExecutionLeaseManager :=
  { m with
    state := state
    evidence := if state.foreign?.isSome then m.evidence + 1 else m.evidence }

def adoptUnproven (next : ExecutionLeaseState) (scope : Option String) : BoxExecutionLeaseManager :=
  match m.state.foreign? with
  | some current => if current = none ∨ scope = none ∨ current = scope then m else m.adopt next
  | none => m.adopt next

def observe (row : ExecutionLeaseRow) (dbCallElapsedMs : ℚ) : ObservedLease where
  scope := row.scope
  owner := row.owner
  fence := row.fence
  account := row.account
  broker := row.broker
  remainingAtObservationMs := max 0 ⌊(max 0 (row.expiresAt - row.serverNow) : ℤ) - max 0 dbCallElapsedMs⌋
  observedAtLocal := deps.now now
  reconciled := row.takeoverReconciledAt.isSome
  takeoverReason := row.takeoverReason

/-- The row that answers a call, observed at its arrival and charged with the call's duration. -/
def observed (call : StoreCall) (row : ExecutionLeaseRow) : ObservedLease :=
  observe deps now row (max 0 (deps.now now - call.chargedFrom))

def reconcileTakeover : BoxExecutionLeaseManager :=
  if m.reconcileInFlight.isSome ∨ m.disposed then m
  else
    match m.state with
    | .held lease =>
      if lease.reconciled ∨ ¬ deps.reconcileAfterTakeover then m
      else { m with reconcileInFlight := some ⟨lease.name, none, m.evidence⟩ }
    | _ => m

def reconcileAnswered (reconciliation : Reconciliation) : Except String Bool → BoxExecutionLeaseManager
  | .ok true =>
    { m with
      reconcileInFlight :=
        some { reconciliation with call := some (.issue (.markReconciled reconciliation.name) (deps.now now)) } }
  | _ => { m with reconcileInFlight := none }

def stampAnswered (reconciliation : Reconciliation) (call : StoreCall) :
    Except StoreError QueryResult → BoxExecutionLeaseManager
  | .error _ => { m with reconcileInFlight := none }
  | .ok result =>
    match result.row with
    | none =>
      { m with reconcileInFlight := none }.adopt
        (.lost
          ("the execution lease lapsed while reconciling the previous owner's broker operations, so it may now " ++
            "belong to another instance")
          reconciliation.name.scope)
    | some row => { m with reconcileInFlight := none }.adopt (.held (observed deps now call row))

def releasing? : Option LeaseName :=
  match m.state, m.currentScope with
  | .held lease, some scope => some ⟨scope, lease.owner, lease.fence⟩
  | _, _ => none

def releasedCurrent (why : String) : BoxExecutionLeaseManager :=
  { m with currentScope := none }.adopt (.inactive ("the execution lease was released (" ++ why ++ ")"))

def stopHeartbeat : BoxExecutionLeaseManager := { m with disposed := true }

def release : BoxExecutionLeaseManager :=
  match m.stopHeartbeat.releasing? with
  | some name => { m.stopHeartbeat with releases := m.releases ++ [.issue (.release name) (deps.now now)] }
  | none => { m.stopHeartbeat with currentScope := none }

def releaseAnswered (k : ℕ) : BoxExecutionLeaseManager :=
  { m with releases := m.releases.eraseIdx k }.releasedCurrent "the process is shutting down"

/-! ## Refresh -/

variable (target : LeaseTarget)

def awaitPass (since : ℕ) (stage : RefreshStage) (statement : LeaseStatement)
    (chargedFrom : ℚ) : BoxExecutionLeaseManager :=
  { m with inFlight := some ⟨target, stage, .issue statement chargedFrom, since⟩ }

def endPass : BoxExecutionLeaseManager := { m with inFlight := none }

def heldFor? : Option ObservedLease :=
  match m.state with
  | .held lease => if lease.scope = target.scope then some lease else none
  | _ => none

/-- A pass after a lease for another scope is out of the way: it renews what is held, or acquires. -/
def renewOrAcquire (since : ℕ) : BoxExecutionLeaseManager :=
  match m.heldFor? target with
  | some lease =>
    m.awaitPass target since .renewing (.renew ⟨target.scope, lease.owner, lease.fence⟩ deps.ttl) (deps.now now)
  | none => m.awaitPass target since .drawing .nextFence (deps.now now)

/-- Nothing is asked while a pass is in flight, and a deployment that cannot trade needs no lease. -/
def refresh : BoxExecutionLeaseManager :=
  if m.inFlight.isSome ∨ m.disposed then m
  else if ¬ m.around.liveCapable then
    m.adopt (.inactive "this deployment cannot place live orders, so no execution lease is required")
  else if ¬ m.around.persistenceAvailable then
    m.adoptUnproven
      (.unavailable
        ("durable persistence is unavailable, so exclusive execution ownership cannot be established or proven. " ++
          "Live order dispatch stays refused until PostgreSQL is reachable."))
      none
  else
    match m.around.account.filter fun account => Js.trim account ≠ "" with
    | none =>
      m.adoptUnproven
        (.inactive
          ("the live broker account is not proven yet, so there is nothing to lease. Live dispatch stays refused " ++
            "until the account is known, because an unknown account cannot be fenced."))
        none
    | some account =>
      let target : LeaseTarget :=
        ⟨m.around.broker, account, executionLeaseScope deps.deployment m.around.broker account⟩
      if m.currentScope.isNone ∨ m.currentScope = some target.scope then m.renewOrAcquire deps now target m.evidence
      else
        match m.releasing? with
        | some name => m.awaitPass target m.evidence .releasing (.release name) (deps.now now)
        | none => { m with currentScope := none }.renewOrAcquire deps now target m.evidence

variable (pass : RefreshPass)

def renewAnswered : Except StoreError QueryResult → BoxExecutionLeaseManager
  | .error _ => m.endPass
  | .ok result =>
    match result.row with
    | none =>
      m.endPass.adopt
        (.lost
          ("the execution lease was not renewable — it lapsed and may have been taken over by another instance. " ++
            "New entry is stopped. Do NOT assume this process's in-flight broker requests were cancelled: a " ++
            "lease cannot retract a request already sent.")
          pass.target.scope)
    | some row =>
      let renewed := m.endPass.adopt (.held (observed deps now pass.call row))
      if row.takeoverReconciledAt.isNone then renewed.reconcileTakeover deps else renewed

def acquired (row : ExecutionLeaseRow) : BoxExecutionLeaseManager :=
  let held :=
    { m.endPass with currentScope := some pass.target.scope }.adopt (.held (observed deps now pass.call row))
  if row.takeoverReconciledAt.isNone then held.reconcileTakeover deps else held

def heldByOther (detail : String) (holder : Option ExecutionLeaseRow) : BoxExecutionLeaseManager :=
  { m.endPass with currentScope := some pass.target.scope }.adopt
    (.refused detail (holder.map ExecutionLeaseRow.owner) pass.target.scope)

def unavailable (detail : String) : BoxExecutionLeaseManager :=
  { m.endPass with currentScope := some pass.target.scope }.adoptUnproven (.unavailable detail) pass.target.scope

def furtherPass (stage : RefreshStage) (statement : LeaseStatement) : BoxExecutionLeaseManager :=
  m.awaitPass pass.target pass.since stage statement pass.call.chargedFrom

def acquireThrew (error : StoreError) : BoxExecutionLeaseManager :=
  if error.uniqueViolation then m.furtherPass pass (.reading true) (.read pass.target.scope)
  else m.unavailable pass ("the execution lease could not be acquired (" ++ error.message ++ ")")

def liveHolderDetail (holder : Option ExecutionLeaseRow) : String :=
  "the execution lease for " ++ target.broker ++ " account " ++ target.account ++
    " is held by another live instance (" ++ (holder.elim "unknown owner" ExecutionLeaseRow.owner) ++
    (holder.elim "" fun row => ", expires in " ++ toString (max 0 (row.expiresAt - row.serverNow)) ++ "ms") ++
    "). This process will NOT submit orders for that account. Exactly one instance may execute per account; " ++
    "stop the other instance or wait for its lease to lapse."

def racedDetail : String :=
  "another instance acquired the execution lease for this account at the same instant; this process will NOT " ++
    "submit orders for it"

def drawAnswered : Except StoreError QueryResult → BoxExecutionLeaseManager
  | .error error => m.acquireThrew pass error
  | .ok result =>
    if result.seq = 0 then
      m.unavailable pass "PostgreSQL did not return a fencing token for the execution lease"
    else
      m.furtherPass pass .upserting
        (.upsert ⟨deps.deployment, pass.target.broker, pass.target.account, deps.owner, deps.ttl⟩ result.seq)

def upsertAnswered : Except StoreError QueryResult → BoxExecutionLeaseManager
  | .error error => m.acquireThrew pass error
  | .ok result =>
    match result.row with
    | some row => m.acquired deps now pass row
    | none => m.furtherPass pass (.reading false) (.read pass.target.scope)

def readAnswered (raced : Bool) : Except StoreError QueryResult → BoxExecutionLeaseManager
  | .error error => if raced then m.heldByOther pass racedDetail none else m.acquireThrew pass error
  | .ok result =>
    m.heldByOther pass (if raced then racedDetail else liveHolderDetail pass.target result.row) result.row

def passAnswered (answer : Except StoreError QueryResult) : BoxExecutionLeaseManager :=
  match pass.stage with
  | .releasing =>
    (m.endPass.releasedCurrent "the broker or account changed").renewOrAcquire deps now pass.target pass.since
  | .renewing => m.renewAnswered deps now pass answer
  | .drawing => m.drawAnswered deps pass answer
  | .upserting => m.upsertAnswered deps now pass answer
  | .reading raced => m.readAnswered pass raced answer

def initialise : BoxExecutionLeaseManager :=
  if ¬ m.around.liveCapable then
    m.adopt (.inactive "this deployment cannot place live orders, so no execution lease is required")
  else if m.around.persistenceAvailable then { m with initialising := m.initialising + 1 }
  else m.refresh deps now

def readyAnswered (answer : Except String Unit) : BoxExecutionLeaseManager :=
  match answer with
  | .error detail => { m with initialising := m.initialising - 1 }.adoptUnproven (.unavailable detail) none
  | .ok () => { m with initialising := m.initialising - 1 }.refresh deps now

end BoxExecutionLeaseManager

/-! ## Managers over one table -/

inductive Slot where
  | pass
  | stamp
  | release (k : ℕ)

namespace BoxExecutionLeaseManager

variable (deps : ExecutionLeaseManagerDeps) (now : ℚ) (m : BoxExecutionLeaseManager)

def call? : Slot → Option StoreCall
  | .pass => m.inFlight.map RefreshPass.call
  | .stamp => m.reconcileInFlight.bind Reconciliation.call
  | .release k => m.releases[k]?

def putCall (call : StoreCall) : Slot → BoxExecutionLeaseManager
  | .pass => { m with inFlight := m.inFlight.map fun pass => { pass with call := call } }
  | .stamp =>
    { m with
      reconcileInFlight := m.reconcileInFlight.map fun reconciliation => { reconciliation with call := some call } }
  | .release k => { m with releases := m.releases.set k call }

def answered (answer : Except StoreError QueryResult) : Slot → BoxExecutionLeaseManager
  | .pass =>
    match m.inFlight with
    | some pass => m.passAnswered deps now pass answer
    | none => m
  | .stamp =>
    match m.reconcileInFlight with
    | some reconciliation =>
      match reconciliation.call with
      | some call => m.stampAnswered deps now reconciliation call answer
      | none => m
    | none => m
  | .release k => if k < m.releases.length then m.releaseAnswered k else m

end BoxExecutionLeaseManager

/-- `detached` are the statements whose managers were told that they failed, and that may run yet. -/
structure LeaseWorld (ι : Type) where
  now : ℚ
  store : ExecutionLeaseStore
  managers : ι → BoxExecutionLeaseManager
  detached : List LeaseStatement

inductive LeaseEvent (ι : Type) where
  | elapsed (duration : ℚ)
  | fenceDrawn
  | reaped
  | surrounded (i : ι) (around : Surroundings)
  | initialised (i : ι)
  | readyAnswered (i : ι) (answer : Except String Unit)
  | refreshed (i : ι)
  | reconcileAnswered (i : ι) (answer : Except String Bool)
  | stopped (i : ι)
  | released (i : ι)
  | executed (i : ι) (slot : Slot)
  | delivered (i : ι) (slot : Slot)
  | failed (i : ι) (slot : Slot) (error : StoreError)
  | executedLate (k : ℕ)

namespace LeaseWorld

variable {ι : Type} [DecidableEq ι] (deps : ι → ExecutionLeaseManagerDeps) (w : LeaseWorld ι)

def start (store : ExecutionLeaseStore) (around : ι → Surroundings) : LeaseWorld ι where
  now := 0
  store := store
  managers i := .new (around i)
  detached := []

def move (i : ι) (m : BoxExecutionLeaseManager) : LeaseWorld ι := { w with managers := Function.update w.managers i m }

def execute (i : ι) (slot : Slot) : LeaseWorld ι :=
  match (w.managers i).call? slot with
  | some call =>
    if call.answer.isSome then w
    else
      let (result, store) := call.statement.execute w.store w.now
      { w with store := store }.move i ((w.managers i).putCall { call with answer := some result } slot)
  | none => w

def deliver (i : ι) (slot : Slot) : LeaseWorld ι :=
  match ((w.managers i).call? slot).bind StoreCall.answer with
  | some result => w.move i ((w.managers i).answered (deps i) w.now (.ok result) slot)
  | none => w

def fail (i : ι) (slot : Slot) (error : StoreError) : LeaseWorld ι :=
  match (w.managers i).call? slot with
  | some call =>
    { w with detached := if call.answer.isNone then w.detached ++ [call.statement] else w.detached }.move i
      ((w.managers i).answered (deps i) w.now (.error error) slot)
  | none => w

def executeLate (k : ℕ) : LeaseWorld ι :=
  match w.detached[k]? with
  | some statement =>
    { w with
      store := (statement.execute w.store w.now).2
      detached := w.detached.eraseIdx k }
  | none => w

def step : LeaseEvent ι → LeaseWorld ι × Unit
  | .elapsed duration => ({ w with now := w.now + max 0 duration }, ())
  | .fenceDrawn => ({ w with store := w.store.nextFence.2 }, ())
  | .reaped => ({ w with store := w.store.reapExpired w.now }, ())
  | .surrounded i around => (w.move i { w.managers i with around := around }, ())
  | .initialised i => (w.move i ((w.managers i).initialise (deps i) w.now), ())
  | .readyAnswered i answer =>
    (if (w.managers i).initialising = 0 then w
      else w.move i ((w.managers i).readyAnswered (deps i) w.now answer), ())
  | .refreshed i => (w.move i ((w.managers i).refresh (deps i) w.now), ())
  | .reconcileAnswered i answer =>
    (match (w.managers i).reconcileInFlight with
      | some reconciliation =>
        if reconciliation.call.isNone then
          w.move i ((w.managers i).reconcileAnswered (deps i) w.now reconciliation answer)
        else w
      | none => w, ())
  | .stopped i => (w.move i (w.managers i).stopHeartbeat, ())
  | .released i => (w.move i ((w.managers i).release (deps i) w.now), ())
  | .executed i slot => (w.execute i slot, ())
  | .delivered i slot => (w.deliver deps i slot, ())
  | .failed i slot error => (w.fail deps i slot error, ())
  | .executedLate k => (w.executeLate k, ())

end LeaseWorld

end Ownership

end BoxEngine
