import Mathlib.Data.Rat.Floor

/-!
# The execution lease table

One row for each scope; PostgreSQL executes one statement at a time by its own clock. A returned row carries whole
milliseconds.
-/

namespace BoxEngine

namespace Ownership

def executionLeaseScope (deployment broker account : String) : String :=
  deployment ++ "|" ++ broker ++ "|" ++ account

inductive TakeoverReason where
  | fresh
  | expired
  deriving DecidableEq

structure StoredLease where
  broker : String
  account : String
  owner : String
  fence : ℕ
  expiresAt : ℚ
  takeoverReconciledAt : Option ℚ
  takeoverReason : TakeoverReason

structure ExecutionLeaseRow where
  scope : String
  broker : String
  account : String
  owner : String
  fence : ℕ
  expiresAt : ℤ
  takeoverReconciledAt : Option ℤ
  takeoverReason : TakeoverReason
  serverNow : ℤ
  deriving DecidableEq

def ms (value : ℚ) : ℤ := ⌊value⌋

def msOrNull : Option ℚ → Option ℤ
  | none => none
  | some value => if ms value = 0 then none else some (ms value)

def StoredLease.toRow (row : StoredLease) (scope : String) (now : ℚ) : ExecutionLeaseRow where
  scope := scope
  broker := row.broker
  account := row.account
  owner := row.owner
  fence := row.fence
  expiresAt := ms row.expiresAt
  takeoverReconciledAt := msOrNull row.takeoverReconciledAt
  takeoverReason := row.takeoverReason
  serverNow := ms now

/-- One tenure of a scope: what `renew`, `markReconciled` and `release` are pinned to. -/
structure LeaseName where
  scope : String
  owner : String
  fence : ℕ
  deriving DecidableEq

/-- `released` records the leases that their owners deleted. No statement reads it. -/
structure ExecutionLeaseStore where
  rows : String → Option StoredLease
  fenceSeq : ℕ
  released : List LeaseName

structure AcquireArgs where
  deployment : String
  broker : String
  account : String
  owner : String
  ttlMs : ℚ

def AcquireArgs.scope (args : AcquireArgs) : String := executionLeaseScope args.deployment args.broker args.account

def storedTtl (ttlMs : ℚ) : ℤ := max 1000 ⌊ttlMs⌋

structure QueryResult where
  seq : ℕ := 0
  row : Option ExecutionLeaseRow := none
  rowCount : ℕ := 0
  deriving DecidableEq

namespace ExecutionLeaseStore

variable (store : ExecutionLeaseStore) (now : ℚ)

def put (scope : String) (row : Option StoredLease) : ExecutionLeaseStore :=
  { store with rows := Function.update store.rows scope row }

def nextFence : QueryResult × ExecutionLeaseStore :=
  ({ seq := store.fenceSeq + 1 }, { store with fenceSeq := store.fenceSeq + 1 })

def returning (scope : String) : Option StoredLease → QueryResult × ExecutionLeaseStore
  | none => ({}, store)
  | some row => ({ row := some (row.toRow scope now), rowCount := 1 }, store.put scope row)

/-- A new row, the own one renewed, a lapsed one taken over; nothing where a live row is somebody else's. -/
def upserted (args : AcquireArgs) (fence : ℕ) : Option StoredLease → Option StoredLease
  | none =>
    some ⟨args.broker, args.account, args.owner, fence, now + storedTtl args.ttlMs, none, .fresh⟩
  | some row =>
    if row.expiresAt ≤ now ∨ row.owner = args.owner then
      some
        { row with
          owner := args.owner
          fence := if row.owner = args.owner then row.fence else fence
          expiresAt := now + storedTtl args.ttlMs
          takeoverReconciledAt := if row.owner = args.owner then row.takeoverReconciledAt else none
          takeoverReason := if row.owner = args.owner then row.takeoverReason else .expired }
    else none

def upsert (args : AcquireArgs) (fence : ℕ) : QueryResult × ExecutionLeaseStore :=
  store.returning now args.scope (upserted now args fence (store.rows args.scope))

variable (name : LeaseName)

def named : Option StoredLease :=
  (store.rows name.scope).filter fun row => row.owner = name.owner ∧ row.fence = name.fence

def unexpired : Option StoredLease := (store.named name).filter fun row => now < row.expiresAt

def renew (ttlMs : ℚ) : QueryResult × ExecutionLeaseStore :=
  store.returning now name.scope
    ((store.unexpired now name).map fun row => { row with expiresAt := now + storedTtl ttlMs })

def markReconciled : QueryResult × ExecutionLeaseStore :=
  store.returning now name.scope
    ((store.unexpired now name).map fun row => { row with takeoverReconciledAt := some now })

def release : QueryResult × ExecutionLeaseStore :=
  match store.named name with
  | none => ({}, store)
  | some _ =>
    ({ rowCount := 1 },
      { store.put name.scope none with released := name :: store.released })

def read (scope : String) : QueryResult :=
  { row := (store.rows scope).map fun row => row.toRow scope now, rowCount := (store.rows scope).elim 0 fun _ => 1 }

def reapExpired : ExecutionLeaseStore :=
  { store with rows := fun scope => (store.rows scope).filter fun row => now < row.expiresAt }

end ExecutionLeaseStore

inductive LeaseStatement where
  | nextFence
  | upsert (args : AcquireArgs) (fence : ℕ)
  | renew (name : LeaseName) (ttlMs : ℚ)
  | markReconciled (name : LeaseName)
  | release (name : LeaseName)
  | read (scope : String)

def LeaseStatement.execute (store : ExecutionLeaseStore) (now : ℚ) : LeaseStatement → QueryResult × ExecutionLeaseStore
  | nextFence => store.nextFence
  | upsert args fence => store.upsert now args fence
  | renew name ttlMs => store.renew now name ttlMs
  | markReconciled name => store.markReconciled now name
  | release name => store.release name
  | read scope => (store.read now scope, store)

end Ownership

end BoxEngine
