import BoxEngine.OwnerSound
import Mathlib.Data.Finset.Basic

/-!
# Acknowledgements that arrive

A command finds the row as it expects it or has been applied, so a pass is as good as one just interrupted. An attempt
whose row was never stored parks what is never settled.
-/

namespace BoxEngine

open Js

section

variable (sha256 : Sha256)

/-! ## One command and its row -/

structure ProjectionSnapshot.Holds (row : ProjectionSnapshot) (residual : List ResidualLegExposure) (version : ℕ) : Prop where
  version : row.version = version
  identity : row.residualProjectionIdentity = some (BoxEngine.residualProjectionIdentity sha256 residual)
  residual : row.residualExposure = some residual

structure ProjectionCommand.Expected (command : ProjectionCommand) (row : ProjectionSnapshot) : Prop where
  held : row.Holds sha256 command.expectedResidualExposure command.expectedVersion
  expectedIdentity : command.expectedProjectionIdentity = residualProjectionIdentity sha256 command.expectedResidualExposure
  nextIdentity : command.nextProjectionIdentity = residualProjectionIdentity sha256 command.residualExposure
  new : command.applicationId ∉ row.appliedFlattenApplications.getD []
  safe : row.version < 9007199254740991

structure ProjectionCommand.Applied (command : ProjectionCommand) (row : ProjectionSnapshot) : Prop where
  held : row.Holds sha256 command.residualExposure (command.expectedVersion + 1)
  listed : command.applicationId ∈ row.appliedFlattenApplications.getD []

variable {sha256} {command : ProjectionCommand} {row : ProjectionSnapshot}

theorem mem_appendApplication (applications : List String) (id : String) : id ∈ appendApplication applications id := by
  have hlast : (applications ++ [id]).length - maxFlattenApplicationIds ≤ applications.length := by
    simp [maxFlattenApplicationIds]
  rw [appendApplication, List.drop_append_of_le_length hlast]
  simp

theorem ProjectionCommand.Expected.apply (h : command.Expected sha256 row) :
    ∃ after, applyBoxExecutionAttemptProjection sha256 (some row) command =
      (snapshotResult sha256 .applied after, some after) ∧ command.Applied sha256 after := by
  have hversion : readVersion row.projectionVersion = command.expectedVersion := h.held.version
  have hidentity : row.residualProjectionIdentity = some command.expectedProjectionIdentity := by
    rw [h.held.identity, h.expectedIdentity]
  simp only [applyBoxExecutionAttemptProjection]
  rw [if_neg h.new, if_neg]
  · refine ⟨_, rfl, ⟨?_, ?_, rfl⟩, ?_⟩
    · have hnat := readVersion_nat (Nat.succ_le_of_lt h.safe)
      rw [← hversion]
      push_cast at hnat
      exact hnat
    · simp [h.nextIdentity]
    · exact mem_appendApplication _ _
  · rw [not_or, not_not, not_not]
    exact ⟨.inl hversion, .inl hidentity⟩

theorem ProjectionCommand.Applied.apply (h : command.Applied sha256 row) :
    applyBoxExecutionAttemptProjection sha256 (some row) command =
      (snapshotResult sha256 .alreadyApplied row, some row) := by
  simp only [applyBoxExecutionAttemptProjection]
  rw [if_pos h.listed]

theorem ProjectionCommand.apply_settles (h : command.Expected sha256 row ∨ command.Applied sha256 row) :
    ∃ status after, applyBoxExecutionAttemptProjection sha256 (some row) command =
      (snapshotResult sha256 status after, some after) ∧ (status = .applied ∨ status = .alreadyApplied) ∧
        command.Applied sha256 after := by
  rcases h with h | h
  · obtain ⟨after, happly, happlied⟩ := h.apply
    exact ⟨.applied, after, happly, .inl rfl, happlied⟩
  · exact ⟨.alreadyApplied, row, h.apply, .inr rfl, h⟩

end

namespace ResidualLoop

variable {sha256 : Sha256} {mode : ExecutionMode} {s : ResidualLoop}

def parkedOn (s : ResidualLoop) (id : AttemptId) : Option ProjectionCommand :=
  (s.pendingResidualPersists.find? fun pending => pending.id = id).map PendingProjection.command

/-- A residual's row holds it at its version; a parked one's row expects its command or has it applied. -/
structure Backed (sha256 : Sha256) (parked : Option ProjectionCommand) (version : Option ℕ) (entry : OutstandingResidual)
    (row : AttemptRow) : Prop where
  stored : entry.id = .stored row.id
  free : parked = none → ∃ held, version = some held ∧ row.snapshot.Holds sha256 entry.residual held
  parked : ∀ command ∈ parked, command.Expected sha256 row.snapshot ∨ command.Applied sha256 row.snapshot

structure Answerable (sha256 : Sha256) (s : ResidualLoop) (acknowledging : Option AttemptId) : Prop where
  rowIds : (s.attemptRows.map AttemptRow.id).Nodup
  pendingIds : (s.pendingResidualPersists.map PendingProjection.id).Nodup
  entryIds : (s.residualByAttempt.map OutstandingResidual.id).Nodup
  registered : ∀ pending ∈ s.pendingResidualPersists, s.Registered pending.id ∧ some pending.id ≠ acknowledging
  backed : ∀ entry ∈ s.residualByAttempt, some entry.id ≠ acknowledging → ∃ row ∈ s.attemptRows,
    Backed sha256 (s.parkedOn entry.id) (s.residualProjectionVersion entry.id) entry row
  idle : s.residualFlattenInFlight = ∅

variable {id : AttemptId}

theorem parkedOn_eq_none : s.parkedOn id = none ↔ id ∉ s.pendingResidualPersists.map PendingProjection.id := by
  simp [parkedOn, List.find?_eq_none]

theorem Answerable.parkedOn_of_mem (h : s.Answerable sha256 none) {pending : PendingProjection}
    (hpending : pending ∈ s.pendingResidualPersists) : s.parkedOn pending.id = some pending.command := by
  rw [parkedOn, Keyed.find?_of_mem h.pendingIds hpending, Option.map_some]

theorem Answerable.row (h : s.Answerable sha256 none) {pending : PendingProjection}
    (hpending : pending ∈ s.pendingResidualPersists) :
    ∃ row ∈ s.attemptRows, pending.id = .stored row.id ∧
      (pending.command.Expected sha256 row.snapshot ∨ pending.command.Applied sha256 row.snapshot) := by
  obtain ⟨⟨entry, hentry, hid⟩, -⟩ := h.registered pending hpending
  obtain ⟨row, hrow, hbacked⟩ := h.backed entry hentry (by simp)
  refine ⟨row, hrow, hid ▸ hbacked.stored, hbacked.parked _ ?_⟩
  rw [hid]
  exact h.parkedOn_of_mem hpending

theorem find?_row (hids : (s.attemptRows.map AttemptRow.id).Nodup) {row : AttemptRow} (hrow : row ∈ s.attemptRows) :
    (s.attemptRows.find? fun other => other.id = row.id) = some row :=
  Keyed.find?_of_mem hids hrow

theorem Answerable.project (h : s.Answerable sha256 none) {pending : PendingProjection}
    (hpending : pending ∈ s.pendingResidualPersists) :
    ∃ row ∈ s.attemptRows, ∃ status after, pending.id = .stored row.id ∧
      ResidualLoop.project sha256 s.attemptRows pending.id pending.command =
        (Keyed.replace AttemptRow.id s.attemptRows { row with snapshot := after }, snapshotResult sha256 status after) ∧
      (status = .applied ∨ status = .alreadyApplied) ∧ pending.command.Applied sha256 after := by
  obtain ⟨row, hrow, hstored, hanswers⟩ := h.row hpending
  obtain ⟨status, after, happly, hstatus, happlied⟩ := ProjectionCommand.apply_settles hanswers
  refine ⟨row, hrow, status, after, hstored, ?_, hstatus, happlied⟩
  simp only [ResidualLoop.project, hstored, find?_row h.rowIds hrow, happly, Option.getD_some]

/-! ## An acknowledgement -/

def unpark (s : ResidualLoop) (id : AttemptId) : ResidualLoop :=
  { s with pendingResidualPersists := s.pendingResidualPersists.filter fun pending => pending.id ≠ id }

theorem parkedOn_unpark (s : ResidualLoop) (id id' : AttemptId) :
    (s.unpark id).parkedOn id' = if id' = id then none else s.parkedOn id' := by
  have herase := Keyed.find?_erase (f := PendingProjection.id) s.pendingResidualPersists id id'
  simp only [parkedOn, unpark, ne_eq, herase]
  split <;> rfl

theorem parkedOn_park (s : ResidualLoop) (id id' : AttemptId) (command : ProjectionCommand) :
    (s.park id command).parkedOn id' = if id' = id then some command else s.parkedOn id' := by
  rw [parkedOn, park, Keyed.find?_put]
  split <;> rfl

@[simp] theorem parkedOn_registerResidual (s : ResidualLoop) (id : AttemptId) (residual : List ResidualLegExposure)
    (version : ℕ) (owner : ResidualOwner) (id' : AttemptId) :
    (s.registerResidual id residual version owner).parkedOn id' = s.parkedOn id' := by
  rw [parkedOn, (registerResidual_passes s id residual version owner).2.2.1, parkedOn]

theorem Answerable.unpark (h : s.Answerable sha256 none) (id : AttemptId) : (s.unpark id).Answerable sha256 (some id) := by
  constructor
  case rowIds => exact h.rowIds
  case pendingIds => exact h.pendingIds.sublist (List.filter_sublist.map _)
  case entryIds => exact h.entryIds
  case registered =>
    intro pending hpending
    obtain ⟨hold, hne⟩ := List.mem_filter.mp hpending
    exact ⟨(h.registered pending hold).1, by simpa using hne⟩
  case backed =>
    intro entry hentry hne
    obtain ⟨row, hrow, hbacked⟩ := h.backed entry hentry (by simp)
    have hid : entry.id ≠ id := fun hid => hne (congrArg some hid)
    have hparked := parkedOn_unpark s id entry.id
    rw [if_neg hid] at hparked
    refine ⟨row, hrow, hbacked.stored, ?_, ?_⟩
    · rw [hparked]
      exact hbacked.free
    · rw [hparked]
      exact hbacked.parked
  case idle => exact h.idle

theorem Answerable.register (h : s.Answerable sha256 (some id)) (hfree : s.parkedOn id = none) {row : AttemptRow}
    (hrow : row ∈ s.attemptRows) (hstored : id = .stored row.id) {residual : List ResidualLegExposure} {version : ℕ}
    (hholds : row.snapshot.Holds sha256 residual version) (owner : ResidualOwner) :
    (s.registerResidual id residual version owner).Answerable sha256 none := by
  have hversion : (s.registerResidual id residual version owner).residualProjectionVersion =
      Function.update s.residualProjectionVersion id (some version) := by
    unfold registerResidual
    split <;> rfl
  have hmem : ∀ entry ∈ (s.registerResidual id residual version owner).residualByAttempt,
      entry = ⟨id, residual, owner⟩ ∨ (entry ∈ s.residualByAttempt ∧ entry.id ≠ id) := by
    intro entry hentry
    unfold registerResidual at hentry
    split at hentry
    · obtain ⟨hold, hne⟩ := List.mem_filter.mp hentry
      exact .inr ⟨hold, by simpa using hne⟩
    · exact Keyed.mem_put_ne hentry
  obtain ⟨-, -, hpending, -⟩ := registerResidual_passes s id residual version owner
  constructor
  case rowIds =>
    rw [registerResidual_attemptRows]
    exact h.rowIds
  case pendingIds =>
    rw [hpending]
    exact h.pendingIds
  case entryIds =>
    unfold registerResidual
    split
    · exact h.entryIds.sublist (List.filter_sublist.map _)
    · exact Keyed.nodup_put h.entryIds _
  case registered =>
    rw [hpending]
    intro pending hmem
    obtain ⟨hregistered, hne⟩ := h.registered pending hmem
    refine ⟨(registered_registerResidual id residual version owner hregistered).resolve_left ?_, by simp⟩
    exact fun hid => hne (congrArg some hid)
  case backed =>
    intro entry hentry _
    rw [registerResidual_attemptRows]
    rcases hmem entry hentry with rfl | ⟨hold, hne⟩
    · refine ⟨row, hrow, hstored, ?_, ?_⟩
      · intro _
        exact ⟨version, by simp [hversion], hholds⟩
      · simp [hfree]
    · obtain ⟨other, hother, hbacked⟩ := h.backed entry hold fun hid => hne (Option.some.inj hid)
      refine ⟨other, hother, hbacked.stored, ?_, ?_⟩
      · rw [parkedOn_registerResidual, hversion, Function.update_of_ne hne]
        exact hbacked.free
      · rw [parkedOn_registerResidual]
        exact hbacked.parked
  case idle =>
    unfold registerResidual
    split <;> exact h.idle

theorem Answerable.compact (h : s.Answerable sha256 none) : s.compactProjectionBookkeeping.Answerable sha256 none := by
  refine { h with backed := ?_ }
  intro entry hentry hne
  obtain ⟨row, hrow, hbacked⟩ := h.backed entry hentry hne
  have hkept : (s.outstanding entry.id).isSome := by
    rw [outstanding, List.find?_isSome]
    exact ⟨entry, hentry, by simp⟩
  refine ⟨row, hrow, hbacked.stored, ?_, hbacked.parked⟩
  intro hnone
  obtain ⟨version, hversion, hholds⟩ := hbacked.free hnone
  refine ⟨version, ?_, hholds⟩
  simp only [compactProjectionBookkeeping, hkept, true_or, if_true]
  exact hversion

variable {status : ProjectionStatus} {after : ProjectionSnapshot}

theorem acknowledge_snapshot (s : ResidualLoop) (id : AttemptId) (hstatus : status ≠ .notFound)
    {command : ProjectionCommand} (h : command.Applied sha256 after) :
    s.acknowledge mode id (snapshotResult sha256 status after) =
      let registered := (s.unpark id).registerResidual id command.residualExposure (command.expectedVersion + 1) (s.own mode)
      if command.residualExposure.isEmpty then registered.compactProjectionBookkeeping else registered := by
  have hversion : readVersion after.projectionVersion = command.expectedVersion + 1 := h.held.version
  simp only [ResidualLoop.acknowledge, snapshotResult, h.held.residual, Option.getD_some, hversion]
  cases status with
  | notFound => exact absurd rfl hstatus
  | applied => rfl
  | alreadyApplied => rfl
  | stale => rfl

def residualOf (s : ResidualLoop) (id : AttemptId) : List ResidualLegExposure :=
  ((s.outstanding id).map OutstandingResidual.residual).getD []

theorem residualOf_registerResidual (s : ResidualLoop) (id : AttemptId) (residual : List ResidualLegExposure)
    (version : ℕ) (owner : ResidualOwner) : (s.registerResidual id residual version owner).residualOf id = residual := by
  unfold registerResidual residualOf outstanding
  split
  · rename_i hempty
    have hgone := Keyed.find?_erase (f := OutstandingResidual.id) s.residualByAttempt id id
    simp only [ne_eq, hgone, if_true, List.isEmpty_iff.mp hempty]
    rfl
  · rw [Keyed.find?_put]
    simp

theorem acknowledge_settles (mode : ExecutionMode) (s : ResidualLoop) (id : AttemptId) {command : ProjectionCommand}
    (happlied : command.Applied sha256 after) (hstatus : status ≠ .notFound) :
    (s.acknowledge mode id (snapshotResult sha256 status after)).pendingResidualPersists = (s.unpark id).pendingResidualPersists ∧
      (s.acknowledge mode id (snapshotResult sha256 status after)).residualOf id = command.residualExposure := by
  rw [acknowledge_snapshot s id hstatus happlied]
  have hpending := (registerResidual_passes (s.unpark id) id command.residualExposure (command.expectedVersion + 1)
    (s.own mode)).2.2.1
  have hresidual := residualOf_registerResidual (s.unpark id) id command.residualExposure (command.expectedVersion + 1)
    (s.own mode)
  simp only
  split
  · exact ⟨hpending, hresidual⟩
  · exact ⟨hpending, hresidual⟩

theorem Answerable.acknowledge (h : s.Answerable sha256 none) (mode : ExecutionMode) {row : AttemptRow}
    (hrow : row ∈ s.attemptRows) (hstored : id = .stored row.id) {command : ProjectionCommand}
    (happlied : command.Applied sha256 row.snapshot) (hstatus : status ≠ .notFound) :
    (s.acknowledge mode id (snapshotResult sha256 status row.snapshot)).Answerable sha256 none := by
  rw [acknowledge_snapshot s id hstatus happlied]
  have hfree : (s.unpark id).parkedOn id = none := by rw [parkedOn_unpark, if_pos rfl]
  have hregistered := (h.unpark id).register hfree hrow hstored happlied.held (s.own mode)
  simp only
  split
  · exact hregistered.compact
  · exact hregistered

def interrupted (s : ResidualLoop) (pass : LoopPass) : ResidualLoop :=
  match pass.awaiting with
  | .retry _ _ => s
  | .flatten id _ _ => s.leave id
  | .projection id command => (s.park id command).leave id

def Awaited (s : ResidualLoop) : LoopAwait → Prop
  | .retry id command => ⟨id, command⟩ ∈ s.pendingResidualPersists
  | .flatten id residual expectedVersion => expectedVersion = none ∧ s.parkedOn id = none ∧
      ∃ entry ∈ s.residualByAttempt, entry.id = id ∧ entry.residual = residual
  | .projection id _ => s.parkedOn id = none

structure Underway (sha256 : Sha256) (s : ResidualLoop) (pass : LoopPass) : Prop where
  answerable : (s.interrupted pass).Answerable sha256 none
  awaited : s.Awaited pass.awaiting
  retries : ∀ pending ∈ pass.retries, pending ∈ s.pendingResidualPersists ∧ pending.id ≠ pass.awaiting.id
  retryIds : (pass.retries.map PendingProjection.id).Nodup
  residuals : ∀ entry ∈ pass.residuals, entry ∈ s.residualByAttempt ∧ entry.id ≠ pass.awaiting.id
  residualIds : (pass.residuals.map OutstandingResidual.id).Nodup
  replied : ∀ result ∈ pass.reply, ∃ row ∈ s.attemptRows, ∃ status command,
    LoopAwait.call pass.awaiting = some (.stored row.id, command) ∧ command.Applied sha256 row.snapshot ∧
      status ≠ .notFound ∧ result = snapshotResult sha256 status row.snapshot

/-- At rest every projection can be answered; while a pass works, it and its retries can. -/
inductive Settling (sha256 : Sha256) (s : ResidualLoop) : Prop
  | resting (passes : s.passes = []) (answerable : s.Answerable sha256 none)
  | working (pass : LoopPass) (passes : s.passes = [pass]) (underway : s.Underway sha256 pass)

variable {pass : LoopPass}

theorem Settling.only (h : s.Settling sha256) {n : ℕ} (hget : s.passes[n]? = some pass) :
    n = 0 ∧ s.passes = [pass] ∧ s.Underway sha256 pass := by
  cases h with
  | resting passes _ => simp [passes] at hget
  | working pass' passes underway =>
    rw [passes, List.getElem?_singleton] at hget
    split at hget
    · obtain rfl := Option.some.inj hget
      exact ⟨by assumption, passes, underway⟩
    · cases hget

theorem continueWith_only {next : ResidualLoop × Option LoopPass} (h : next.1.passes = [pass]) :
    continueWith 0 next = { next.1 with passes := next.2.toList } := by
  unfold continueWith
  cases hnext : next.2 with
  | none => simp [h]
  | some pass' => simp [h]

/-! ## A pass going on -/

theorem comeTo_frame (mode : ExecutionMode) (s : ResidualLoop) (residuals : List OutstandingResidual) :
    (s.comeTo mode residuals).1.passes = s.passes ∧
      (s.comeTo mode residuals).1.pendingResidualPersists = s.pendingResidualPersists ∧
      (s.comeTo mode residuals).1.residualByAttempt = s.residualByAttempt := by
  induction residuals with
  | nil => exact ⟨rfl, rfl, rfl⟩
  | cons entry rest ih =>
    unfold comeTo
    split
    · exact ih
    · split
      · exact ih
      · split
        · exact ih
        · split
          · exact ih
          · exact ⟨rfl, rfl, rfl⟩

theorem retryNext_frame (mode : ExecutionMode) (s : ResidualLoop) (healthy : Bool) (retries : List PendingProjection) :
    (s.retryNext mode healthy retries).1.passes = s.passes ∧
      (s.retryNext mode healthy retries).1.pendingResidualPersists = s.pendingResidualPersists ∧
      (s.retryNext mode healthy retries).1.residualByAttempt = s.residualByAttempt := by
  cases retries with
  | nil =>
    simp only [retryNext]
    split
    · exact comeTo_frame mode s _
    · exact ⟨rfl, rfl, rfl⟩
  | cons pending rest => exact ⟨rfl, rfl, rfl⟩

theorem Answerable.comeTo (h : s.Answerable sha256 none) (mode : ExecutionMode) {residuals : List OutstandingResidual}
    (hmem : ∀ entry ∈ residuals, entry ∈ s.residualByAttempt) (hids : (residuals.map OutstandingResidual.id).Nodup) :
    Settling sha256 { (s.comeTo mode residuals).1 with passes := (s.comeTo mode residuals).2.toList } := by
  induction residuals with
  | nil => exact .resting rfl { h with }
  | cons entry rest ih =>
    rw [List.map_cons, List.nodup_cons] at hids
    have hrest := ih (fun other hother => hmem other (.tail _ hother)) hids.2
    unfold ResidualLoop.comeTo
    split
    · exact hrest
    · rename_i hfree
      split
      · exact hrest
      · split
        · exact hrest
        · split
          · exact hrest
          · refine .working _ rfl ?_
            constructor
            case answerable =>
              refine { h with idle := ?_ }
              simp only [interrupted, leave, h.idle]
              exact Finset.erase_insert (Finset.notMem_empty _)
            case awaited => exact ⟨rfl, parkedOn_eq_none.mpr hfree, entry, hmem entry (.head _), rfl, rfl⟩
            case retries => simp
            case retryIds => exact List.nodup_nil
            case residuals =>
              intro other hother
              refine ⟨hmem other (.tail _ hother), ?_⟩
              intro hsame
              have hsame : other.id = entry.id := hsame
              exact hids.1 (hsame ▸ List.mem_map_of_mem hother)
            case residualIds => exact hids.2
            case replied => simp

theorem Answerable.retryNext (h : s.Answerable sha256 none) (mode : ExecutionMode) (healthy : Bool)
    {retries : List PendingProjection}
    (hmem : ∀ pending ∈ retries, pending ∈ s.pendingResidualPersists) (hids : (retries.map PendingProjection.id).Nodup) :
    Settling sha256 { (s.retryNext mode healthy retries).1 with passes := (s.retryNext mode healthy retries).2.toList } := by
  cases retries with
  | nil =>
    simp only [ResidualLoop.retryNext]
    split
    · exact h.comeTo mode (fun entry hentry => hentry) h.entryIds
    · exact .resting rfl { h with }
  | cons pending rest =>
    rw [List.map_cons, List.nodup_cons] at hids
    refine .working _ rfl ?_
    constructor
    case answerable => exact { h with }
    case awaited => exact hmem pending (.head _)
    case retries =>
      intro other hother
      refine ⟨hmem other (.tail _ hother), ?_⟩
      intro hsame
      have hsame : other.id = pending.id := hsame
      exact hids.1 (hsame ▸ List.mem_map_of_mem hother)
    case retryIds => exact hids.2
    case residuals => simp
    case residualIds => exact List.nodup_nil
    case replied => simp

/-! ## The end of an await -/

theorem acknowledge_interrupted (s : ResidualLoop) (id : AttemptId) (parked : ProjectionCommand)
    (hstatus : status ≠ .notFound) {command : ProjectionCommand} (h : command.Applied sha256 after) :
    ((s.park id parked).leave id).acknowledge mode id (snapshotResult sha256 status after) =
      (s.acknowledge mode id (snapshotResult sha256 status after)).leave id := by
  have hunpark : ((s.park id parked).leave id).unpark id = (s.unpark id).leave id := by
    have hfilter := Keyed.filter_put (f := PendingProjection.id) s.pendingResidualPersists ⟨id, parked⟩
    simp only [unpark, leave, park, hfilter]
  have hregister : ((s.unpark id).leave id).registerResidual id command.residualExposure (command.expectedVersion + 1)
      (s.own mode) =
        ((s.unpark id).registerResidual id command.residualExposure (command.expectedVersion + 1) (s.own mode)).leave id := by
    unfold registerResidual
    split <;> rfl
  rw [acknowledge_snapshot _ id hstatus h, acknowledge_snapshot _ id hstatus h, hunpark]
  have hown : ((s.park id parked).leave id).own mode = s.own mode := rfl
  rw [hown, hregister]
  simp only
  split <;> rfl

variable {entry : OutstandingResidual}

theorem entry_registerResidual (h : entry ∈ s.residualByAttempt) (hne : entry.id ≠ id)
    (residual : List ResidualLegExposure) (version : ℕ) (owner : ResidualOwner) :
    entry ∈ (s.registerResidual id residual version owner).residualByAttempt := by
  unfold registerResidual
  split
  · exact List.mem_filter.mpr ⟨h, by simpa using hne⟩
  · exact Keyed.mem_put_of_ne h hne

theorem entry_acknowledge (h : entry ∈ s.residualByAttempt) (hne : entry.id ≠ id) (result : ProjectionResult) :
    entry ∈ (s.acknowledge mode id result).residualByAttempt := by
  unfold acknowledge
  split
  · exact h
  · rename_i residual version _ _ _ _ _
    simp only
    split
    · exact entry_registerResidual (s := s.unpark id) h hne residual version _
    · exact entry_registerResidual (s := s.unpark id) h hne residual version _
  · exact h

theorem acknowledge_passes (mode : ExecutionMode) (s : ResidualLoop) (id : AttemptId) (result : ProjectionResult) :
    (s.acknowledge mode id result).passes = s.passes := by
  unfold acknowledge
  split
  · rfl
  · rename_i residual version _ _ _ _ _
    have hpasses := (registerResidual_passes (s.unpark id) id residual version (s.own mode)).1
    simp only
    split
    · exact hpasses
    · exact hpasses
  · rfl

theorem Underway.threw (h : s.Underway sha256 pass) (hpasses : s.passes = [pass]) (healthy : Bool) :
    Settling sha256 (s.resume mode 0 pass none healthy) := by
  have hanswerable := h.answerable
  unfold ResidualLoop.resume
  cases hawait : pass.awaiting with
  | retry id command =>
    simp only [interrupted, hawait] at hanswerable
    have hnext := hanswerable.retryNext mode healthy (fun pending hmem => (h.retries pending hmem).1) h.retryIds
    simp only [Option.elim]
    rw [continueWith_only ((retryNext_frame mode s healthy pass.retries).1.trans hpasses)]
    exact hnext
  | flatten id residual expectedVersion =>
    simp only [interrupted, hawait] at hanswerable
    have hnext := hanswerable.comeTo mode (fun entry hentry => (h.residuals entry hentry).1) h.residualIds
    simp only
    rw [continueWith_only ((comeTo_frame mode (s.leave id) pass.residuals).1.trans hpasses)]
    exact hnext
  | projection id command =>
    simp only [interrupted, hawait] at hanswerable
    have hnext := hanswerable.comeTo mode (fun entry hentry => (h.residuals entry hentry).1) h.residualIds
    simp only [Option.elim, Option.all_none, if_true]
    rw [continueWith_only ((comeTo_frame mode ((s.park id command).leave id) pass.residuals).1.trans hpasses)]
    exact hnext

theorem Underway.answered (h : s.Underway sha256 pass) (hpasses : s.passes = [pass]) {result : ProjectionResult}
    (hreply : pass.reply = some result) (healthy : Bool) :
    Settling sha256 (s.resume mode 0 pass (some result) healthy) := by
  obtain ⟨row, hrow, status, command, hcall, happlied, hstatus, rfl⟩ := h.replied result hreply
  have hanswerable := h.answerable
  have hsame := (acknowledge_passes mode s (.stored row.id) (snapshotResult sha256 status row.snapshot)).trans hpasses
  unfold ResidualLoop.resume
  cases hawait : pass.awaiting with
  | retry id command' =>
    obtain ⟨rfl, rfl⟩ : id = .stored row.id ∧ command' = command := by simpa [hawait, LoopAwait.call] using hcall
    simp only [interrupted, hawait] at hanswerable
    have hacknowledged := hanswerable.acknowledge mode hrow rfl happlied hstatus
    have hretries : ∀ pending ∈ pass.retries, pending ∈
        (s.acknowledge mode (.stored row.id) (snapshotResult sha256 status row.snapshot)).pendingResidualPersists := by
      intro pending hmem
      obtain ⟨hold, hne⟩ := h.retries pending hmem
      rw [hawait] at hne
      rw [(acknowledge_settles mode s _ happlied hstatus).1]
      exact List.mem_filter.mpr ⟨hold, by simpa [LoopAwait.id] using hne⟩
    have hnext := hacknowledged.retryNext mode healthy hretries h.retryIds
    simp only [Option.elim]
    rw [continueWith_only ((retryNext_frame mode _ healthy pass.retries).1.trans hsame)]
    exact hnext
  | flatten id residual expectedVersion =>
    rw [hawait] at hcall
    cases hcall
  | projection id command' =>
    obtain ⟨rfl, rfl⟩ : id = .stored row.id ∧ command' = command := by simpa [hawait, LoopAwait.call] using hcall
    simp only [interrupted, hawait] at hanswerable
    have hacknowledged := hanswerable.acknowledge mode hrow rfl happlied hstatus
    rw [acknowledge_interrupted s _ command' hstatus happlied] at hacknowledged
    have hresiduals : ∀ entry ∈ pass.residuals, entry ∈
        ((s.acknowledge mode (.stored row.id) (snapshotResult sha256 status row.snapshot)).leave
          (.stored row.id)).residualByAttempt := by
      intro entry hentry
      obtain ⟨hmem, hne⟩ := h.residuals entry hentry
      rw [hawait] at hne
      exact entry_acknowledge hmem hne _
    have hnext := hacknowledged.comeTo mode hresiduals h.residualIds
    have hfound : (some (snapshotResult sha256 status row.snapshot)).all (fun result => result.status = .notFound) = false := by
      simpa [snapshotResult] using hstatus
    simp only [Option.elim, hfound, Bool.false_eq_true, if_false]
    rw [continueWith_only ((comeTo_frame mode ((s.acknowledge mode _ _).leave _) pass.residuals).1.trans hsame)]
    exact hnext

theorem continueWith_frame (n : ℕ) (next : ResidualLoop × Option LoopPass) :
    (continueWith n next).pendingResidualPersists = next.1.pendingResidualPersists ∧
      (continueWith n next).residualByAttempt = next.1.residualByAttempt := by
  unfold continueWith
  split <;> exact ⟨rfl, rfl⟩

theorem resume_settles (s : ResidualLoop) (n : ℕ) {command : ProjectionCommand}
    (hcall : LoopAwait.call pass.awaiting = some (id, command)) (happlied : command.Applied sha256 after)
    (hstatus : status ≠ .notFound) (healthy : Bool) :
    id ∉ (s.resume mode n pass (some (snapshotResult sha256 status after)) healthy).pendingResidualPersists.map
        PendingProjection.id ∧
      (s.resume mode n pass (some (snapshotResult sha256 status after)) healthy).residualOf id = command.residualExposure := by
  obtain ⟨hpending, hresidual⟩ := acknowledge_settles mode s id happlied hstatus
  have hgone : id ∉ (s.acknowledge mode id (snapshotResult sha256 status after)).pendingResidualPersists.map
      PendingProjection.id := by
    rw [hpending, ← parkedOn_eq_none, parkedOn_unpark, if_pos rfl]
  unfold ResidualLoop.resume
  cases hawait : pass.awaiting with
  | retry id' command' =>
    obtain ⟨rfl, rfl⟩ : id' = id ∧ command' = command := by simpa [hawait, LoopAwait.call] using hcall
    simp only [Option.elim]
    obtain ⟨hpending', hentries⟩ := continueWith_frame n
      ((s.acknowledge mode id' (snapshotResult sha256 status after)).retryNext mode healthy pass.retries)
    obtain ⟨-, hpending'', hentries'⟩ := retryNext_frame mode
      (s.acknowledge mode id' (snapshotResult sha256 status after)) healthy pass.retries
    rw [residualOf, outstanding, hentries, hentries', hpending', hpending'']
    exact ⟨hgone, hresidual⟩
  | flatten id' residual expectedVersion =>
    rw [hawait] at hcall
    cases hcall
  | projection id' command' =>
    obtain ⟨rfl, rfl⟩ : id' = id ∧ command' = command := by simpa [hawait, LoopAwait.call] using hcall
    have hfound : (some (snapshotResult sha256 status after)).all (fun result => result.status = .notFound) = false := by
      simpa [snapshotResult] using hstatus
    simp only [Option.elim, hfound, Bool.false_eq_true, if_false]
    obtain ⟨hpending', hentries⟩ := continueWith_frame n
      (((s.acknowledge mode id' (snapshotResult sha256 status after)).leave id').comeTo mode pass.residuals)
    obtain ⟨-, hpending'', hentries'⟩ := comeTo_frame mode
      ((s.acknowledge mode id' (snapshotResult sha256 status after)).leave id') pass.residuals
    rw [residualOf, outstanding, hentries, hentries', hpending', hpending'']
    exact ⟨hgone, hresidual⟩

/-! ## Steps -/

section

variable (h : s.Answerable sha256 none)

include h

theorem Answerable.rowApplied {pending : PendingProjection}
    (hpending : pending ∈ s.pendingResidualPersists) {row : AttemptRow} (hstored : pending.id = .stored row.id)
    (happlied : pending.command.Applied sha256 after) :
    Answerable sha256
      { s with attemptRows := Keyed.replace AttemptRow.id s.attemptRows { row with snapshot := after } } none := by
  refine { h with rowIds := ?_, backed := ?_ }
  · rw [Keyed.map_replace]
    exact h.rowIds
  · intro entry hentry hne
    obtain ⟨other, hother, hbacked⟩ := h.backed entry hentry hne
    by_cases hid : other.id = row.id
    · have hparked : s.parkedOn entry.id = some pending.command := by
        rw [hbacked.stored, hid, ← hstored]
        exact h.parkedOn_of_mem hpending
      refine ⟨{ row with snapshot := after }, Keyed.mem_replace_self hother hid, ?_, ?_, ?_⟩
      · rw [hbacked.stored, hid]
      · intro hnone
        have hnone : s.parkedOn entry.id = none := hnone
        rw [hparked] at hnone
        cases hnone
      · intro command hcommand
        have hcommand : s.parkedOn entry.id = some command := hcommand
        rw [hparked] at hcommand
        obtain rfl := Option.some.inj hcommand
        exact .inr happlied
    · exact ⟨other, Keyed.mem_replace_of_ne hother hid, hbacked⟩

theorem Answerable.park (hentry : entry ∈ s.residualByAttempt)
    (hfree : s.parkedOn entry.id = none) (remaining : List ResidualLegExposure) (charges : Number) (day : String)
    (hnew : ∀ row ∈ s.attemptRows, entry.id = .stored row.id → row.snapshot.version < 9007199254740991 ∧ (s.command sha256 entry.id entry.residual none remaining charges day).applicationId ∉ row.snapshot.appliedFlattenApplications.getD []) :
    (s.park entry.id (s.command sha256 entry.id entry.residual none remaining charges day)).Answerable sha256 none := by
  refine { h with pendingIds := Keyed.nodup_put h.pendingIds _, registered := ?_, backed := ?_ }
  · intro pending hpending
    rcases Keyed.mem_put hpending with rfl | hold
    · exact ⟨⟨entry, hentry, rfl⟩, by simp⟩
    · exact h.registered pending hold
  · intro other hother hne
    obtain ⟨row, hrow, hbacked⟩ := h.backed other hother hne
    refine ⟨row, hrow, hbacked.stored, ?_, ?_⟩
    · intro hnone
      rw [parkedOn_park] at hnone
      split at hnone
      · cases hnone
      · exact hbacked.free hnone
    · intro command hcommand
      rw [parkedOn_park] at hcommand
      split at hcommand
      · rename_i hid
        obtain rfl := Option.some.inj hcommand
        have hsame : other = entry := List.inj_on_of_nodup_map h.entryIds hother hentry hid
        rw [hsame] at hbacked
        obtain ⟨version, hversion, hholds⟩ := hbacked.free hfree
        obtain ⟨hsafe, hfresh⟩ := hnew row hrow hbacked.stored
        have hexpected : (s.command sha256 entry.id entry.residual none remaining charges day).expectedVersion = version := by
          simp only [ResidualLoop.command, createResidualProjectionCommand, hversion, Option.getD_none, Option.getD_some]
          exact readVersion_nat (hholds.version ▸ hsafe.le)
        refine .inl ⟨?_, rfl, rfl, hfresh, hsafe⟩
        rw [hexpected]
        exact hholds
      · exact hbacked.parked command hcommand

theorem Answerable.rowStored (row : AttemptRow) (hfresh : row.id ∉ s.attemptRows.map AttemptRow.id) :
    Answerable sha256 { s with attemptRows := s.attemptRows ++ [row] } none := by
  refine { h with rowIds := ?_, backed := ?_ }
  · rw [List.map_append, List.map_singleton, ← List.concat_eq_append]
    exact h.rowIds.concat hfresh
  · intro entry hentry hne
    obtain ⟨other, hother, hbacked⟩ := h.backed entry hentry hne
    exact ⟨other, List.mem_append_left _ hother, hbacked⟩

theorem Answerable.except (hnew : ¬ s.Registered id) : s.Answerable sha256 (some id) := by
  refine { h with registered := ?_, backed := fun entry hentry _ => h.backed entry hentry (by simp) }
  intro pending hpending
  obtain ⟨hregistered, -⟩ := h.registered pending hpending
  exact ⟨hregistered, fun hsame => hnew (Option.some.inj hsame ▸ hregistered)⟩

theorem Answerable.attempted (mode : ExecutionMode) {id : String} (hfresh : id ∉ s.attemptRows.map AttemptRow.id)
    (hnew : ¬ s.Registered (.stored id)) (residual : List ResidualLegExposure) (owner : ResidualOwner) :
    (registerResidual { s with attemptRows := s.attemptRows ++ [newAttempt sha256 mode id residual] } (.stored id) residual 0
      owner).Answerable sha256 none := by
  have hwider := h.rowStored (newAttempt sha256 mode id residual) hfresh
  refine (hwider.except hnew).register ?_ (List.mem_append_right _ (List.mem_singleton_self _)) rfl ⟨?_, rfl, rfl⟩ owner
  · rw [parkedOn_eq_none]
    intro hmem
    obtain ⟨pending, hpending, hid⟩ := List.mem_map.mp hmem
    exact hnew (hid ▸ (h.registered pending hpending).1)
  · exact readVersion_nat (n := 0) (by omega)

end

theorem interrupted_registerResidual (s : ResidualLoop) (pass : LoopPass) (id : AttemptId)
    (residual : List ResidualLegExposure) (version : ℕ) (owner : ResidualOwner) :
    (s.registerResidual id residual version owner).interrupted pass =
      (s.interrupted pass).registerResidual id residual version owner := by
  unfold interrupted
  split
  · rfl
  · unfold registerResidual
    split <;> rfl
  · unfold registerResidual
    split <;> rfl

theorem interrupted_rows (s : ResidualLoop) (pass : LoopPass) (attemptRows : List AttemptRow) :
    interrupted { s with attemptRows } pass = { s.interrupted pass with attemptRows } := by
  unfold interrupted
  split <;> rfl

theorem interrupted_frame (s : ResidualLoop) (pass : LoopPass) :
    (s.interrupted pass).attemptRows = s.attemptRows ∧ (s.interrupted pass).residualByAttempt = s.residualByAttempt := by
  unfold interrupted
  split <;> exact ⟨rfl, rfl⟩

theorem Underway.rowStored (h : s.Underway sha256 pass) {row : AttemptRow}
    (hfresh : row.id ∉ s.attemptRows.map AttemptRow.id) :
    Underway sha256 { s with attemptRows := s.attemptRows ++ [row] } pass := by
  refine { h with answerable := ?_, replied := ?_ }
  · obtain ⟨hrows, -⟩ := interrupted_frame s pass
    have hwider := h.answerable.rowStored row (hrows ▸ hfresh)
    rw [hrows] at hwider
    rw [interrupted_rows]
    exact hwider
  · intro result hreply
    obtain ⟨other, hother, hanswered⟩ := h.replied result hreply
    exact ⟨other, List.mem_append_left _ hother, hanswered⟩

theorem Underway.attempted (h : s.Underway sha256 pass) {id : String} (hfresh : id ∉ s.attemptRows.map AttemptRow.id)
    (hnew : ¬ s.Registered (.stored id)) (residual : List ResidualLegExposure) (owner : ResidualOwner) :
    (registerResidual { s with attemptRows := s.attemptRows ++ [newAttempt sha256 mode id residual] } (.stored id) residual 0
      owner).Underway sha256 pass := by
  obtain ⟨-, -, hpending, -⟩ := registerResidual_passes
    { s with attemptRows := s.attemptRows ++ [newAttempt sha256 mode id residual] } (.stored id) residual 0 owner
  have hkept : ∀ entry ∈ s.residualByAttempt, entry ∈ (registerResidual
      { s with attemptRows := s.attemptRows ++ [newAttempt sha256 mode id residual] } (.stored id) residual 0
        owner).residualByAttempt := by
    intro entry hentry
    exact entry_registerResidual (s := { s with attemptRows := s.attemptRows ++ [newAttempt sha256 mode id residual] }) hentry
      (fun hid => hnew ⟨entry, hentry, hid⟩) residual 0 owner
  constructor
  case answerable =>
    obtain ⟨hrows, hentries⟩ := interrupted_frame s pass
    have hregistered := h.answerable.attempted mode (show id ∉ _ from hrows ▸ hfresh)
      (by simpa only [Registered, hentries] using hnew) residual owner
    rw [hrows] at hregistered
    rw [interrupted_registerResidual, interrupted_rows]
    exact hregistered
  case awaited =>
    have hawaited := h.awaited
    -- what the pass waits for is about rows that were there before
    cases hawait : pass.awaiting with
    | retry id' command =>
      rw [hawait] at hawaited
      simp only [Awaited, hpending]
      exact hawaited
    | flatten id' residual' expectedVersion =>
      rw [hawait] at hawaited
      obtain ⟨hnone, hfree, entry, hentry, hsame⟩ := hawaited
      refine ⟨hnone, ?_, entry, hkept entry hentry, hsame⟩
      rw [parkedOn_registerResidual]
      exact hfree
    | projection id' command =>
      rw [hawait] at hawaited
      simp only [Awaited, parkedOn_registerResidual]
      exact hawaited
  case retries =>
    rw [hpending]
    exact h.retries
  case retryIds => exact h.retryIds
  case residuals => exact fun entry hentry => ⟨hkept entry (h.residuals entry hentry).1, (h.residuals entry hentry).2⟩
  case residualIds => exact h.residualIds
  case replied =>
    intro result hreply
    obtain ⟨row, hrow, hanswered⟩ := h.replied result hreply
    rw [registerResidual_attemptRows]
    exact ⟨row, List.mem_append_left _ hrow, hanswered⟩

def Fresh (sha256 : Sha256) (s : ResidualLoop) (remaining : List ResidualLegExposure) (charges : Number) (day : String)
    (row : AttemptRow) : LoopAwait → Prop
  | .flatten id residual expectedVersion => id = .stored row.id → row.snapshot.version < 9007199254740991 ∧
      (s.command sha256 id residual expectedVersion remaining charges day).applicationId ∉
        row.snapshot.appliedFlattenApplications.getD []
  | .retry _ _ => True
  | .projection _ _ => True

def Within (sha256 : Sha256) (s : ResidualLoop) : LoopEvent → Prop
  | .loaded => False
  | .recovering _ => False
  | .attempted key residual attemptId now => s.Possible (.attempted key residual attemptId now)
  | .flattened n remaining charges day _ => ∀ pass ∈ s.passes[n]?, ∀ row ∈ s.attemptRows,
      s.Fresh sha256 remaining charges day row pass.awaiting
  | _ => True

def Acknowledged (s : ResidualLoop) : LoopEvent → Prop
  | .attempted _ residual attemptId _ => residual ≠ [] → ∃ id ∈ attemptId, id ∉ s.attemptRows.map AttemptRow.id
  | .tick _ => s.residualByAttempt ≠ [] ∨ s.pendingResidualPersists ≠ [] → s.passes = []
  | _ => True

theorem Settling.attempted (h : s.Settling sha256) (key : String) (residual : List ResidualLegExposure)
    (attemptId : Option String) (now : Number) (hnew : s.Possible (.attempted key residual attemptId now))
    (hstored : s.Acknowledged (.attempted key residual attemptId now)) :
    Settling sha256 (s.step sha256 mode (.attempted key residual attemptId now)).1 := by
  simp only [step]
  cases hid : attemptId.filter fun id => id ∉ s.attemptRows.map AttemptRow.id with
  | none =>
    have hempty : residual.isEmpty := by
      by_contra hresidual
      obtain ⟨id, hmem, hfresh⟩ := hstored (by simpa using hresidual)
      rw [Option.mem_def.mp hmem] at hid
      simp [Option.filter, hfresh] at hid
    simpa [hempty] using h
  | some id =>
    have hfresh : id ∉ s.attemptRows.map AttemptRow.id := by
      obtain ⟨-, hfresh⟩ := Option.filter_eq_some_iff.mp hid
      exact of_decide_eq_true hfresh
    simp only [Possible, hid, Option.elim] at hnew
    simp only [Option.toList_some, List.map_singleton, Option.elim]
    split
    · cases h with
      | resting passes answerable => exact .resting passes (answerable.rowStored _ hfresh)
      | working pass passes underway => exact .working pass passes (underway.rowStored hfresh)
    · cases h with
      | resting passes answerable =>
        exact .resting ((registerResidual_passes _ _ _ _ _).1.trans passes) (answerable.attempted mode hfresh hnew residual _)
      | working pass passes underway =>
        exact .working pass ((registerResidual_passes _ _ _ _ _).1.trans passes) (underway.attempted hfresh hnew residual _)

theorem Settling.tick (h : s.Settling sha256) (healthy : Bool) (hapart : s.Acknowledged (.tick healthy)) :
    Settling sha256 (s.tick mode healthy) := by
  unfold ResidualLoop.tick
  split
  · exact h
  · rename_i hwork
    have hpasses : s.passes = [] := by
      refine hapart ?_
      by_contra hnothing
      obtain ⟨hentries, hpending⟩ := not_or.mp hnothing
      simp [not_not.mp hentries, not_not.mp hpending] at hwork
    cases h with
    | resting passes answerable =>
      have hnext := answerable.retryNext mode healthy (fun pending hpending => hpending) answerable.pendingIds
      simp only [(retryNext_frame mode s healthy s.pendingResidualPersists).1.trans hpasses, List.nil_append]
      exact hnext
    | working pass passes underway =>
      rw [hpasses] at passes
      cases passes

theorem Settling.flattened (h : s.Settling sha256) (n : ℕ) (remaining : List ResidualLegExposure) (charges : Number)
    (day : String) (healthy : Bool) (hwithin : s.Within sha256 (.flattened n remaining charges day healthy)) :
    Settling sha256 (s.flattened sha256 mode n remaining charges day healthy) := by
  unfold ResidualLoop.flattened
  split
  · rename_i pass hget
    obtain ⟨rfl, hpasses, hunderway⟩ := h.only hget
    split
    · rename_i id residual expectedVersion hawait
      simp only
      split
      · have hawaited := hunderway.awaited
        rw [hawait] at hawaited
        obtain ⟨rfl, hfree, entry, hentry, rfl, rfl⟩ := hawaited
        have hanswerable := hunderway.answerable
        simp only [interrupted, hawait] at hanswerable
        have hparked := hanswerable.park hentry hfree remaining charges day ?_
        · refine .working
            { pass with awaiting := .projection entry.id (s.command sha256 entry.id entry.residual none remaining charges day) }
            (by rw [hpasses]; rfl)
            { hunderway with answerable := ?_, awaited := hfree, retries := ?_, residuals := ?_, replied := ?_ }
          · exact { hparked with }
          · have hretries := hunderway.retries
            rw [hawait] at hretries
            exact hretries
          · have hresiduals := hunderway.residuals
            rw [hawait] at hresiduals
            exact hresiduals
          · intro result hreply
            obtain ⟨row, -, status, command, hcall, -⟩ := hunderway.replied result hreply
            rw [hawait] at hcall
            cases hcall
        · intro row hrow hstored
          have hnew := hwithin pass hget row hrow
          rw [hawait] at hnew
          exact hnew hstored
      · exact hunderway.threw hpasses healthy
    · exact h
  · exact h

theorem Underway.parked (h : s.Underway sha256 pass) {command : ProjectionCommand}
    (hcall : LoopAwait.call pass.awaiting = some (id, command)) :
    (⟨id, command⟩ : PendingProjection) ∈ (s.interrupted pass).pendingResidualPersists := by
  have hawaited := h.awaited
  cases hawait : pass.awaiting with
  | retry id' command' =>
    rw [hawait] at hcall hawaited
    obtain ⟨rfl, rfl⟩ : id' = id ∧ command' = command := by simpa [LoopAwait.call] using hcall
    simp only [interrupted, hawait]
    exact hawaited
  | flatten id' residual expectedVersion =>
    rw [hawait] at hcall
    cases hcall
  | projection id' command' =>
    rw [hawait] at hcall
    obtain ⟨rfl, rfl⟩ : id' = id ∧ command' = command := by simpa [LoopAwait.call] using hcall
    simp only [interrupted, hawait]
    exact Keyed.self_mem_put _ _

theorem Settling.processed (h : s.Settling sha256) (n : ℕ) : Settling sha256 (s.step sha256 mode (.processed n)).1 := by
  simp only [step]
  split
  · rename_i pass hget
    obtain ⟨rfl, hpasses, hunderway⟩ := h.only hget
    split
    · rename_i id command hreply hcall
      obtain ⟨row, hrow, status, after, hstored, hproject, hstatus, happlied⟩ :=
        hunderway.answerable.project (hunderway.parked hcall)
      have hrows := hunderway.answerable.rowApplied (hunderway.parked hcall) hstored happlied
      rw [(interrupted_frame s pass).1] at hproject hrow hrows
      simp only at hstored hproject
      simp only [hproject]
      refine .working { pass with reply := some (snapshotResult sha256 status after) } (by rw [hpasses]; rfl)
        { hunderway with answerable := ?_, awaited := ?_, replied := ?_ }
      · have hsame := interrupted_rows s pass (Keyed.replace AttemptRow.id s.attemptRows { row with snapshot := after })
        rw [← hsame] at hrows
        cases hawait : pass.awaiting with
        | retry id command =>
          simp only [interrupted, hawait] at hrows ⊢
          exact { hrows with }
        | flatten id residual expectedVersion =>
          rw [hawait] at hcall
          cases hcall
        | projection id command =>
          simp only [interrupted, hawait] at hrows ⊢
          exact { hrows with }
      · have hawaited := hunderway.awaited
        cases hawait : pass.awaiting with
        | retry id command =>
          rw [hawait] at hawaited
          exact hawaited
        | flatten id residual expectedVersion =>
          rw [hawait] at hcall
          cases hcall
        | projection id command =>
          rw [hawait] at hawaited
          exact hawaited
      · intro result hresult
        obtain rfl := Option.some.inj hresult
        refine ⟨{ row with snapshot := after }, Keyed.mem_replace_self hrow rfl, status, command, ?_, happlied, ?_, rfl⟩
        · rw [hcall, hstored]
        · rcases hstatus with rfl | rfl <;> simp
    · exact h
  · exact h

theorem Settling.switched (h : s.Settling sha256) (activeBroker : BrokerId) (switching : Option BrokerId) :
    Settling sha256 { s with activeBroker, switching } := by
  cases h with
  | resting passes answerable => exact .resting passes { answerable with }
  | working pass passes underway =>
    refine .working pass passes { underway with answerable := ?_, awaited := ?_ }
    · have hsame : interrupted { s with activeBroker, switching } pass =
          { s.interrupted pass with activeBroker, switching } := by
        unfold interrupted
        split <;> rfl
      rw [hsame]
      exact { underway.answerable with }
    · have hawaited := underway.awaited
      cases hawait : pass.awaiting with
      | retry id command | flatten id residual expectedVersion | projection id command =>
        rw [hawait] at hawaited
        exact hawaited

theorem Settling.step (h : s.Settling sha256) (event : LoopEvent) (hwithin : s.Within sha256 event)
    (hstored : s.Acknowledged event) : Settling sha256 (s.step sha256 mode event).1 := by
  cases event with
  | loaded => exact hwithin.elim
  | recovering id => exact hwithin.elim
  | attempted key residual attemptId now => exact h.attempted key residual attemptId now hwithin hstored
  | tick healthy => exact h.tick healthy hstored
  | flattened n remaining charges day healthy => exact h.flattened n remaining charges day healthy hwithin
  | flattenThrew n =>
    simp only [ResidualLoop.step]
    split
    · rename_i pass hget
      obtain ⟨rfl, hpasses, hunderway⟩ := h.only hget
      split
      · exact hunderway.threw hpasses true
      · exact h
    · exact h
  | processed n => exact h.processed n
  | answered n healthy =>
    simp only [ResidualLoop.step]
    split
    · rename_i pass hget
      obtain ⟨rfl, hpasses, hunderway⟩ := h.only hget
      split
      · rename_i result hreply
        exact hunderway.answered hpasses hreply healthy
      · exact h
    · exact h
  | storeThrew n healthy =>
    simp only [ResidualLoop.step]
    split
    · rename_i pass hget
      obtain ⟨rfl, hpasses, hunderway⟩ := h.only hget
      split
      · exact hunderway.threw hpasses healthy
      · exact h
    · exact h
  | switchStarted target | switched =>
    simp only [ResidualLoop.step]
    split
    · exact h.switched _ _
    · exact h

/-! ## What a settling loop does -/

/-- What is parked names a row whose next call succeeds, and a residual is passed over only for a reason that ends. -/
structure Settles (sha256 : Sha256) (mode : ExecutionMode) (s : ResidualLoop) : Prop where
  stored : ∀ pending ∈ s.pendingResidualPersists, ∃ row ∈ s.attemptRows, pending.id = .stored row.id
  succeeds : ∀ pending ∈ s.pendingResidualPersists,
    (project sha256 s.attemptRows pending.id pending.command).2.status = .applied ∨
      (project sha256 s.attemptRows pending.id pending.command).2.status = .alreadyApplied
  settled : ∀ n pass id command healthy, s.passes[n]? = some pass → LoopAwait.call pass.awaiting = some (id, command) →
    pass.reply ≠ none →
      id ∉ (s.step sha256 mode (.answered n healthy)).1.pendingResidualPersists.map PendingProjection.id ∧
        (s.step sha256 mode (.answered n healthy)).1.residualOf id = command.residualExposure
  skipped : ∀ entry ∈ s.residualByAttempt, (s.comeTo mode [entry]).2 = none →
    entry.id ∈ s.pendingResidualPersists.map PendingProjection.id ∨ (∃ pass ∈ s.passes, pass.awaiting.id = entry.id) ∨
      s.residualOwnershipMismatch mode entry.id ∨ entry.residual.any residualRejectionBudgetExhausted

theorem Underway.pending (h : s.Underway sha256 pass) {pending : PendingProjection}
    (hpending : pending ∈ s.pendingResidualPersists) : pending ∈ (s.interrupted pass).pendingResidualPersists := by
  have hawaited := h.awaited
  cases hawait : pass.awaiting with
  | retry id command | flatten id residual expectedVersion =>
    simp only [interrupted, hawait]
    exact hpending
  | projection id command =>
    rw [hawait] at hawaited
    simp only [interrupted, hawait]
    refine Keyed.mem_put_of_ne hpending ?_
    intro hid
    exact parkedOn_eq_none.mp hawaited (List.mem_map.mpr ⟨pending, hpending, hid⟩)

theorem Underway.inFlight (h : s.Underway sha256 pass) (hid : id ∈ s.residualFlattenInFlight) :
    pass.awaiting.id = id := by
  have hidle := h.answerable.idle
  by_contra hne
  have hmem : id ∈ (s.interrupted pass).residualFlattenInFlight := by
    unfold interrupted
    split
    · exact hid
    · rename_i hawait
      rw [hawait] at hne
      exact Finset.mem_erase.mpr ⟨fun hsame => hne hsame.symm, hid⟩
    · rename_i hawait
      rw [hawait] at hne
      exact Finset.mem_erase.mpr ⟨fun hsame => hne hsame.symm, hid⟩
  rw [hidle] at hmem
  exact Finset.notMem_empty _ hmem

theorem comeTo_skips (h : (s.comeTo mode [entry]).2 = none) :
    entry.id ∈ s.pendingResidualPersists.map PendingProjection.id ∨ entry.id ∈ s.residualFlattenInFlight ∨
      s.residualOwnershipMismatch mode entry.id ∨ entry.residual.any residualRejectionBudgetExhausted := by
  by_contra hnone
  simp only [not_or] at hnone
  obtain ⟨hfree, hrest, hmine, hbudget⟩ := hnone
  rw [comeTo, if_neg hfree, if_neg hrest, if_neg hmine, if_neg hbudget] at h
  cases h

theorem Settling.settles (h : s.Settling sha256) : s.Settles sha256 mode := by
  have hrow : ∀ pending ∈ s.pendingResidualPersists, ∃ row ∈ s.attemptRows, ∃ status after,
      pending.id = .stored row.id ∧ project sha256 s.attemptRows pending.id pending.command =
        (Keyed.replace AttemptRow.id s.attemptRows { row with snapshot := after }, snapshotResult sha256 status after) ∧
      (status = .applied ∨ status = .alreadyApplied) ∧ pending.command.Applied sha256 after := by
    intro pending hpending
    cases h with
    | resting passes answerable => exact answerable.project hpending
    | working pass passes underway =>
      have hproject := underway.answerable.project (underway.pending hpending)
      rw [(interrupted_frame s pass).1] at hproject
      exact hproject
  constructor
  case stored =>
    intro pending hpending
    obtain ⟨row, hmem, -, -, hstored, -⟩ := hrow pending hpending
    exact ⟨row, hmem, hstored⟩
  case succeeds =>
    intro pending hpending
    obtain ⟨row, -, status, after, -, hproject, hstatus, -⟩ := hrow pending hpending
    rw [hproject]
    exact hstatus
  case settled =>
    intro n pass id command healthy hget hcall hreply
    obtain ⟨result, hresult⟩ := Option.ne_none_iff_exists'.mp hreply
    obtain ⟨-, -, hunderway⟩ := h.only hget
    obtain ⟨row, -, status, command', hcall', happlied, hstatus, rfl⟩ := hunderway.replied result hresult
    obtain ⟨rfl, rfl⟩ : AttemptId.stored row.id = id ∧ command' = command := by
      rw [hcall] at hcall'
      simpa [eq_comm] using hcall'
    simp only [ResidualLoop.step, hget, hresult]
    exact resume_settles s n hcall happlied hstatus healthy
  case skipped =>
    intro entry hentry hskip
    rcases comeTo_skips hskip with hparked | hflight | hforeign | hbudget
    · exact .inl hparked
    · refine .inr (.inl ?_)
      cases h with
      | resting passes answerable =>
        rw [answerable.idle] at hflight
        exact absurd hflight (Finset.notMem_empty _)
      | working pass passes underway => exact ⟨pass, by simp [passes], underway.inFlight hflight⟩
    · exact .inr (.inr (.inl hforeign))
    · exact .inr (.inr (.inr hbudget))

end ResidualLoop

/-- **No residual is parked for good**, where every failed entry's row is stored and passes do not overlap. -/
theorem acknowledgements_arrive (sha256 : Sha256) (mode : ExecutionMode) (s : ResidualLoop) (hs : s.Booted)
    (events : List LoopEvent)
    (h : Run.Guarded (ResidualLoop.step sha256 mode) (fun s event => s.Within sha256 event ∧ s.Acknowledged event) s events) :
    (Run.finish (ResidualLoop.step sha256 mode) s events).Settles sha256 mode := by
  have hstart : s.Settling sha256 := by
    refine .resting hs.passes ⟨hs.rowIds, ?_, ?_, ?_, ?_, hs.inFlight⟩
    · simp [hs.pending]
    · simp [hs.registered]
    · simp [hs.pending]
    · simp [hs.registered]
  exact (h.invariant (ResidualLoop.Settling sha256) (fun s event hs hok => hs.step event hok.1 hok.2) hstart).settles

/-! ## An attempt without a row -/

section

variable (sha256 : Sha256)

instance ResidualLoop.Fresh.decidable (s : ResidualLoop) (remaining : List ResidualLegExposure) (charges : Number)
    (day : String) (row : AttemptRow) (await : LoopAwait) : Decidable (s.Fresh sha256 remaining charges day row await) :=
  match await with
  | .flatten .. => inferInstanceAs (Decidable (_ → _ ∧ _))
  | .retry .. | .projection .. => instDecidableTrue

instance ResidualLoop.Within.decidable (s : ResidualLoop) (event : LoopEvent) : Decidable (s.Within sha256 event) :=
  match event with
  | .loaded | .recovering _ => instDecidableFalse
  | .attempted key residual attemptId now => inferInstanceAs (Decidable (s.Possible (.attempted key residual attemptId now)))
  | .flattened n remaining charges day _ => inferInstanceAs (Decidable (∀ pass ∈ s.passes[n]?, ∀ row ∈ s.attemptRows,
      s.Fresh sha256 remaining charges day row pass.awaiting))
  | .tick _ | .flattenThrew _ | .processed _ | .answered .. | .storeThrew .. | .switchStarted _
  | .switched => instDecidableTrue

instance ResidualLoop.Acknowledged.decidable (s : ResidualLoop) (event : LoopEvent) : Decidable (s.Acknowledged event) :=
  match event with
  | .attempted _ residual attemptId _ => decidable_of_iff
      (residual.isEmpty ∨ (attemptId.any fun id => id ∉ s.attemptRows.map AttemptRow.id))
      (by cases residual <;> cases attemptId <;> simp [ResidualLoop.Acknowledged])
  | .tick _ => inferInstanceAs (Decidable (s.residualByAttempt ≠ [] ∨ s.pendingResidualPersists ≠ [] → s.passes = []))
  | .loaded | .recovering _ | .flattened .. | .flattenThrew _ | .processed _ | .answered .. | .storeThrew ..
  | .switchStarted _ | .switched => instDecidableTrue

end

/-- The first write is lost after it was processed, and the next tick retries it. -/
theorem acknowledgements_arrive_late :
    (Run.finish (ResidualLoop.step spelledOut .live) (bootedLoop []) (leftOutstanding ++
      [.flattened 0 [shortLeg 25 rest_held] (.fin 2) "2026-09-07" true, .processed 0, .storeThrew 0 true, .tick true,
        .processed 0, .answered 0 true])).Settles spelledOut .live := by
  refine acknowledgements_arrive spelledOut .live (bootedLoop []) (bootedLoop_booted List.nodup_nil) _ ?_
  decide +kernel

def leftUnstored : List LoopEvent :=
  .attempted "K" [shortLeg 75 whole_held] none (.fin 1) :: .tick true :: partlyFlattened

theorem unstored_parked_for_good :
    let parked := Run.finish (ResidualLoop.step spelledOut .live) (bootedLoop []) leftUnstored
    let retried := Run.finish (ResidualLoop.step spelledOut .live) parked [.tick true, .processed 0, .answered 0 true]
    (bootedLoop []).Booted ∧
      Run.Guarded (ResidualLoop.step spelledOut .live) (ResidualLoop.Within spelledOut) (bootedLoop [])
        (leftUnstored ++ [.tick true, .processed 0, .answered 0 true]) ∧
      parked.pendingResidualPersists.map PendingProjection.id = [.unstored "K" (.fin 1)] ∧
      retried.pendingResidualPersists.map PendingProjection.id = [.unstored "K" (.fin 1)] ∧
      (retried.residualOf (.unstored "K" (.fin 1))).map ResidualLegExposure.quantity = [75] ∧
      ¬ retried.Settles spelledOut .live := by
  refine ⟨bootedLoop_booted List.nodup_nil, ?_, ?_, ?_, ?_, ?_⟩
  · decide +kernel
  · decide +kernel
  · decide +kernel
  · decide +kernel
  · intro h
    have hstored := h.stored
    revert hstored
    decide +kernel

end BoxEngine
