import BoxEngine.ResidualLoop
import BoxEngine.ResidualProjectionSound

/-!
# The owner of a residual

An acknowledgement registers what is left under this process's mode and broker: the attempt's own unless its row
stated another, or a switch completed meanwhile.
-/

namespace BoxEngine

open Js

def LoopAwait.id : LoopAwait → AttemptId
  | .retry id _ => id
  | .flatten id _ _ => id
  | .projection id _ => id

def RecordedMode.Foreign (recorded : RecordedMode) (mode : ExecutionMode) : Prop :=
  ∃ stated, recorded = .stated stated ∧ isPaperExecutionMode stated ≠ isPaperExecutionMode mode

namespace ResidualLoop

variable {sha256 : Sha256} {mode : ExecutionMode} {s : ResidualLoop}

def Mine (mode : ExecutionMode) (s : ResidualLoop) (id : AttemptId) : Prop := s.owners id = some (s.own mode)

def Registered (s : ResidualLoop) (id : AttemptId) : Prop := ∃ entry ∈ s.residualByAttempt, entry.id = id

structure PassOwned (mode : ExecutionMode) (s : ResidualLoop) (pass : LoopPass) : Prop where
  awaiting : s.Mine mode pass.awaiting.id
  retries : ∀ pending ∈ pass.retries, s.Mine mode pending.id
  residuals : ∀ entry ∈ pass.residuals, s.Mine mode entry.id ∨ s.Registered entry.id

structure Owned (mode : ExecutionMode) (s : ResidualLoop) : Prop where
  recorded : ∀ entry ∈ s.residualByAttempt, s.owners entry.id = some entry.owner
  modes : ∀ entry ∈ s.residualByAttempt, entry.owner.mode = .stated mode ∨ entry.owner.mode.Foreign mode
  pending : ∀ pending ∈ s.pendingResidualPersists, s.Mine mode pending.id
  passes : ∀ pass ∈ s.passes, s.PassOwned mode pass
  sent : ∀ sent ∈ s.sent, sent.owner = some ⟨.stated sent.mode, sent.broker⟩

variable {id : AttemptId}

theorem registered_of_outstanding {entry : OutstandingResidual} (h : s.outstanding id = some entry) :
    entry ∈ s.residualByAttempt ∧ entry.id = id :=
  ⟨List.mem_of_find?_eq_some h, by simpa using List.find?_some h⟩

theorem not_registered (h : s.outstanding id = none) : ¬ s.Registered id := by
  rintro ⟨entry, hentry, hid⟩
  have hnone := List.find?_eq_none.mp h entry hentry
  simp [hid] at hnone

theorem Owned.owner_of_mine (h : Owned mode s) (id : AttemptId) (hmine : s.Mine mode id) :
    ∀ entry ∈ s.residualByAttempt, entry.id = id → entry.owner = s.own mode := by
  rintro entry hentry rfl
  have hrecorded := h.recorded entry hentry
  rw [hmine] at hrecorded
  exact (Option.some.inj hrecorded).symm

/-! ## Registering -/

theorem registerResidual_passes (s : ResidualLoop) (id : AttemptId) (residual : List ResidualLegExposure) (version : ℕ)
    (owner : ResidualOwner) :
    (s.registerResidual id residual version owner).passes = s.passes ∧
      (s.registerResidual id residual version owner).activeBroker = s.activeBroker ∧
      (s.registerResidual id residual version owner).pendingResidualPersists = s.pendingResidualPersists ∧
      (s.registerResidual id residual version owner).sent = s.sent := by
  unfold registerResidual
  split <;> exact ⟨rfl, rfl, rfl, rfl⟩

theorem mine_registerResidual (residual : List ResidualLegExposure) (version : ℕ) {id' : AttemptId}
    (h : s.Mine mode id') : (s.registerResidual id residual version (s.own mode)).Mine mode id' := by
  unfold Mine registerResidual
  split
  · exact h
  · simp only [own]
    split
    · exact h
    · by_cases hid : id' = id
      · simp [hid]
      · rw [Function.update_of_ne hid]
        exact h

theorem registered_registerResidual (id : AttemptId) (residual : List ResidualLegExposure) (version : ℕ)
    (owner : ResidualOwner) {id' : AttemptId} (h : s.Registered id') :
    id' = id ∨ (s.registerResidual id residual version owner).Registered id' := by
  obtain ⟨entry, hentry, rfl⟩ := h
  by_cases hid : entry.id = id
  · exact .inl hid
  · refine .inr ?_
    unfold registerResidual
    split
    · exact ⟨entry, List.mem_filter.mpr ⟨hentry, by simpa using hid⟩, rfl⟩
    · have hmem : entry.id ∈ (Keyed.put OutstandingResidual.id s.residualByAttempt ⟨id, residual, owner⟩).map
          OutstandingResidual.id := by
        unfold Keyed.put
        split
        · rw [Keyed.map_replace]
          exact List.mem_map_of_mem hentry
        · exact List.mem_map_of_mem (List.mem_append_left _ hentry)
      obtain ⟨other, hother, hsame⟩ := List.mem_map.mp hmem
      exact ⟨other, hother, hsame⟩

theorem Owned.register (h : Owned mode s)
    (hown : ∀ entry ∈ s.residualByAttempt, entry.id = id → entry.owner = s.own mode)
    (residual : List ResidualLegExposure) (version : ℕ) :
    Owned mode (s.registerResidual id residual version (s.own mode)) := by
  obtain ⟨hpasses, -, hpending, hsent⟩ := registerResidual_passes s id residual version (s.own mode)
  constructor
  case recorded =>
    intro entry hentry
    unfold registerResidual at hentry ⊢
    split at hentry
    · rename_i hempty
      simp only [if_pos hempty]
      exact h.recorded entry (List.mem_of_mem_filter hentry)
    · rename_i hnonempty
      simp only [if_neg hnonempty]
      -- the residual is outstanding already, or its id is new
      cases houtstanding : s.outstanding id with
      | some first =>
        obtain ⟨hfirst, hid⟩ := registered_of_outstanding houtstanding
        simp only [Option.isSome_some, if_true]
        rcases Keyed.mem_put hentry with rfl | hentry
        · rw [← hid, h.recorded first hfirst, hown first hfirst hid]
        · exact h.recorded entry hentry
      | none =>
        simp only [Option.isSome_none, Bool.false_eq_true, if_false]
        rcases Keyed.mem_put hentry with rfl | hentry
        · simp
        · have hne : entry.id ≠ id := fun hid => not_registered houtstanding ⟨entry, hentry, hid⟩
          rw [Function.update_of_ne hne]
          exact h.recorded entry hentry
  case modes =>
    intro entry hentry
    unfold registerResidual at hentry
    split at hentry
    · exact h.modes entry (List.mem_of_mem_filter hentry)
    · rcases Keyed.mem_put hentry with rfl | hentry
      · exact .inl rfl
      · exact h.modes entry hentry
  case pending =>
    intro pending hmem
    rw [hpending] at hmem
    exact mine_registerResidual residual version (h.pending pending hmem)
  case passes =>
    intro pass hpass
    rw [hpasses] at hpass
    have howned := h.passes pass hpass
    refine ⟨mine_registerResidual residual version howned.awaiting,
      fun pending hmem => mine_registerResidual residual version (howned.retries pending hmem), ?_⟩
    intro entry hentry
    rcases howned.residuals entry hentry with hmine | hregistered
    · exact .inl (mine_registerResidual residual version hmine)
    · rcases registered_registerResidual id residual version (s.own mode) hregistered with hid | hregistered'
      · obtain ⟨first, hfirst, hsame⟩ := hregistered
        refine .inl (mine_registerResidual residual version ?_)
        rw [Mine, ← hsame, h.recorded first hfirst, hown first hfirst (hsame.trans hid)]
      · exact .inr hregistered'
  case sent =>
    rw [hsent]
    exact h.sent

theorem Owned.acknowledge (h : Owned mode s) (hmine : s.Mine mode id) (result : ProjectionResult) :
    Owned mode (s.acknowledge mode id result) ∧ (s.acknowledge mode id result).passes = s.passes ∧
      (s.acknowledge mode id result).Mine mode id := by
  have hdropped : Owned mode
      { s with pendingResidualPersists := s.pendingResidualPersists.filter fun pending => pending.id ≠ id } :=
    { h with
      pending := fun pending hmem => h.pending pending (List.mem_of_mem_filter hmem)
      passes := fun pass hpass => { h.passes pass hpass with } }
  unfold ResidualLoop.acknowledge
  split
  · exact ⟨h, rfl, hmine⟩
  · rename_i residual version _ _ _ _ _
    have hown := hdropped.owner_of_mine id hmine
    have hregistered := hdropped.register hown residual version
    have hpasses := (registerResidual_passes
      { s with pendingResidualPersists := s.pendingResidualPersists.filter fun pending => pending.id ≠ id }
      id residual version (s.own mode)).1
    have hstill : Mine mode (registerResidual
        { s with pendingResidualPersists := s.pendingResidualPersists.filter fun pending => pending.id ≠ id } id residual
          version (s.own mode)) id := mine_registerResidual residual version hmine
    simp only
    split
    · exact ⟨{ hregistered with passes := fun pass hpass => { hregistered.passes pass hpass with } }, hpasses, hstill⟩
    · exact ⟨hregistered, hpasses, hstill⟩
  · exact ⟨h, rfl, hmine⟩

/-! ## A pass going on -/

theorem Owned.comeTo (h : Owned mode s) {residuals : List OutstandingResidual}
    (hresiduals : ∀ entry ∈ residuals, s.Mine mode entry.id ∨ s.Registered entry.id) :
    Owned mode (s.comeTo mode residuals).1 ∧ (s.comeTo mode residuals).1.passes = s.passes ∧
      ∀ pass ∈ (s.comeTo mode residuals).2, (s.comeTo mode residuals).1.PassOwned mode pass := by
  induction residuals with
  | nil => exact ⟨h, rfl, by simp [ResidualLoop.comeTo]⟩
  | cons entry rest ih =>
    have hrest := ih fun other hother => hresiduals other (.tail _ hother)
    unfold ResidualLoop.comeTo
    split
    · exact hrest
    · split
      · exact hrest
      · split
        · exact hrest
        · rename_i hmatch
          split
          · exact hrest
          · have hmine : s.Mine mode entry.id := by
              rcases hresiduals entry (.head _) with hmine | ⟨first, hfirst, hid⟩
              · exact hmine
              · cases houtstanding : s.outstanding entry.id with
                | none => exact absurd ⟨first, hfirst, hid⟩ (not_registered houtstanding)
                | some found =>
                  obtain ⟨hfound, hsame⟩ := registered_of_outstanding houtstanding
                  rw [residualOwnershipMismatch, houtstanding] at hmatch
                  simp only [Bool.or_eq_true, decide_eq_true_eq, not_or, not_not] at hmatch
                  have hmode : found.owner.mode = .stated mode := by
                    rcases h.modes found hfound with hmode | ⟨stated, hstated, hforeign⟩
                    · exact hmode
                    · rw [hstated] at hmatch
                      simp [statedExecutionMode, hforeign] at hmatch
                  rw [Mine, ← hsame, h.recorded found hfound, own, ← hmode, ← hmatch.2]
            refine ⟨{ h with sent := ?_, passes := fun pass hpass => { h.passes pass hpass with } }, rfl, ?_⟩
            · intro sent hsent
              rcases List.mem_append.mp hsent with hsent | hsent
              · exact h.sent sent hsent
              · rw [List.mem_singleton.mp hsent]
                exact hmine
            · intro pass hpass
              rw [← Option.mem_some_iff.mp hpass]
              exact ⟨hmine, by simp, fun other hother => hresiduals other (.tail _ hother)⟩

theorem Owned.retryNext (h : Owned mode s) (healthy : Bool) {retries : List PendingProjection}
    (hretries : ∀ pending ∈ retries, s.Mine mode pending.id) :
    Owned mode (s.retryNext mode healthy retries).1 ∧ (s.retryNext mode healthy retries).1.passes = s.passes ∧
      ∀ pass ∈ (s.retryNext mode healthy retries).2, (s.retryNext mode healthy retries).1.PassOwned mode pass := by
  cases retries with
  | nil =>
    simp only [ResidualLoop.retryNext]
    split
    · exact h.comeTo fun entry hentry => .inr ⟨entry, hentry, rfl⟩
    · exact ⟨h, rfl, by simp⟩
  | cons pending rest =>
    refine ⟨h, rfl, ?_⟩
    intro pass hpass
    rw [← Option.mem_some_iff.mp hpass]
    exact ⟨hretries pending (.head _), fun other hother => hretries other (.tail _ hother),
      by simp⟩

theorem Owned.continueWith {n : ℕ} {next : ResidualLoop × Option LoopPass} (h : Owned mode next.1)
    (hpass : ∀ pass ∈ next.2, next.1.PassOwned mode pass) : Owned mode (continueWith n next) := by
  unfold ResidualLoop.continueWith
  split
  · rename_i pass hnext
    refine { h with passes := ?_ }
    intro other hother
    rcases List.mem_or_eq_of_mem_set hother with hother | rfl
    · exact { h.passes other hother with }
    · exact { hpass other hnext with }
  · exact { h with passes := fun other hother => { h.passes other (List.mem_of_mem_eraseIdx hother) with } }

theorem Owned.park (h : Owned mode s) (hmine : s.Mine mode id) (command : ProjectionCommand) :
    Owned mode (s.park id command) := by
  refine { h with pending := ?_, passes := fun pass hpass => { h.passes pass hpass with } }
  intro pending hpending
  rcases Keyed.mem_put hpending with rfl | hpending
  · exact hmine
  · exact h.pending pending hpending

theorem Owned.leave (h : Owned mode s) (id : AttemptId) : Owned mode (s.leave id) :=
  { h with passes := fun pass hpass => { h.passes pass hpass with } }

theorem Owned.resume (h : Owned mode s) {n : ℕ} {pass : LoopPass} (hpass : pass ∈ s.passes)
    (result : Option ProjectionResult) (healthy : Bool) : Owned mode (s.resume mode n pass result healthy) := by
  have hacknowledged : ∀ id, s.Mine mode id → Owned mode (result.elim s (s.acknowledge mode id)) ∧
      (result.elim s (s.acknowledge mode id)).passes = s.passes ∧ (result.elim s (s.acknowledge mode id)).Mine mode id := by
    intro id hmine
    cases result with
    | none => exact ⟨h, rfl, hmine⟩
    | some result => exact h.acknowledge hmine result
  have howned := h.passes pass hpass
  unfold ResidualLoop.resume
  split
  · rename_i id command hawait
    have hmine : s.Mine mode id := by simpa [hawait, LoopAwait.id] using howned.awaiting
    obtain ⟨hs, hpasses, -⟩ := hacknowledged id hmine
    have hthis := hs.passes pass (hpasses ▸ hpass)
    obtain ⟨hnext, -, hgo⟩ := hs.retryNext healthy hthis.retries
    exact Owned.continueWith hnext hgo
  · rename_i id residual _ hawait
    have hleft := h.leave id
    have hthis := hleft.passes pass hpass
    obtain ⟨hnext, -, hgo⟩ := hleft.comeTo hthis.residuals
    exact Owned.continueWith hnext hgo
  · rename_i id command hawait
    have hmine : s.Mine mode id := by simpa [hawait, LoopAwait.id] using howned.awaiting
    obtain ⟨hs, hpasses, hstill⟩ := hacknowledged id hmine
    have hparked : Owned mode (if result.all fun result => result.status = .notFound then
          (result.elim s (s.acknowledge mode id)).park id command else result.elim s (s.acknowledge mode id)) ∧
        (if result.all fun result => result.status = .notFound then
          (result.elim s (s.acknowledge mode id)).park id command
          else result.elim s (s.acknowledge mode id)).passes = s.passes := by
      split
      · exact ⟨hs.park hstill command, hpasses⟩
      · exact ⟨hs, hpasses⟩
    have hleft := hparked.1.leave id
    have hthis := hleft.passes pass (by rw [ResidualLoop.leave, hparked.2]; exact hpass)
    obtain ⟨hnext, -, hgo⟩ := hleft.comeTo hthis.residuals
    exact Owned.continueWith hnext hgo

/-! ## Steps -/

/-- The clock and the id allocator give every failed entry an attempt of its own. -/
def Possible (s : ResidualLoop) : LoopEvent → Prop
  | .attempted key _ attemptId now =>
    ¬ s.Registered ((attemptId.filter fun id => id ∉ s.attemptRows.map AttemptRow.id).elim (.unstored key now) .stored)
  | _ => True

structure Idle (s : ResidualLoop) : Prop where
  registered : s.residualByAttempt = []
  pending : s.pendingResidualPersists = []
  passes : s.passes = []

/-- Rows are of this very mode, a switch waits for passes and acknowledgements, and crash recovery takes over its own
alone. -/
def Steady (mode : ExecutionMode) (s : ResidualLoop) : LoopEvent → Prop
  | .loaded => s.loaded = false → s.Idle ∧
      ∀ row ∈ s.attemptRows, row.owner.mode = .stated mode ∨ row.owner.mode.Foreign mode
  | .recovering id => ∀ entry ∈ s.residualByAttempt, entry.id = .stored id → entry.owner = s.own mode
  | .switched => s.switching ≠ none → s.passes = [] ∧ s.pendingResidualPersists = []
  | _ => True

theorem Owned.registerRow (h : Owned mode s) (hpasses : s.passes = []) (hpending : s.pendingResidualPersists = [])
    {row : AttemptRow} (hmode : row.owner.mode = .stated mode ∨ row.owner.mode.Foreign mode)
    (hnew : ∀ entry ∈ s.residualByAttempt, entry.id = .stored row.id → entry.owner = row.owner) :
    Owned mode (s.registerRow row) := by
  unfold ResidualLoop.registerRow
  split
  · obtain ⟨hpasses', -, hpending', hsent⟩ := registerResidual_passes s (.stored row.id)
      (row.snapshot.residualExposure.getD []) (readVersion row.snapshot.projectionVersion) row.owner
    constructor
    case recorded =>
      intro entry hentry
      rename_i hrow
      unfold registerResidual at hentry ⊢
      simp only [hrow.2, Bool.false_eq_true, if_false] at hentry ⊢
      cases houtstanding : s.outstanding (.stored row.id) with
      | some first =>
        obtain ⟨hfirst, hid⟩ := registered_of_outstanding houtstanding
        simp only [Option.isSome_some, if_true]
        rcases Keyed.mem_put hentry with rfl | hentry
        · rw [← hid, h.recorded first hfirst, hnew first hfirst hid]
        · exact h.recorded entry hentry
      | none =>
        simp only [Option.isSome_none, Bool.false_eq_true, if_false]
        rcases Keyed.mem_put hentry with rfl | hentry
        · simp
        · have hne : entry.id ≠ .stored row.id := fun hid => not_registered houtstanding ⟨entry, hentry, hid⟩
          rw [Function.update_of_ne hne]
          exact h.recorded entry hentry
    case modes =>
      intro entry hentry
      rename_i hrow
      unfold registerResidual at hentry
      simp only [hrow.2, Bool.false_eq_true, if_false] at hentry
      rcases Keyed.mem_put hentry with rfl | hentry
      · exact hmode
      · exact h.modes entry hentry
    case pending =>
      rw [hpending', hpending]
      simp
    case passes =>
      rw [hpasses', hpasses]
      simp
    case sent =>
      rw [hsent]
      exact h.sent
  · exact h

theorem registerRow_frame (s : ResidualLoop) (row : AttemptRow) :
    (s.registerRow row).passes = s.passes ∧ (s.registerRow row).pendingResidualPersists = s.pendingResidualPersists ∧
      ∀ entry ∈ (s.registerRow row).residualByAttempt, entry.id = .stored row.id ∨ entry ∈ s.residualByAttempt := by
  unfold ResidualLoop.registerRow
  split
  · obtain ⟨hpasses, -, hpending, -⟩ := registerResidual_passes s (.stored row.id)
      (row.snapshot.residualExposure.getD []) (readVersion row.snapshot.projectionVersion) row.owner
    refine ⟨hpasses, hpending, ?_⟩
    intro entry hentry
    unfold registerResidual at hentry
    split at hentry
    · exact .inr (List.mem_of_mem_filter hentry)
    · rcases Keyed.mem_put hentry with rfl | hentry
      · exact .inl rfl
      · exact .inr hentry
  · exact ⟨rfl, rfl, fun entry hentry => .inr hentry⟩

theorem Owned.load (rows : List AttemptRow) (h : Owned mode s) (hpasses : s.passes = [])
    (hpending : s.pendingResidualPersists = [])
    (hmodes : ∀ row ∈ rows, row.owner.mode = .stated mode ∨ row.owner.mode.Foreign mode)
    (hids : (rows.map AttemptRow.id).Nodup) (hnew : ∀ row ∈ rows, ¬ s.Registered (.stored row.id)) :
    Owned mode (rows.foldl ResidualLoop.registerRow s) := by
  induction rows generalizing s with
  | nil => exact h
  | cons row rest ih =>
    obtain ⟨hpasses', hpending', hentries⟩ := registerRow_frame s row
    rw [List.map_cons, List.nodup_cons] at hids
    refine ih (h.registerRow hpasses hpending (hmodes row (.head _)) ?_) (hpasses'.trans hpasses)
      (hpending'.trans hpending) (fun other hother => hmodes other (.tail _ hother)) hids.2 ?_
    · intro entry hentry hid
      exact absurd ⟨entry, hentry, hid⟩ (hnew row (.head _))
    · rintro other hother ⟨entry, hentry, hid⟩
      rcases hentries entry hentry with hsame | hold
      · have hsameId : other.id = row.id := AttemptId.stored.inj (hid.symm.trans hsame)
        exact hids.1 (hsameId ▸ List.mem_map_of_mem hother)
      · exact hnew other (.tail _ hother) ⟨entry, hold, hid⟩

theorem project_ids (rows : List AttemptRow) (id : AttemptId) (command : ProjectionCommand) :
    (project sha256 rows id command).1.map AttemptRow.id = rows.map AttemptRow.id := by
  unfold project
  split
  · rfl
  · split
    · rfl
    · exact Keyed.map_replace ..

@[simp] theorem attemptRows_load (rows : List AttemptRow) (s : ResidualLoop) :
    (rows.foldl ResidualLoop.registerRow s).attemptRows = s.attemptRows := by
  induction rows generalizing s with
  | nil => rfl
  | cons row rest ih =>
    rw [List.foldl_cons, ih]
    unfold ResidualLoop.registerRow
    split
    · exact registerResidual_attemptRows ..
    · rfl

theorem Owned.rows (h : Owned mode s) (attemptRows : List AttemptRow) : Owned mode { s with attemptRows } :=
  { h with passes := fun pass hpass => { h.passes pass hpass with } }

theorem Owned.withPasses (h : Owned mode s) {passes : List LoopPass}
    (hpasses : ∀ pass ∈ passes, pass ∈ s.passes ∨ s.PassOwned mode pass) : Owned mode { s with passes } := by
  refine { h with passes := ?_ }
  intro pass hpass
  rcases hpasses pass hpass with hold | hnew
  · exact { h.passes pass hold with }
  · exact { hnew with }

theorem mine_of_registered {residual : List ResidualLegExposure} (version : ℕ) (h : Owned mode s)
    (hown : ∀ entry ∈ s.residualByAttempt, entry.id = id → entry.owner = s.own mode) (hresidual : residual.isEmpty = false) :
    (s.registerResidual id residual version (s.own mode)).Mine mode id := by
  unfold Mine registerResidual
  simp only [hresidual, Bool.false_eq_true, if_false, own]
  cases houtstanding : s.outstanding id with
  | none => simp
  | some first =>
    obtain ⟨hfirst, hid⟩ := registered_of_outstanding houtstanding
    simp only [Option.isSome_some, if_true]
    rw [← hid, h.recorded first hfirst, hown first hfirst hid]
    rfl

theorem Owned.tick (h : Owned mode s) (healthy : Bool) : Owned mode (s.tick mode healthy) := by
  unfold ResidualLoop.tick
  split
  · exact h
  · obtain ⟨hnext, -, hgo⟩ := h.retryNext healthy h.pending
    refine hnext.withPasses ?_
    intro pass hpass
    rcases List.mem_append.mp hpass with hpass | hpass
    · exact .inl hpass
    · exact .inr (hgo pass (Option.mem_toList.mp hpass))

theorem Owned.flattened (h : Owned mode s) (n : ℕ) (remaining : List ResidualLegExposure) (charges : Number) (day : String)
    (healthy : Bool) : Owned mode (s.flattened sha256 mode n remaining charges day healthy) := by
  unfold ResidualLoop.flattened
  split
  · rename_i pass hget
    have hpass := List.mem_of_getElem? hget
    split
    · rename_i id residual _ hawait
      simp only
      split
      · refine h.withPasses ?_
        intro other hother
        rcases List.mem_or_eq_of_mem_set hother with hother | rfl
        · exact .inl hother
        · have hmine : s.Mine mode id := by simpa [hawait, LoopAwait.id] using (h.passes pass hpass).awaiting
          exact .inr { h.passes pass hpass with awaiting := hmine }
      · exact h.resume hpass none healthy
    · exact h
  · exact h

theorem Owned.step (h : Owned mode s) (hids : (s.attemptRows.map AttemptRow.id).Nodup) (event : LoopEvent)
    (hpossible : s.Possible event) (hsteady : s.Steady mode event) : Owned mode (s.step sha256 mode event).1 := by
  cases event with
  | loaded =>
    simp only [ResidualLoop.step]
    split
    · exact h
    · rename_i hloaded
      obtain ⟨hidle, hmodes⟩ := hsteady (by simpa using hloaded)
      have hload := h.load s.attemptRows hidle.passes hidle.pending hmodes hids
        fun row _ hregistered => by
          obtain ⟨entry, hentry, -⟩ := hregistered
          rw [hidle.registered] at hentry
          cases hentry
      exact { hload with passes := fun pass hpass => { hload.passes pass hpass with } }
  | attempted key residual attemptId now =>
    simp only [ResidualLoop.step]
    split
    · exact h.rows _
    · refine (h.rows _).register ?_ residual 0
      intro entry hentry hid
      exact absurd ⟨entry, hentry, hid⟩ hpossible
  | recovering id =>
    simp only [ResidualLoop.step]
    split
    · exact h
    · rename_i row hrow
      have hregistered := h.register hsteady (row.snapshot.residualExposure.getD [])
        (readVersion row.snapshot.projectionVersion)
      split
      · exact hregistered
      · rename_i hresidual
        have hmine := mine_of_registered (readVersion row.snapshot.projectionVersion) h hsteady
          (Bool.eq_false_iff.mpr hresidual)
        obtain ⟨hpasses, hactive, -, hsent⟩ := registerResidual_passes s (.stored id)
          (row.snapshot.residualExposure.getD []) (readVersion row.snapshot.projectionVersion) (s.own mode)
        constructor
        case recorded => exact hregistered.recorded
        case modes => exact hregistered.modes
        case pending => exact hregistered.pending
        case passes =>
          intro pass hpass
          rcases List.mem_append.mp hpass with hold | hnew
          · exact { hregistered.passes pass (hpasses ▸ hold) with }
          · rw [List.mem_singleton.mp hnew]
            exact ⟨hmine, by simp, by simp⟩
        case sent =>
          intro sent hmem
          rcases List.mem_append.mp hmem with hmem | hmem
          · exact h.sent sent hmem
          · rw [List.mem_singleton.mp hmem]
            refine hmine.trans ?_
            rw [own, hactive]
  | tick healthy => exact h.tick healthy
  | flattened n remaining charges day healthy => exact h.flattened n remaining charges day healthy
  | flattenThrew n =>
    simp only [ResidualLoop.step]
    split
    · rename_i pass hget
      split
      · exact h.resume (List.mem_of_getElem? hget) none true
      · exact h
    · exact h
  | processed n =>
    simp only [ResidualLoop.step]
    split
    · rename_i pass hget
      split
      · rename_i id command _ _
        refine (h.rows (project sha256 s.attemptRows id command).1).withPasses ?_
        intro other hother
        rcases List.mem_or_eq_of_mem_set hother with hother | rfl
        · exact .inl hother
        · exact .inr { h.passes pass (List.mem_of_getElem? hget) with }
      · exact h
    · exact h
  | answered n healthy =>
    simp only [ResidualLoop.step]
    split
    · rename_i pass hget
      split
      · exact h.resume (List.mem_of_getElem? hget) _ healthy
      · exact h
    · exact h
  | storeThrew n healthy =>
    simp only [ResidualLoop.step]
    split
    · rename_i pass hget
      split
      · exact h.resume (List.mem_of_getElem? hget) none healthy
      · exact h
    · exact h
  | switchStarted target =>
    simp only [ResidualLoop.step]
    split
    · exact { h with passes := fun pass hpass => { h.passes pass hpass with } }
    · exact h
  | switched =>
    simp only [ResidualLoop.step]
    split
    · rename_i target hswitching
      -- a steady switch finds no pass running and nothing pending
      obtain ⟨hpasses, hpending⟩ := hsteady (by simp [hswitching])
      refine { h with pending := ?_, passes := ?_ }
      · simp [hpending]
      · simp [hpasses]
    · exact h

theorem rowIds_step (hids : (s.attemptRows.map AttemptRow.id).Nodup) (event : LoopEvent) :
    ((s.step sha256 mode event).1.attemptRows.map AttemptRow.id).Nodup := by
  -- only an attempt adds a row, under an id that no row has
  cases event with
  | loaded =>
    simp only [step]
    split
    · exact hids
    · simpa using hids
  | attempted key residual attemptId now =>
    have hnew : ((s.attemptRows ++ (attemptId.filter fun id => id ∉ s.attemptRows.map AttemptRow.id).toList.map
        fun id => newAttempt sha256 mode id residual).map AttemptRow.id).Nodup := by
      cases hstored : attemptId.filter fun id => id ∉ s.attemptRows.map AttemptRow.id with
      | none => simpa using hids
      | some id =>
        have hfresh : id ∉ s.attemptRows.map AttemptRow.id := by
          obtain ⟨-, hfresh⟩ := Option.filter_eq_some_iff.mp hstored
          exact of_decide_eq_true hfresh
        rw [Option.toList_some, List.map_singleton, List.map_append, List.map_singleton]
        rw [← List.concat_eq_append]
        exact hids.concat hfresh
    simp only [step]
    split
    · exact hnew
    · simpa using hnew
  | recovering id =>
    simp only [step]
    split
    · exact hids
    · split
      · simpa using hids
      · simpa using hids
  | tick healthy =>
    simp only [step, tick]
    split
    · exact hids
    · simpa using hids
  | flattened n remaining charges day healthy =>
    simp only [step, flattened]
    split
    · split
      · split
        · exact hids
        · simpa using hids
      · exact hids
    · exact hids
  | flattenThrew n =>
    simp only [step]
    split
    · split
      · simpa using hids
      · exact hids
    · exact hids
  | processed n =>
    simp only [step]
    split
    · split
      · rw [project_ids]
        exact hids
      · exact hids
    · exact hids
  | answered n healthy | storeThrew n healthy =>
    simp only [step]
    split
    · split
      · simpa using hids
      · exact hids
    · exact hids
  | switchStarted target | switched =>
    simp only [step]
    split <;> exact hids

structure Booted (s : ResidualLoop) : Prop extends Idle s where
  inFlight : s.residualFlattenInFlight = ∅
  rowIds : (s.attemptRows.map AttemptRow.id).Nodup
  sent : s.sent = []

theorem Booted.owned (h : s.Booted) : Owned mode s := by
  constructor
  case recorded => simp [h.registered]
  case modes => simp [h.registered]
  case pending => simp [h.pending]
  case passes => simp [h.passes]
  case sent => simp [h.sent]

end ResidualLoop

/-- **The owner of an outstanding residual never changes**, where boot finds nothing registered and rows of its own,
and no broker switch overtakes a pass or an acknowledgement. -/
theorem owner_kept (sha256 : Sha256) (mode : ExecutionMode) (s : ResidualLoop) (hs : s.Booted) (events : List LoopEvent)
    (h : Run.Guarded (ResidualLoop.step sha256 mode) (fun s event => s.Possible event ∧ s.Steady mode event) s events) :
    let final := Run.finish (ResidualLoop.step sha256 mode) s events
    (∀ entry ∈ final.residualByAttempt, final.owners entry.id = some entry.owner) ∧
      ∀ sent ∈ final.sent, sent.owner = some ⟨.stated sent.mode, sent.broker⟩ := by
  have hfinal := h.invariant (fun s => s.Owned mode ∧ (s.attemptRows.map AttemptRow.id).Nodup) ?_ ⟨hs.owned, hs.rowIds⟩
  · exact ⟨hfinal.1.recorded, hfinal.1.sent⟩
  · intro s event hstep hok
    exact ⟨hstep.1.step hstep.2 event hok.1 hok.2, ResidualLoop.rowIds_step hstep.2 event⟩

/-! ## A switch inside a flatten -/

section

variable (mode : ExecutionMode)

instance RecordedMode.Foreign.decidable (recorded : RecordedMode) : Decidable (recorded.Foreign mode) :=
  match recorded with
  | .stated its =>
    decidable_of_iff (isPaperExecutionMode its ≠ isPaperExecutionMode mode) (by simp [RecordedMode.Foreign])
  | .other text => isFalse (by simp [RecordedMode.Foreign])

instance ResidualLoop.Registered.decidable (s : ResidualLoop) (id : AttemptId) : Decidable (s.Registered id) :=
  inferInstanceAs (Decidable (∃ entry ∈ s.residualByAttempt, entry.id = id))

instance ResidualLoop.Idle.decidable (s : ResidualLoop) : Decidable s.Idle :=
  decidable_of_iff (s.residualByAttempt = [] ∧ s.pendingResidualPersists = [] ∧ s.passes = [])
    ⟨fun ⟨hregistered, hpending, hpasses⟩ => ⟨hregistered, hpending, hpasses⟩,
      fun ⟨hregistered, hpending, hpasses⟩ => ⟨hregistered, hpending, hpasses⟩⟩

instance ResidualLoop.Possible.decidable (s : ResidualLoop) (event : LoopEvent) : Decidable (s.Possible event) :=
  match event with
  | .attempted .. => inferInstanceAs (Decidable (¬ s.Registered _))
  | .loaded | .recovering _ | .tick _ | .flattened .. | .flattenThrew _ | .processed _ | .answered ..
  | .storeThrew .. | .switchStarted _ | .switched => instDecidableTrue

instance ResidualLoop.Steady.decidable (s : ResidualLoop) (event : LoopEvent) : Decidable (s.Steady mode event) :=
  match event with
  | .loaded => inferInstanceAs (Decidable (s.loaded = false → s.Idle ∧
      ∀ row ∈ s.attemptRows, row.owner.mode = .stated mode ∨ row.owner.mode.Foreign mode))
  | .recovering id => inferInstanceAs (Decidable (∀ entry ∈ s.residualByAttempt, entry.id = .stored id →
      entry.owner = s.own mode))
  | .switched => inferInstanceAs (Decidable (s.switching ≠ none → s.passes = [] ∧ s.pendingResidualPersists = []))
  | .attempted .. | .tick _ | .flattened .. | .flattenThrew _ | .processed _ | .answered .. | .storeThrew ..
  | .switchStarted _ => instDecidableTrue

end

def bootedLoop (attemptRows : List AttemptRow) : ResidualLoop where
  activeBroker := .zerodha
  switching := none
  loaded := false
  attemptRows
  residualByAttempt := []
  residualProjectionVersion := fun _ => none
  pendingResidualPersists := []
  residualFlattenInFlight := ∅
  passes := []
  owners := fun _ => none
  sent := []

def otherSide (id : String) : AttemptRow where
  id
  owner := ⟨.stated .paperTouch, .zerodha⟩
  snapshot := legacyRow none

theorem bootedLoop_booted {attemptRows : List AttemptRow} (h : (attemptRows.map AttemptRow.id).Nodup) :
    (bootedLoop attemptRows).Booted :=
  ⟨⟨rfl, rfl, rfl⟩, rfl, h, rfl⟩

def leftOutstanding : List LoopEvent :=
  [.attempted "K" [shortLeg 75 whole_held] (some "a1") (.fin 1), .tick true]

def partlyFlattened : List LoopEvent :=
  [.flattened 0 [shortLeg 25 rest_held] (.fin 2) "2026-09-07" true, .processed 0, .answered 0 true]

/-- A live process that holds a paper row flattens its own attempt, and a switch follows. -/
theorem owner_kept_partial :
    let final := Run.finish (ResidualLoop.step spelledOut .live) (bootedLoop [otherSide "a0"])
      (.loaded :: leftOutstanding ++ partlyFlattened ++ [.switchStarted .dhan, .switched, .tick true])
    (∀ entry ∈ final.residualByAttempt, final.owners entry.id = some entry.owner) ∧
      ∀ sent ∈ final.sent, sent.owner = some ⟨.stated sent.mode, sent.broker⟩ := by
  refine owner_kept spelledOut .live (bootedLoop [otherSide "a0"]) (bootedLoop_booted (by decide)) _ ?_
  decide +kernel

theorem owner_switched_while_flattening :
    let final := Run.finish (ResidualLoop.step spelledOut .live) (bootedLoop [])
      (.loaded :: .switchStarted .dhan :: leftOutstanding ++ .switched :: partlyFlattened ++ [.tick true])
    (bootedLoop []).Booted ∧
      Run.Guarded (ResidualLoop.step spelledOut .live) ResidualLoop.Possible (bootedLoop [])
        (.loaded :: .switchStarted .dhan :: leftOutstanding ++ .switched :: partlyFlattened ++ [.tick true]) ∧
      final.owners (.stored "a1") = some ⟨.stated .live, .zerodha⟩ ∧
      final.residualByAttempt.map OutstandingResidual.owner = [⟨.stated .live, .dhan⟩] ∧
      final.sent.map SentFlatten.broker = [.zerodha, .dhan] := by
  refine ⟨bootedLoop_booted List.nodup_nil, ?_, ?_, ?_, ?_⟩
  · decide +kernel
  · decide +kernel
  · decide +kernel
  · decide +kernel

end BoxEngine
