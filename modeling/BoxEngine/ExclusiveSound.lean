import BoxEngine.ExecutionLease

/-!
# One owner for each account

What a manager may act on is backed by the table: the row names the lease and lives as long, but for the rounding to
whole milliseconds, unless its time is over or the manager had it deleted.
-/

namespace BoxEngine

namespace Ownership

/-! ## The table -/

def Backed (now : ℚ) (store : ExecutionLeaseStore) (name : LeaseName) (until_ : ℚ) : Prop :=
  until_ < now + 1 ∨ name ∈ store.released ∨
    ∃ row, store.rows name.scope = some row ∧ row.owner = name.owner ∧ row.fence = name.fence ∧
      until_ < row.expiresAt + 1

def LeaseStatement.By (deps : ExecutionLeaseManagerDeps) : LeaseStatement → Prop
  | upsert args _ => args.owner = deps.owner ∧ args.ttlMs = deps.ttl
  | renew name ttlMs => name.owner = deps.owner ∧ ttlMs = deps.ttl
  | markReconciled name => name.owner = deps.owner
  | nextFence | release _ | read _ => True

def LeaseStatement.grants : LeaseStatement → Prop
  | upsert _ _ | renew _ _ | markReconciled _ => True
  | nextFence | release _ | read _ => False

section

variable {ι : Type} {deps : ι → ExecutionLeaseManagerDeps} {now : ℚ} {store : ExecutionLeaseStore}

def Bounded (deps : ι → ExecutionLeaseManagerDeps) (now : ℚ) (store : ExecutionLeaseStore) : Prop :=
  ∀ i scope row, store.rows scope = some row → row.owner = (deps i).owner →
    row.expiresAt ≤ now + storedTtl (deps i).ttl

variable {name : LeaseName}

theorem Backed.mono {u v : ℚ} (h : Backed now store name u) (hle : v ≤ u) : Backed now store name v := by
  rcases h with hover | hreleased | ⟨row, hrow, howner, hfence, hlives⟩
  · exact .inl (by linarith)
  · exact .inr (.inl hreleased)
  · exact .inr (.inr ⟨row, hrow, howner, hfence, by linarith⟩)

theorem Backed.later {u later : ℚ} (h : Backed now store name u) (hle : now ≤ later) : Backed later store name u := by
  rcases h with hover | hrest
  · exact .inl (by linarith)
  · exact .inr hrest

theorem Bounded.later {later : ℚ} (h : Bounded deps now store) (hle : now ≤ later) : Bounded deps later store := by
  intro i scope row hrow howner
  have := h i scope row hrow howner
  linarith

variable {row : StoredLease}

theorem named_eq_some :
    store.named name = some row ↔ store.rows name.scope = some row ∧ row.owner = name.owner ∧ row.fence = name.fence := by
  simp [ExecutionLeaseStore.named, Option.filter_eq_some_iff]

theorem unexpired_eq_some :
    store.unexpired now name = some row ↔ store.named name = some row ∧ now < row.expiresAt := by
  simp [ExecutionLeaseStore.unexpired, Option.filter_eq_some_iff]

variable {scope : String}

theorem Backed.put {u : ℚ} (h : Backed now store name u)
    (hkeeps : ∀ before, store.rows scope = some before → before.expiresAt ≤ now ∨ row.owner = before.owner ∧
      row.fence = before.fence ∧ before.expiresAt ≤ row.expiresAt) :
    Backed now (store.put scope (some row)) name u := by
  rcases h with hover | hreleased | ⟨before, hbefore, howner, hfence, hlives⟩
  · exact .inl hover
  · exact .inr (.inl hreleased)
  · by_cases hscope : name.scope = scope
    · subst hscope
      rcases hkeeps before hbefore with hlapsed | ⟨howner', hfence', hlonger⟩
      · exact .inl (by linarith)
      · refine .inr (.inr ⟨row, ?_, howner'.trans howner, hfence'.trans hfence, by linarith⟩)
        simp [ExecutionLeaseStore.put]
    · refine .inr (.inr ⟨before, ?_, howner, hfence, hlives⟩)
      simpa [ExecutionLeaseStore.put, hscope] using hbefore

theorem Bounded.put (h : Bounded deps now store)
    (hrow : ∀ i, row.owner = (deps i).owner → row.expiresAt ≤ now + storedTtl (deps i).ttl) :
    Bounded deps now (store.put scope (some row)) := by
  intro i other found hfound howner
  by_cases hscope : other = scope
  · subst hscope
    simp only [ExecutionLeaseStore.put, Function.update_self, Option.some.injEq] at hfound
    subst hfound
    exact hrow i howner
  · exact h i other found (by simpa [ExecutionLeaseStore.put, hscope] using hfound) howner

theorem upserted_cases {args : AcquireArgs} {fence : ℕ} {before : Option StoredLease}
    (h : ExecutionLeaseStore.upserted now args fence before = some row) :
    row.owner = args.owner ∧ row.expiresAt = now + storedTtl args.ttlMs ∧
      ∀ found, before = some found → found.expiresAt ≤ now ∨ found.owner = args.owner ∧ row.fence = found.fence := by
  cases before with
  | none =>
    simp only [ExecutionLeaseStore.upserted, Option.some.injEq] at h
    subst h
    simp
  | some found =>
    simp only [ExecutionLeaseStore.upserted] at h
    split at h
    · simp only [Option.some.injEq] at h
      subst h
      refine ⟨rfl, rfl, ?_⟩
      rintro _ ⟨⟩
      by_cases howner : found.owner = args.owner
      · exact .inr ⟨howner, by simp [howner]⟩
      · exact .inl (by simp_all)
    · cases h

def Wrote (d : ExecutionLeaseManagerDeps) (now : ℚ) (store : ExecutionLeaseStore) (scope : String)
    (row : StoredLease) : Prop :=
  row.owner = d.owner ∧
    ((row.expiresAt = now + storedTtl d.ttl ∧ ∀ before, store.rows scope = some before →
        before.expiresAt ≤ now ∨ before.owner = d.owner ∧ row.fence = before.fence) ∨
      ∃ before, store.rows scope = some before ∧ before.owner = d.owner ∧ row.fence = before.fence ∧
        row.expiresAt = before.expiresAt)

theorem Wrote.bounded {i : ι} (h : Wrote (deps i) now store scope row)
    (hbounded : Bounded deps now store) : row.expiresAt ≤ now + storedTtl (deps i).ttl := by
  rcases h.2 with ⟨hlife, _⟩ | ⟨before, hbefore, howner, _, hlife⟩
  · exact le_of_eq hlife
  · rw [hlife]
    exact hbounded i scope before hbefore howner

theorem Wrote.keeps {i : ι} (h : Wrote (deps i) now store scope row)
    (hbounded : Bounded deps now store) {before : StoredLease} (hbefore : store.rows scope = some before) :
    before.expiresAt ≤ now ∨
      row.owner = before.owner ∧ row.fence = before.fence ∧ before.expiresAt ≤ row.expiresAt := by
  rcases h.2 with ⟨hlife, hkept⟩ | ⟨found, hfound, howner, hfence, hlife⟩
  · rcases hkept before hbefore with hlapsed | ⟨howner, hfence⟩
    · exact .inl hlapsed
    · refine .inr ⟨h.1.trans howner.symm, hfence, ?_⟩
      rw [hlife]
      exact hbounded i scope before hbefore howner
  · obtain rfl : before = found := Option.some.inj (hbefore.symm.trans hfound)
    exact .inr ⟨h.1.trans howner.symm, hfence, le_of_eq hlife.symm⟩

inductive Effect (d : ExecutionLeaseManagerDeps) (now : ℚ) (store : ExecutionLeaseStore) (grants : Prop) :
    QueryResult × ExecutionLeaseStore → Prop
  | quiet {result : QueryResult} (seq : ℕ) (hnone : grants → result.row = none) :
      Effect d now store grants (result, { store with fenceSeq := seq })
  | wrote {scope : String} {row : StoredLease} (hwrote : Wrote d now store scope row) :
      Effect d now store grants ({ row := some (row.toRow scope now), rowCount := 1 }, store.put scope (some row))
  | deleted {result : QueryResult} {name : LeaseName} {row : StoredLease} (hnamed : store.named name = some row)
      (hgrants : ¬ grants) :
      Effect d now store grants
        (result, { store.put name.scope none with released := name :: store.released })

variable (now store) in
theorem LeaseStatement.effect {d : ExecutionLeaseManagerDeps} {statement : LeaseStatement} (hby : statement.By d) :
    Effect d now store statement.grants (statement.execute store now) := by
  cases statement with
  | nextFence => exact .quiet (store.fenceSeq + 1) (by simp [grants])
  | read scope => exact .quiet store.fenceSeq (by simp [grants])
  | upsert args fence =>
    simp only [execute, ExecutionLeaseStore.upsert]
    cases hrow : ExecutionLeaseStore.upserted now args fence (store.rows args.scope) with
    | none => exact .quiet store.fenceSeq (by simp)
    | some row =>
      obtain ⟨howner, hlife, hkept⟩ := upserted_cases hrow
      refine .wrote ⟨howner.trans hby.1, .inl ⟨by rw [hlife, hby.2], fun before hbefore => ?_⟩⟩
      rw [← hby.1]
      exact hkept before hbefore
  | renew name ttlMs =>
    simp only [execute, ExecutionLeaseStore.renew]
    cases hrow : store.unexpired now name with
    | none => exact .quiet store.fenceSeq (by simp)
    | some row =>
      obtain ⟨hrows, howner, _⟩ := named_eq_some.mp (unexpired_eq_some.mp hrow).1
      refine .wrote ⟨howner.trans hby.1, .inl ⟨by rw [hby.2], fun before hbefore => ?_⟩⟩
      obtain rfl : row = before := Option.some.inj (hrows.symm.trans hbefore)
      exact .inr ⟨howner.trans hby.1, rfl⟩
  | markReconciled name =>
    simp only [execute, ExecutionLeaseStore.markReconciled]
    cases hrow : store.unexpired now name with
    | none => exact .quiet store.fenceSeq (by simp)
    | some row =>
      obtain ⟨hrows, howner, _⟩ := named_eq_some.mp (unexpired_eq_some.mp hrow).1
      exact .wrote ⟨howner.trans hby, .inr ⟨row, hrows, howner.trans hby, rfl, rfl⟩⟩
  | release name =>
    simp only [execute, ExecutionLeaseStore.release]
    cases hrow : store.named name with
    | none => exact .quiet store.fenceSeq (by simp)
    | some row => exact .deleted hrow (by simp [grants])

namespace Effect

variable {i : ι} {granting : Prop} {after : QueryResult × ExecutionLeaseStore}

section

variable (h : Effect (deps i) now store granting after)
include h

theorem backed (hbounded : Bounded deps now store) {name : LeaseName} {u : ℚ} (hbacked : Backed now store name u) :
    Backed now after.2 name u := by
  cases h with
  | quiet seq hnone => exact hbacked
  | wrote hwrote => exact hbacked.put fun before hbefore => hwrote.keeps hbounded hbefore
  | @deleted result gone row hnamed hgrants =>
    rcases hbacked with hover | hreleased | ⟨found, hfound, howner, hfence, hlives⟩
    · exact .inl hover
    · exact .inr (.inl (.tail _ hreleased))
    · by_cases hscope : name.scope = gone.scope
      · obtain ⟨hrow, howner', hfence'⟩ := named_eq_some.mp hnamed
        rw [hscope, hrow] at hfound
        cases hfound
        have hname : name = gone := by
          cases name
          cases gone
          simp_all
        exact .inr (.inl (by simp [hname]))
      · refine .inr (.inr ⟨found, ?_, howner, hfence, hlives⟩)
        simpa [ExecutionLeaseStore.put, hscope] using hfound

theorem bounded (hdistinct : Function.Injective fun i => (deps i).owner) (hbounded : Bounded deps now store) :
    Bounded deps now after.2 := by
  cases h with
  | quiet seq hnone => exact hbounded
  | wrote hwrote =>
    apply hbounded.put
    intro j hj
    obtain rfl : j = i := hdistinct (hj.symm.trans hwrote.1)
    exact hwrote.bounded hbounded
  | @deleted result gone row hnamed hgrants =>
    intro j scope found hfound howner
    by_cases hscope : scope = gone.scope
    · simp [ExecutionLeaseStore.put, hscope] at hfound
    · exact hbounded j scope found (by simpa [ExecutionLeaseStore.put, hscope] using hfound) howner

theorem granted (hgrants : granting) {row : ExecutionLeaseRow} (hrow : after.1.row = some row) {charged : ℚ}
    (hcharged : charged ≤ now) :
    row.owner = (deps i).owner ∧ Backed now after.2 ⟨row.scope, row.owner, row.fence⟩
      (charged + (max 0 (row.expiresAt - row.serverNow) : ℤ)) := by
  cases h with
  | quiet seq hnone =>
    rw [hnone hgrants] at hrow
    cases hrow
  | @wrote scope stored hwrote =>
    simp only [Option.some.injEq] at hrow
    subst hrow
    refine ⟨hwrote.1, ?_⟩
    rcases le_total (ms stored.expiresAt) (ms now) with hspent | hlives
    · left
      rw [show max 0 ((stored.toRow scope now).expiresAt - (stored.toRow scope now).serverNow) = 0 from
        max_eq_left (by simp only [StoredLease.toRow]; omega)]
      push_cast
      linarith
    · refine .inr (.inr ⟨stored, by simp [ExecutionLeaseStore.put, StoredLease.toRow], rfl, rfl, ?_⟩)
      rw [show max 0 ((stored.toRow scope now).expiresAt - (stored.toRow scope now).serverNow) =
        ms stored.expiresAt - ms now from max_eq_right (by simp only [StoredLease.toRow]; omega)]
      have hfloor : ((ms stored.expiresAt : ℤ) : ℚ) ≤ stored.expiresAt := Int.floor_le _
      have hlt : now < (ms now : ℤ) + 1 := Int.lt_floor_add_one _
      push_cast
      linarith
  | deleted hnamed hnot => exact absurd hgrants hnot

end

end Effect

theorem Backed.reapExpired {u : ℚ} (h : Backed now store name u) : Backed now (store.reapExpired now) name u := by
  rcases h with hover | hreleased | ⟨row, hrow, howner, hfence, hlives⟩
  · exact .inl hover
  · exact .inr (.inl hreleased)
  · by_cases hlapsed : now < row.expiresAt
    · exact .inr (.inr ⟨row, by simp [ExecutionLeaseStore.reapExpired, hrow, hlapsed], howner, hfence, hlives⟩)
    · exact .inl (by linarith)

theorem Bounded.reapExpired (h : Bounded deps now store) : Bounded deps now (store.reapExpired now) := by
  intro i scope row hrow howner
  simp only [ExecutionLeaseStore.reapExpired, Option.filter_eq_some_iff] at hrow
  exact h i scope row hrow.1 howner

end

/-! ## Managers -/

def ObservedLease.ends (deps : ExecutionLeaseManagerDeps) (lease : ObservedLease) : ℚ :=
  lease.observedAtLocal - deps.clock + lease.remainingAtObservationMs

section

variable {deps : ExecutionLeaseManagerDeps} {now : ℚ} {store : ExecutionLeaseStore}

variable (deps now store) in
def ObservedLease.Sound (lease : ObservedLease) : Prop :=
  lease.owner = deps.owner ∧ (lease.remainingAtObservationMs ≤ 0 ∨ Backed now store lease.name (lease.ends deps))

variable (deps now store) in
structure StoreCall.Sound (call : StoreCall) : Prop where
  by_ : call.statement.By deps
  charged : call.chargedFrom ≤ deps.now now
  answer : ∀ result row, call.answer = some result → result.row = some row → call.statement.grants →
    row.owner = deps.owner ∧ Backed now store ⟨row.scope, row.owner, row.fence⟩
      (call.chargedFrom - deps.clock + (max 0 (row.expiresAt - row.serverNow) : ℤ))

def RefreshStage.brings : RefreshStage → Prop
  | .renewing | .upserting => True
  | .releasing | .drawing | .reading _ => False

variable (deps now store) in
structure BoxExecutionLeaseManager.Sound (m : BoxExecutionLeaseManager) : Prop where
  held : ∀ lease, m.state = .held lease → lease.Sound deps now store
  pass : ∀ pass, m.inFlight = some pass →
    pass.call.Sound deps now store ∧ (pass.stage.brings → pass.call.statement.grants)
  stamp : ∀ reconciliation, m.reconcileInFlight = some reconciliation →
    reconciliation.name.owner = deps.owner ∧ ∀ call, reconciliation.call = some call →
      call.Sound deps now store ∧ call.statement.grants
  releases : ∀ call ∈ m.releases, call.Sound deps now store

theorem BoxExecutionLeaseManager.Sound.kept {m : BoxExecutionLeaseManager} {now' : ℚ} {store' : ExecutionLeaseStore}
    (h : m.Sound deps now store) (hle : now ≤ now')
    (hbacked : ∀ name u, Backed now store name u → Backed now' store' name u) : m.Sound deps now' store' := by
  have hcall : ∀ call : StoreCall, call.Sound deps now store → call.Sound deps now' store' := by
    intro call hcall
    refine ⟨hcall.by_, ?_, ?_⟩
    · have := hcall.charged
      simp only [ExecutionLeaseManagerDeps.now] at *
      linarith
    · intro result row hresult hrow hgrants
      obtain ⟨howner, hrow⟩ := hcall.answer result row hresult hrow hgrants
      exact ⟨howner, hbacked _ _ hrow⟩
  constructor
  · intro lease hlease
    obtain ⟨howner, hlease⟩ := h.held lease hlease
    exact ⟨howner, hlease.imp_right (hbacked _ _)⟩
  · intro pass hpass
    exact ⟨hcall _ (h.pass pass hpass).1, (h.pass pass hpass).2⟩
  · intro reconciliation hreconciliation
    refine ⟨(h.stamp reconciliation hreconciliation).1, fun call hcall' => ?_⟩
    exact ⟨hcall _ ((h.stamp reconciliation hreconciliation).2 call hcall').1,
      ((h.stamp reconciliation hreconciliation).2 call hcall').2⟩
  · intro call hmem
    exact hcall call (h.releases call hmem)

theorem StoreCall.sound_issue {statement : LeaseStatement} {charged : ℚ} (hby : statement.By deps)
    (hcharged : charged ≤ deps.now now) : (StoreCall.issue statement charged).Sound deps now store :=
  ⟨hby, hcharged, by simp [StoreCall.issue]⟩

theorem StoreCall.Sound.observed {call : StoreCall} {result : QueryResult} {row : ExecutionLeaseRow}
    (h : call.Sound deps now store) (hresult : call.answer = some result) (hrow : result.row = some row)
    (hgrants : call.statement.grants) :
    (BoxExecutionLeaseManager.observed deps now call row).Sound deps now store := by
  obtain ⟨howner, hbacked⟩ := h.answer result row hresult hrow hgrants
  refine ⟨howner, ?_⟩
  by_cases hspent : (BoxExecutionLeaseManager.observed deps now call row).remainingAtObservationMs ≤ 0
  · exact .inl hspent
  · refine .inr (hbacked.mono ?_)
    have hcharged := h.charged
    simp only [BoxExecutionLeaseManager.observed, BoxExecutionLeaseManager.observe, ObservedLease.ends,
      ExecutionLeaseManagerDeps.now] at hspent hcharged ⊢
    generalize max 0 (row.expiresAt - row.serverNow) = life at hspent ⊢
    rw [max_eq_right (by linarith : 0 ≤ now + deps.clock - call.chargedFrom),
      max_eq_right (by linarith : 0 ≤ now + deps.clock - call.chargedFrom)] at hspent ⊢
    rw [max_eq_right (by omega)]
    have hfloor := Int.floor_le ((life : ℚ) - (now + deps.clock - call.chargedFrom))
    linarith

namespace BoxExecutionLeaseManager

variable {m : BoxExecutionLeaseManager}

theorem state_of_heldFor {target : LeaseTarget} {lease : ObservedLease} (h : m.heldFor? target = some lease) :
    m.state = .held lease ∧ lease.scope = target.scope := by
  unfold heldFor? at h
  split at h
  · split at h
    · simp_all
    · cases h
  · cases h

namespace Sound

section

variable (h : m.Sound deps now store)
include h

variable {state : ExecutionLeaseState}

theorem adopt (hstate : ∀ lease, state = .held lease → lease.Sound deps now store) :
    (m.adopt state).Sound deps now store :=
  ⟨hstate, h.pass, h.stamp, h.releases⟩

theorem adoptUnproven {scope : Option String} (hstate : ∀ lease, state ≠ .held lease) :
    (m.adoptUnproven state scope).Sound deps now store := by
  have hadopted : (m.adopt state).Sound deps now store := h.adopt fun lease hlease => absurd hlease (hstate lease)
  unfold BoxExecutionLeaseManager.adoptUnproven
  split
  · split
    · exact h
    · exact hadopted
  · exact hadopted

theorem endPass : m.endPass.Sound deps now store :=
  ⟨h.held, by simp [BoxExecutionLeaseManager.endPass], h.stamp, h.releases⟩

theorem forScope (scope : Option String) : { m with currentScope := scope }.Sound deps now store :=
  ⟨h.held, h.pass, h.stamp, h.releases⟩

theorem reconcileTakeover : (m.reconcileTakeover deps).Sound deps now store := by
  unfold BoxExecutionLeaseManager.reconcileTakeover
  split
  · exact h
  · split
    case h_1 lease hlease =>
      split
      · exact h
      · refine ⟨h.held, h.pass, ?_, h.releases⟩
        rintro reconciliation ⟨⟩
        exact ⟨(h.held lease hlease).1, by simp⟩
    case h_2 => exact h

theorem awaitPass {target : LeaseTarget} {since : ℕ} {stage : RefreshStage} {statement : LeaseStatement} {charged : ℚ}
    (hby : statement.By deps) (hcharged : charged ≤ deps.now now) (hbrings : stage.brings → statement.grants) :
    (m.awaitPass target since stage statement charged).Sound deps now store := by
  refine ⟨h.held, ?_, h.stamp, h.releases⟩
  rintro pass ⟨⟩
  exact ⟨StoreCall.sound_issue hby hcharged, hbrings⟩

theorem releasedCurrent (why : String) : (m.releasedCurrent why).Sound deps now store :=
  (h.forScope none).adopt (by simp)

theorem renewOrAcquire (target : LeaseTarget) (since : ℕ) :
    (m.renewOrAcquire deps now target since).Sound deps now store := by
  unfold BoxExecutionLeaseManager.renewOrAcquire
  cases hheld : m.heldFor? target with
  | none => exact h.awaitPass trivial le_rfl (by simp [RefreshStage.brings])
  | some lease =>
    refine h.awaitPass ⟨?_, rfl⟩ le_rfl (by simp [LeaseStatement.grants])
    exact (h.held lease (state_of_heldFor hheld).1).1

theorem refresh : (m.refresh deps now).Sound deps now store := by
  unfold BoxExecutionLeaseManager.refresh
  split
  · exact h
  · split
    · exact h.adopt (by simp)
    · split
      · exact h.adoptUnproven (by simp)
      · split
        · exact h.adoptUnproven (by simp)
        · simp only
          split
          · exact h.renewOrAcquire _ _
          · split
            · exact h.awaitPass trivial le_rfl (by simp [RefreshStage.brings])
            · exact (h.forScope none).renewOrAcquire _ _

theorem initialise : (m.initialise deps now).Sound deps now store := by
  unfold BoxExecutionLeaseManager.initialise
  split
  · exact h.adopt (by simp)
  · split
    · exact ⟨h.held, h.pass, h.stamp, h.releases⟩
    · exact h.refresh

theorem readyAnswered (answer : Except String Unit) : (m.readyAnswered deps now answer).Sound deps now store := by
  have hcounted : { m with initialising := m.initialising - 1 }.Sound deps now store :=
    ⟨h.held, h.pass, h.stamp, h.releases⟩
  cases answer with
  | error detail => exact hcounted.adoptUnproven (by simp)
  | ok => exact hcounted.refresh

variable {reconciliation : Reconciliation}

theorem reconcileAnswered
    (hreconciliation : m.reconcileInFlight = some reconciliation) (answer : Except String Bool) :
    (m.reconcileAnswered deps now reconciliation answer).Sound deps now store := by
  have howner := (h.stamp reconciliation hreconciliation).1
  unfold BoxExecutionLeaseManager.reconcileAnswered
  split
  · refine ⟨h.held, h.pass, ?_, h.releases⟩
    rintro _ ⟨⟩
    refine ⟨howner, ?_⟩
    rintro call ⟨⟩
    exact ⟨StoreCall.sound_issue howner le_rfl, trivial⟩
  · exact ⟨h.held, h.pass, by simp, h.releases⟩

variable {answer : Except StoreError QueryResult}

theorem stampAnswered {call : StoreCall}
    (hreconciliation : m.reconcileInFlight = some reconciliation) (hcall : reconciliation.call = some call)
    (hanswer : ∀ result, answer = .ok result → call.answer = some result) :
    (m.stampAnswered deps now reconciliation call answer).Sound deps now store := by
  obtain ⟨hcallsound, hgrants⟩ := (h.stamp reconciliation hreconciliation).2 call hcall
  have hended : { m with reconcileInFlight := none }.Sound deps now store := ⟨h.held, h.pass, by simp, h.releases⟩
  unfold BoxExecutionLeaseManager.stampAnswered
  split
  · exact hended
  · split
    · exact hended.adopt (by simp)
    · apply hended.adopt
      rintro lease ⟨⟩
      exact hcallsound.observed (hanswer _ rfl) ‹_› hgrants

theorem release : (m.release deps now).Sound deps now store := by
  unfold BoxExecutionLeaseManager.release
  split
  · refine ⟨h.held, h.pass, h.stamp, ?_⟩
    intro call hmem
    simp only [List.mem_append, List.mem_singleton] at hmem
    rcases hmem with hmem | rfl
    · exact h.releases call hmem
    · exact StoreCall.sound_issue trivial le_rfl
  · exact ⟨h.held, h.pass, h.stamp, h.releases⟩

theorem releaseAnswered (k : ℕ) : (m.releaseAnswered k).Sound deps now store := by
  apply releasedCurrent
  exact ⟨h.held, h.pass, h.stamp, fun call hmem => h.releases call (List.mem_of_mem_eraseIdx hmem)⟩

theorem acquireThrew {pass : RefreshPass} (hpass : pass.call.Sound deps now store) (error : StoreError) :
    (m.acquireThrew pass error).Sound deps now store := by
  unfold BoxExecutionLeaseManager.acquireThrew
  split
  · exact h.awaitPass trivial hpass.charged (by simp [RefreshStage.brings])
  · exact (h.endPass.forScope _).adoptUnproven (by simp)

theorem passAnswered {pass : RefreshPass} (hpass : m.inFlight = some pass)
    (hanswer : ∀ result, answer = .ok result → pass.call.answer = some result) :
    (m.passAnswered deps now pass answer).Sound deps now store := by
  obtain ⟨hcall, hbrings⟩ := h.pass pass hpass
  have hobserved : ∀ result row, answer = .ok result → result.row = some row → pass.stage.brings →
      ∀ lease, ExecutionLeaseState.held (observed deps now pass.call row) = .held lease → lease.Sound deps now store := by
    rintro result row hok hrow hstage lease ⟨⟩
    exact hcall.observed (hanswer result hok) hrow (hbrings hstage)
  unfold BoxExecutionLeaseManager.passAnswered
  -- by the stage that was answered, and then by its answer
  split
  case h_1 => exact (h.endPass.releasedCurrent _).renewOrAcquire _ _
  case h_2 hstage =>
    unfold renewAnswered
    split
    · exact h.endPass
    · split
      · exact h.endPass.adopt (by simp)
      · have hheld := h.endPass.adopt (hobserved _ _ rfl ‹_› (by simp [hstage, RefreshStage.brings]))
        simp only
        split
        · exact hheld.reconcileTakeover
        · exact hheld
  case h_3 =>
    unfold drawAnswered
    split
    · exact h.acquireThrew hcall _
    · split
      · exact (h.endPass.forScope _).adoptUnproven (by simp)
      · exact h.awaitPass ⟨rfl, rfl⟩ hcall.charged (by simp [LeaseStatement.grants])
  case h_4 hstage =>
    unfold upsertAnswered
    split
    · exact h.acquireThrew hcall _
    · split
      · have hheld := (h.endPass.forScope (some pass.target.scope)).adopt
          (hobserved _ _ rfl ‹_› (by simp [hstage, RefreshStage.brings]))
        unfold acquired
        simp only
        split
        · exact hheld.reconcileTakeover
        · exact hheld
      · exact h.awaitPass trivial hcall.charged (by simp [RefreshStage.brings])
  case h_5 =>
    unfold readAnswered
    split
    · split
      · exact (h.endPass.forScope _).adopt (by simp)
      · exact h.acquireThrew hcall _
    · exact (h.endPass.forScope _).adopt (by simp)

end

variable {slot : Slot}

section

variable (h : m.Sound deps now store)
include h

theorem answered {call : StoreCall} (hcall : m.call? slot = some call) {answer : Except StoreError QueryResult}
    (hanswer : ∀ result, answer = .ok result → call.answer = some result) :
    (m.answered deps now answer slot).Sound deps now store := by
  cases slot with
  | pass =>
    obtain ⟨pass, hpass, rfl⟩ := Option.map_eq_some_iff.mp hcall
    simp only [BoxExecutionLeaseManager.answered, hpass]
    exact h.passAnswered hpass hanswer
  | stamp =>
    obtain ⟨reconciliation, hreconciliation, hcall⟩ := Option.bind_eq_some_iff.mp hcall
    simp only [BoxExecutionLeaseManager.answered, hreconciliation, hcall]
    exact h.stampAnswered hreconciliation hcall hanswer
  | release k =>
    simp only [BoxExecutionLeaseManager.answered]
    split
    · exact h.releaseAnswered k
    · exact h

theorem call {call : StoreCall} (hcall : m.call? slot = some call) : call.Sound deps now store := by
  cases slot with
  | pass =>
    obtain ⟨pass, hpass, rfl⟩ := Option.map_eq_some_iff.mp hcall
    exact (h.pass pass hpass).1
  | stamp =>
    obtain ⟨reconciliation, hreconciliation, hcall⟩ := Option.bind_eq_some_iff.mp hcall
    exact ((h.stamp reconciliation hreconciliation).2 call hcall).1
  | release k => exact h.releases call (List.mem_of_getElem? hcall)

theorem putCall {call call' : StoreCall} (hcall : m.call? slot = some call) (hsame : call'.statement = call.statement)
    (hcall' : call'.Sound deps now store) : (m.putCall call' slot).Sound deps now store := by
  cases slot with
  | pass =>
    obtain ⟨pass, hpass, rfl⟩ := Option.map_eq_some_iff.mp hcall
    refine ⟨h.held, ?_, h.stamp, h.releases⟩
    simp only [BoxExecutionLeaseManager.putCall, hpass, Option.map_some, Option.some.injEq]
    rintro _ rfl
    exact ⟨hcall', by rw [hsame]; exact (h.pass pass hpass).2⟩
  | stamp =>
    obtain ⟨reconciliation, hreconciliation, hcall⟩ := Option.bind_eq_some_iff.mp hcall
    obtain ⟨howner, hstamp⟩ := h.stamp reconciliation hreconciliation
    refine ⟨h.held, h.pass, ?_, h.releases⟩
    simp only [BoxExecutionLeaseManager.putCall, hreconciliation, Option.map_some, Option.some.injEq]
    rintro _ rfl
    refine ⟨howner, ?_⟩
    rintro _ ⟨⟩
    exact ⟨hcall', by rw [hsame]; exact (hstamp call hcall).2⟩
  | release k =>
    refine ⟨h.held, h.pass, h.stamp, fun other hmem => ?_⟩
    rcases List.mem_or_eq_of_mem_set hmem with hmem | rfl
    · exact h.releases other hmem
    · exact hcall'

end

end Sound

end BoxExecutionLeaseManager

end

/-! ## Runs -/

namespace LeaseWorld

variable {ι : Type} [DecidableEq ι] {deps : ι → ExecutionLeaseManagerDeps} {w : LeaseWorld ι}

variable (deps) in
structure Sound (w : LeaseWorld ι) : Prop where
  bounded : Bounded deps w.now w.store
  detached : ∀ statement ∈ w.detached, ∃ i, statement.By (deps i)
  managers : ∀ i, (w.managers i).Sound (deps i) w.now w.store

namespace Sound

section

variable (h : w.Sound deps)
include h

theorem move {i : ι} {m : BoxExecutionLeaseManager} (hm : m.Sound (deps i) w.now w.store) :
    (w.move i m).Sound deps := by
  refine ⟨h.bounded, h.detached, fun j => ?_⟩
  by_cases hj : j = i
  · subst hj
    simpa [LeaseWorld.move] using hm
  · simpa [LeaseWorld.move, hj] using h.managers j

omit [DecidableEq ι] in
theorem stored {store : ExecutionLeaseStore} (hbounded : Bounded deps w.now store)
    (hbacked : ∀ name u, Backed w.now w.store name u → Backed w.now store name u) :
    { w with store := store }.Sound deps :=
  ⟨hbounded, h.detached, fun i => (h.managers i).kept le_rfl hbacked⟩

theorem execute (hdistinct : Function.Injective fun i => (deps i).owner) (i : ι) (slot : Slot) :
    (w.execute i slot).Sound deps := by
  unfold LeaseWorld.execute
  split
  case h_2 => exact h
  case h_1 call hcall =>
    split
    · exact h
    · have hsound := (h.managers i).call hcall
      have heffect := LeaseStatement.effect w.now w.store hsound.by_
      have hstored := h.stored (heffect.bounded hdistinct h.bounded) fun _ _ => heffect.backed h.bounded
      refine hstored.move ((hstored.managers i).putCall hcall rfl ?_)
      refine ⟨hsound.by_, hsound.charged, ?_⟩
      rintro result row ⟨⟩ hrow hgrants
      apply heffect.granted hgrants hrow
      have := hsound.charged
      simp only [ExecutionLeaseManagerDeps.now] at this
      linarith

omit [DecidableEq ι] in
theorem executeLate (hdistinct : Function.Injective fun i => (deps i).owner) (k : ℕ) :
    (w.executeLate k).Sound deps := by
  unfold LeaseWorld.executeLate
  split
  case h_2 => exact h
  case h_1 statement hstatement =>
    obtain ⟨i, hby⟩ := h.detached statement (List.mem_of_getElem? hstatement)
    have heffect := LeaseStatement.effect w.now w.store hby
    have hstored := h.stored (heffect.bounded hdistinct h.bounded) fun _ _ => heffect.backed h.bounded
    exact ⟨hstored.bounded, fun other hmem => h.detached other (List.mem_of_mem_eraseIdx hmem), hstored.managers⟩

theorem deliver (i : ι) (slot : Slot) : (w.deliver deps i slot).Sound deps := by
  unfold LeaseWorld.deliver
  split
  case h_2 => exact h
  case h_1 result hresult =>
    obtain ⟨call, hcall, hresult⟩ := Option.bind_eq_some_iff.mp hresult
    apply h.move
    apply (h.managers i).answered hcall
    rintro _ ⟨⟩
    exact hresult

theorem fail (i : ι) (slot : Slot) (error : StoreError) : (w.fail deps i slot error).Sound deps := by
  unfold LeaseWorld.fail
  split
  case h_2 => exact h
  case h_1 call hcall =>
    have hdetached : { w with
        detached := if call.answer.isNone then w.detached ++ [call.statement] else w.detached }.Sound deps := by
      refine ⟨h.bounded, fun statement hmem => ?_, h.managers⟩
      split at hmem
      · simp only [List.mem_append, List.mem_singleton] at hmem
        rcases hmem with hmem | rfl
        · exact h.detached statement hmem
        · exact ⟨i, ((h.managers i).call hcall).by_⟩
      · exact h.detached statement hmem
    apply hdetached.move
    exact (h.managers i).answered hcall (by simp)

theorem step (hdistinct : Function.Injective fun i => (deps i).owner) (event : LeaseEvent ι) :
    (w.step deps event).1.Sound deps := by
  cases event with
  | elapsed duration =>
    have hle : w.now ≤ w.now + max 0 duration := le_add_of_nonneg_right (le_max_left _ _)
    exact ⟨h.bounded.later hle, h.detached, fun i => (h.managers i).kept hle fun _ _ hbacked => hbacked.later hle⟩
  | fenceDrawn => exact h.stored h.bounded fun _ _ hbacked => hbacked
  | reaped => exact h.stored h.bounded.reapExpired fun _ _ hbacked => hbacked.reapExpired
  | surrounded i around =>
    have hm := h.managers i
    exact h.move ⟨hm.held, hm.pass, hm.stamp, hm.releases⟩
  | initialised i => exact h.move (h.managers i).initialise
  | readyAnswered i answer =>
    simp only [LeaseWorld.step]
    split
    · exact h
    · exact h.move ((h.managers i).readyAnswered answer)
  | refreshed i => exact h.move (h.managers i).refresh
  | reconcileAnswered i answer =>
    simp only [LeaseWorld.step]
    split
    case h_1 reconciliation hreconciliation =>
      split
      · exact h.move ((h.managers i).reconcileAnswered hreconciliation answer)
      · exact h
    case h_2 => exact h
  | stopped i =>
    have hm := h.managers i
    exact h.move ⟨hm.held, hm.pass, hm.stamp, hm.releases⟩
  | released i => exact h.move (h.managers i).release
  | executed i slot => exact h.execute hdistinct i slot
  | delivered i slot => exact h.deliver i slot
  | failed i slot error => exact h.fail i slot error
  | executedLate k => exact h.executeLate hdistinct k

end

end Sound

variable (deps) in
theorem sound_run (hdistinct : Function.Injective fun i => (deps i).owner) {store : ExecutionLeaseStore}
    (hstrange : ∀ i scope row, store.rows scope = some row → row.owner ≠ (deps i).owner) (around : ι → Surroundings)
    (events : List (LeaseEvent ι)) : (Run.finish (step deps) (start store around) events).Sound deps := by
  have hstart : (start store around).Sound deps := by
    refine ⟨fun i scope row hrow howner => absurd howner (hstrange i scope row hrow), by simp [start], fun i => ?_⟩
    exact ⟨by simp [start, BoxExecutionLeaseManager.new], by simp [start, BoxExecutionLeaseManager.new],
      by simp [start, BoxExecutionLeaseManager.new], by simp [start, BoxExecutionLeaseManager.new]⟩
  generalize start store around = w at hstart
  induction events generalizing w with
  | nil => exact hstart
  | cons event events ih => exact ih _ (hstart.step hdistinct event)

/-! ## Dispatch -/

variable (deps) in
/-- Both managers run live and select one account at one broker for one deployment. -/
def Together (w : LeaseWorld ι) (i j : ι) : Prop :=
  (w.managers i).around.liveCapable = true ∧ (w.managers j).around.liveCapable = true ∧
    (deps i).deployment = (deps j).deployment ∧
    (w.managers i).around.broker = (w.managers j).around.broker ∧
    (w.managers i).around.account = (w.managers j).around.account ∧ (w.managers i).around.account ≠ none

instance (i j : ι) : Decidable (w.Together deps i j) := inferInstanceAs (Decidable (_ ∧ _))

variable (deps) in
def Dispatches (w : LeaseWorld ι) (i : ι) (lease : ObservedLease) (use : ExecutionLeaseUse) : Prop :=
  (w.managers i).state = .held lease ∧ (w.managers i).dispatchBlockReason (deps i) w.now use = none

instance (i : ι) (lease : ObservedLease) (use : ExecutionLeaseUse) : Decidable (w.Dispatches deps i lease use) :=
  inferInstanceAs (Decidable (_ ∧ _))

variable (deps) in
def Exclusive (w : LeaseWorld ι) : Prop :=
  ∀ i j lease lease' use use', i ≠ j → w.Together deps i j →
    ¬ (w.Dispatches deps i lease use ∧ w.Dispatches deps j lease' use')

variable (deps) in
/-- A lease is for the account that its manager selects, and no release of it has run. -/
def Stands (w : LeaseWorld ι) (i : ι) (lease : ObservedLease) : Prop :=
  (w.managers i).around.scope? (deps i).deployment = some lease.scope ∧ lease.name ∉ w.store.released

instance (i : ι) (lease : ObservedLease) : Decidable (w.Stands deps i lease) := inferInstanceAs (Decidable (_ ∧ _))

omit [DecidableEq ι] in
theorem Dispatches.ends {i : ι} {lease : ObservedLease} {use : ExecutionLeaseUse} (h : w.Dispatches deps i lease use)
    (hlive : (w.managers i).around.liveCapable = true) :
    w.now + (deps i).margin < lease.ends (deps i) ∧ 0 < lease.remainingAtObservationMs := by
  obtain ⟨hstate, hguard⟩ := h
  simp only [BoxExecutionLeaseManager.dispatchBlockReason, hstate, hlive, not_true, if_false] at hguard
  have hmargin : 0 ≤ (deps i).margin := le_max_left _ _
  split at hguard
  · cases hguard
  · split at hguard
    · cases hguard
    · simp only [ObservedLease.ends, ExecutionLeaseManagerDeps.now] at *
      have hpositive : (0 : ℚ) < lease.remainingAtObservationMs := by linarith
      exact ⟨by linarith, by exact_mod_cast hpositive⟩

omit [DecidableEq ι] in
theorem Sound.row (h : w.Sound deps) {i : ι} (hmargin : 1 ≤ (deps i).margin) {lease : ObservedLease}
    {use : ExecutionLeaseUse} (hdispatches : w.Dispatches deps i lease use)
    (hlive : (w.managers i).around.liveCapable = true) (hstands : w.Stands deps i lease) :
    ∃ row, w.store.rows lease.scope = some row ∧ row.owner = (deps i).owner := by
  obtain ⟨hends, hpositive⟩ := hdispatches.ends hlive
  obtain ⟨howner, hbacked⟩ := (h.managers i).held lease hdispatches.1
  rcases hbacked with hspent | hover | hreleased | ⟨row, hrow, howner', _⟩
  · omega
  · linarith
  · exact absurd hreleased hstands.2
  · exact ⟨row, hrow, howner'.trans howner⟩

/-- **One manager dispatches for an account**, as long as their leases are for it and were not released. -/
theorem one_dispatches (deps : ι → ExecutionLeaseManagerDeps) (hdistinct : Function.Injective fun i => (deps i).owner)
    (hmargin : ∀ i, 1 ≤ (deps i).margin) (store : ExecutionLeaseStore)
    (hstrange : ∀ i scope row, store.rows scope = some row → row.owner ≠ (deps i).owner) (around : ι → Surroundings)
    (events : List (LeaseEvent ι)) (i j : ι) (hne : i ≠ j)
    (htogether : (Run.finish (step deps) (start store around) events).Together deps i j)
    (lease lease' : ObservedLease)
    (hstands : (Run.finish (step deps) (start store around) events).Stands deps i lease)
    (hstands' : (Run.finish (step deps) (start store around) events).Stands deps j lease')
    (use use' : ExecutionLeaseUse) :
    ¬ ((Run.finish (step deps) (start store around) events).Dispatches deps i lease use ∧
      (Run.finish (step deps) (start store around) events).Dispatches deps j lease' use') := by
  have hsound := sound_run deps hdistinct hstrange around events
  generalize Run.finish (step deps) (start store around) events = w at *
  obtain ⟨hlive, hlive', hdeployment, hbroker, haccount, _⟩ := htogether
  rintro ⟨hdispatches, hdispatches'⟩
  obtain ⟨row, hrow, howner⟩ := hsound.row (hmargin i) hdispatches hlive hstands
  obtain ⟨row', hrow', howner'⟩ := hsound.row (hmargin j) hdispatches' hlive' hstands'
  have hscope : lease.scope = lease'.scope := by
    have hselected := hstands.1
    rw [Surroundings.scope?, hdeployment, hbroker, haccount, ← Surroundings.scope?, hstands'.1] at hselected
    exact (Option.some.inj hselected).symm
  rw [hscope, hrow'] at hrow
  apply hne
  apply hdistinct
  show (deps i).owner = (deps j).owner
  rw [← howner, ← howner', Option.some.inj hrow]

/-! ## Two managers -/

def emptyTable : ExecutionLeaseStore := ⟨fun _ => none, 0, []⟩

def twoDeps (guardMarginMs : Option ℚ) : Bool → ExecutionLeaseManagerDeps
  | false => ⟨"main", "p0", some 2000, guardMarginMs, 0, true⟩
  | true => ⟨"main", "p1", some 2000, guardMarginMs, 700, true⟩

theorem twoDeps_distinct (guardMarginMs : Option ℚ) : Function.Injective fun i => (twoDeps guardMarginMs i).owner := by
  show ∀ i j : Bool, (twoDeps guardMarginMs i).owner = (twoDeps guardMarginMs j).owner → i = j
  simp [Bool.forall_bool, twoDeps]

def trading (broker : String) : Surroundings := ⟨broker, some "A1", true, true⟩

def acquiring (i : Bool) : List (LeaseEvent Bool) :=
  [.refreshed i, .executed i .pass, .delivered i .pass, .executed i .pass, .delivered i .pass]

def leaseOf (broker owner : String) (fence : ℕ) (observedAtLocal : ℚ) : ObservedLease :=
  ⟨"main|" ++ broker ++ "|A1", owner, fence, "A1", broker, 2000, observedAtLocal, false, .fresh⟩

/-- The first manager holds the account and dispatches; the second would not. -/
theorem one_dispatches_acquired :
    (Run.finish (step (twoDeps (some 500))) (start emptyTable fun _ => trading "dhan") (acquiring false)).Dispatches
      (twoDeps (some 500)) false (leaseOf "dhan" "p0" 1 0) .exposureReduction ∧
    ¬ ((Run.finish (step (twoDeps (some 500))) (start emptyTable fun _ => trading "dhan") (acquiring false)).Dispatches
        (twoDeps (some 500)) false (leaseOf "dhan" "p0" 1 0) .exposureReduction ∧
      (Run.finish (step (twoDeps (some 500))) (start emptyTable fun _ => trading "dhan") (acquiring false)).Dispatches
        (twoDeps (some 500)) true (leaseOf "dhan" "p1" 2 700) .exposureReduction) :=
  ⟨by decide +kernel,
    one_dispatches (twoDeps (some 500)) (twoDeps_distinct _) (by decide +kernel) emptyTable (by simp [emptyTable])
      (fun _ => trading "dhan") (acquiring false) false true (by decide) (by decide +kernel) (leaseOf "dhan" "p0" 1 0)
      (leaseOf "dhan" "p1" 2 700) (by decide +kernel) (by decide +kernel) .exposureReduction .exposureReduction⟩

def shuttingDown : List (LeaseEvent Bool) :=
  acquiring false ++ [.released false, .executed false (.release 0)] ++ acquiring true

def switching : List (LeaseEvent Bool) :=
  [.surrounded false (trading "zerodha")] ++ acquiring false ++ acquiring true ++ [.surrounded false (trading "dhan")]

def stamping : List (LeaseEvent Bool) :=
  [.elapsed (101 / 10)] ++ acquiring false ++
    [.elapsed (8 / 10), .reconcileAnswered false (.ok true), .executed false .stamp, .delivered false .stamp, .elapsed
        (19992 / 10)] ++
    acquiring true

theorem both_dispatch :
    ¬ (Run.finish (step (twoDeps (some 500))) (start emptyTable fun _ => trading "dhan") shuttingDown).Exclusive
        (twoDeps (some 500)) ∧
      ¬ (Run.finish (step (twoDeps (some 500))) (start emptyTable fun _ => trading "dhan") switching).Exclusive
        (twoDeps (some 500)) ∧
      ¬ (Run.finish (step (twoDeps (some 0))) (start emptyTable fun _ => trading "dhan") stamping).Exclusive
        (twoDeps (some 0)) := by
  refine ⟨fun h => ?_, fun h => ?_, fun h => ?_⟩
  · exact h false true (leaseOf "dhan" "p0" 1 0) (leaseOf "dhan" "p1" 2 700) .exposureReduction .exposureReduction
      (by decide) (by decide +kernel) ⟨by decide +kernel, by decide +kernel⟩
  · exact h false true (leaseOf "zerodha" "p0" 1 0) (leaseOf "dhan" "p1" 2 700) .exposureReduction .exposureReduction
      (by decide) (by decide +kernel) ⟨by decide +kernel, by decide +kernel⟩
  · exact h false true ⟨"main|dhan|A1", "p0", 1, "A1", "dhan", 2000, 109 / 10, true, .fresh⟩
      ⟨"main|dhan|A1", "p1", 2, "A1", "dhan", 2000, 27101 / 10, false, .expired⟩ .newEntry .exposureReduction
      (by decide) (by decide +kernel) ⟨by decide +kernel, by decide +kernel⟩

end LeaseWorld

end Ownership

end BoxEngine
