import BoxEngine.ExclusiveSound

/-!
# Evidence of a foreign owner

A refused or lost state is left when the deployment no longer trades live, at the end of the manager's own release, or
by an answer that brings a lease or is about another scope.
-/

namespace BoxEngine

namespace Ownership

structure Operation where
  scope : String
  since : ℕ
  deriving DecidableEq

inductive Verdict where
  | lease (row : ExecutionLeaseRow)
  | cannotTell
  | other
  deriving DecidableEq

def RefreshStage.verdict : RefreshStage → Except StoreError QueryResult → Verdict
  | .renewing, .ok result => result.row.elim .other .lease
  | .upserting, .ok result => result.row.elim .other .lease
  | .drawing, .ok result => if result.seq = 0 then .cannotTell else .other
  | .drawing, .error error => if error.uniqueViolation then .other else .cannotTell
  | .upserting, .error error => if error.uniqueViolation then .other else .cannotTell
  | .reading false, .error error => if error.uniqueViolation then .other else .cannotTell
  | _, _ => .other

def stampVerdict : Except StoreError QueryResult → Verdict
  | .ok result => result.row.elim .other .lease
  | .error _ => .other

namespace BoxExecutionLeaseManager

variable (m : BoxExecutionLeaseManager)

def operation? : Slot → Option Operation
  | .pass => (m.inFlight.filter fun pass => pass.stage ≠ .releasing).map fun pass => ⟨pass.target.scope, pass.since⟩
  | .stamp =>
    (m.reconcileInFlight.filter fun reconciliation => reconciliation.call.isSome).map fun reconciliation =>
      ⟨reconciliation.name.scope, reconciliation.since⟩
  | .release _ => none

def verdict (answer : Except StoreError QueryResult) : Slot → Verdict
  | .pass => m.inFlight.elim .other fun pass => pass.stage.verdict answer
  | .stamp => stampVerdict answer
  | .release _ => .other

def arriving (deps : ExecutionLeaseManagerDeps) (now : ℚ) (row : ExecutionLeaseRow) (slot : Slot) :
    Option ObservedLease :=
  (m.call? slot).map fun call => observed deps now call row

end BoxExecutionLeaseManager

def Elsewhere (evidence : Option String) (scope : String) : Prop := ∃ other, evidence = some other ∧ other ≠ scope

instance (evidence : Option String) (scope : String) : Decidable (Elsewhere evidence scope) :=
  decidable_of_iff (evidence ≠ none ∧ evidence ≠ some scope) (by cases evidence <;> simp [Elsewhere])

/-! ## States after an answer -/

namespace BoxExecutionLeaseManager

variable {deps : ExecutionLeaseManagerDeps} {now : ℚ} {m : BoxExecutionLeaseManager}

@[simp] theorem state_adopt (state : ExecutionLeaseState) : (m.adopt state).state = state := rfl

@[simp] theorem state_reconcileTakeover : (m.reconcileTakeover deps).state = m.state := by
  unfold reconcileTakeover
  split
  · rfl
  · split
    · split <;> rfl
    · rfl

@[simp] theorem state_renewOrAcquire (target : LeaseTarget) (since : ℕ) :
    (m.renewOrAcquire deps now target since).state = m.state := by
  unfold renewOrAcquire
  split <;> rfl

@[simp] theorem around_adopt (state : ExecutionLeaseState) : (m.adopt state).around = m.around := rfl

@[simp] theorem around_reconcileTakeover : (m.reconcileTakeover deps).around = m.around := by
  unfold reconcileTakeover
  split
  · rfl
  · split
    · split <;> rfl
    · rfl

theorem state_adoptUnproven {next : ExecutionLeaseState} {scope evidence : Option String}
    (h : m.state.foreign? = some evidence) :
    (m.adoptUnproven next scope).state =
      if evidence = none ∨ scope = none ∨ evidence = scope then m.state else next := by
  simp only [adoptUnproven, h]
  split <;> rfl

theorem around_adoptUnproven (next : ExecutionLeaseState) (scope : Option String) :
    (m.adoptUnproven next scope).around = m.around := by
  unfold adoptUnproven
  split
  · split <;> rfl
  · rfl

inductive Answered (deps : ExecutionLeaseManagerDeps) (now : ℚ) (m m' : BoxExecutionLeaseManager) (slot : Slot)
    (op : Operation) : Verdict → Prop
  | lease {row : ExecutionLeaseRow} {lease : ObservedLease} (hlease : m.arriving deps now row slot = some lease)
      (hstate : m'.state = .held lease) (haround : m'.around = m.around) : Answered deps now m m' slot op (.lease row)
  | cannotTell (detail : String)
      (hstate : m'.state = (m.adoptUnproven (.unavailable detail) op.scope).state) (haround : m'.around = m.around) :
      Answered deps now m m' slot op .cannotTell
  | other (hforeign : m'.state.foreign?.isSome) : Answered deps now m m' slot op .other

variable {evidence : Option String}

theorem answered_unavailable (hforeign : m.state.foreign? = some evidence) (pass : RefreshPass) (detail : String)
    (slot : Slot) (since : ℕ) :
    Answered deps now m (m.unavailable pass detail) slot ⟨pass.target.scope, since⟩ .cannotTell := by
  refine .cannotTell detail ?_ ?_
  · rw [state_adoptUnproven hforeign]
    exact state_adoptUnproven hforeign
  · rw [unavailable, around_adoptUnproven]
    rfl

theorem answered_acquireThrew (hforeign : m.state.foreign? = some evidence) (pass : RefreshPass) (error : StoreError)
    (slot : Slot) (since : ℕ) :
    Answered deps now m (m.acquireThrew pass error) slot ⟨pass.target.scope, since⟩
      (if error.uniqueViolation then .other else .cannotTell) := by
  unfold acquireThrew
  split
  · exact .other (by simp [furtherPass, awaitPass, hforeign])
  · exact answered_unavailable hforeign pass _ slot since

theorem answered_pass {pass : RefreshPass} (hpass : m.inFlight = some pass) (hstage : pass.stage ≠ .releasing)
    (hforeign : m.state.foreign? = some evidence) (answer : Except StoreError QueryResult) :
    Answered deps now m (m.passAnswered deps now pass answer) .pass ⟨pass.target.scope, pass.since⟩
      (pass.stage.verdict answer) := by
  have harriving : ∀ row, m.arriving deps now row .pass = some (observed deps now pass.call row) := by
    simp [arriving, call?, hpass]
  have hstays : m.state.foreign?.isSome := by simp [hforeign]
  unfold passAnswered
  split
  case h_1 hreleasing => exact absurd hreleasing hstage
  case h_2 hrenewing =>
    rw [hrenewing]
    cases answer with
    | error error => exact .other hstays
    | ok result =>
      simp only [renewAnswered, RefreshStage.verdict]
      cases result.row with
      | none => exact .other rfl
      | some row =>
        simp only
        split
        · exact .lease (harriving row) (by simp) (by simp [endPass])
        · exact .lease (harriving row) rfl rfl
  case h_3 hdrawing =>
    rw [hdrawing]
    cases answer with
    | error error => exact answered_acquireThrew hforeign pass error .pass pass.since
    | ok result =>
      simp only [drawAnswered, RefreshStage.verdict]
      split
      · exact answered_unavailable hforeign pass _ .pass pass.since
      · exact .other hstays
  case h_4 hupserting =>
    rw [hupserting]
    cases answer with
    | error error => exact answered_acquireThrew hforeign pass error .pass pass.since
    | ok result =>
      simp only [upsertAnswered, RefreshStage.verdict]
      cases result.row with
      | none => exact .other hstays
      | some row =>
        simp only [acquired]
        split
        · exact .lease (harriving row) (by simp) (by simp [endPass])
        · exact .lease (harriving row) rfl rfl
  case h_5 raced hreading =>
    rw [hreading]
    cases answer with
    | error error =>
      cases raced with
      | true => exact .other rfl
      | false => exact answered_acquireThrew hforeign pass error .pass pass.since
    | ok result => cases raced <;> exact .other rfl

theorem answered_stamp {reconciliation : Reconciliation} {call : StoreCall}
    (hreconciliation : m.reconcileInFlight = some reconciliation) (hcall : reconciliation.call = some call)
    (hforeign : m.state.foreign? = some evidence) (answer : Except StoreError QueryResult) :
    Answered deps now m (m.stampAnswered deps now reconciliation call answer) .stamp
      ⟨reconciliation.name.scope, reconciliation.since⟩ (stampVerdict answer) := by
  cases answer with
  | error error => exact .other (by simp [stampAnswered, hforeign])
  | ok result =>
    simp only [stampAnswered, stampVerdict]
    cases result.row with
    | none => exact .other rfl
    | some row => exact .lease (by simp [arriving, call?, hreconciliation, hcall]) rfl rfl

theorem answered_operation {slot : Slot} {op : Operation} (hop : m.operation? slot = some op)
    (hforeign : m.state.foreign? = some evidence) (answer : Except StoreError QueryResult) :
    Answered deps now m (m.answered deps now answer slot) slot op (m.verdict answer slot) := by
  cases slot with
  | pass =>
    obtain ⟨pass, hpass, rfl⟩ := Option.map_eq_some_iff.mp hop
    obtain ⟨hpass, hstage⟩ := Option.filter_eq_some_iff.mp hpass
    simp only [answered, verdict, hpass, Option.elim_some]
    exact answered_pass hpass (by simpa using hstage) hforeign answer
  | stamp =>
    obtain ⟨reconciliation, hreconciliation, rfl⟩ := Option.map_eq_some_iff.mp hop
    obtain ⟨hreconciliation, hcall⟩ := Option.filter_eq_some_iff.mp hreconciliation
    obtain ⟨call, hcall⟩ := Option.isSome_iff_exists.mp hcall
    simp only [answered, verdict, hreconciliation, hcall]
    exact answered_stamp hreconciliation hcall hforeign answer
  | release k => cases hop

theorem reduces_arrived {m' : BoxExecutionLeaseManager} {row : ExecutionLeaseRow} {lease : ObservedLease} {slot : Slot}
    (hlease : m.arriving deps now row slot = some lease) (hstate : m'.state = .held lease)
    (hlive : m'.around.liveCapable = true) :
    m'.dispatchBlockReason deps now .exposureReduction = none ↔ ¬ (lease.remainingAtObservationMs : ℚ) ≤ deps.margin := by
  obtain ⟨call, _, rfl⟩ := Option.map_eq_some_iff.mp hlease
  simp only [dispatchBlockReason, hlive, hstate, not_true, if_false]
  have hnow : deps.now now - (observed deps now call row).observedAtLocal = 0 := by simp [observed, observe]
  rw [hnow]
  simp

section

variable (h : m.state.foreign? = some evidence)
include h

theorem foreign_adoptUnproven {next : ExecutionLeaseState} : (m.adoptUnproven next none).state = m.state := by
  rw [state_adoptUnproven h]
  simp

theorem foreign_refresh (hlive : m.around.liveCapable = true) : (m.refresh deps now).state = m.state := by
  unfold refresh
  split
  · rfl
  · split
    · exact foreign_adoptUnproven h
    · split
      · exact foreign_adoptUnproven h
      · simp only
        split
        · exact state_renewOrAcquire _ _
        · split
          · rfl
          · exact state_renewOrAcquire _ _

theorem foreign_initialise (hlive : m.around.liveCapable = true) : (m.initialise deps now).state = m.state := by
  simp only [initialise, hlive, not_true, if_false]
  split
  · rfl
  · exact foreign_refresh h hlive

theorem foreign_readyAnswered (hlive : m.around.liveCapable = true) (answer : Except String Unit) :
    (m.readyAnswered deps now answer).state = m.state := by
  cases answer with
  | error detail => exact foreign_adoptUnproven (m := { m with initialising := m.initialising - 1 }) h
  | ok => exact foreign_refresh (m := { m with initialising := m.initialising - 1 }) h hlive

end

theorem foreign_release : (m.release deps now).state = m.state := by
  unfold release
  split <;> rfl

theorem foreign_reconcileAnswered (reconciliation : Reconciliation) (answer : Except String Bool) :
    (m.reconcileAnswered deps now reconciliation answer).state = m.state := by
  unfold reconcileAnswered
  split <;> rfl

theorem state_putCall (call : StoreCall) (slot : Slot) : (m.putCall call slot).state = m.state := by
  cases slot <;> rfl

end BoxExecutionLeaseManager

/-! ## Steps -/

namespace LeaseWorld

variable {ι : Type} [DecidableEq ι] {deps : ι → ExecutionLeaseManagerDeps} {w : LeaseWorld ι}

def answering? (w : LeaseWorld ι) : LeaseEvent ι → Option (ι × Slot × Except StoreError QueryResult)
  | .delivered i slot => (((w.managers i).call? slot).bind StoreCall.answer).map fun result => (i, slot, .ok result)
  | .failed i slot error => ((w.managers i).call? slot).map fun _ => (i, slot, .error error)
  | _ => none

variable (deps) in
/-- The operation was begun since the evidence came, for the scope that is selected now. -/
def Current (w : LeaseWorld ι) (i : ι) (op : Operation) : Prop :=
  (w.managers i).around.scope? (deps i).deployment = some op.scope ∧ op.since = (w.managers i).evidence

instance (i : ι) (op : Operation) : Decidable (w.Current deps i op) := inferInstanceAs (Decidable (_ ∧ _))

variable (deps) in
/-- A step ends a manager's evidence only with live trading, its own release, or a current answer that brings a lease
or another scope. -/
def KeepsEvidence (w : LeaseWorld ι) (event : LeaseEvent ι) : Prop :=
  ∀ i evidence, (w.managers i).state.foreign? = some evidence →
    ((w.step deps event).1.managers i).state.foreign? = none →
    (w.managers i).around.liveCapable = false ∨
    ∃ slot answer, w.answering? event = some (i, slot, answer) ∧
      ∀ op, (w.managers i).operation? slot = some op →
        ((∃ lease, ((w.step deps event).1.managers i).state = .held lease ∧
            (w.managers i).around.scope? (deps i).deployment = some lease.scope) ∨ Elsewhere evidence op.scope) ∧
          (((w.step deps event).1.managers i).dispatchBlockReason (deps i) w.now .exposureReduction = none →
            w.Current deps i op)

variable (deps) in
def Timely (w : LeaseWorld ι) (event : LeaseEvent ι) : Prop :=
  ∀ i slot answer op evidence, w.answering? event = some (i, slot, answer) →
    (w.managers i).around.liveCapable = true → (w.managers i).state.foreign? = some evidence →
    (w.managers i).operation? slot = some op →
    (∀ row lease, (w.managers i).verdict answer slot = .lease row →
      (w.managers i).arriving (deps i) w.now row slot = some lease →
      ((w.managers i).around.scope? (deps i).deployment = some lease.scope ∨ Elsewhere evidence op.scope) ∧
        (w.Current deps i op ∨ lease.remainingAtObservationMs ≤ (deps i).margin)) ∧
    ((w.managers i).verdict answer slot = .cannotTell → Elsewhere evidence op.scope → w.Current deps i op)

variable {event : LeaseEvent ι} {i : ι} {slot : Slot}

theorem step_answering {answer : Except StoreError QueryResult} (h : w.answering? event = some (i, slot, answer)) :
    (w.step deps event).1.managers =
      Function.update w.managers i ((w.managers i).answered (deps i) w.now answer slot) := by
  cases event with
  | delivered j slot' =>
    obtain ⟨result, hresult, heq⟩ := Option.map_eq_some_iff.mp h
    cases heq
    simp only [step, deliver, hresult]
    rfl
  | failed j slot' error =>
    obtain ⟨call, hcall, heq⟩ := Option.map_eq_some_iff.mp h
    cases heq
    simp only [step, fail, hcall]
    rfl
  | _ => cases h

variable {evidence : Option String}

theorem step_unanswered (h : w.answering? event = none) (hforeign : (w.managers i).state.foreign? = some evidence)
    (hlive : (w.managers i).around.liveCapable = true) :
    ((w.step deps event).1.managers i).state = (w.managers i).state := by
  -- an event of another manager leaves this one as it was
  have hmoved : ∀ j (m : BoxExecutionLeaseManager), (i = j → m.state = (w.managers j).state) →
      ((w.move j m).managers i).state = (w.managers i).state := by
    intro j m hm
    by_cases hj : i = j
    · subst hj
      simpa [move] using hm rfl
    · simp [move, hj]
  cases event with
  | elapsed | fenceDrawn | reaped => rfl
  | surrounded j around => exact hmoved j _ fun _ => rfl
  | initialised j =>
    apply hmoved
    rintro rfl
    exact BoxExecutionLeaseManager.foreign_initialise hforeign hlive
  | readyAnswered j answer =>
    simp only [step]
    split
    · rfl
    · apply hmoved
      rintro rfl
      exact BoxExecutionLeaseManager.foreign_readyAnswered hforeign hlive answer
  | refreshed j =>
    apply hmoved
    rintro rfl
    exact BoxExecutionLeaseManager.foreign_refresh hforeign hlive
  | reconcileAnswered j answer =>
    simp only [step]
    split
    · split
      · exact hmoved j _ fun _ => BoxExecutionLeaseManager.foreign_reconcileAnswered _ answer
      · rfl
    · rfl
  | stopped j => exact hmoved j _ fun _ => rfl
  | released j => exact hmoved j _ fun _ => BoxExecutionLeaseManager.foreign_release
  | executed j slot =>
    simp only [step, execute]
    split
    · split
      · rfl
      · by_cases hj : i = j
        · subst hj
          simp [move, BoxExecutionLeaseManager.state_putCall]
        · simp [move, hj]
    · rfl
  | delivered j slot =>
    simp only [answering?, Option.map_eq_none_iff] at h
    simp only [step, deliver, h]
  | failed j slot error =>
    simp only [answering?, Option.map_eq_none_iff] at h
    simp only [step, fail, h]
  | executedLate k =>
    simp only [step, executeLate]
    split <;> rfl

omit [DecidableEq ι] in
variable (deps) in
theorem answered_step {op : Operation} (hop : (w.managers i).operation? slot = some op)
    (hforeign : (w.managers i).state.foreign? = some evidence) (answer : Except StoreError QueryResult) :
    BoxExecutionLeaseManager.Answered (deps i) w.now (w.managers i)
      ((w.managers i).answered (deps i) w.now answer slot) slot op ((w.managers i).verdict answer slot) :=
  BoxExecutionLeaseManager.answered_operation hop hforeign answer

theorem unavailable_of_elsewhere {m : BoxExecutionLeaseManager} {scope detail : String}
    (hforeign : m.state.foreign? = some evidence) (helsewhere : Elsewhere evidence scope) :
    (m.adoptUnproven (.unavailable detail) (some scope)).state = .unavailable detail := by
  obtain ⟨other, rfl, hother⟩ := helsewhere
  rw [BoxExecutionLeaseManager.state_adoptUnproven hforeign]
  simp [hother]

theorem elsewhere_of_left {m : BoxExecutionLeaseManager} {scope detail : String}
    (hforeign : m.state.foreign? = some evidence)
    (hleft : (m.adoptUnproven (.unavailable detail) (some scope)).state.foreign? = none) :
    Elsewhere evidence scope := by
  rw [BoxExecutionLeaseManager.state_adoptUnproven hforeign] at hleft
  split at hleft
  · rw [hforeign] at hleft
    cases hleft
  · cases evidence with
    | none => simp_all
    | some other => exact ⟨other, rfl, by simp_all⟩

theorem timely_of_keepsEvidence (hkeeps : w.KeepsEvidence deps event) : w.Timely deps event := by
  intro i slot answer op evidence hanswering hlive hforeign hop
  have hstep := congrFun (step_answering hanswering : (w.step deps event).1.managers = _) i
  rw [Function.update_self] at hstep
  have hkept := hkeeps i evidence hforeign
  simp only [hstep, hlive, hanswering, Bool.true_eq_false, false_or] at hkept
  have hanswered := answered_step deps hop hforeign answer
  generalize hm : (w.managers i).answered (deps i) w.now answer slot = m' at hanswered hkept
  generalize hverdict : (w.managers i).verdict answer slot = verdict at hanswered
  cases hanswered with
  | other hstays => exact ⟨by simp, by simp⟩
  | @lease row lease hlease hstate haround =>
    obtain ⟨_, _, ⟨⟩, hrest⟩ := hkept (by rw [hstate]; rfl)
    obtain ⟨hbrings, hreduces⟩ := hrest op hop
    refine ⟨?_, by simp⟩
    rintro _ found ⟨⟩ hfound
    obtain rfl : lease = found := Option.some.inj (hlease.symm.trans hfound)
    constructor
    · refine hbrings.imp_left ?_
      rintro ⟨other, hother, hselected⟩
      rw [hstate] at hother
      cases hother
      exact hselected
    · by_cases hspent : (lease.remainingAtObservationMs : ℚ) ≤ (deps i).margin
      · exact .inr hspent
      · apply Or.inl
        apply hreduces
        exact (BoxExecutionLeaseManager.reduces_arrived hlease hstate (by rw [haround]; exact hlive)).mpr hspent
  | cannotTell detail hstate haround =>
    refine ⟨by simp, fun _ helsewhere => ?_⟩
    rw [unavailable_of_elsewhere hforeign helsewhere] at hstate
    obtain ⟨_, _, ⟨⟩, hrest⟩ := hkept (by rw [hstate]; rfl)
    apply (hrest op hop).2
    simp [BoxExecutionLeaseManager.dispatchBlockReason, hstate]

theorem keepsEvidence_of_timely (htimely : w.Timely deps event) : w.KeepsEvidence deps event := by
  intro i evidence hforeign hleft
  by_cases hlive : (w.managers i).around.liveCapable = true
  · right
    cases hanswering : w.answering? event with
    | none =>
      rw [step_unanswered hanswering hforeign hlive, hforeign] at hleft
      cases hleft
    | some found =>
      obtain ⟨j, slot, answer⟩ := found
      rw [step_answering hanswering] at hleft ⊢
      by_cases hj : i = j
      · subst hj
        rw [Function.update_self] at hleft ⊢
        refine ⟨slot, answer, rfl, fun op hop => ?_⟩
        have hheeds := htimely i slot answer op evidence hanswering hlive hforeign hop
        have hanswered := answered_step deps hop hforeign answer
        generalize (w.managers i).answered (deps i) w.now answer slot = m' at hanswered hleft ⊢
        generalize hverdict : (w.managers i).verdict answer slot = verdict at hanswered hheeds
        cases hanswered with
        | other hstays =>
          rw [hleft] at hstays
          cases hstays
        | @lease row lease hlease hstate haround =>
          obtain ⟨hbrings, hcurrent⟩ := hheeds.1 row lease rfl hlease
          refine ⟨hbrings.imp_left fun hselected => ⟨lease, hstate, hselected⟩, fun hreduces => ?_⟩
          exact hcurrent.resolve_right
            ((BoxExecutionLeaseManager.reduces_arrived hlease hstate (by rw [haround]; exact hlive)).mp hreduces)
        | cannotTell detail hstate haround =>
          rw [hstate] at hleft
          have helsewhere := elsewhere_of_left hforeign hleft
          exact ⟨.inr helsewhere, fun _ => hheeds.2 rfl helsewhere⟩
      · rw [Function.update_of_ne hj, hforeign] at hleft
        cases hleft
  · exact .inl (by simpa using hlive)

/-- **Evidence of a foreign owner outranks what cannot tell**, exactly when what lifts it is timely. -/
theorem evidence_kept_iff (deps : ι → ExecutionLeaseManagerDeps) (store : ExecutionLeaseStore) (around : ι → Surroundings)
    (events : List (LeaseEvent ι)) (event : LeaseEvent ι) :
    (Run.finish (step deps) (start store around) events).KeepsEvidence deps event ↔
      (Run.finish (step deps) (start store around) events).Timely deps event :=
  ⟨timely_of_keepsEvidence, keepsEvidence_of_timely⟩

def refusing (i : Bool) : List (LeaseEvent Bool) :=
  acquiring i ++ [.executed i .pass, .delivered i .pass]

def cameBack : List (LeaseEvent Bool) :=
  acquiring true ++ refusing false ++ [.surrounded false (trading "zerodha"), .refreshed false, .surrounded false (trading "dhan")]

def stampedBefore : List (LeaseEvent Bool) :=
  [.surrounded false (trading "zerodha")] ++ acquiring false ++ acquiring true ++
    [.reconcileAnswered false (.ok true), .executed false .stamp, .surrounded false (trading "dhan"), .refreshed false,
      .executed false .pass, .delivered false .pass, .executed false .pass, .delivered false .pass, .executed false .pass,
      .delivered false .pass, .executed false .pass, .delivered false .pass]

omit [DecidableEq ι] in
theorem answering_failed {error : StoreError} (h : ((w.managers i).call? slot).isSome = true) :
    w.answering? (.failed i slot error) = some (i, slot, .error error) := by
  obtain ⟨call, hcall⟩ := Option.isSome_iff_exists.mp h
  simp [answering?, hcall]

omit [DecidableEq ι] in
theorem answering_delivered {result : QueryResult}
    (h : ((w.managers i).call? slot).bind StoreCall.answer = some result) :
    w.answering? (.delivered i slot) = some (i, slot, .ok result) := by
  simp [answering?, h]

def zerodhaRow : ExecutionLeaseRow := ⟨"main|zerodha|A1", "zerodha", "A1", "p0", 1, 2000, none, .fresh, 0⟩

theorem evidence_lifted :
    ¬ (Run.finish (step (twoDeps (some 500))) (start emptyTable fun _ => trading "dhan") cameBack).KeepsEvidence
        (twoDeps (some 500)) (.failed false .pass ⟨false, "connection terminated"⟩) ∧
      ¬ (Run.finish (step (twoDeps (some 500))) (start emptyTable fun _ => trading "dhan") stampedBefore).KeepsEvidence
        (twoDeps (some 500)) (.delivered false .stamp) := by
  refine ⟨fun h => ?_, fun h => ?_⟩
  · have htimely := timely_of_keepsEvidence h false .pass (.error ⟨false, "connection terminated"⟩) ⟨"main|zerodha|A1", 1⟩
      (some "main|dhan|A1") (answering_failed (by decide +kernel)) (by decide +kernel) (by decide +kernel)
      (by decide +kernel)
    exact absurd (htimely.2 (by decide +kernel) (by decide +kernel)) (by decide +kernel)
  · have htimely := timely_of_keepsEvidence h false .stamp (.ok { row := some zerodhaRow, rowCount := 1 })
      ⟨"main|zerodha|A1", 0⟩ (some "main|dhan|A1") (answering_delivered (by decide +kernel)) (by decide +kernel)
      (by decide +kernel) (by decide +kernel)
    exact absurd (htimely.1 zerodhaRow (leaseOf "zerodha" "p0" 1 0) (by decide +kernel) (by decide +kernel)).2
      (by decide +kernel)

end LeaseWorld

end Ownership

end BoxEngine
