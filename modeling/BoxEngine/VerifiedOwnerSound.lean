import BoxEngine.LeaseSound
import Mathlib.Data.List.Pairwise

/-!
# Verified owners under clocks that are off

A worker that reclaims stays a grace behind its own estimate of the authority's clock, so a verified document outlives
the work of the others until it expires.
-/

namespace BoxEngine

open DurableInstrumentReservations

structure DurableReservationDoc.Outlives (doc' doc : DurableReservationDoc) : Prop where
  owner : doc'.owner = doc.owner
  deployment : doc'.deployment = doc.deployment
  keys : doc'.keys = doc.keys
  expiresAt : doc.expiresAt ≤ doc'.expiresAt

theorem DurableReservationDoc.Outlives.refl (doc : DurableReservationDoc) : doc.Outlives doc :=
  ⟨rfl, rfl, rfl, le_refl _⟩

theorem DurableReservationDoc.Outlives.trans {a b c : DurableReservationDoc} (h : a.Outlives b) (h' : b.Outlives c) :
    a.Outlives c :=
  ⟨h.owner.trans h'.owner, h.deployment.trans h'.deployment, h.keys.trans h'.keys, h'.expiresAt.trans h.expiresAt⟩

namespace Authority

/-- The document is still in the table, perhaps renewed. -/
def Survives (doc : DurableReservationDoc) (db : Authority) : Prop := ∃ doc' ∈ db.docs, doc'.Outlives doc

variable {db : Authority}
variable {doc : DurableReservationDoc}

theorem survives_self (h : doc ∈ db.docs) : db.Survives doc :=
  ⟨doc, h, .refl doc⟩

theorem survives_insert (h : doc ∈ db.docs) (other : DurableReservationDoc) : (db.insert other).2.Survives doc := by
  unfold insert
  split
  · exact ⟨doc, by simp [h], .refl doc⟩
  · exact survives_self h

theorem survives_delete (h : doc ∈ db.docs) {gone : DurableReservationDoc → Bool}
    (hkept : gone doc = false) : (db.delete gone).2.Survives doc :=
  ⟨doc, by simp [delete, h, hkept], .refl doc⟩

theorem survives_deleteExpired (h : doc ∈ db.docs) (deployment : String)
    (keys : Option (List String)) {notAfter : ℚ} (hlives : notAfter < doc.expiresAt) :
    (db.deleteExpired deployment keys notAfter).2.Survives doc := by
  apply survives_delete h
  simp [hlives]

theorem survives_renewOwned (h : doc ∈ db.docs) {args : RenewFilter} {expiresAt : ℚ}
    (hlonger : args.accepts doc = true → doc.expiresAt ≤ expiresAt) :
    (db.renewOwned args expiresAt).2.Survives doc := by
  by_cases haccepts : args.accepts doc = true
  · refine ⟨{ doc with expiresAt, renewedAt := args.now }, ?_, ⟨rfl, rfl, rfl, hlonger haccepts⟩⟩
    exact List.mem_map.mpr ⟨doc, h, by simp [haccepts]⟩
  · exact ⟨doc, List.mem_map.mpr ⟨doc, h, by simp [haccepts]⟩, .refl doc⟩

end Authority

/-! ## What a call does to a document -/

namespace Operation

def releases (w : DurableInstrumentReservations) (doc : DurableReservationDoc) : Operation → Bool
  | release args (.waiting none) => doc.owner == args.owner && args.fence.all fun fence => doc.fence == fence
  | clear (.waiting none) => doc.owner.startsWith w.deps.ownerPrefix
  | _ => false

def disturbs (doc : DurableReservationDoc) : Operation → Bool
  | acquire a (.deleteOwned _ none) => doc.owner == a.owner
  | renew r (.renewOwned none) => r.filter.accepts doc && decide (r.expiresAt < doc.expiresAt)
  | _ => false

def notAfter? (graceMs : ℚ) : Operation → Option ℚ
  | acquire a _ => some (a.authNow - graceMs)
  | reapExpired _ notAfter _ => some notAfter
  | _ => none

theorem serve_survives {op : Operation} {w : DurableInstrumentReservations} {fate : Fate} {db : Authority}
    {doc : DurableReservationDoc} (h : doc ∈ db.docs) (hkept : fate.takesEffect = true → op.releases w doc = false)
    (hundisturbed : fate.takesEffect = true → op.disturbs doc = false)
    (hlives : ∀ notAfter, op.notAfter? w.skewGraceMs = some notAfter → notAfter < doc.expiresAt) :
    (op.serve w fate db).2.Survives doc := by
  have hself := Authority.survives_self h
  have hsettle : ∀ {α : Type} (done : α × Authority), (fate.takesEffect = true → done.2.Survives doc) →
      (fate.settle db done).2.Survives doc := by
    intro α done hdone
    cases fate with
    | answered => exact hdone rfl
    | refused error => exact hself
    | lost error => exact hdone rfl
  cases op with
  | acquire a phase =>
    simp only [serve, serveAcquire]
    split
    · exact hsettle _ fun _ => hself
    · exact hsettle _ fun _ => Authority.survives_insert h _
    · apply hsettle
      intro heffect
      apply Authority.survives_delete h
      have := hundisturbed heffect
      simp only [disturbs] at this
      simp [this]
    · exact hsettle _ fun _ => Authority.survives_deleteExpired h _ _ (hlives _ rfl)
    · exact hsettle _ fun _ => hself
    · exact hself
  | release args phase | clear phase =>
    simp only [serve, serveCount]
    split
    · exact hsettle _ fun heffect => Authority.survives_delete h (hkept heffect)
    · exact hself
  | reapExpired deployment notAfter phase =>
    simp only [serve, serveCount]
    split
    · exact hsettle _ fun _ => Authority.survives_deleteExpired h _ _ (hlives _ rfl)
    · exact hself
  | renew r phase =>
    simp only [serve, serveRenew]
    split
    · apply hsettle
      intro heffect
      apply Authority.survives_renewOwned h
      intro haccepts
      have := hundisturbed heffect
      simpa [disturbs, haccepts] using this
    · exact hsettle _ fun _ => hself
    · exact hself
  | verify v phase =>
    simp only [serve, serveVerify]
    split
    · exact hsettle _ fun _ => hself
    · exact hself

end Operation

/-! ## Grace periods stay -/

section

variable (w : DurableInstrumentReservations)

@[simp] theorem deps_recycleFence (fence : ℕ) : (w.recycleFence fence).deps = w.deps := by
  unfold recycleFence
  split <;> rfl

variable (readiness : Readiness)

theorem deps_ensureUsable : (w.ensureUsable readiness).1.deps = w.deps := by
  cases readiness with
  | usable initialised => cases initialised <;> rfl
  | notReady error => rfl
  | clockFailed error => rfl

theorem deps_tryAcquireAll (a : Acquisition) (readiness : Readiness) : (w.tryAcquireAll a readiness).1.deps = w.deps := by
  have husable := deps_ensureUsable w readiness
  unfold tryAcquireAll
  split
  · rfl
  · split
    · simp_all
    · split <;> simp_all

theorem deps_release (args : ReleaseArgs) (ready : Bool) : (w.release args ready).1.deps = w.deps := by
  unfold release
  simp only
  split <;> rfl

theorem deps_reapExpired (now : ℚ) (readiness : Readiness) : (w.reapExpired now readiness).1.deps = w.deps := by
  have husable := deps_ensureUsable w readiness
  unfold reapExpired
  simp only
  split <;> simp_all

theorem deps_renew (args : RenewArgs) (active : ReservationContext) (readiness : Readiness) :
    (w.renew args active readiness).1.deps = w.deps := by
  have husable := deps_ensureUsable w readiness
  unfold renew
  simp only
  split <;> simp_all

theorem deps_verify (args : VerifyArgs) (active : ReservationContext) (readiness : Readiness) :
    (w.verify args active readiness).1.deps = w.deps := by
  have husable := deps_ensureUsable w readiness
  unfold verify
  simp only
  split <;> simp_all

theorem deps_resumeAcquire (a : Acquisition) (phase : AcquirePhase) : (w.resumeAcquire a phase).1.deps = w.deps := by
  unfold resumeAcquire
  split
  case h_2 attempt doc result => cases result <;> cases attempt <;> rfl
  case h_4 => split <;> rfl
  case h_5 =>
    unfold afterHolders
    split
    · split
      · rfl
      · simp
    · simp
  all_goals rfl

theorem deps_resume (op : Operation) : (op.resume w).1.deps = w.deps := by
  cases op with
  | acquire a phase => exact deps_resumeAcquire w a phase
  | release args phase | clear phase | reapExpired deployment notAfter phase =>
    simp only [Operation.resume, resumeCount]
    split <;> rfl
  | renew r phase =>
    simp only [Operation.resume, resumeRenew]
    split <;> rfl
  | verify v phase =>
    simp only [Operation.resume, resumeVerify]
    split <;> rfl

end

structure ClockedDeployment where
  now : ℚ
  deployment : Deployment

inductive ClockedEvent where
  | elapsed (duration : ℚ)
  | did (event : Event)

namespace ClockedDeployment

def start (deps : List DurableReservationsDeps) : ClockedDeployment := ⟨0, .start deps⟩

variable (c : ClockedDeployment)

def step : ClockedEvent → ClockedDeployment × Option ReservationOutcome
  | .elapsed duration => ({ c with now := c.now + max 0 duration }, none)
  | .did event => ({ c with deployment := (c.deployment.step event).1 }, (c.deployment.step event).2)

/-- A worker about to reclaim estimates the authority's clock to within half its grace. -/
def Measured : ClockedEvent → Prop
  | .did (.acquire worker args _ _) =>
    ∀ w ∈ c.deployment.workers[worker]?, |w.toAuthority args.now - c.now| < w.skewGraceMs / 2
  | .did (.reapExpired worker _ now _) =>
    ∀ w ∈ c.deployment.workers[worker]?, |w.toAuthority now - c.now| < w.skewGraceMs / 2
  | _ => True

instance (c : ClockedDeployment) (event : ClockedEvent) : Decidable (c.Measured event) := by
  unfold Measured
  split <;> infer_instance

def serving? : ClockedEvent → Option (DurableInstrumentReservations × Operation)
  | .did (.serve task fate) =>
    if fate.takesEffect then
      c.deployment.tasks[task]?.bind fun t => c.deployment.workers[t.worker]?.map fun w => (w, t.op)
    else none
  | _ => none

def Unreleased (owner : String) (c : ClockedDeployment) (event : ClockedEvent) : Prop :=
  ∀ call ∈ c.serving? event, ∀ doc ∈ c.deployment.authority.docs, doc.owner = owner →
    call.2.releases call.1 doc = false

def Undisturbed (owner : String) (c : ClockedDeployment) (event : ClockedEvent) : Prop :=
  ∀ call ∈ c.serving? event, ∀ doc ∈ c.deployment.authority.docs, doc.owner = owner → call.2.disturbs doc = false

instance (owner : String) (c : ClockedDeployment) (event : ClockedEvent) : Decidable (Unreleased owner c event) := by
  unfold Unreleased
  infer_instance

instance (owner : String) (c : ClockedDeployment) (event : ClockedEvent) : Decidable (Undisturbed owner c event) := by
  unfold Undisturbed
  infer_instance

variable {c : ClockedDeployment}

/-! ## What the workers may delete -/

def Due (c : ClockedDeployment) : Prop :=
  ∀ t ∈ c.deployment.tasks, ∀ w, c.deployment.workers[t.worker]? = some w →
    ∀ notAfter, t.op.notAfter? w.skewGraceMs = some notAfter → notAfter ≤ c.now

theorem skewGraceMs_nonneg (w : DurableInstrumentReservations) : 0 ≤ w.skewGraceMs := le_max_left _ _

theorem skewGraceMs_congr {w w' : DurableInstrumentReservations} (h : w'.deps = w.deps) :
    w'.skewGraceMs = w.skewGraceMs := by
  unfold skewGraceMs
  rw [h]

theorem grace_set {workers : List DurableInstrumentReservations} {k j : ℕ} {w w' v : DurableInstrumentReservations}
    (hw : workers[k]? = some w) (hdeps : w'.deps = w.deps) (hv : (workers.set k w')[j]? = some v) :
    ∃ u, workers[j]? = some u ∧ v.skewGraceMs = u.skewGraceMs := by
  by_cases hj : k = j
  · subst hj
    have hk : k < workers.length := (List.getElem?_eq_some_iff.mp hw).1
    simp only [List.getElem?_set_self hk, Option.some.injEq] at hv
    subst hv
    exact ⟨w, hw, skewGraceMs_congr hdeps⟩
  · rw [List.getElem?_set_ne hj] at hv
    exact ⟨v, hv, rfl⟩

theorem notAfter_serve (op : Operation) (w : DurableInstrumentReservations) (fate : Fate) (db : Authority) (graceMs : ℚ) :
    (op.serve w fate db).1.notAfter? graceMs = op.notAfter? graceMs := by
  cases op <;> rfl

theorem notAfter_resume (op : Operation) (w : DurableInstrumentReservations) (graceMs : ℚ) :
    (op.resume w).2.notAfter? graceMs = op.notAfter? graceMs := by
  cases op <;> rfl

theorem due_begin (h : c.Due) {worker : ℕ}
    {op : DurableInstrumentReservations → DurableInstrumentReservations × Operation}
    (hdeps : ∀ w, (op w).1.deps = w.deps)
    (hdue : ∀ w ∈ c.deployment.workers[worker]?, ∀ notAfter, (op w).2.notAfter? w.skewGraceMs = some notAfter →
      notAfter ≤ c.now) :
    Due { c with deployment := (c.deployment.begin worker op).1 } := by
  unfold Deployment.begin
  split
  · exact h
  · rename_i w hw
    intro t ht v hv notAfter hnotAfter
    obtain ⟨u, hu, hgrace⟩ := grace_set hw (hdeps w) hv
    rw [hgrace] at hnotAfter
    rcases List.mem_append.mp ht with ht | ht
    · exact h t ht u hu notAfter hnotAfter
    · obtain rfl := List.mem_singleton.mp ht
      obtain rfl : w = u := Option.some.inj (hw.symm.trans hu)
      exact hdue w hw notAfter hnotAfter

theorem due_serve (h : c.Due) (task : ℕ) (fate : Fate) : Due { c with deployment := c.deployment.serve task fate } := by
  unfold Deployment.serve
  split
  · exact h
  · rename_i t ht
    split
    · exact h
    · rename_i w hw
      intro t' ht' v hv notAfter hnotAfter
      rcases List.mem_or_eq_of_mem_set ht' with hold | rfl
      · exact h t' hold v hv notAfter hnotAfter
      · rw [notAfter_serve] at hnotAfter
        exact h t (List.mem_of_getElem? ht) v hv notAfter hnotAfter

theorem due_resume (h : c.Due) (task : ℕ) : Due { c with deployment := (c.deployment.resume task).1 } := by
  unfold Deployment.resume
  split
  · exact h
  · rename_i t ht
    split
    · exact h
    · rename_i w hw
      intro t' ht' v hv notAfter hnotAfter
      obtain ⟨u, hu, hgrace⟩ := grace_set hw (deps_resume w t.op) hv
      rw [hgrace] at hnotAfter
      rcases List.mem_or_eq_of_mem_set ht' with hold | rfl
      · exact h t' hold u hu notAfter hnotAfter
      · rw [notAfter_resume] at hnotAfter
        exact h t (List.mem_of_getElem? ht) u hu notAfter hnotAfter

theorem due_syncClock (h : c.Due) (worker : ℕ) (measured : Except String (ℚ × ℚ × ℚ)) :
    Due { c with deployment := c.deployment.syncClock worker measured } := by
  unfold Deployment.syncClock
  split
  · exact h
  all_goals
    rename_i w _ hw
    intro t ht v hv notAfter hnotAfter
    obtain ⟨u, hu, hgrace⟩ := grace_set hw (by rfl) hv
    rw [hgrace] at hnotAfter
    exact h t ht u hu notAfter hnotAfter

theorem estimate_due {w : DurableInstrumentReservations} {localNow : ℚ}
    (h : |w.toAuthority localNow - c.now| < w.skewGraceMs / 2) : w.toAuthority localNow - w.skewGraceMs ≤ c.now := by
  have hgrace := skewGraceMs_nonneg w
  have hclose := (abs_lt.mp h).2
  linarith

variable {event : ClockedEvent}

theorem due_step (h : c.Due) (hmeasured : c.Measured event) : (c.step event).1.Due := by
  cases event with
  | elapsed duration =>
    intro t ht w hw notAfter hnotAfter
    exact (h t ht w hw notAfter hnotAfter).trans (le_add_of_nonneg_right (le_max_left _ _))
  | did event =>
    cases event with
    | acquire worker args active readiness =>
      refine due_begin h (fun w => deps_tryAcquireAll w _ readiness) fun w hw notAfter hnotAfter => ?_
      obtain rfl : w.toAuthority args.now - w.skewGraceMs = notAfter := Option.some.inj hnotAfter
      exact estimate_due (hmeasured w hw)
    | reapExpired worker deployment now readiness =>
      refine due_begin h (fun w => deps_reapExpired w now readiness) fun w hw notAfter hnotAfter => ?_
      have hreap : (w.reapExpired now readiness).2.1 = w.toAuthority now - w.skewGraceMs := by
        unfold reapExpired
        simp only
        split <;> rfl
      obtain rfl := hreap.symm.trans (Option.some.inj hnotAfter)
      exact estimate_due (hmeasured w hw)
    | release worker args ready => exact due_begin h (fun w => deps_release w args ready) (by simp [Operation.notAfter?])
    | clear worker ready => exact due_begin h (fun w => rfl) (by simp [Operation.notAfter?])
    | renew worker args active readiness =>
      exact due_begin h (fun w => deps_renew w args active readiness) (by simp [Operation.notAfter?])
    | verify worker args active readiness =>
      exact due_begin h (fun w => deps_verify w args active readiness) (by simp [Operation.notAfter?])
    | syncClock worker measured => exact due_syncClock h worker measured
    | serve task fate => exact due_serve h task fate
    | resume task => exact due_resume h task

/-! ## Runs -/

/-- The instants that statements carry are past, and no two documents share a contract. -/
structure Sound (c : ClockedDeployment) : Prop where
  due : c.Due
  exclusive : c.deployment.authority.Exclusive

theorem Sound.step (h : c.Sound) (hmeasured : c.Measured event) : (c.step event).1.Sound := by
  refine ⟨due_step h.due hmeasured, ?_⟩
  cases event with
  | elapsed duration => exact h.exclusive
  | did event => exact Deployment.step_keeps Authority.exclusive_kept h.exclusive event

theorem sound_run {deps : List DurableReservationsDeps} {events : List ClockedEvent}
    (hmeasured : Run.Guarded step Measured (start deps) events) : (Run.finish step (start deps) events).Sound := by
  apply hmeasured.invariant Sound fun c event hsound hevent => hsound.step hevent
  exact ⟨by simp [Due, start, Deployment.start], List.Pairwise.nil⟩

theorem now_le_step (c : ClockedDeployment) (event : ClockedEvent) : c.now ≤ (c.step event).1.now := by
  cases event with
  | elapsed duration => exact le_add_of_nonneg_right (le_max_left _ _)
  | did event => exact le_refl _

theorem now_le_finish (c : ClockedDeployment) (events : List ClockedEvent) : c.now ≤ (Run.finish step c events).now := by
  induction events generalizing c with
  | nil => exact le_refl _
  | cons event events ih => exact (now_le_step c event).trans (ih _)

theorem survives_step (h : c.Sound) {doc : DurableReservationDoc} (hreleased : c.Unreleased doc.owner event)
    (hundisturbed : c.Undisturbed doc.owner event) (hlives : c.now < doc.expiresAt)
    (hsurvives : c.deployment.authority.Survives doc) : (c.step event).1.deployment.authority.Survives doc := by
  cases event with
  | elapsed duration => exact hsurvives
  | did event =>
    cases event with
    | serve task fate =>
      simp only [step, Deployment.step, Deployment.serve]
      split
      · exact hsurvives
      · rename_i t ht
        split
        · exact hsurvives
        · rename_i w hw
          obtain ⟨kept, hkept, houtlives⟩ := hsurvives
          have hserving : fate.takesEffect = true → c.serving? (.did (.serve task fate)) = some (w, t.op) := by
            intro heffect
            simp [serving?, heffect, ht, hw]
          obtain ⟨found, hfound, hfoundOutlives⟩ := Operation.serve_survives hkept
            (fun heffect => hreleased _ (hserving heffect) kept hkept houtlives.owner)
            (fun heffect => hundisturbed _ (hserving heffect) kept hkept houtlives.owner)
            (fun notAfter hnotAfter =>
              (h.due t (List.mem_of_getElem? ht) w hw notAfter hnotAfter).trans_lt (hlives.trans_le houtlives.expiresAt))
          exact ⟨found, hfound, hfoundOutlives.trans houtlives⟩
    | _ =>
      simp only [step]
      rwa [Deployment.step_authority _ (by simp)]

theorem survives_run {events : List ClockedEvent} {doc : DurableReservationDoc} (h : c.Sound)
    (hmeasured : Run.Guarded step Measured c events) (hreleased : Run.Guarded step (Unreleased doc.owner) c events)
    (hundisturbed : Run.Guarded step (Undisturbed doc.owner) c events)
    (hlives : (Run.finish step c events).now < doc.expiresAt) (hsurvives : c.deployment.authority.Survives doc) :
    (Run.finish step c events).deployment.authority.Survives doc := by
  induction events generalizing c with
  | nil => exact hsurvives
  | cons event events ih =>
    apply ih (h.step hmeasured.1) hmeasured.2 hreleased.2 hundisturbed.2 hlives
    exact survives_step h hreleased.1 hundisturbed.1 ((now_le_finish c (event :: events)).trans_lt hlives) hsurvives

/-! ## Verification -/

structure Reads (c : ClockedDeployment) (task : ℕ) (v : Verification) (doc : DurableReservationDoc) : Prop where
  waiting : ∃ worker, c.deployment.tasks[task]? = some ⟨worker, .verify v (.findByOwner none)⟩
  found : c.deployment.authority.findByOwner v.args.owner = some doc
  owned : ∃ w : DurableInstrumentReservations, ∃ expiresAt fence, w.verdict v (some doc) = .owned expiresAt fence

theorem verdict_owned {w : DurableInstrumentReservations} {v : Verification} {doc : DurableReservationDoc}
    {expiresAt : ℚ} {fence : ℕ} (h : w.verdict v (some doc) = .owned expiresAt fence) :
    doc.deployment = v.ctx.deployment ∧ ∀ key ∈ v.args.keys, key ∈ doc.keys := by
  simp only [verdict] at h
  split at h
  · cases h
  · split at h
    · cases h
    · split at h
      · cases h
      · rename_i hdeployment
        split at h
        · cases h
        · split at h
          · cases h
          · rename_i hcovered
            refine ⟨not_not.mp hdeployment, fun key hkey => ?_⟩
            simp only [List.find?_eq_none] at hcovered
            simpa using hcovered key (mem_dedupeKeys.mpr hkey)

theorem Reads.doc {task : ℕ} {v : Verification} {doc : DurableReservationDoc} (h : c.Reads task v doc) :
    doc ∈ c.deployment.authority.docs ∧ doc.owner = v.args.owner ∧ doc.deployment = v.ctx.deployment ∧
      ∀ key ∈ v.args.keys, key ∈ doc.keys := by
  obtain ⟨w, expiresAt, fence, howned⟩ := h.owned
  obtain ⟨hdeployment, hkeys⟩ := verdict_owned howned
  exact ⟨List.mem_of_find?_eq_some h.found, by simpa using List.find?_some h.found, hdeployment, hkeys⟩

theorem mem_exclusive {db : Authority} (h : db.Exclusive) {doc doc' : DurableReservationDoc} (hdoc : doc ∈ db.docs)
    (hdoc' : doc' ∈ db.docs) (howner : doc.owner ≠ doc'.owner) : ¬ doc.Clash doc' := by
  have hsymm : Std.Symm fun doc doc' : DurableReservationDoc => doc.owner ≠ doc'.owner ∧ ¬ doc.Clash doc' :=
    ⟨fun _ _ hpair => ⟨hpair.1.symm, fun hclash => hpair.2 hclash.symm⟩⟩
  exact (h.forall hdoc hdoc' (fun heq => howner (by rw [heq]))).2

/-- Two owners that verifications show share no contract unless the first one's document was released or has expired.
-/
def VerifiedApart (deps : List DurableReservationsDeps) (before between : List ClockedEvent) (owner : String) : Prop :=
  ∀ task task' v v' doc doc', (Run.finish step (start deps) before).Reads task v doc →
    (Run.finish step (start deps) (before ++ between)).Reads task' v' doc' →
    v.args.owner = owner → v'.args.owner ≠ owner → v.ctx.deployment = v'.ctx.deployment →
    Run.Guarded step (Unreleased owner) (Run.finish step (start deps) before) between →
    (Run.finish step (start deps) (before ++ between)).now < doc.expiresAt →
    v.args.keys.Disjoint v'.args.keys

/-- **One verified owner for each contract**, where no second acquisition and no overtaken renewal disturbs the first.
-/
theorem verified_apart (deps : List DurableReservationsDeps) (before between : List ClockedEvent) (owner : String)
    (hmeasured : Run.Guarded step Measured (start deps) (before ++ between))
    (hundisturbed : Run.Guarded step (Undisturbed owner) (Run.finish step (start deps) before) between) :
    VerifiedApart deps before between owner := by
  intro task task' v v' doc doc' hreads hreads' howner howner' hdeployment hreleased hlives
  obtain ⟨hdoc, hdocOwner, hdocDeployment, hdocKeys⟩ := hreads.doc
  obtain ⟨hdoc', hdocOwner', hdocDeployment', hdocKeys'⟩ := hreads'.doc
  rw [howner] at hdocOwner
  have hbefore := sound_run hmeasured.append.1
  have hafter := sound_run hmeasured
  rw [Run.finish_append] at hafter hdoc' hlives
  obtain ⟨kept, hkept, houtlives⟩ := survives_run hbefore hmeasured.append.2 (hdocOwner ▸ hreleased)
    (hdocOwner ▸ hundisturbed) hlives (Authority.survives_self hdoc)
  have hclash := mem_exclusive hafter.exclusive hkept hdoc' (by rw [houtlives.owner, hdocOwner, hdocOwner']; exact howner'.symm)
  intro key hkey hkey'
  apply hclash
  refine ⟨?_, key, ?_, hdocKeys' key hkey'⟩
  · rw [houtlives.deployment, hdocDeployment, hdocDeployment', hdeployment]
  · rw [houtlives.keys]
    exact hdocKeys key hkey

/-! ## Two workers and one contract -/

def production : ReservationContext := ⟨"prod", "zerodha", 1, "live"⟩

def answering (task : ℕ) : List ClockedEvent := [.did (.serve task .answered), .did (.resume task)]

def acquiring (worker : ℕ) (owner key : String) (now : ℚ) : ClockedEvent :=
  .did (.acquire worker ⟨owner, [key], .fin 30000, now, fun _ => none, none⟩ production (.usable true))

def verification (owner key : String) (now : ℚ) : Verification := ⟨⟨owner, [key], now, none, none⟩, production⟩

def verifying (worker : ℕ) (owner key : String) (now : ℚ) : ClockedEvent :=
  .did (.verify worker (verification owner key now).args production (.usable false))

def renewing (worker : ℕ) (owner : String) (now : ℚ) : ClockedEvent :=
  .did (.renew worker ⟨owner, .fin 30000, now, none, none⟩ production (.usable false))

def granted : List ClockedEvent :=
  [acquiring 0 "wa:1" "nfo:1320" 0] ++ answering 0 ++ answering 0 ++ [verifying 0 "wa:1" "nfo:1320" 0]

def elsewhere : List ClockedEvent :=
  answering 1 ++ [acquiring 1 "wb:1" "nfo:1330" 0] ++ answering 2 ++ answering 2 ++ [verifying 1 "wb:1" "nfo:1330" 0]

theorem verified_apart_elsewhere : VerifiedApart Deployment.twoWorkers granted elsewhere "wa:1" :=
  verified_apart Deployment.twoWorkers granted elsewhere "wa:1" (by decide +kernel) (by decide +kernel)

def reacquired : List ClockedEvent :=
  answering 1 ++ [acquiring 0 "wa:1" "nfo:1320" 0] ++ answering 2 ++ answering 2 ++ answering 2 ++
    [acquiring 1 "wb:1" "nfo:1320" 0] ++ answering 3 ++ answering 3 ++ [verifying 1 "wb:1" "nfo:1320" 0]

def renewedTwice : List ClockedEvent :=
  [acquiring 0 "wa:1" "nfo:1320" 0] ++ answering 0 ++ answering 0 ++ [renewing 0 "wa:1" 0, .elapsed 20000,
    renewing 0 "wa:1" 20000] ++ answering 2 ++ [verifying 0 "wa:1" "nfo:1320" 20000]

def movedBack : List ClockedEvent :=
  answering 3 ++ answering 1 ++ [.elapsed 11000, acquiring 1 "wb:1" "nfo:1320" 31000] ++ answering 4 ++ answering 4 ++
    answering 4 ++ answering 4 ++ [verifying 1 "wb:1" "nfo:1320" 31000]

def leaseOn (owner ownerPrefix : String) (fence : ℕ) (createdAt expiresAt renewedAt : ℚ) : DurableReservationDoc :=
  ⟨owner, "prod", "zerodha", 1, "live", ["nfo:1320"], [("nfo:1320", "")], fence, ownerPrefix, createdAt, expiresAt,
    renewedAt⟩

theorem both_verified :
    (Run.Guarded step Measured (start Deployment.twoWorkers) (granted ++ reacquired) ∧
        ¬ VerifiedApart Deployment.twoWorkers granted reacquired "wa:1") ∧
      Run.Guarded step Measured (start Deployment.twoWorkers) (renewedTwice ++ movedBack) ∧
        ¬ VerifiedApart Deployment.twoWorkers renewedTwice movedBack "wa:1" := by
  refine ⟨⟨by decide +kernel, fun h => ?_⟩, by decide +kernel, fun h => ?_⟩
  · exact h 1 4 (verification "wa:1" "nfo:1320" 0) (verification "wb:1" "nfo:1320" 0)
      (leaseOn "wa:1" "wa:" 1 0 30000 0) (leaseOn "wb:1" "wb:" 3 0 30000 0)
      ⟨⟨0, rfl⟩, by decide +kernel, .new ⟨"postgres", "wa:", none⟩, 30000, 1, by decide +kernel⟩
      ⟨⟨1, rfl⟩, by decide +kernel, .new ⟨"postgres", "wb:", none⟩, 30000, 3, by decide +kernel⟩ rfl (by decide) rfl
      (by decide +kernel) (by decide +kernel) (List.mem_singleton_self "nfo:1320") (List.mem_singleton_self "nfo:1320")
  · exact h 3 5 (verification "wa:1" "nfo:1320" 20000) (verification "wb:1" "nfo:1320" 31000)
      (leaseOn "wa:1" "wa:" 1 0 50000 20000) (leaseOn "wb:1" "wb:" 2 31000 61000 31000)
      ⟨⟨0, rfl⟩, by decide +kernel, .new ⟨"postgres", "wa:", none⟩, 50000, 1, by decide +kernel⟩
      ⟨⟨1, rfl⟩, by decide +kernel, .new ⟨"postgres", "wb:", none⟩, 61000, 2, by decide +kernel⟩ rfl (by decide) rfl
      (by decide +kernel) (by decide +kernel) (List.mem_singleton_self "nfo:1320") (List.mem_singleton_self "nfo:1320")

end ClockedDeployment

end BoxEngine
