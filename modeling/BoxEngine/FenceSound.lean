import BoxEngine.Lib.Run
import BoxEngine.ReservationWorkers
import Mathlib.Data.List.Induction

/-!
# Fences along a run of the deployment

A fence is drawn once, held by one hand and granted at most once. The order of the grants is not given: a fence may
wait while another worker draws a later one for the same contract.
-/

namespace BoxEngine

open Tickets DurableInstrumentReservations

/-! ## Fences at hand -/

def DurableInstrumentReservations.AcquirePhase.hand : AcquirePhase → Multiset ℕ
  | .nextFence (some (.ok fence)) => {fence}
  | .insert _ doc none => {doc.fence}
  | .insert _ doc (some (.ok .keyConflict)) => {doc.fence}
  | .insert _ doc (some (.ok .ownerExists)) => {doc.fence}
  | .deleteOwned doc _ => {doc.fence}
  | .deleteExpired doc _ => {doc.fence}
  | .findLiveByKeys doc _ => {doc.fence}
  | _ => 0

def Operation.hand : Operation → Multiset ℕ
  | .acquire _ phase => phase.hand
  | _ => 0

def Task.hand (t : Task) : Multiset ℕ := t.op.hand

def DurableInstrumentReservations.spare (w : DurableInstrumentReservations) : Multiset ℕ := w.spareFences

def Deployment.hands (s : Deployment) : Multiset ℕ :=
  heldBy spare s.workers + heldBy Task.hand s.tasks

def Deployment.office (s : Deployment) : Office DurableReservationDoc :=
  ⟨s.hands, s.authority.fences, s.authority.log⟩

abbrev fenceOf (doc : DurableReservationDoc) : ℕ := doc.fence

variable (op : Operation) (w : DurableInstrumentReservations) (a : Acquisition) (fate : Fate) (readiness : Readiness)
  (db : Authority)

theorem serveAcquire_move (a : Acquisition) (p : AcquirePhase) :
    Move fenceOf ⟨p.hand, db.fences, db.log⟩
      ⟨(serveAcquire w fate db a p).1.hand, (serveAcquire w fate db a p).2.fences,
        (serveAcquire w fate db a p).2.log⟩ := by
  unfold serveAcquire
  split
  · cases fate with
    | answered => exact .draw (le_refl _)
    | refused e => exact .quiet (le_refl _)
    | lost e => exact .draw (Multiset.zero_le _)
  · rename_i attempt doc
    simp only [Authority.insert]
    cases db.admission doc with
    | inserted =>
      cases fate with
      | answered => exact .grant doc (le_refl _)
      | refused e => exact .quiet (Multiset.zero_le _)
      | lost e => exact .grant doc (le_refl _)
    | keyConflict | ownerExists => cases fate <;> first | exact .quiet (le_refl _) | exact .quiet (Multiset.zero_le _)
  · cases fate <;> exact .quiet (le_refl _)
  · cases fate <;> exact .quiet (le_refl _)
  · cases fate <;> exact .quiet (le_refl _)
  · exact .quiet (le_refl _)

theorem Operation.serve_move :
    Move fenceOf ⟨op.hand, db.fences, db.log⟩
      ⟨(op.serve w fate db).1.hand, (op.serve w fate db).2.fences, (op.serve w fate db).2.log⟩ := by
  cases op with
  | acquire a phase => exact serveAcquire_move w fate db a phase
  | release args phase | clear phase | reapExpired deployment notAfter phase => cases phase with
    | waiting answer => cases answer <;> cases fate <;> exact .quiet (le_refl _)
    | returned count => exact .quiet (le_refl _)
  | renew r phase => cases phase with
    | renewOwned answer | findByOwner answer => cases answer <;> cases fate <;> exact .quiet (le_refl _)
    | returned outcome => exact .quiet (le_refl _)
  | verify v phase => cases phase with
    | findByOwner answer => cases answer <;> cases fate <;> exact .quiet (le_refl _)
    | returned verdict => exact .quiet (le_refl _)

/-! ## Fences a worker keeps -/

theorem recycleFence_spare (fence : ℕ) : (w.recycleFence fence).spare ≤ w.spare + {fence} := by
  unfold recycleFence
  split
  · exact Multiset.le_add_right _ _
  · rw [add_comm]; exact le_refl _

theorem resumeAcquire_hand (p : AcquirePhase) :
    (w.resumeAcquire a p).1.spare + (w.resumeAcquire a p).2.hand ≤
      w.spare + p.hand := by
  unfold resumeAcquire
  split
  · exact le_refl _
  · rename_i attempt doc result
    cases result with
    | inserted => exact le_refl _
    | ownerExists | keyConflict => cases attempt <;> exact le_refl _
  · exact le_refl _
  · split <;> exact le_refl _
  · rename_i doc live
    unfold afterHolders
    have hrecycle := recycleFence_spare w doc.fence
    have hgrant : w.spare + 0 ≤ w.spare + {doc.fence} :=
      Multiset.add_le_add_left (Multiset.zero_le _)
    split
    · split
      · exact hgrant
      · simpa [AcquirePhase.hand] using hrecycle
    · simpa [AcquirePhase.hand] using hrecycle
  all_goals first | exact le_refl _ | exact Multiset.add_le_add_left (Multiset.zero_le _)

theorem Operation.resume_hand : (op.resume w).1.spare + (op.resume w).2.hand ≤ w.spare + op.hand := by
  cases op with
  | acquire a phase => exact resumeAcquire_hand w a phase
  | release args phase | clear phase
  | reapExpired deployment notAfter phase => rcases phase with (_ | _ | _) | _ <;> exact le_refl _
  | renew r phase => rcases phase with (_ | _ | _ | _) | (_ | _ | _) | _ <;> exact le_refl _
  | verify v phase => rcases phase with (_ | _ | _) | _ <;> exact le_refl _

theorem ensureUsable_spare : (w.ensureUsable readiness).1.spare = w.spare := by
  cases readiness with
  | usable initialised => cases initialised <;> rfl
  | notReady error => rfl
  | clockFailed error => rfl

theorem reapExpired_spare (now : ℚ) (readiness : Readiness) : (w.reapExpired now readiness).1.spare = w.spare := by
  rw [← ensureUsable_spare w readiness]
  unfold reapExpired
  split <;> simp [*]

theorem renew_spare (args : RenewArgs) (active : ReservationContext) (readiness : Readiness) :
    (w.renew args active readiness).1.spare = w.spare := by
  rw [← ensureUsable_spare w readiness]
  simp only [renew]
  split <;> simp [*]

theorem verify_spare (args : VerifyArgs) (active : ReservationContext) (readiness : Readiness) :
    (w.verify args active readiness).1.spare = w.spare := by
  rw [← ensureUsable_spare w readiness]
  simp only [verify]
  split <;> simp [*]

theorem tryAcquireAll_hand :
    (w.tryAcquireAll a readiness).1.spare + (w.tryAcquireAll a readiness).2.hand =
      w.spare := by
  have hready := ensureUsable_spare w readiness
  unfold tryAcquireAll
  split
  · simp [AcquirePhase.hand]
  · generalize w.ensureUsable readiness = usable at hready ⊢
    obtain ⟨w', detail⟩ := usable
    rcases detail with _ | detail
    · rw [← hready]
      rcases hspare : w'.spareFences with _ | ⟨fence, rest⟩
      · simp [AcquirePhase.hand, hspare]
      · simp only [hspare, spare, AcquirePhase.hand, document]
        rw [← Multiset.cons_coe, ← Multiset.singleton_add, add_comm]
    · rw [← hready]
      exact add_zero _

/-! ## Steps are moves of the office -/

namespace Deployment

theorem begin_move {s : Deployment} {worker : ℕ}
    {op : DurableInstrumentReservations → DurableInstrumentReservations × Operation}
    (h : ∀ w, (op w).1.spare + (op w).2.hand ≤ w.spare) :
    Move fenceOf s.office (s.begin worker op).1.office := by
  unfold begin
  split
  · exact .quiet (le_refl _)
  · rename_i w hw
    obtain ⟨rest, hrest, hset⟩ := heldBy_set spare hw
    refine .quiet ?_
    calc heldBy _ (s.workers.set worker (op w).1) + heldBy _ (s.tasks ++ [⟨worker, (op w).2⟩])
        = rest + heldBy Task.hand s.tasks + ((op w).1.spare + (op w).2.hand) := by
          rw [hset, heldBy_append, heldBy_singleton]
          simp only [Task.hand]
          abel
      _ ≤ rest + heldBy Task.hand s.tasks + w.spare :=
          Multiset.add_le_add_left (h w)
      _ = s.hands := by rw [hands, hrest]; abel

variable (s : Deployment)

theorem syncClock_move (worker : ℕ) (measured : Except String (ℚ × ℚ × ℚ)) :
    Move fenceOf s.office (s.syncClock worker measured).office := by
  unfold syncClock
  split
  · exact .quiet (le_refl _)
  all_goals
    rename_i w _ hw
    obtain ⟨rest, hrest, hset⟩ := heldBy_set spare hw
    refine .quiet (le_of_eq ?_)
    simp only [office, hands, hset, hrest]
    rfl

theorem serve_move (task : ℕ) (fate : Fate) : Move fenceOf s.office (s.serve task fate).office := by
  unfold serve
  split
  · exact .quiet (le_refl _)
  · rename_i t ht
    split
    · exact .quiet (le_refl _)
    · rename_i w hw
      obtain ⟨rest, hrest, hset⟩ := heldBy_set Task.hand ht
      have hmove := (t.op.serve_move w fate s.authority).frame
        (heldBy spare s.workers + rest)
      simpa only [office, hands, hrest, hset, Task.hand, add_assoc] using hmove

theorem resume_move (task : ℕ) : Move fenceOf s.office (s.resume task).1.office := by
  unfold resume
  split
  · exact .quiet (le_refl _)
  · rename_i t ht
    split
    · exact .quiet (le_refl _)
    · rename_i w hw
      obtain ⟨rest, hrest, hset⟩ := heldBy_set Task.hand ht
      obtain ⟨rest', hrest', hset'⟩ := heldBy_set spare hw
      refine .quiet ?_
      calc heldBy _ (s.workers.set t.worker (t.op.resume w).1) +
            heldBy _ (s.tasks.set task { t with op := (t.op.resume w).2 })
          = rest' + rest + ((t.op.resume w).1.spare + (t.op.resume w).2.hand) := by
            rw [hset, hset']
            simp only [Task.hand]
            abel
        _ ≤ rest' + rest + (w.spare + t.op.hand) :=
            Multiset.add_le_add_left (t.op.resume_hand w)
        _ = s.hands := by rw [hands, hrest, hrest']; abel

theorem step_move (e : Event) : Move fenceOf s.office (s.step e).1.office := by
  cases e with
  | acquire worker args active readiness =>
    exact begin_move fun w => le_of_eq (tryAcquireAll_hand w (w.acquisition args active) readiness)
  | release worker args ready
  | clear worker ready => exact begin_move fun w => by cases ready <;> exact le_of_eq (add_zero _)
  | reapExpired worker deployment now readiness =>
    exact begin_move fun w => le_of_eq (by rw [← reapExpired_spare w now readiness]; exact add_zero _)
  | renew worker args active readiness =>
    exact begin_move fun w => le_of_eq (by rw [← renew_spare w args active readiness]; exact add_zero _)
  | verify worker args active readiness =>
    exact begin_move fun w => le_of_eq (by rw [← verify_spare w args active readiness]; exact add_zero _)
  | syncClock worker measured => exact syncClock_move s worker measured
  | serve task fate => exact serve_move s task fate
  | resume task => exact resume_move s task

end Deployment

/-! ## Grants -/

theorem Operation.serve_grants : grants (op.serve w fate db).2.log = (op.granting fate db).toList ++ grants db.log := by
  cases op with
  | acquire a phase =>
    cases phase with
    | insert attempt doc answer =>
      cases answer with
      | some answer => rfl
      | none =>
        simp only [serve, serveAcquire, granting, Authority.insert]
        cases db.admission doc <;> cases fate <;> rfl
    | nextFence answer | deleteOwned doc answer | deleteExpired doc answer
    | findLiveByKeys doc answer => cases answer <;> cases fate <;> rfl
    | returned outcome => rfl
  | release args phase | clear phase
  | reapExpired deployment notAfter phase => rcases phase with (_ | _) | _ <;> cases fate <;> rfl
  | renew r phase => rcases phase with (_ | _) | (_ | _) | _ <;> cases fate <;> rfl
  | verify v phase => rcases phase with (_ | _) | _ <;> cases fate <;> rfl

theorem Operation.granting_hand {op : Operation} {fate : Fate} {db : Authority} {doc : DurableReservationDoc}
    (h : op.granting fate db = some doc) : doc.fence ∈ op.hand := by
  unfold granting at h
  split at h
  · split at h
    · cases h; exact Multiset.mem_singleton_self _
    · cases h
  · cases h

namespace Deployment

variable (s : Deployment)

theorem step_authority {e : Event} (he : ∀ task fate, e ≠ .serve task fate) :
    (s.step e).1.authority = s.authority := by
  have hbegin : ∀ worker op, (s.begin worker op).1.authority = s.authority := by
    intro worker op
    unfold begin
    split <;> rfl
  cases e with
  | serve task fate => exact absurd rfl (he task fate)
  | resume task => simp only [step, resume]; split <;> [skip; split] <;> rfl
  | syncClock worker measured => simp only [step, syncClock]; split <;> rfl
  | _ => simp only [step, hbegin]

theorem step_grants (e : Event) :
    grants (s.step e).1.authority.log = (s.granting e).toList ++ grants s.authority.log := by
  cases e with
  | serve task fate =>
    simp only [step, serve, granting]
    cases hs : s.tasks[task]? with
    | none => rfl
    | some t =>
      by_cases hw : t.worker < s.workers.length
      · simp only [List.getElem?_eq_getElem hw, if_pos hw]
        exact t.op.serve_grants _ fate s.authority
      · simp only [List.getElem?_eq_none (Nat.not_lt.mp hw), if_neg hw]
        rfl
  | _ => rw [step_authority s (by simp)]; rfl

theorem granting_held {s : Deployment} {e : Event} {doc : DurableReservationDoc} (h : s.granting e = some doc) :
    doc.fence ∈ s.hands := by
  unfold granting at h
  split at h
  · split at h
    · cases h
    · rename_i t ht
      split at h
      · obtain ⟨rest, hrest, -⟩ := heldBy_set Task.hand ht
        rw [hands, hrest]
        exact Multiset.mem_add.mpr (.inr (Multiset.mem_add.mpr (.inr (t.op.granting_hand h))))
      · cases h
  · cases h

/-! ## Runs -/

/-- Whenever two leases were granted on a common contract, the later one carries the greater fence. -/
def FencesMoveForward : Prop :=
  (grants s.authority.log).Pairwise fun later earlier => earlier.Clash later → earlier.fence < later.fence

instance (s : Deployment) : Decidable s.FencesMoveForward := inferInstanceAs (Decidable (List.Pairwise _ _))

/-- While the fence of `doc` waited, another lease on one of its contracts was drawn a fence and granted. -/
def OvertakenBefore (doc : DurableReservationDoc) : Prop :=
  Overtaken fenceOf DurableReservationDoc.Clash s.authority.log doc

abbrev run (deps : List DurableReservationsDeps) (events : List Event) : Deployment :=
  Run.finish step (start deps) events

variable (deps : List DurableReservationsDeps)

theorem run_snoc (events : List Event) (e : Event) :
    run deps (events ++ [e]) = ((run deps events).step e).1 := Run.finish_append step _ events [e]

theorem start_hands : (start deps).hands = 0 := by
  have hnone : heldBy spare (deps.map DurableInstrumentReservations.new) = 0 := by
    refine List.sum_eq_zero fun x hx => ?_
    simp only [List.map_map, List.mem_map] at hx
    obtain ⟨d, -, rfl⟩ := hx
    rfl
  rw [hands, start, hnone]
  rfl

theorem run_sound (events : List Event) : (run deps events).office.Sound fenceOf := by
  induction events using List.reverseRecOn with
  | nil =>
    have hempty : (start deps).office = ⟨0, 0, []⟩ := by
      rw [office, start_hands]
      rfl
    exact hempty ▸ .start
  | append_singleton events e ih =>
    rw [run_snoc]
    exact (step_move _ e).sound ih

theorem step_forward_iff {s : Deployment} (h : s.office.Sound fenceOf) (e : Event) :
    (s.step e).1.FencesMoveForward ↔
      s.FencesMoveForward ∧ ∀ doc, s.granting e = some doc → ¬ s.OvertakenBefore doc := by
  unfold FencesMoveForward
  rw [step_grants]
  cases hgrant : s.granting e with
  | none => simp
  | some doc =>
    have hstep : InOrder fenceOf DurableReservationDoc.Clash (.granted doc :: s.authority.log) ↔
        s.FencesMoveForward ∧ ¬ s.OvertakenBefore doc := h.inOrder_grant_iff (granting_held hgrant)
    simp only [Option.some.injEq, forall_eq']
    exact hstep

/-- **Fences** move forward exactly when no lease of the run was granted on an overtaken fence. -/
theorem fences_move_forward (deps : List DurableReservationsDeps) (events : List Event) :
    (run deps events).FencesMoveForward ↔
      Run.Guarded step (fun s e => ∀ doc, s.granting e = some doc → ¬ s.OvertakenBefore doc) (start deps) events := by
  induction events using List.reverseRecOn with
  | nil => exact ⟨fun _ => trivial, fun _ => List.Pairwise.nil⟩
  | append_singleton events e ih =>
    rw [run_snoc, step_forward_iff (run_sound deps events), ih]
    exact ⟨fun ⟨hrun, he⟩ => hrun.snoc he, fun h => ⟨h.append.1, h.append.2.1⟩⟩

def twoWorkers : List DurableReservationsDeps := [⟨"postgres", "wa:", none⟩, ⟨"postgres", "wb:", none⟩]

def oneContract (owner : String) : AcquireArgs := ⟨owner, ["nfo:1320"], .fin 30000, 0, fun _ => none, none⟩

def spareFenceRun : List Event :=
  let active : ReservationContext := ⟨"prod", "zerodha", 1, "live"⟩
  let both (task : ℕ) : List Event := [.serve task .answered, .resume task]
  [.acquire 0 (oneContract "wa:1") active (.usable true)] ++ both 0 ++
    [.acquire 1 (oneContract "wb:1") active (.usable true)] ++ both 1 ++ both 1 ++
    both 0 ++ both 0 ++ both 0 ++
    [.release 1 ⟨"wb:1", some 2⟩ true] ++ both 2 ++
    [.acquire 0 (oneContract "wa:2") active (.usable false)] ++ both 3

theorem fence_moves_back :
    (Run.answers step (start twoWorkers) spareFenceRun).reduceOption =
        [.ok ⟨"wb:1", ["nfo:1320"], 30000, 2⟩,
          .conflict [⟨"nfo:1320", "wb:1", none, "postgres"⟩],
          .ok ⟨"wa:2", ["nfo:1320"], 30000, 1⟩] ∧
      ¬ (run twoWorkers spareFenceRun).FencesMoveForward := by
  decide +kernel

end Deployment

end BoxEngine
