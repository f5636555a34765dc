import BoxEngine.ReservationUpkeep

/-!
# Workers over one authority

Any number of workers, each with operations under way: between two events of one operation anything may happen, and a
call may be answered, fail, or take effect with its answer lost.
-/

namespace BoxEngine

open DurableInstrumentReservations

/-! ## Calls and their fate -/

inductive Fate where
  | answered
  | refused (error : String)
  | lost (error : String)

def Fate.takesEffect : Fate → Bool
  | refused _ => false
  | _ => true

/-- The answer that comes back and the authority after the call, `done` being the call carried out. -/
def Fate.settle {α : Type} (fate : Fate) (db : Authority) (done : α × Authority) : Except String α × Authority :=
  match fate with
  | .answered => (.ok done.1, done.2)
  | .refused error => (.error error, db)
  | .lost error => (.error error, done.2)

inductive Operation where
  | acquire (a : Acquisition) (phase : AcquirePhase)
  | release (args : ReleaseArgs) (phase : CountPhase)
  | clear (phase : CountPhase)
  | reapExpired (deployment : String) (notAfter : ℚ) (phase : CountPhase)
  | renew (r : Renewal) (phase : RenewPhase)
  | verify (v : Verification) (phase : VerifyPhase)

def serveAcquire (w : DurableInstrumentReservations) (fate : Fate) (db : Authority) (a : Acquisition) :
    AcquirePhase → AcquirePhase × Authority
  | .nextFence none =>
    let (answer, db) := fate.settle db (db.nextFence a.ctx.deployment)
    (.nextFence (some answer), db)
  | .insert attempt doc none =>
    let (answer, db) := fate.settle db (db.insert doc)
    (.insert attempt doc (some answer), db)
  | .deleteOwned doc none =>
    let (answer, db) := fate.settle db (db.deleteOwned a.owner none)
    (.deleteOwned doc (some answer), db)
  | .deleteExpired doc none =>
    let (answer, db) := fate.settle db (db.deleteExpired a.ctx.deployment (some a.keys) (a.authNow - w.skewGraceMs))
    (.deleteExpired doc (some answer), db)
  | .findLiveByKeys doc none =>
    let (answer, db) := fate.settle db (db.findLiveByKeys a.ctx.deployment a.keys a.authNow, db)
    (.findLiveByKeys doc (some answer), db)
  | phase => (phase, db)

variable (fate : Fate)

def serveCount (db : Authority) (done : ℕ × Authority) : CountPhase → CountPhase × Authority
  | .waiting none =>
    let (answer, db) := fate.settle db done
    (.waiting (some answer), db)
  | phase => (phase, db)

def serveRenew (db : Authority) (r : Renewal) : RenewPhase → RenewPhase × Authority
  | .renewOwned none =>
    let (answer, db) := fate.settle db (db.renewOwned r.filter r.expiresAt)
    (.renewOwned (some answer), db)
  | .findByOwner none =>
    let (answer, db) := fate.settle db (db.findByOwner r.filter.owner, db)
    (.findByOwner (some answer), db)
  | phase => (phase, db)

def serveVerify (db : Authority) (v : Verification) : VerifyPhase → VerifyPhase × Authority
  | .findByOwner none =>
    let (answer, db) := fate.settle db (db.findByOwner v.args.owner, db)
    (.findByOwner (some answer), db)
  | phase => (phase, db)

namespace Operation

def serve (w : DurableInstrumentReservations) (fate : Fate) (db : Authority) : Operation → Operation × Authority
  | acquire a phase => let (phase, db) := serveAcquire w fate db a phase; (acquire a phase, db)
  | release args phase =>
    let (phase, db) := serveCount fate db (db.deleteOwned args.owner args.fence) phase
    (release args phase, db)
  | clear phase =>
    let (phase, db) := serveCount fate db (db.deleteByOwnerPrefix w.deps.ownerPrefix) phase
    (clear phase, db)
  | reapExpired deployment notAfter phase =>
    let (phase, db) := serveCount fate db (db.deleteExpired deployment none notAfter) phase
    (reapExpired deployment notAfter phase, db)
  | renew r phase => let (phase, db) := serveRenew fate db r phase; (renew r phase, db)
  | verify v phase => let (phase, db) := serveVerify fate db v phase; (verify v phase, db)

def resume (w : DurableInstrumentReservations) : Operation → DurableInstrumentReservations × Operation
  | acquire a phase => let (w, phase) := w.resumeAcquire a phase; (w, acquire a phase)
  | release args phase => let (w, phase) := w.resumeCount phase; (w, release args phase)
  | clear phase => let (w, phase) := w.resumeCount phase; (w, clear phase)
  | reapExpired deployment notAfter phase =>
    let (w, phase) := w.resumeCount phase
    (w, reapExpired deployment notAfter phase)
  | renew r phase => let (w, phase) := w.resumeRenew r phase; (w, renew r phase)
  | verify v phase => let (w, phase) := w.resumeVerify v phase; (w, verify v phase)

def granting (fate : Fate) (db : Authority) : Operation → Option DurableReservationDoc
  | acquire _ (.insert _ doc none) =>
    if fate.takesEffect ∧ db.admission doc = .inserted then some doc else none
  | _ => none

def outcome : Operation → Option ReservationOutcome
  | acquire _ (.returned outcome) => some outcome
  | _ => none

end Operation

/-! ## The deployment -/

structure Task where
  worker : ℕ
  op : Operation

/-- Workers over one authority, and the statements they wait for. -/
structure Deployment where
  authority : Authority
  workers : List DurableInstrumentReservations
  tasks : List Task

inductive Event where
  | acquire (worker : ℕ) (args : AcquireArgs) (active : ReservationContext) (readiness : Readiness)
  | release (worker : ℕ) (args : ReleaseArgs) (ready : Bool)
  | clear (worker : ℕ) (ready : Bool)
  | reapExpired (worker : ℕ) (deployment : String) (now : ℚ) (readiness : Readiness)
  | renew (worker : ℕ) (args : RenewArgs) (active : ReservationContext) (readiness : Readiness)
  | verify (worker : ℕ) (args : VerifyArgs) (active : ReservationContext) (readiness : Readiness)
  | syncClock (worker : ℕ) (measured : Except String (ℚ × ℚ × ℚ))
  | serve (task : ℕ) (fate : Fate)
  | resume (task : ℕ)

namespace Deployment

def start (deps : List DurableReservationsDeps) : Deployment where
  authority := .empty
  workers := deps.map .new
  tasks := []

variable (s : Deployment)

def begin (worker : ℕ) (op : DurableInstrumentReservations → DurableInstrumentReservations × Operation) :
    Deployment × Option ReservationOutcome :=
  match s.workers[worker]? with
  | none => (s, none)
  | some w =>
    let (w, op) := op w
    ({ s with workers := s.workers.set worker w, tasks := s.tasks ++ [⟨worker, op⟩] }, op.outcome)

def syncClock (worker : ℕ) (measured : Except String (ℚ × ℚ × ℚ)) : Deployment :=
  match s.workers[worker]?, measured with
  | none, _ => s
  | some w, .ok (before, serverMs, after) =>
    { s with workers := s.workers.set worker (w.syncClock before serverMs after) }
  | some w, .error e => { s with workers := s.workers.set worker (w.failed e) }

def serve (task : ℕ) (fate : Fate) : Deployment :=
  match s.tasks[task]? with
  | none => s
  | some t =>
    match s.workers[t.worker]? with
    | none => s
    | some w =>
      let (op, db) := t.op.serve w fate s.authority
      { s with authority := db, tasks := s.tasks.set task { t with op } }

def resume (task : ℕ) : Deployment × Option ReservationOutcome :=
  match s.tasks[task]? with
  | none => (s, none)
  | some t =>
    match s.workers[t.worker]? with
    | none => (s, none)
    | some w =>
      let (w, op) := t.op.resume w
      ({ s with workers := s.workers.set t.worker w, tasks := s.tasks.set task { t with op } },
        if t.op.outcome.isSome then none else op.outcome)

def step : Event → Deployment × Option ReservationOutcome
  | .acquire worker args active readiness =>
    s.begin worker fun w =>
      let a := w.acquisition args active
      let (w, phase) := w.tryAcquireAll a readiness
      (w, .acquire a phase)
  | .release worker args ready =>
    s.begin worker fun w => let (w, phase) := w.release args ready; (w, .release args phase)
  | .clear worker ready => s.begin worker fun w => let (w, phase) := w.clear ready; (w, .clear phase)
  | .reapExpired worker deployment now readiness =>
    s.begin worker fun w =>
      let (w, notAfter, phase) := w.reapExpired now readiness
      (w, .reapExpired deployment notAfter phase)
  | .renew worker args active readiness =>
    s.begin worker fun w => let (w, r, phase) := w.renew args active readiness; (w, .renew r phase)
  | .verify worker args active readiness =>
    s.begin worker fun w => let (w, v, phase) := w.verify args active readiness; (w, .verify v phase)
  | .syncClock worker measured => (s.syncClock worker measured, none)
  | .serve task fate => (s.serve task fate, none)
  | .resume task => s.resume task

def granting : Event → Option DurableReservationDoc
  | .serve task fate =>
    match s.tasks[task]? with
    | none => none
    | some t => if t.worker < s.workers.length then t.op.granting fate s.authority else none
  | _ => none

end Deployment

end BoxEngine
