import BoxEngine.OwnedExecutions
import Mathlib.Data.Finset.Filter

/-!
# The inventory ceiling

Entry pipelines from the coordinator's claim to whatever records their fill, beside everything else that changes the
count. Nothing of the engine reads which entries are still exposed.
-/

namespace BoxEngine

open Js BoxScanner

inductive ExecutionId where
  | entry (seq : ℕ)
  | exit (seq : ℕ)
  deriving DecidableEq

structure ActiveExecution where
  id : ExecutionId
  opportunityId : Option String
  underlying : String
  leased : Bool
  ownershipLost : Bool

structure UncertainHold where
  id : ExecutionId
  heldSince : ℚ

inductive EntryAnswer where
  | filled (entry : FilledEntry)
  | refused (legging : Option PaperLeggingExecutionRecord) (reason : String)

inductive Certainty where
  | clean
  | uncertain
  deriving DecidableEq

inductive LeaseRenewal where
  | renewed
  | unavailable
  | lost
  deriving DecidableEq

inductive EntryStage where
  | acquiring
  | executing
  | answered (answer : EntryAnswer)
  | settled (answer : EntryAnswer)

structure EntryPipeline where
  no : ℕ
  key : String
  stage : EntryStage

structure CeilingConfig where
  executionMode : ExecutionMode
  maxOpenBoxes : ℕ
  reservationUncertainHoldMaxMs : ℚ

/-- The engine's books beside the coordinator's, as far as the ceiling reads them. -/
structure BoxInventory where
  engine : OwnedExecutions
  seq : ℕ
  active : List ActiveExecution
  holds : List UncertainHold
  pipelines : List EntryPipeline
  pendingEstablishments : ℕ
  establishing : List ℕ
  exposed : Finset ℕ

def uncertaintyOf (ok : Bool) (reason : String) (residual : List EntryResidual) : Certainty :=
  if residual ≠ [] then .uncertain
  else if ok then .clean
  else if reason = "legging_incomplete" ∨ reason = "unwind_failed" then .uncertain
  else .clean

def EntryAnswer.certainty : EntryAnswer → Certainty
  | .filled entry => entry.legging.elim .clean fun legging => uncertaintyOf true "" legging.residualExposure
  | .refused legging reason => legging.elim .clean fun legging => uncertaintyOf false reason legging.residualExposure

def EntryAnswer.flat : EntryAnswer → Bool
  | .filled _ => false
  | .refused legging reason => (EntryAnswer.refused legging reason).certainty = .clean

def ExecutionId.entryNo : ExecutionId → Option ℕ
  | .entry no => some no
  | .exit _ => none

namespace BoxInventory

variable (s : BoxInventory)

def boxInventoryCount : ℕ :=
  s.engine.positions.byId.length + s.engine.residualByAttempt.length + s.pendingEstablishments

def entriesInFlight : List ActiveExecution := s.active.filter fun exec => exec.opportunityId.isSome

def held : ℕ := s.boxInventoryCount + s.entriesInFlight.length + s.holds.length

variable (cfg : CeilingConfig)
variable (s : BoxInventory)

def claims (refused : Bool) : Bool :=
  !refused && !(decide (0 < cfg.maxOpenBoxes) && decide (cfg.maxOpenBoxes ≤ s.held))

def coordinateEntry (key opportunityId underlying : String) (refused : Bool) : BoxInventory :=
  if s.claims cfg refused then
    { s with
      seq := s.seq + 1
      active := s.active ++ [⟨.entry s.seq, some opportunityId, underlying, false, false⟩]
      pipelines := s.pipelines ++ [⟨s.seq, key, .acquiring⟩]
      exposed := insert s.seq s.exposed }
  else { s with seq := s.seq + 1 }

variable (id : ExecutionId)

def abandon : BoxInventory :=
  { s with active := s.active.filter fun exec => exec.id ≠ id }

def retain (exec : Option ActiveExecution) (now : ℚ) : BoxInventory :=
  if exec.any fun exec => exec.leased && !exec.ownershipLost then
    { s with holds := Keyed.put UncertainHold.id s.holds ⟨id, now⟩ }
  else s

def holdOnUncertainty (now : ℚ) : BoxInventory :=
  (s.abandon id).retain id (s.active.find? fun exec => exec.id = id) now

def settle (outcome : Certainty) (now : ℚ) : BoxInventory :=
  match outcome with
  | .clean => s.abandon id
  | .uncertain => s.holdOnUncertainty id now

def renewActive (outcome : LeaseRenewal) : BoxInventory :=
  { s with active := s.active.map fun exec =>
      if exec.id = id ∧ exec.leased = true ∧ outcome ≠ .renewed then { exec with ownershipLost := true } else exec }

def endsHold (outcome : LeaseRenewal) (now : ℚ) (hold : UncertainHold) : Bool :=
  decide (cfg.reservationUncertainHoldMaxMs ≤ now - hold.heldSince) || decide (outcome = .lost)

def renewHold (id : ExecutionId) (outcome : LeaseRenewal) (now : ℚ) : BoxInventory :=
  { s with holds := s.holds.filter fun hold => ¬ (hold.id = id ∧ endsHold cfg outcome now hold) }

/-! ## One entry pipeline -/

variable (no : ℕ)

def abandonEntry : BoxInventory :=
  match Keyed.take? EntryPipeline.no no s.pipelines with
  | some (⟨_, _, .acquiring⟩, pipelines) =>
    { s with pipelines, exposed := s.exposed.erase no }.abandon (.entry no)
  | _ => s

def grant (leased : Bool) : BoxInventory :=
  match Keyed.take? EntryPipeline.no no s.pipelines with
  | some (⟨_, key, .acquiring⟩, pipelines) =>
    { s with
      pipelines := ⟨no, key, .executing⟩ :: pipelines
      active := s.active.map fun exec => if exec.id = .entry no then { exec with leased } else exec }
  | _ => s

def answer (answer : EntryAnswer) : BoxInventory :=
  match Keyed.take? EntryPipeline.no no s.pipelines with
  | some (⟨_, key, .executing⟩, pipelines) =>
    { s with
      pipelines := ⟨no, key, .answered answer⟩ :: pipelines
      exposed := if answer.flat then s.exposed.erase no else s.exposed }
  | _ => s

def throwEntry (now : ℚ) : BoxInventory :=
  match Keyed.take? EntryPipeline.no no s.pipelines with
  | some (⟨_, _, .executing⟩, pipelines) => { s with pipelines }.holdOnUncertainty (.entry no) now
  | some (⟨_, _, .answered _⟩, pipelines) => { s with pipelines }.holdOnUncertainty (.entry no) now
  | _ => s

def settleEntry (now : ℚ) : BoxInventory :=
  match Keyed.take? EntryPipeline.no no s.pipelines with
  | some (⟨_, key, .answered answer⟩, pipelines) =>
    { s with pipelines := ⟨no, key, .settled answer⟩ :: pipelines }.settle (.entry no) answer.certainty now
  | _ => s

/-- `finalizeOpen`, whose charge calculation may throw, up to the first await of `openPaperTrade`. -/
def establish (entry : FilledEntry) (charged : Bool) (now : Number) : BoxInventory :=
  match buildEntryChargeLegs entry.evaluation.candidate entry.evaluation.legs with
  | none => { s with engine := s.engine.retainUnrecorded no entry now }
  | some _ =>
    if charged then
      { s with
        engine := s.engine.openPaperTrade cfg.executionMode no entry now
        pendingEstablishments := s.pendingEstablishments + 1
        establishing := s.establishing ++ [no] }
    else s

def handRefusal (key : String) (legging : Option PaperLeggingExecutionRecord) : BoxInventory :=
  match legging with
  | none => s
  | some legging =>
    if .fin 0 < legging.filledLegCount ∨ legging.emergencyUnwind then
      { s with engine := { s.engine with recordings := s.engine.recordings ++ [⟨no, key, legging.residualExposure⟩] } }
    else s

def resume (charged : Bool) (now : Number) : BoxInventory :=
  match Keyed.take? EntryPipeline.no no s.pipelines with
  | some (⟨_, _, .settled (.filled entry)⟩, pipelines) => { s with pipelines }.establish cfg no entry charged now
  | some (⟨_, key, .settled (.refused legging _)⟩, pipelines) => { s with pipelines }.handRefusal no key legging
  | _ => s

def returned : BoxInventory :=
  if no ∈ s.establishing ∧ no ∉ s.engine.openings.map OpeningTrade.no then
    { s with pendingEstablishments := s.pendingEstablishments - 1, establishing := s.establishing.erase no }
  else s

/-! ## What ends an exposure -/

def registerResidual (id : AttemptId) (remaining : List EntryResidual) : BoxInventory :=
  let residuals := s.engine.residualByAttempt
  if remaining = [] then
    { s with
      engine := { s.engine with residualByAttempt := residuals.filter fun registered => registered.id ≠ id }
      exposed := s.exposed.filter fun no => ∀ registered ∈ residuals, registered.id = id → registered.entry ≠ some no }
  else if id ∈ residuals.map RegisteredResidual.id then
    { s with engine := { s.engine with
        residualByAttempt := residuals.map fun registered =>
          if registered.id = id then { registered with residual := remaining } else registered } }
  else { s with engine := { s.engine with residualByAttempt := residuals ++ [⟨id, none, remaining⟩] } }

def close (id : String) : BoxInventory :=
  { s with
    engine := { s.engine with positions := s.engine.positions.remove id }
    exposed := s.exposed.filter fun no =>
      ∀ pos ∈ s.engine.positions.byId, pos.id = id → pos.position.entry ≠ some no }

end BoxInventory

inductive InventoryEvent where
  | entry (key opportunityId underlying : String) (refused : Bool)
  | abandoned (no : ℕ)
  | granted (no : ℕ) (leased : Bool)
  | answered (no : ℕ) (answer : EntryAnswer)
  | threw (no : ℕ) (now : ℚ)
  | settled (no : ℕ) (now : ℚ)
  | resumed (no : ℕ) (charged : Bool) (now : Number)
  | returned (no : ℕ)
  | inserted (no : ℕ) (allocated : String) (answer : InsertAnswer) (now : Number)
  | recorded (no : ℕ) (attemptId : Option String) (now : Number)
  | drain
  | drained (pass : ℕ) (allocated : String) (answer : InsertAnswer)
  | exitAcquired (underlying : String) (leased : Bool)
  | exitSettled (seq : ℕ) (outcome : Certainty) (now : ℚ)
  | renewed (id : ExecutionId) (outcome : LeaseRenewal)
  | holdRenewed (id : ExecutionId) (outcome : LeaseRenewal) (now : ℚ)
  | residual (id : AttemptId) (remaining : List EntryResidual)
  | closed (id : String)

namespace BoxInventory

def step (cfg : CeilingConfig) (s : BoxInventory) : InventoryEvent → BoxInventory × Unit
  | .entry key opportunityId underlying refused => (s.coordinateEntry cfg key opportunityId underlying refused, ())
  | .abandoned no => (s.abandonEntry no, ())
  | .granted no leased => (s.grant no leased, ())
  | .answered no result => (s.answer no result, ())
  | .threw no now => (s.throwEntry no now, ())
  | .settled no now => (s.settleEntry no now, ())
  | .resumed no charged now => (s.resume cfg no charged now, ())
  | .returned no => (s.returned no, ())
  | .inserted no allocated result now => ({ s with engine := s.engine.inserted no allocated result now }, ())
  | .recorded no attemptId now => ({ s with engine := s.engine.recorded no attemptId now }, ())
  | .drain => ({ s with engine := s.engine.drain }, ())
  | .drained pass allocated result => ({ s with engine := s.engine.drained pass allocated result }, ())
  | .exitAcquired underlying leased =>
    ({ s with seq := s.seq + 1, active := s.active ++ [⟨.exit s.seq, none, underlying, leased, false⟩] }, ())
  | .exitSettled seq outcome now => (s.settle (.exit seq) outcome now, ())
  | .renewed id outcome => (s.renewActive id outcome, ())
  | .holdRenewed id outcome now => (s.renewHold cfg id outcome now, ())
  | .residual id remaining => (s.registerResidual id remaining, ())
  | .closed id => (s.close id, ())

end BoxInventory

end BoxEngine
