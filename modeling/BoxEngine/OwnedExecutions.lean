import BoxEngine.BoxScanner

/-!
# Filled entries and who owns them

From the confirmed fill to something that can reduce it: awaited inserts, retained payloads, registered residuals. An
entry's number is its place in the order of fills; nothing of the engine reads it.
-/

namespace BoxEngine

open Js

abbrev RoleQuantities := BoxLegRole → Number

structure FilledEntry where
  candidate : BoxCandidate
  evaluation : BoxEvaluation
  legging : Option PaperLeggingExecutionRecord
  confirmed : RoleQuantities
  whole : ∀ role, isSafeInteger (confirmed role) = true ∧ .fin 0 < confirmed role
  legs : ∀ record ∈ legging,
    (record.legs.map fun leg => (leg.role, leg.fillQty)).Perm (boxLegRoles.map fun role => (role, confirmed role))
  byRole : ∀ record ∈ legging, ∀ role, record.fillsByRole role = some (confirmed role)
  nothingLeft : ∀ record ∈ legging, record.residualExposure = []
  oneLot : legging = none → ∀ role, confirmed role = candidate.lotSize

structure BoxTradePayload where
  entry : Option ℕ
  key : String
  remainingQtyByRole : RoleQuantities

structure BoxTradeRow where
  id : String
  payload : BoxTradePayload

structure RetainedExecution where
  payload : BoxTradePayload
  preallocatedId : Option String

structure OpeningTrade where
  no : ℕ
  entry : FilledEntry
  payload : BoxTradePayload
  preallocatedId : Option String
  attempt : ℕ

structure RecordingAttempt where
  no : ℕ
  key : String
  residual : List EntryResidual

inductive AttemptId where
  | stored (id : String)
  | unstored (key : String) («at» : Number)
  deriving DecidableEq

structure RegisteredResidual where
  id : AttemptId
  entry : Option ℕ
  residual : List EntryResidual

structure DrainPass where
  array : ℕ
  index : ℕ
  still : List RetainedExecution

inductive InsertAnswer where
  | stored
  | failedBefore
  | failedAfter
  | duplicate
  deriving DecidableEq

def isPositiveSafeInteger (n : Number) : Bool := isSafeInteger n && decide (.fin 0 < n)

def singleLotCandidateViolation (cand : BoxCandidate) : Option String :=
  if isPositiveSafeInteger cand.lotSize = false then some "candidate lot size must be a positive safe integer"
  else boxLegRoles.findSome? fun role =>
    let legLot := cand.legLotSize role
    if isPositiveSafeInteger legLot = false then
      some s!"{role.label} instrument lot size must be a positive safe integer"
    else if legLot ≠ cand.lotSize then
      some s!"{role.label} instrument lot size {legLot.toText} does not match candidate lot size {cand.lotSize.toText}"
    else none

def confirmedEntryQty (cand : BoxCandidate) (legging : Option PaperLeggingExecutionRecord) (role : BoxLegRole) : Number :=
  match legging.bind fun record => record.fillsByRole role with
  | some confirmed => if isSafeInteger confirmed && decide (.fin 0 ≤ confirmed) then confirmed else cand.lotSize
  | none => cand.lotSize

def FilledEntry.payload (entry : FilledEntry) (no : ℕ) : BoxTradePayload where
  entry := some no
  key := entry.candidate.key
  remainingQtyByRole := confirmedEntryQty entry.candidate entry.legging

def FilledEntry.preallocatedId (entry : FilledEntry) (mode : ExecutionMode) : Option String :=
  if mode = .live then BoxScanner.truthyId (entry.legging.bind PaperLeggingExecutionRecord.tradeId) else none

def pricedLegs (evaluation : BoxEvaluation) : Bool :=
  boxLegRoles.all fun role => ((evaluation.legs.filter fun ev => ev.role = role).getLast?.bind BoxLegEvaluation.price).isSome

/-- A taken id is a unique violation, which an id of one's own resolves to the row already there. -/
def insertBoxTrade (store : List BoxTradeRow) (payload : BoxTradePayload) (preallocatedId : Option String)
    (allocated : String) (answer : InsertAnswer) : List BoxTradeRow × Except Unit (Option BoxTradeRow) :=
  let row : BoxTradeRow := ⟨preallocatedId.getD allocated, payload⟩
  let taken := store.any fun other => other.id = row.id
  match answer, taken with
  | .failedBefore, _ => (store, .error ())
  | .stored, false => (store ++ [row], .ok (some row))
  | .failedAfter, false => (store ++ [row], .error ())
  | _, _ => (store, .ok (preallocatedId.bind fun id => store.find? fun other => other.id = id))

def persistRetryAttempts : ℕ := 3

/-! ## The owners -/

structure OwnedExecutions where
  entries : List FilledEntry
  positions : PositionBook BoxTradePayload
  store : List BoxTradeRow
  attemptRows : List String
  openings : List OpeningTrade
  recordings : List RecordingAttempt
  arrays : ℕ → List RetainedExecution
  pendingPersists : ℕ
  allocated : ℕ
  passes : List DrainPass
  residualByAttempt : List RegisteredResidual

namespace OwnedExecutions

variable (s : OwnedExecutions)

def pending : List RetainedExecution := s.arrays s.pendingPersists

def retainOwnedExecution (payload : BoxTradePayload) (preallocatedId : Option String) : OwnedExecutions :=
  { s with
    arrays := Function.update s.arrays s.pendingPersists (s.pending ++ [⟨payload, preallocatedId⟩])
    positions :=
      if (s.positions.getByKey payload.key).isSome then s.positions
      else (s.positions.reserve payload.key).getD s.positions }

/-- `retainUnrecordedFill` up to the attempt's row; an atomic fill has no record to hand over. -/
def retainUnrecorded (no : ℕ) (entry : FilledEntry) (now : Number) : OwnedExecutions :=
  match entry.legging with
  | none => s
  | some record =>
    let retained := retainedLegs entry.evaluation (some record) now
    { s with
      recordings := s.recordings ++ [⟨no, entry.candidate.key, (record.unrecorded retained).residualExposure⟩] }

variable (mode : ExecutionMode)

def openPaperTrade (s : OwnedExecutions) (no : ℕ) (entry : FilledEntry) (now : Number) : OwnedExecutions :=
  if (singleLotCandidateViolation entry.candidate).isSome ∨ pricedLegs entry.evaluation = false then
    s.retainUnrecorded no entry now
  else if mode = .live ∧ entry.preallocatedId mode = none then
    (s.retainOwnedExecution (entry.payload no) none).retainUnrecorded no entry now
  else { s with openings := s.openings ++ [⟨no, entry, entry.payload no, entry.preallocatedId mode, 1⟩] }

def finalizeOpen (s : OwnedExecutions) (no : ℕ) (entry : FilledEntry) (now : Number) : OwnedExecutions :=
  match buildEntryChargeLegs entry.evaluation.candidate entry.evaluation.legs with
  | none => s.retainUnrecorded no entry now
  | some _ => s.openPaperTrade mode no entry now

/-- The pair was reserved when the attempt began; a taken pair is never attempted. -/
def fill (s : OwnedExecutions) (entry : FilledEntry) (now : Number) : OwnedExecutions :=
  match s.positions.reserve entry.candidate.key with
  | none => s
  | some positions =>
    { s with entries := s.entries ++ [entry], positions }.finalizeOpen mode s.entries.length entry now

def inserted (no : ℕ) (allocated : String) (answer : InsertAnswer) (now : Number) : OwnedExecutions :=
  match Keyed.take? OpeningTrade.no no s.openings with
  | none => s
  | some (opening, openings) =>
    let (store, result) := insertBoxTrade s.store opening.payload opening.preallocatedId allocated answer
    match result with
    | .error _ =>
      if opening.attempt < persistRetryAttempts then
        { s with store, openings := { opening with attempt := opening.attempt + 1 } :: openings }
      else
        ({ s with store, openings }.retainOwnedExecution opening.payload opening.preallocatedId).retainUnrecorded
          opening.no opening.entry now
    | .ok none => { s with store, openings }.retainUnrecorded opening.no opening.entry now
    | .ok (some row) =>
      { s with store, openings, positions := s.positions.add ⟨row.id, opening.payload.key, opening.payload⟩ }

def recorded (no : ℕ) (attemptId : Option String) (now : Number) : OwnedExecutions :=
  match Keyed.take? RecordingAttempt.no no s.recordings with
  | none => s
  | some (attempt, recordings) =>
    let stored := attemptId.filter fun id => id ∉ s.attemptRows
    let s := { s with recordings, attemptRows := s.attemptRows ++ stored.toList }
    if attempt.residual = [] then s
    else
      let id : AttemptId := stored.elim (.unstored attempt.key now) .stored
      let registered : RegisteredResidual := ⟨id, some attempt.no, attempt.residual⟩
      { s with residualByAttempt := Keyed.put RegisteredResidual.id s.residualByAttempt registered }

def drain : OwnedExecutions :=
  if s.pending = [] then s else { s with passes := s.passes ++ [⟨s.pendingPersists, 0, []⟩] }

def advance (n : ℕ) (pass : DrainPass) : OwnedExecutions :=
  if pass.index < (s.arrays pass.array).length then { s with passes := s.passes.set n pass }
  else
    { s with
      passes := s.passes.eraseIdx n
      arrays := Function.update s.arrays s.allocated pass.still
      pendingPersists := s.allocated
      allocated := s.allocated + 1 }

def drained (n : ℕ) (allocated : String) (answer : InsertAnswer) : OwnedExecutions :=
  match s.passes[n]? with
  | none => s
  | some pass =>
    match (s.arrays pass.array)[pass.index]? with
    | none => s
    | some retained =>
      let (store, result) := insertBoxTrade s.store retained.payload retained.preallocatedId allocated answer
      match result with
      | .error _ =>
        { s with store }.advance n { pass with index := pass.index + 1, still := pass.still ++ [retained] }
      | .ok none =>
        { s with store, positions := s.positions.release retained.payload.key }.advance n
          { pass with index := pass.index + 1 }
      | .ok (some row) =>
        { s with store, positions := s.positions.add ⟨row.id, row.payload.key, row.payload⟩ }.advance n
          { pass with index := pass.index + 1 }

end OwnedExecutions

inductive OwnershipEvent where
  | filled (entry : FilledEntry) (now : Number)
  | inserted (no : ℕ) (allocated : String) (answer : InsertAnswer) (now : Number)
  | recorded (no : ℕ) (attemptId : Option String) (now : Number)
  | drain
  | drained (pass : ℕ) (allocated : String) (answer : InsertAnswer)

namespace OwnedExecutions

def step (mode : ExecutionMode) (s : OwnedExecutions) : OwnershipEvent → OwnedExecutions × Unit
  | .filled entry now => (s.fill mode entry now, ())
  | .inserted no allocated answer now => (s.inserted no allocated answer now, ())
  | .recorded no attemptId now => (s.recorded no attemptId now, ())
  | .drain => (s.drain, ())
  | .drained pass allocated answer => (s.drained pass allocated answer, ())

end OwnedExecutions

end BoxEngine
