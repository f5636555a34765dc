import BoxEngine.Lib.Number

/-!
# Trading sessions over one stored row

The session record, the row's two statements, and managers that share the row, each with one mutation at a time. A
failed statement may still reach the store.
-/

namespace BoxEngine

open Js

/-! ## The record -/

structure BoxSessionRecord where
  sessionId : String
  armedAt : Option ℚ
  armedBy : Option String
  maxCompletedTrades : ℕ
  establishedTradeIds : List String
  completedTradeIds : List String
  abortedAttempts : ℕ
  entryAttempts : ℕ
  maxEntryAttempts : ℕ
  armCount : ℕ
  updatedAt : ℚ
  deriving DecidableEq

def idleSessionRecord (now : ℚ) : BoxSessionRecord where
  sessionId := ""
  armedAt := none
  armedBy := none
  maxCompletedTrades := 0
  establishedTradeIds := []
  completedTradeIds := []
  abortedAttempts := 0
  entryAttempts := 0
  maxEntryAttempts := 0
  armCount := 0
  updatedAt := now

namespace BoxSessionRecord

variable (record : BoxSessionRecord)

def isArmed : Bool := record.sessionId ≠ "" && record.armedAt.isSome

def consumedCycles : ℕ := record.establishedTradeIds.length

def completedCycles : ℕ := record.completedTradeIds.length

def isBudgetExhausted : Bool :=
  0 < record.maxCompletedTrades && record.maxCompletedTrades ≤ record.consumedCycles

def isAttemptBudgetExhausted : Bool :=
  0 < record.maxEntryAttempts && record.maxEntryAttempts ≤ record.entryAttempts

inductive BlockReason where
  | recovery
  | notArmed
  | budgetExhausted (max consumed : ℕ)
  | attemptBudgetExhausted (max started : ℕ)

def evaluateSessionEntry (recoveryActive : Bool) : Option BlockReason :=
  if recoveryActive then some .recovery
  else if !record.isArmed then some .notArmed
  else if record.isBudgetExhausted then some (.budgetExhausted record.maxCompletedTrades record.consumedCycles)
  else if record.isAttemptBudgetExhausted then
    some (.attemptBudgetExhausted record.maxEntryAttempts record.entryAttempts)
  else none

inductive ArmRefusal where
  | recovery
  | openBoxes (count : ℕ)
  | residualLegs (count : ℕ)
  | inFlight (count : ℕ)

def canArm (openBoxes residualLegs : ℕ) (recoveryActive : Bool) : Option ArmRefusal :=
  if recoveryActive then some .recovery
  else if 0 < openBoxes then some (.openBoxes openBoxes)
  else if 0 < residualLegs then some (.residualLegs residualLegs)
  else if record.completedCycles < record.consumedCycles then
    some (.inFlight (record.consumedCycles - record.completedCycles))
  else none

def wholeLimit (limit : Number) : ℕ :=
  match limit with
  | .fin q => ⌊q⌋.toNat
  | _ => 0

def armSession (sessionId : String) (maxCompletedTrades maxEntryAttempts : Number) (armedBy : Option String)
    (previous : BoxSessionRecord) (now : ℚ) : BoxSessionRecord where
  sessionId
  armedAt := some now
  armedBy
  maxCompletedTrades := wholeLimit maxCompletedTrades
  establishedTradeIds := []
  completedTradeIds := []
  abortedAttempts := 0
  entryAttempts := 0
  maxEntryAttempts := wholeLimit maxEntryAttempts
  armCount := previous.armCount + 1
  updatedAt := now

def disarmSession (now : ℚ) : BoxSessionRecord :=
  { record with armedAt := none, updatedAt := now }

variable (tradeId : String)

def establishes : Bool :=
  tradeId ≠ "" && tradeId ∉ record.establishedTradeIds

def recordEstablishedBox (now : ℚ) : BoxSessionRecord :=
  if record.establishes tradeId then
    { record with establishedTradeIds := record.establishedTradeIds ++ [tradeId], updatedAt := now }
  else record

def completes : Bool :=
  tradeId ≠ "" && tradeId ∈ record.establishedTradeIds && tradeId ∉ record.completedTradeIds

def recordCompletedBox (now : ℚ) : BoxSessionRecord :=
  if record.completes tradeId then
    { record with completedTradeIds := record.completedTradeIds ++ [tradeId], updatedAt := now }
  else record

def recordAbortedAttempt (now : ℚ) : BoxSessionRecord :=
  { record with abortedAttempts := record.abortedAttempts + 1, updatedAt := now }

def reconcileCompletions (flatTradeIds : List String) (now : ℚ) : BoxSessionRecord :=
  flatTradeIds.foldl (fun record tradeId => record.recordCompletedBox tradeId now) record

end BoxSessionRecord

namespace TradingSession

structure SessionSave where
  previous : BoxSessionRecord
  next : BoxSessionRecord
  claimsAttemptBudget : Bool
  deriving DecidableEq

inductive Statement where
  | save (save : SessionSave)
  | consume (sessionId : String) (now : ℚ)
  deriving DecidableEq

inductive Outcome where
  | saved
  | consumed (entryAttempts maxEntryAttempts : ℕ)
  | refused (durable : Option (ℕ × ℕ))
  deriving DecidableEq

/-- `explaining` is a consumption that updated no row, before it reads why. -/
inductive Progress where
  | waiting
  | explaining
  | done (outcome : Outcome)
  | answered (outcome : Outcome)
  deriving DecidableEq

structure Sent where
  statement : Statement
  progress : Progress
  deriving DecidableEq

def saveBoxTradingSession (row : Option BoxSessionRecord) (save : SessionSave) : BoxSessionRecord :=
  match row with
  | none => save.next
  | some row =>
    if save.claimsAttemptBudget then save.next
    else { save.next with entryAttempts := row.entryAttempts, maxEntryAttempts := row.maxEntryAttempts }

def consumable (row : Option BoxSessionRecord) (sessionId : String) : Option BoxSessionRecord :=
  row.filter fun row =>
    row.sessionId = sessionId ∧ (row.maxEntryAttempts = 0 ∨ row.entryAttempts < row.maxEntryAttempts)

/-! ## Managers -/

inductive Awaiting where
  | commit (sent : ℕ) (previous : BoxSessionRecord) (rollbackOnFailure : Bool)
  | consume (sent : ℕ)

structure Manager where
  record : BoxSessionRecord
  loaded : Bool
  writeFailed : Bool
  awaiting : Option Awaiting

structure Configured where
  maxCompletedTrades : Number
  maxEntryAttempts : Number

namespace Manager

def fresh (now : ℚ) : Manager := ⟨idleSessionRecord now, false, false, none⟩

def enforcing (configured : Configured) (m : Manager) : Bool :=
  decide (.fin 0 < configured.maxCompletedTrades) || decide (.fin 0 < configured.maxEntryAttempts) ||
    (m.record.isArmed && (0 < m.record.maxCompletedTrades || 0 < m.record.maxEntryAttempts))

end Manager

structure ArmArgs where
  maxCompletedTrades : Option Number
  maxEntryAttempts : Option Number
  armedBy : Option String
  openBoxes : ℕ
  residualLegs : ℕ
  recoveryActive : Bool

inductive Mutation where
  | arm (args : ArmArgs) (sessionId : String)
  | disarm
  | established (tradeId : String)
  | completed (tradeId : String)
  | reconciled (flatTradeIds : List String)
  | retried
  | aborted
  | attempt

inductive Sends where
  | nothing
  | commit (next : BoxSessionRecord) (rollbackOnFailure claimsAttemptBudget : Bool)
  | consume

/-- The record a mutation commits, whether a failure rolls it back and whether it claims the budget. -/
def Mutation.sends (configured : Configured) (m : Manager) (now : ℚ) : Mutation → Sends
  | arm args sessionId =>
    if !m.loaded then .nothing
    else
      match m.record.canArm args.openBoxes args.residualLegs args.recoveryActive with
      | some _ => .nothing
      | none =>
        .commit (.armSession sessionId (args.maxCompletedTrades.getD configured.maxCompletedTrades)
          (args.maxEntryAttempts.getD configured.maxEntryAttempts) args.armedBy m.record now) true true
  | disarm => if m.loaded then .commit (m.record.disarmSession now) true false else .nothing
  | established tradeId =>
    if !m.loaded || !m.record.isArmed then .nothing
    else if !m.record.establishes tradeId && !m.writeFailed then .nothing
    else .commit (m.record.recordEstablishedBox tradeId now) false false
  | completed tradeId =>
    if !m.loaded || !m.record.completes tradeId then .nothing
    else .commit (m.record.recordCompletedBox tradeId now) true false
  | reconciled flatTradeIds =>
    if !m.loaded || flatTradeIds.isEmpty then .nothing
    else .commit (m.record.reconcileCompletions flatTradeIds now) true false
  | retried => if m.writeFailed then .commit m.record false false else .nothing
  | aborted =>
    if !m.loaded || !m.record.isArmed then .nothing else .commit (m.record.recordAbortedAttempt now) true false
  | attempt =>
    if !m.loaded || !m.record.isArmed then .nothing
    else
      match m.record.evaluateSessionEntry false with
      | some _ => .nothing
      | none => .consume

/-! ## The system -/

/-- The row, the statements sent to it, the managers, and the session of every attempt that was admitted. -/
structure Sessions (ι : Type) where
  row : Option BoxSessionRecord
  sent : List Sent
  managers : ι → Manager
  admitted : List String

inductive SessionStep (ι : Type) where
  | restart (manager : ι) (now : ℚ)
  | load (manager : ι) (now : ℚ)
  | ask (manager : ι)
  | mutate (manager : ι) (mutation : Mutation) (now : ℚ)
  | reach (sent : ℕ)
  | answer (manager : ι) (now : ℚ)
  | fail (manager : ι)

namespace Sessions

variable {ι : Type} [DecidableEq ι]

def new : Sessions ι := ⟨none, [], fun _ => .fresh 0, []⟩

variable (s : Sessions ι)

def withManager (i : ι) (m : Manager) : Sessions ι := { s with managers := Function.update s.managers i m }

def withProgress (k : ℕ) (x : Sent) (progress : Progress) : Sessions ι :=
  { s with sent := s.sent.set k { x with progress } }

def load (i : ι) (now : ℚ) : Sessions ι :=
  if (s.managers i).loaded then s
  else s.withManager i { s.managers i with loaded := true, record := s.row.getD (idleSessionRecord now) }

variable (configured : ι → Configured)
variable (s : Sessions ι)

def ask (i : ι) : Sessions ι :=
  let m := s.managers i
  if m.enforcing (configured i) || !m.record.isArmed then s else { s with admitted := s.admitted ++ [m.record.sessionId] }

def mutate (i : ι) (mutation : Mutation) (now : ℚ) : Sessions ι :=
  let m := s.managers i
  match m.awaiting with
  | some _ => s
  | none =>
    match mutation.sends (configured i) m now with
    | .nothing => s
    | .commit next rollbackOnFailure claimsAttemptBudget =>
      { s.withManager i { m with record := next, awaiting := some (.commit s.sent.length m.record rollbackOnFailure) } with
        sent := s.sent ++ [⟨.save ⟨m.record, next, claimsAttemptBudget⟩, .waiting⟩] }
    | .consume =>
      { s.withManager i { m with awaiting := some (.consume s.sent.length) } with
        sent := s.sent ++ [⟨.consume m.record.sessionId now, .waiting⟩] }

def reach (k : ℕ) (x : Sent) : Sessions ι :=
  match x.progress, x.statement with
  | .waiting, .save save =>
    { s.withProgress k x (.done .saved) with row := some (saveBoxTradingSession s.row save) }
  | .waiting, .consume sessionId now =>
    match consumable s.row sessionId with
    | some row =>
      { s.withProgress k x (.done (.consumed (row.entryAttempts + 1) row.maxEntryAttempts)) with
        row := some { row with entryAttempts := row.entryAttempts + 1, updatedAt := now } }
    | none => s.withProgress k x .explaining
  | .explaining, .consume _ _ =>
    s.withProgress k x (.done (.refused (s.row.map fun row => (row.entryAttempts, row.maxEntryAttempts))))
  | _, _ => s

def answered (i : ι) (m : Manager) (outcome : Outcome) (now : ℚ) : Sessions ι :=
  match outcome with
  | .saved => s.withManager i { m with awaiting := none, writeFailed := false }
  | .consumed entryAttempts maxEntryAttempts =>
    { s.withManager i
        { m with
          awaiting := none
          writeFailed := false
          record := { m.record with entryAttempts, maxEntryAttempts, updatedAt := now } } with
      admitted := s.admitted ++ [m.record.sessionId] }
  | .refused none => s.withManager i { m with awaiting := none }
  | .refused (some (entryAttempts, maxEntryAttempts)) =>
    s.withManager i { m with awaiting := none, record := { m.record with entryAttempts, maxEntryAttempts } }

def Awaiting.sent : Awaiting → ℕ
  | .commit k _ _ => k
  | .consume k => k

def answer (i : ι) (now : ℚ) : Sessions ι :=
  let m := s.managers i
  match m.awaiting with
  | none => s
  | some awaiting =>
    match s.sent[Awaiting.sent awaiting]? with
    | some ⟨statement, .done outcome⟩ =>
      (s.withProgress (Awaiting.sent awaiting) ⟨statement, .done outcome⟩ (.answered outcome)).answered i m outcome now
    | _ => s

def fail (i : ι) : Sessions ι :=
  let m := s.managers i
  match m.awaiting with
  | none => s
  | some (.commit _ previous rollbackOnFailure) =>
    if rollbackOnFailure then s.withManager i { m with awaiting := none, record := previous }
    else s.withManager i { m with awaiting := none, writeFailed := true }
  | some (.consume _) => s.withManager i { m with awaiting := none, writeFailed := true }

def after : SessionStep ι → Sessions ι
  | .restart i now => s.withManager i (.fresh now)
  | .load i now => s.load i now
  | .ask i => s.ask configured i
  | .mutate i mutation now => s.mutate configured i mutation now
  | .reach k => (s.sent[k]?.map fun x => s.reach k x).getD s
  | .answer i now => s.answer i now
  | .fail i => s.fail i

def step (e : SessionStep ι) : Sessions ι × Unit := (s.after configured e, ())

end Sessions

end TradingSession

end BoxEngine
