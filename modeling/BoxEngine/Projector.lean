import Mathlib.Data.List.Sort
import BoxEngine.OutboxWriter

/-!
# The projector

Drain passes of any number of processes over one outbox. Each await is a step, and a pass may lose its connection or
its process at any of them.
-/

namespace BoxEngine

open Js

structure ProjectorConfig where
  batchSize : ℕ
  maxBackoffMs : ℚ
  maxAttempts : ℕ

inductive ProjectionError where
  | unroutable (aggregateType : String)
  | secretLeak (path : String)
  | other (message : String)

namespace ProjectionError

def message : ProjectionError → String
  | unroutable aggregateType => "No projection collection for aggregate_type \"" ++ aggregateType ++ "\""
  | secretLeak path =>
    "Refusing to enqueue a Mongo projection carrying a secret-bearing field at \"" ++ path ++ "\". " ++
      "Broker tokens, access-session tokens, passcodes, CSRF secrets and database credentials are never projected."
  | other message => message

def isPoison : ProjectionError → Bool
  | unroutable _ => true
  | secretLeak _ => true
  | other _ => false

end ProjectionError

def collapseSpaces : Bool → List Char → List Char
  | _, [] => []
  | inSpace, c :: cs =>
    if isSpace c then (if inSpace then collapseSpaces true cs else ' ' :: collapseSpaces true cs)
    else c :: collapseSpaces false cs

/-- The first `n` UTF-16 units; half of a pair is stored as a replacement character. -/
def sliceUnits : ℕ → List Char → List Char
  | _, [] => []
  | 0, _ => []
  | 1, c :: _ => if 0xFFFF < c.toNat then [Char.ofNat 0xFFFD] else [c]
  | n + 2, c :: cs => if 0xFFFF < c.toNat then c :: sliceUnits n cs else c :: sliceUnits (n + 1) cs

def utf16Length (s : String) : ℕ := (s.toList.map fun c => if 0xFFFF < c.toNat then 2 else 1).sum

def boundedProjectorError (raw : String) : String :=
  let oneLine := trim (String.ofList (collapseSpaces false raw.toList))
  if 500 < utf16Length oneLine then String.ofList (sliceUnits 500 oneLine.toList) ++ "…" else oneLine

def backoffMs (attempts : ℕ) (maxBackoffMs : ℚ) : ℚ := min (1000 * 2 ^ min attempts 30) maxBackoffMs

structure ProjectionDocument where
  id : String
  aggregateType : String
  aggregateId : String
  eventType : String
  schemaVersion : ℕ
  sequence : ℕ
  data : Json
  projectedAt : ℚ

structure MongoDoc where
  collection : String
  doc : ProjectionDocument

def MongoDoc.key (d : MongoDoc) : String × String := (d.collection, d.doc.id)

def MONGO_COLLECTIONS : List (String × String) :=
  [("box_trade", "box_trades"), ("box_trade_event", "box_trade_events"), ("box_order_intent", "box_order_intents"),
    ("box_execution_attempt", "box_execution_attempts"), ("box_daily_pnl", "box_daily_pnl"),
    ("box_calibration_sample", "box_calibration_samples")]

def collectionForAggregate (aggregateType : String) : Option String :=
  (MONGO_COLLECTIONS.find? fun entry => entry.1 = aggregateType).map Prod.snd

variable (row : OutboxRow)

def OutboxRow.document (now : ℚ) : ProjectionDocument where
  id := row.eventId
  aggregateType := row.aggregateType
  aggregateId := row.aggregateId
  eventType := row.eventType
  schemaVersion := row.schemaVersion
  sequence := row.sequence
  data := row.payload
  projectedAt := now

def replaceOne (docs : List MongoDoc) (row : OutboxRow) (now : ℚ) : List MongoDoc :=
  match collectionForAggregate row.aggregateType with
  | some collection => Keyed.put MongoDoc.key docs ⟨collection, row.document now⟩
  | none => docs

def OutboxRow.aggregateKey : String := row.aggregateType ++ "\x00" ++ row.aggregateId

def addToGroup (groups : List (String × List OutboxRow)) (row : OutboxRow) : List (String × List OutboxRow) :=
  if row.aggregateKey ∈ groups.map Prod.fst then
    groups.map fun g => if g.1 = row.aggregateKey then (g.1, g.2 ++ [row]) else g
  else groups ++ [(row.aggregateKey, [row])]

def bySequence (row row' : OutboxRow) : Prop := row.sequence ≤ row'.sequence

instance : DecidableRel bySequence := fun row row' => inferInstanceAs (Decidable (row.sequence ≤ row'.sequence))

def groupByAggregate (rows : List OutboxRow) : List (List OutboxRow) :=
  (rows.foldl addToGroup []).map fun g => g.2.insertionSort bySequence

/-! ## Passes -/

inductive PassStage where
  | writing
  | marking
  | recording (error : ProjectionError)
  | committing

/-- The transaction of a pass: open, failed until it is rolled back, or gone with its connection. -/
inductive PassTx where
  | live
  | aborted
  | lost
  deriving DecidableEq

inductive Mark where
  | published (eventId : String) (now : ℚ)
  | retry (eventId : String) (attempts : ℕ) (error : String) (nextAttemptAt : ℚ)
  | deadLettered (eventId : String) (attempts : ℕ) (error : String) (now : ℚ)

namespace Mark

def eventId : Mark → String
  | published eventId _ => eventId
  | retry eventId _ _ _ => eventId
  | deadLettered eventId _ _ _ => eventId

def set (mark : Mark) (row : OutboxRow) : OutboxRow :=
  match mark with
  | published _ now => { row with publishedAt := some now, lastError := none }
  | retry _ attempts error nextAttemptAt => { row with attempts, lastError := some error, nextAttemptAt }
  | deadLettered _ attempts error now => { row with attempts, lastError := some error, deadLetteredAt := some now }

def apply (rows : List OutboxRow) (mark : Mark) : List OutboxRow :=
  rows.map fun row => if row.eventId = mark.eventId then mark.set row else row

end Mark

structure ProjectorPass where
  claimed : List String
  groups : List (List OutboxRow)
  stage : PassStage
  marks : List Mark
  tx : PassTx

def startOf : PassStage :=
  match collectionForAggregate row.aggregateType with
  | none => .recording (.unroutable row.aggregateType)
  | some _ =>
    match assertNoSecretFields row.payload with
    | some path => .recording (.secretLeak path)
    | none => .writing

def stageOf : List (List OutboxRow) → PassStage
  | (row :: _) :: _ => startOf row
  | _ => .committing

def afterPublished : List (List OutboxRow) → List (List OutboxRow)
  | (_ :: row :: rest) :: groups => (row :: rest) :: groups
  | _ :: groups => groups
  | [] => []

def afterFailure (groups : List (List OutboxRow)) : List (List OutboxRow) := groups.tail

namespace ProjectorPass

def ofClaim (rows : List OutboxRow) : ProjectorPass where
  claimed := rows.map OutboxRow.eventId
  groups := groupByAggregate rows
  stage := stageOf (groupByAggregate rows)
  marks := []
  tx := .live

variable (p : ProjectorPass)

def row? : Option OutboxRow := p.groups.head?.bind List.head?

def locks (eventId : String) : Bool := p.tx ≠ .lost && eventId ∈ p.claimed

def onward (mark : Mark) (groups : List (List OutboxRow)) : ProjectorPass :=
  { p with marks := p.marks ++ [mark], groups, stage := stageOf groups }

/-- The pass after marking a row failed: the catch, in a transaction that takes no more. -/
def failMark (error : String) : ProjectorPass :=
  { p with stage := .recording (.other error), tx := if p.tx = .live then .aborted else p.tx }

end ProjectorPass

def failureMark (cfg : ProjectorConfig) (row : OutboxRow) (error : ProjectionError) (now : ℚ) : Mark :=
  if error.isPoison || cfg.maxAttempts ≤ row.attempts + 1 then
    .deadLettered row.eventId (row.attempts + 1) (boundedProjectorError error.message) now
  else
    .retry row.eventId (row.attempts + 1) (boundedProjectorError error.message)
      (now + backoffMs (row.attempts + 1) cfg.maxBackoffMs)

def storableError (error : ProjectionError) : Bool := (boundedProjectorError error.message).length ≤ 500

/-! ## The system -/

/-- The committed rows, the sequence, the writers' transactions, the passes by process, and the documents in Mongo. -/
structure Outbox (ι : Type) where
  rows : List OutboxRow
  nextval : ℕ
  txs : List WriterTx
  passes : List (ι × ProjectorPass)
  docs : List MongoDoc

inductive MongoOutcome where
  | written
  | rejected (landed : Bool) (error : String)

inductive OutboxStep (ι : Type) where
  | enqueue (kind : EnqueueKind) (event : OutboxEvent)
  | settle (tx : ℕ) (now : ℚ)
  | commitTx (tx : ℕ)
  | rollBackTx (tx : ℕ)
  | claim (process : ι) (now : ℚ)
  | mongo (process : ι) (now : ℚ) (outcome : MongoOutcome)
  | mark (process : ι) (now : ℚ) (failure : Option String)
  | record (process : ι) (now : ℚ) (fails : Bool)
  | commit (process : ι) (fails : Bool)
  | lose (process : ι)
  | crash (process : ι) (now : ℚ) (landed : Bool)

namespace Outbox

variable {ι : Type} [DecidableEq ι]

def new : Outbox ι := ⟨[], 1, [], [], []⟩

variable (s : Outbox ι)
variable (eventId : String)

def locked : Bool := s.passes.any fun p => p.2.locks eventId

def inserting : Bool := s.txs.any fun tx => tx.inserting eventId

def updating : Bool := s.txs.any fun tx => tx.updating eventId

def stored : Bool := eventId ∈ s.rows.map OutboxRow.eventId

/-! ### Writers -/

def enqueue (kind : EnqueueKind) (event : OutboxEvent) : Outbox ι :=
  match assertNoSecretFields event.payload with
  | some _ => s
  | none => { s with nextval := s.nextval + 1, txs := s.txs ++ [⟨kind, event, .waiting s.nextval⟩] }

def blocked (tx : WriterTx) : Bool :=
  s.inserting tx.event.eventId ||
    (tx.kind = .snapshot && (s.updating tx.event.eventId || s.locked tx.event.eventId))

def withTx (i : ℕ) (tx : WriterTx) (state : WriterState) : Outbox ι :=
  { s with txs := s.txs.set i { tx with state } }

def settle (i : ℕ) (tx : WriterTx) (now : ℚ) : Outbox ι :=
  match tx.state with
  | .waiting sequence =>
    if s.blocked tx then s
    else if s.stored tx.event.eventId then
      match tx.kind with
      | .event => s.withTx i tx .ignored
      | .snapshot => { s.withTx i tx (.updated s.nextval now) with nextval := s.nextval + 1 }
    else s.withTx i tx (.inserted (.ofEvent tx.event sequence now))
  | _ => s

def commitTx (i : ℕ) (tx : WriterTx) : Outbox ι :=
  { s.withTx i tx .ended with rows := tx.commit s.rows }

/-! ### Passes -/

def pass? (i : ι) : Option ProjectorPass := (s.passes.find? fun p => p.1 = i).map Prod.snd

def withPass (i : ι) (p : ProjectorPass) : Outbox ι := { s with passes := Keyed.put Prod.fst s.passes (i, p) }

def endPass (i : ι) : Outbox ι := { s with passes := s.passes.filter fun p => p.1 ≠ i }

def claimable (now : ℚ) : List OutboxRow :=
  s.rows.filter fun row => row.due now && !s.locked row.eventId && !s.updating row.eventId

variable (cfg : ProjectorConfig)

def claimed (now : ℚ) : List OutboxRow :=
  ((s.claimable now).insertionSort bySequence).take cfg.batchSize

variable (i : ι)

def claim (now : ℚ) : Outbox ι :=
  match s.pass? i with
  | some _ => s
  | none => if (s.claimed cfg now).isEmpty then s else s.withPass i (.ofClaim (s.claimed cfg now))

def mongo (p : ProjectorPass) (now : ℚ) (outcome : MongoOutcome) : Outbox ι :=
  match p.stage, p.row? with
  | .writing, some row =>
    match outcome with
    | .written => { s.withPass i { p with stage := .marking } with docs := replaceOne s.docs row now }
    | .rejected landed error =>
      { s.withPass i { p with stage := .recording (.other error) } with
        docs := if landed then replaceOne s.docs row now else s.docs }
  | _, _ => s

def mark (p : ProjectorPass) (now : ℚ) (failure : Option String) : Outbox ι :=
  match p.stage, p.row? with
  | .marking, some row =>
    match failure with
    | some error => s.withPass i (p.failMark error)
    | none =>
      if p.tx = .live then s.withPass i (p.onward (.published row.eventId now) (afterPublished p.groups))
      else s.withPass i (p.failMark "Connection terminated")
  | _, _ => s

def record (p : ProjectorPass) (now : ℚ) (fails : Bool) : Outbox ι :=
  match p.stage, p.row? with
  | .recording error, some row =>
    if fails = false ∧ p.tx = .live ∧ storableError error = true then
      s.withPass i (p.onward (failureMark cfg row error now) (afterFailure p.groups))
    else s.endPass i
  | _, _ => s

def commit (p : ProjectorPass) (fails : Bool) : Outbox ι :=
  match p.stage with
  | .committing =>
    if fails = false ∧ p.tx = .live then { s.endPass i with rows := p.marks.foldl Mark.apply s.rows } else s.endPass i
  | _ => s

/-- The connection of a pass is gone with its locks; the process finds out later. -/
def lose (p : ProjectorPass) : Outbox ι := s.withPass i { p with tx := .lost }

def crash (p : ProjectorPass) (now : ℚ) (landed : Bool) : Outbox ι :=
  match p.stage, p.row? with
  | .writing, some row => { s.endPass i with docs := if landed then replaceOne s.docs row now else s.docs }
  | _, _ => s.endPass i

/-! ### Steps -/

def after (s : Outbox ι) : OutboxStep ι → Outbox ι
  | .enqueue kind event => s.enqueue kind event
  | .settle i now => (s.txs[i]?.map fun tx => s.settle i tx now).getD s
  | .commitTx i => (s.txs[i]?.map fun tx => s.commitTx i tx).getD s
  | .rollBackTx i => (s.txs[i]?.map fun tx => s.withTx i tx .ended).getD s
  | .claim i now => s.claim cfg i now
  | .mongo i now outcome => ((s.pass? i).map fun p => s.mongo i p now outcome).getD s
  | .mark i now failure => ((s.pass? i).map fun p => s.mark i p now failure).getD s
  | .record i now fails => ((s.pass? i).map fun p => s.record cfg i p now fails).getD s
  | .commit i fails => ((s.pass? i).map fun p => s.commit i p fails).getD s
  | .lose i => ((s.pass? i).map fun p => s.lose i p).getD s
  | .crash i now landed => ((s.pass? i).map fun p => s.crash i p now landed).getD s

def step (s : Outbox ι) (e : OutboxStep ι) : Outbox ι × Unit := (s.after cfg e, ())

end Outbox

end BoxEngine
