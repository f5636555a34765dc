import BoxEngine.Lib.Keyed
import BoxEngine.Lib.Statements
import BoxEngine.PnlSnapshot

/-!
# A day of the archive

The rows and the state of one day and the operations on them: mutations between two invalidations, and publishers that
load, publish and load again. Every process runs its own.
-/

namespace BoxEngine

open Js Statements

/-- The `expected_trade_ids` column: a JSON array, whose items may be no strings, or another value. -/
inductive ExpectedTradeIds where
  | array (items : List (Option String))
  | other

structure DayState where
  complete : Bool
  needsReproof : Bool
  snapshotVersion : Option ℤ
  rowCount : Option ℤ
  contentSha256 : Option String
  expectedTradeIds : Option ExpectedTradeIds

structure PnlDay where
  rows : List BoxPnlProofDocument
  state : Option DayState
  trades : List String
  completedFences : List String
  nowIso : String

/-- What an operation keeps for itself: the proof it would ask to retry, and the proofs it has published. -/
structure DayOwn where
  retryProof : BoxPnlDayProof
  published : List BoxPnlDayProof

def DayOwn.new : DayOwn := ⟨⟨0, ""⟩, []⟩

def shouldReproveBoxPnlDay (state : Option DayState) : Bool :=
  state.any fun s => s.complete || s.needsReproof

def isHex (c : Char) : Bool := ('a' ≤ c && c ≤ 'f') || ('0' ≤ c && c ≤ '9')

variable (state : DayState)

def boxPnlDayProofFromState : Option BoxPnlDayProof :=
  match state.snapshotVersion, state.rowCount, state.contentSha256 with
  | some version, some (.ofNat count), some sha =>
    if version = boxPnlSnapshotVersion && sha.length = 64 && sha.toList.all isHex then some ⟨count, sha⟩ else none
  | _, _, _ => none

def DayState.HasProof (proof : BoxPnlDayProof) : Prop :=
  state.snapshotVersion = some boxPnlSnapshotVersion ∧ state.rowCount = some (proof.rowCount : ℤ) ∧
    state.contentSha256 = some proof.contentSha256

instance (state : DayState) (proof : BoxPnlDayProof) : Decidable (state.HasProof proof) :=
  inferInstanceAs (Decidable (_ ∧ _ ∧ _))

def DayState.certified (proof : BoxPnlDayProof) : DayState :=
  { state with
    complete := true, needsReproof := false, snapshotVersion := some boxPnlSnapshotVersion,
    rowCount := some proof.rowCount, contentSha256 := some proof.contentSha256 }

/-! ## Statements -/

inductive DayStatement where
  | now
  | keepRetryProof (proof : BoxPnlDayProof)
  | readRetryProof
  | markIncomplete (needsReproof : Bool)
  | markRetryIfProof (proof : BoxPnlDayProof)
  | existingTrades (ids : List String)
  | completedFences (ids : List String)
  | scanPage (afterTradeId : String)
  | loadSnapshot
  | loadDayState
  | upsertRow (doc : BoxPnlProofDocument)
  | upsertSummary (summary : BoxDailyPnlSummary)
  | deleteRows (tradeIds : List String)
  | publishComplete (proof : BoxPnlDayProof)
  | publishRepaired (prior next : BoxPnlDayProof)
  | publishLegacy (proof : BoxPnlDayProof)
  | finalizeLegacy (proof : BoxPnlDayProof)
  | markLegacyRetry

namespace DayStatement

abbrev Answer : DayStatement → Type
  | now => String
  | readRetryProof => BoxPnlDayProof
  | existingTrades _ | completedFences _ => List String
  | scanPage _ | loadSnapshot => List BoxPnlProofDocument
  | loadDayState => Option DayState
  | deleteRows _ | publishRepaired .. | finalizeLegacy _ => ℕ
  | _ => Unit

end DayStatement

def pnlScanPage : ℕ := 200

def storedRow (doc : BoxPnlProofDocument) : BoxPnlProofDocument :=
  { doc with
    underlying := some (doc.underlying.getD ""), direction := some (doc.direction.getD "LONG_BOX")
    lowerStrike := some (doc.lowerStrike.getD (.fin 0)), upperStrike := some (doc.upperStrike.getD (.fin 0))
    expiry := some (doc.expiry.getD ""), status := some (doc.status.getD .open) }

variable (day : String)

def storedSummary (rows : List BoxPnlProofDocument) (summary : BoxDailyPnlSummary) : BoxPnlProofDocument :=
  let old := (rows.find? fun doc => doc.tradeId = summaryField).getD
    ⟨day, summaryField, some "", some "LONG_BOX", some (.fin 0), some (.fin 0), some "", none, none, none, none, none,
      none, none, none, none⟩
  { old with status := some .summary, summary := some summary, updatedAt := some summary.updatedAt }

namespace PnlDay

def invalidated (s : PnlDay) (needsReproof : Bool) : PnlDay :=
  { s with
    state := match s.state with
      | none => some ⟨false, needsReproof, none, none, none, none⟩
      | some state => some { state with complete := false, needsReproof := needsReproof } }

def updateState (s : PnlDay) (matching : DayState → Bool) (change : DayState → DayState) : ℕ × PnlDay :=
  match s.state with
  | none => (0, s)
  | some state => if matching state then (1, { s with state := some (change state) }) else (0, s)

def page (digest : DayDigest) (s : PnlDay) (afterTradeId : String) : List BoxPnlProofDocument :=
  ((s.rows.filter fun doc => doc.tradeId ≠ summaryField &&
      (afterTradeId = "" || digest.collatedBefore afterTradeId doc.tradeId)).mergeSort
    fun a b => !digest.collatedBefore b.tradeId a.tradeId).take pnlScanPage

end PnlDay

def DayOwn.publishing (g : DayOwn) (proof : BoxPnlDayProof) (changed : ℕ) : DayOwn :=
  if changed = 0 then g else { g with published := proof :: g.published }

variable (digest : DayDigest)

/-- What each statement answers, and what it does to the process and to the day's documents. -/
def DayStatement.exec : (c : DayStatement) → DayOwn → PnlDay → c.Answer × DayOwn × PnlDay
  | .now, g, s => (s.nowIso, g, s)
  | .keepRetryProof proof, g, s => ((), { g with retryProof := proof }, s)
  | .readRetryProof, g, s => (g.retryProof, g, s)
  | .markIncomplete needsReproof, g, s => ((), g, s.invalidated needsReproof)
  | .markRetryIfProof proof, g, s =>
    ((), g, (s.updateState (fun state => state.HasProof proof)
      fun state => { state with complete := false, needsReproof := true }).2)
  | .existingTrades ids, g, s => (ids.filter (· ∈ s.trades), g, s)
  | .completedFences ids, g, s => (ids.filter (· ∈ s.completedFences), g, s)
  | .scanPage afterTradeId, g, s => (s.page digest afterTradeId, g, s)
  | .loadSnapshot, g, s => (s.rows, g, s)
  | .loadDayState, g, s => (s.state, g, s)
  | .upsertRow doc, g, s =>
    ((), g, { s with rows := Keyed.put BoxPnlProofDocument.tradeId s.rows (storedRow { doc with day := day }) })
  | .upsertSummary summary, g, s =>
    ((), g, { s with rows := Keyed.put BoxPnlProofDocument.tradeId s.rows (storedSummary day s.rows summary) })
  | .deleteRows tradeIds, g, s =>
    ((s.rows.filter fun doc => doc.tradeId ∈ tradeIds).length, g,
      { s with rows := s.rows.filter fun doc => doc.tradeId ∉ tradeIds })
  | .publishComplete proof, g, s =>
    let state := (s.state.getD ⟨true, false, none, none, none, none⟩).certified proof
    ((), g.publishing proof 1, { s with state := some { state with expectedTradeIds := none } })
  | .publishRepaired prior next, g, s =>
    let updated := s.updateState (fun state => state.HasProof prior)
      fun state => { state.certified next with expectedTradeIds := none }
    (updated.1, g.publishing next updated.1, updated.2)
  | .publishLegacy proof, g, s =>
    let updated := s.updateState (fun state => state.expectedTradeIds.isSome) fun state => state.certified proof
    ((), g.publishing proof updated.1, updated.2)
  | .finalizeLegacy proof, g, s =>
    let updated := s.updateState (fun state => state.HasProof proof && state.expectedTradeIds.isSome)
      fun state => { state with expectedTradeIds := none }
    (updated.1, g, updated.2)
  | .markLegacyRetry, g, s =>
    ((), g, (s.updateState (fun state => state.expectedTradeIds.isSome)
      fun state => { state with needsReproof := true }).2)

inductive PnlError where
  | statement
  | text (message : String)
  | aggregate (first second : PnlError) (message : String)

abbrev DayProgram (α : Type) := Prog DayStatement DayStatement.Answer PnlError α

def ask (c : DayStatement) : DayProgram c.Answer :=
  .call c fun
    | some answer => .ret answer
    | none => .raise .statement

def fail {α : Type} (message : String) : DayProgram α := .raise (.text message)

section

variable {α : Type}

def runBoxPnlDayMutation (invalidate : DayProgram Unit) (mutate : DayProgram α) : DayProgram α := do
  invalidate
  match ← mutate.attempt with
  | .error mutationError =>
    invalidate.recover fun invalidationError =>
      .raise (.aggregate mutationError invalidationError "Box P&L mutation and post-invalidation both failed")
    .raise mutationError
  | .ok result =>
    invalidate
    pure result

inductive UpsertOutcome where
  | skipped
  | written
  | selfCleaned

def runSourceSafePnlRowUpsert (allowed : DayProgram Bool) (write remove rewriteSummary : DayProgram Unit) :
    DayProgram UpsertOutcome := do
  if !(← allowed) then
    pure .skipped
  else do
    write
    if ← allowed then
      pure .written
    else do
      remove
      rewriteSummary
      pure .selfCleaned

end

/-! ## Publishers -/

section

variable (digest : DayDigest)

def runBoxPnlDayProofCommit (expected : List BoxPnlProofDocument) (settle : DayProgram Unit)
    (load : DayProgram (List BoxPnlProofDocument)) (publish : BoxPnlDayProof → DayProgram Unit)
    (invalidate : DayProgram Unit) : DayProgram BoxPnlDayProof :=
  let expectedProof := buildBoxPnlDayProof digest expected
  let agrees := fun docs : List BoxPnlProofDocument =>
    boxPnlSummaryMatchesRows docs && boxPnlDayProofsEqual expectedProof (buildBoxPnlDayProof digest docs)
  Prog.recover (do
    settle
    if !agrees (← load) then
      fail "day content changed before completion proof publication"
    else do
      publish expectedProof
      if !agrees (← load) then
        fail "day content changed while publishing completion proof"
      else
        pure expectedProof)
    fun error => do
      invalidate
      .raise error

def loadValid (expectedRowCount : ℕ) (load : DayProgram (List BoxPnlProofDocument))
    (validate : List BoxPnlProofDocument → DayProgram Unit) (requireSummary : Bool) : DayProgram BoxPnlDayProof := do
  let docs ← load
  validate docs
  let proof := buildBoxPnlDayProof digest docs
  if proof.rowCount ≠ expectedRowCount then
    fail s!"day membership count {proof.rowCount} differs from last exact row_count {expectedRowCount}"
  else if requireSummary && !boxPnlSummaryMatchesRows docs then
    fail "day summary does not match rows during re-proof"
  else
    pure proof

def runBoxPnlDayProofRepair (lastExactProof : BoxPnlDayProof) (expectedRowCount : ℕ) (settle : DayProgram Unit)
    (load : DayProgram (List BoxPnlProofDocument)) (validate : List BoxPnlProofDocument → DayProgram Unit)
    (publish : BoxPnlDayProof → BoxPnlDayProof → DayProgram Unit) (markRetry : DayProgram Unit) :
    DayProgram BoxPnlDayProof :=
  Prog.recover (do
    let _ ← loadValid digest expectedRowCount load validate false
    settle
    let before ← loadValid digest expectedRowCount load validate true
    publish lastExactProof before
    let after ← loadValid digest expectedRowCount load validate true
    if !boxPnlDayProofsEqual before after then
      fail "day content changed while publishing repaired proof"
    else
      pure after)
    fun error => do
      markRetry
      .raise error

def manifestIds : Option ExpectedTradeIds → Option (List String)
  | some (.array items) =>
    match items.mapM id with
    | some ids => if ids.any (fun id => id = "" || id = summaryField) || !decide ids.Nodup then none else some ids
    | none => none
  | _ => none

def sortedIds (ids : List String) : List String := ids.mergeSort fun a b => decide (a ≤ b)

/-- The legacy rows are published only where they match their manifest, and proved only from what was read back. -/
def runLegacyBoxPnlDayMigration (expectedTradeIds : Option ExpectedTradeIds)
    (filterSourceValidExpectedIds : List String → DayProgram (List String))
    (settleAndLoad : DayProgram (List BoxPnlProofDocument)) (publishV2 : List BoxPnlProofDocument → DayProgram Unit)
    (loadPublished : DayProgram (List BoxPnlProofDocument × Option DayState))
    (finalizeV2 : BoxPnlDayProof → DayProgram Unit) (markRetry : DayProgram Unit) : DayProgram Bool :=
  Prog.recover (do
    match manifestIds expectedTradeIds with
    | none => fail "legacy day manifest contains invalid or duplicate trade ids"
    | some expectedIds =>
      let sourceValidExpected := sortedIds (← filterSourceValidExpectedIds expectedIds).eraseDups
      let settled ← settleAndLoad
      let settledIds := sortedIds ((settled.filter fun doc => doc.tradeId ≠ summaryField).map
        BoxPnlProofDocument.tradeId)
      if !decide settledIds.Nodup || settledIds ≠ sourceValidExpected || !boxPnlSummaryMatchesRows settled then
        fail "source-valid durable rows do not match the legacy day manifest"
      else do
        publishV2 settled
        let (docs, state) ← loadPublished
        match state.bind boxPnlDayProofFromState with
        | none => fail "v2 day proof did not remain stable after publication"
        | some proof =>
          if !boxPnlSummaryMatchesRows docs || !boxPnlDayProofsEqual proof (buildBoxPnlDayProof digest docs) then
            fail "v2 day proof did not remain stable after publication"
          else do
            finalizeV2 proof
            pure true)
    fun _ => do
      markRetry
      pure false

end

def isArchivedPnlRowInvalid (sourceExists fenceComplete : Bool) : Bool := !sourceExists || fenceComplete

def isValidBoxId (id : String) : Bool := id.length = 24 && id.toList.all isHex

def pnlQueryChunk : ℕ := 200

def existingSources (validIds : List String) : DayProgram (List String) :=
  if validIds.isEmpty then pure [] else ask (.existingTrades validIds)

def invalidInBatches : List (List String) → DayProgram (List String)
  | [] => pure []
  | batch :: rest => do
    let sources ← existingSources (batch.filter isValidBoxId)
    let completed ← ask (.completedFences batch)
    let later ← invalidInBatches rest
    pure (batch.filter (fun id => isArchivedPnlRowInvalid (id ∈ sources) (id ∈ completed)) ++ later)

def invalidArchivedTradeIds (ids : List String) : DayProgram (List String) :=
  invalidInBatches ((ids.filter (· ≠ summaryField)).eraseDups.toChunks pnlQueryChunk)

def tradeIdsOf (docs : List BoxPnlProofDocument) : List String :=
  (docs.filter fun doc => doc.tradeId ≠ summaryField).map BoxPnlProofDocument.tradeId

def requireValidSources (docs : List BoxPnlProofDocument) (message : String) : DayProgram Unit := do
  if (← invalidArchivedTradeIds (tradeIdsOf docs)).isEmpty then pure () else fail message

/-! ## The operations on the archive -/

structure DayScan where
  proof : BoxPnlDayProof
  summary : BoxDailyPnlSummary
  invalidTradeIds : List String

section

variable (day : String) (digest : DayDigest) (pages : ℕ)

def finishScan (builder : BoxPnlDayProofBuilder) (invalidTradeIds : List String) : DayProgram DayScan := do
  let nowIso ← ask .now
  let finished := builder.finish digest nowIso
  pure ⟨finished.1, finished.2, invalidTradeIds⟩

def scanPages : ℕ → BoxPnlDayProofBuilder → String → List String → DayProgram DayScan
  | 0, _, _, _ => .raise .statement
  | pages + 1, builder, afterTradeId, invalidTradeIds => do
    let docs ← ask (.scanPage afterTradeId)
    match docs.getLast? with
    | none => finishScan digest builder invalidTradeIds
    | some last =>
      let invalid ← invalidArchivedTradeIds (docs.map BoxPnlProofDocument.tradeId)
      let builder := (docs.filter fun doc => doc.tradeId ∉ invalid).foldl BoxPnlDayProofBuilder.add builder
      let invalidTradeIds := (invalidTradeIds ++ invalid).eraseDups
      if docs.length < pnlScanPage then
        finishScan digest builder invalidTradeIds
      else
        scanPages pages builder last.tradeId invalidTradeIds

def scanDurablePnlDay : DayProgram DayScan := scanPages digest pages (.new day) "" []

def markBoxDailyPnlIncomplete (needsReproof : Bool) : DayProgram Unit := ask (.markIncomplete needsReproof)

def mutateDurablePnlDay {α : Type} (mutate : DayProgram α) : DayProgram α :=
  runBoxPnlDayMutation (markBoxDailyPnlIncomplete true) mutate

def rewriteAttempts : ℕ → DayProgram BoxPnlDayProof
  | 0 => fail s!"box_daily_pnl summary for {day} did not settle after concurrent mutations"
  | attempts + 1 => do
    let before ← scanDurablePnlDay day digest pages
    if !before.invalidTradeIds.isEmpty then
      fail s!"box_daily_pnl day {day} contained an invalid source row"
    else do
      mutateDurablePnlDay (ask (.upsertSummary before.summary))
      let after ← scanDurablePnlDay day digest pages
      if after.invalidTradeIds.isEmpty && boxPnlDayProofsEqual before.proof after.proof then
        pure after.proof
      else
        rewriteAttempts attempts

def rewriteBoxDailyPnlSummary : DayProgram BoxPnlDayProof := rewriteAttempts day digest pages 5

def settleSummary : DayProgram Unit := do
  let _ ← rewriteBoxDailyPnlSummary day digest pages
  pure ()

def reproveBoxDailyPnlFromDurable (expectedRowCount : Option ℕ) : DayProgram Unit := do
  let state ← ask .loadDayState
  match state.bind boxPnlDayProofFromState with
  | none => do
    markBoxDailyPnlIncomplete true
    fail s!"box_daily_pnl day {day} has no last exact v2 proof"
  | some lastExactProof => do
    ask (.keepRetryProof lastExactProof)
    let _ ← runBoxPnlDayProofRepair digest lastExactProof (expectedRowCount.getD lastExactProof.rowCount)
      (settleSummary day digest pages) (ask .loadSnapshot)
      (fun docs => requireValidSources docs s!"box_daily_pnl day {day} contained an invalid source row")
      (fun prior next => do
        let rowCount ← ask (.publishRepaired prior next)
        if rowCount ≠ 1 then
          fail s!"box_daily_pnl day {day} changed before re-proof publication"
        else
          ask (.keepRetryProof next))
      (do
        let retryProof ← ask .readRetryProof
        ask (.markRetryIfProof retryProof))
    pure ()

def migrateLegacyBoxDailyPnlState (expectedTradeIds : Option ExpectedTradeIds) : DayProgram Bool :=
  runLegacyBoxPnlDayMigration digest expectedTradeIds
    (fun ids => do
      let invalid ← invalidArchivedTradeIds ids
      pure (ids.filter (· ∉ invalid)))
    (do
      settleSummary day digest pages
      ask .loadSnapshot)
    (fun docs => do
      requireValidSources docs s!"box_daily_pnl legacy day {day} changed during source validation"
      ask (.publishLegacy (buildBoxPnlDayProof digest docs)))
    (do
      let docs ← ask .loadSnapshot
      let state ← ask .loadDayState
      pure (docs, state))
    (fun proof => do
      let rowCount ← ask (.finalizeLegacy proof)
      if rowCount ≠ 1 then
        fail s!"box_daily_pnl legacy day {day} changed before migration finalization"
      else
        pure ())
    (ask .markLegacyRetry)

def markBoxDailyPnlComplete (expectedDocs : List BoxPnlProofDocument) : DayProgram Unit := do
  if !(← invalidArchivedTradeIds (tradeIdsOf expectedDocs)).isEmpty then do
    markBoxDailyPnlIncomplete true
    fail s!"box_daily_pnl day {day} contains a deleted source row"
  else do
    let _ ← runBoxPnlDayProofCommit digest expectedDocs (settleSummary day digest pages)
      (do
        let docs ← ask .loadSnapshot
        requireValidSources docs s!"box_daily_pnl day {day} changed during source validation"
        pure docs)
      (fun proof => ask (.publishComplete proof)) (markBoxDailyPnlIncomplete true)
    pure ()

def isBoxDailyPnlSnapshotComplete (docs : List BoxPnlProofDocument) : DayProgram Bool := do
  match ← ask .loadDayState with
  | none => pure false
  | some state =>
    if !state.complete then
      pure false
    else
      match boxPnlDayProofFromState state with
      | none =>
        match state.expectedTradeIds with
        | some (.array items) => migrateLegacyBoxDailyPnlState day digest pages (some (.array items))
        | _ => do
          markBoxDailyPnlIncomplete true
          pure false
      | some proof =>
        if boxPnlSummaryMatchesRows docs && boxPnlDayProofsEqual proof (buildBoxPnlDayProof digest docs) then
          pure true
        else do
          ask (.markRetryIfProof proof)
          pure false

def upsertBoxDailyPnl (doc : BoxPnlProofDocument) : DayProgram Unit :=
  if doc.tradeId = summaryField then
    settleSummary day digest pages
  else do
    let _ ← runSourceSafePnlRowUpsert
      (do
        let invalid ← invalidArchivedTradeIds [doc.tradeId]
        pure invalid.isEmpty)
      (mutateDurablePnlDay (ask (.upsertRow doc)))
      (mutateDurablePnlDay (do
        let _ ← ask (.deleteRows [doc.tradeId])
        pure ()))
      (settleSummary day digest pages)
    pure ()

def deleteInBatches : List (List String) → DayProgram ℕ
  | [] => pure 0
  | batch :: rest => do
    let deleted ← mutateDurablePnlDay (ask (.deleteRows batch))
    let later ← deleteInBatches rest
    pure (deleted + later)

def deleteBoxDailyPnlRows (tradeIds : List String) : DayProgram ℕ :=
  deleteInBatches (tradeIds.eraseDups.toChunks pnlQueryChunk)

def cleanDay (tradeId : String) : DayProgram ℕ := do
  let state ← ask .loadDayState
  let survivors ← scanDurablePnlDay day digest pages
  let deleted ← mutateDurablePnlDay (ask (.deleteRows [tradeId]))
  match state.bind DayState.expectedTradeIds with
  | some (.array items) => do
    let migrated ← migrateLegacyBoxDailyPnlState day digest pages (some (.array items))
    if !migrated then
      fail s!"box_daily_pnl legacy day {day} could not be migrated after cleanup"
    else
      pure deleted
  | _ =>
    if shouldReproveBoxPnlDay state then do
      reproveBoxDailyPnlFromDurable day digest pages (some survivors.proof.rowCount)
      pure deleted
    else do
      settleSummary day digest pages
      pure deleted

end

inductive DayOperation where
  | markIncomplete (needsReproof : Bool)
  | rewriteSummary
  | upsert (doc : BoxPnlProofDocument)
  | deleteRows (tradeIds : List String)
  | cleanDay (tradeId : String)
  | markComplete (expectedDocs : List BoxPnlProofDocument)
  | isComplete (docs : List BoxPnlProofDocument)
  | reprove (expectedRowCount : Option ℕ)
  | migrate (expectedTradeIds : Option ExpectedTradeIds)

structure DayCall where
  operation : DayOperation
  pages : ℕ

def quietly {α : Type} (program : DayProgram α) : DayProgram Unit := do
  let _ ← program
  pure ()

def DayCall.program (call : DayCall) : DayProgram Unit :=
  match call.operation with
  | .markIncomplete needsReproof => markBoxDailyPnlIncomplete needsReproof
  | .rewriteSummary => settleSummary day digest call.pages
  | .upsert doc => upsertBoxDailyPnl day digest call.pages doc
  | .deleteRows tradeIds => quietly (deleteBoxDailyPnlRows tradeIds)
  | .cleanDay tradeId => quietly (cleanDay day digest call.pages tradeId)
  | .markComplete expectedDocs => markBoxDailyPnlComplete day digest call.pages expectedDocs
  | .isComplete docs => quietly (isBoxDailyPnlSnapshotComplete day digest call.pages docs)
  | .reprove expectedRowCount => reproveBoxDailyPnlFromDurable day digest call.pages expectedRowCount
  | .migrate expectedTradeIds => quietly (migrateLegacyBoxDailyPnlState day digest call.pages expectedTradeIds)

def DayCall.thread (call : DayCall) : Thread DayStatement DayStatement.Answer PnlError DayOwn :=
  ⟨call.program day digest, .new⟩

structure SourceChange where
  trades : List String
  completedFences : List String
  nowIso : String

def PnlDay.changed (change : SourceChange) (s : PnlDay) : PnlDay :=
  { s with trades := change.trades, completedFences := change.completedFences, nowIso := change.nowIso }

abbrev DayPool := Pool DayStatement DayStatement.Answer PnlError DayOwn PnlDay

abbrev DayEvent := PoolEvent DayCall SourceChange

def PnlDay.step : DayPool → DayEvent → DayPool × Unit :=
  Statements.step (DayStatement.exec day digest) (DayCall.thread day digest) PnlDay.changed

end BoxEngine
