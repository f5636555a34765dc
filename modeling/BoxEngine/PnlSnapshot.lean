import BoxEngine.FlattenPass

/-!
# The day's profit and loss

One row a trade, the aggregate of the rows, and the proof of a stored day: the count of its rows and the digest of
their content.
-/

namespace BoxEngine

open Js

def summaryField : String := "__summary__"

inductive PnlStatus where
  | open
  | closed
  | summary
  deriving DecidableEq

structure BoxDailyPnlSummary where
  day : String
  openCount : ℕ
  closedCount : ℕ
  openRunningNetPnl : ℚ
  openRunningGrossPnl : ℚ
  closedRealisedNetPnl : ℚ
  closedRealisedGrossPnl : ℚ
  totalNetPnl : ℚ
  totalGrossPnl : ℚ
  updatedAt : String

/-- A row as the proof reads it back. -/
structure BoxPnlProofDocument where
  day : String
  tradeId : String
  underlying : Option String
  direction : Option String
  lowerStrike : Option Number
  upperStrike : Option Number
  expiry : Option String
  status : Option PnlStatus
  grossPnl : Option Number
  netPnl : Option Number
  realisableNetPnl : Option Number
  realisedNetPnl : Option Number
  openedAt : Option String
  closedAt : Option String
  updatedAt : Option String
  summary : Option BoxDailyPnlSummary

def finiteOrZero (v : Option Number) : ℚ := (v.map Number.value).getD 0

/-- The sums of a day, open and closed apart. -/
structure DayTotals where
  openCount : ℕ
  closedCount : ℕ
  openNet : ℚ
  openGross : ℚ
  closedNet : ℚ
  closedGross : ℚ

def DayTotals.zero : DayTotals := ⟨0, 0, 0, 0, 0, 0⟩

def DayTotals.add (t : DayTotals) (status : PnlStatus) (gross net realised : Option Number) : DayTotals :=
  if status = .open then
    { t with
      openCount := t.openCount + 1, openNet := t.openNet + finiteOrZero net,
      openGross := t.openGross + finiteOrZero gross }
  else
    { t with
      closedCount := t.closedCount + 1, closedNet := t.closedNet + finiteOrZero (realised.or net),
      closedGross := t.closedGross + finiteOrZero gross }

def DayTotals.summary (t : DayTotals) (day nowIso : String) : BoxDailyPnlSummary where
  day := day
  openCount := t.openCount
  closedCount := t.closedCount
  openRunningNetPnl := round2 t.openNet
  openRunningGrossPnl := round2 t.openGross
  closedRealisedNetPnl := round2 t.closedNet
  closedRealisedGrossPnl := round2 t.closedGross
  totalNetPnl := round2 (t.openNet + t.closedNet)
  totalGrossPnl := round2 (t.openGross + t.closedGross)
  updatedAt := nowIso

structure SummarizedRow where
  status : PnlStatus
  grossPnl : Option Number
  netPnl : Option Number
  realisedNetPnl : Option Number

def totalsOf (rows : List SummarizedRow) : DayTotals :=
  rows.foldl (fun t row => t.add row.status row.grossPnl row.netPnl row.realisedNetPnl) .zero

/-- The aggregate is a fold over the rows. -/
def summarizeDayRows (day : String) (rows : List SummarizedRow) (nowIso : String) : BoxDailyPnlSummary :=
  (totalsOf rows).summary day nowIso

/-! ## The proof of a day -/

structure CanonicalBoxPnlSummary where
  day : String
  openCount : ℕ
  closedCount : ℕ
  openRunningNetPnl : ℚ
  openRunningGrossPnl : ℚ
  closedRealisedNetPnl : ℚ
  closedRealisedGrossPnl : ℚ
  totalNetPnl : ℚ
  totalGrossPnl : ℚ
  deriving DecidableEq

structure CanonicalBoxPnlRow where
  tradeId : String
  underlying : String
  direction : String
  lowerStrike : Number
  upperStrike : Number
  expiry : String
  status : PnlStatus
  grossPnl : Option Number
  netPnl : Option Number
  realisableNetPnl : Option Number
  realisedNetPnl : Option Number
  openedAt : Option String
  closedAt : Option String
  updatedAt : Option String

def canonicalBoxPnlSummary (summary : BoxDailyPnlSummary) : CanonicalBoxPnlSummary where
  day := summary.day
  openCount := summary.openCount
  closedCount := summary.closedCount
  openRunningNetPnl := summary.openRunningNetPnl
  openRunningGrossPnl := summary.openRunningGrossPnl
  closedRealisedNetPnl := summary.closedRealisedNetPnl
  closedRealisedGrossPnl := summary.closedRealisedGrossPnl
  totalNetPnl := summary.totalNetPnl
  totalGrossPnl := summary.totalGrossPnl

def canonicalBoxPnlRow (row : BoxPnlProofDocument) : CanonicalBoxPnlRow where
  tradeId := row.tradeId
  underlying := row.underlying.getD ""
  direction := row.direction.getD "LONG_BOX"
  lowerStrike := row.lowerStrike.getD (.fin 0)
  upperStrike := row.upperStrike.getD (.fin 0)
  expiry := row.expiry.getD ""
  status := row.status.getD .open
  grossPnl := row.grossPnl
  netPnl := row.netPnl
  realisableNetPnl := row.realisableNetPnl
  realisedNetPnl := row.realisedNetPnl
  openedAt := row.openedAt
  closedAt := row.closedAt
  updatedAt := row.updatedAt

/-- The digest of the rows, kept abstract: it reads their canonical form alone. -/
structure DayDigest where
  localeAtMost : String → String → Bool
  collatedBefore : String → String → Bool
  ofTexts : List CanonicalBoxPnlRow → CanonicalBoxPnlSummary → String

structure BoxPnlDayProof where
  rowCount : ℕ
  contentSha256 : String
  deriving DecidableEq

def boxPnlSnapshotVersion : ℤ := 2

/-- Rows go in one by one; the proof is made at the end. -/
structure BoxPnlDayProofBuilder where
  day : String
  hashed : List CanonicalBoxPnlRow
  rowCount : ℕ
  totals : DayTotals

namespace BoxPnlDayProofBuilder

def new (day : String) : BoxPnlDayProofBuilder := ⟨day, [], 0, .zero⟩

def add (builder : BoxPnlDayProofBuilder) (row : BoxPnlProofDocument) : BoxPnlDayProofBuilder :=
  let canonical := canonicalBoxPnlRow row
  { builder with
    hashed := builder.hashed ++ [canonical]
    rowCount := builder.rowCount + 1
    totals := builder.totals.add canonical.status canonical.grossPnl canonical.netPnl canonical.realisedNetPnl }

def finish (digest : DayDigest) (builder : BoxPnlDayProofBuilder) (nowIso : String) :
    BoxPnlDayProof × BoxDailyPnlSummary :=
  let summary := builder.totals.summary builder.day nowIso
  (⟨builder.rowCount, digest.ofTexts builder.hashed (canonicalBoxPnlSummary summary)⟩, summary)

end BoxPnlDayProofBuilder

def BoxPnlProofDocument.isTradeRow (doc : BoxPnlProofDocument) : Bool :=
  doc.tradeId ≠ summaryField && (doc.status = some .open || doc.status = some .closed)

def buildBoxPnlDayProof (digest : DayDigest) (docs : List BoxPnlProofDocument) : BoxPnlDayProof :=
  let rows := (docs.filter BoxPnlProofDocument.isTradeRow).mergeSort fun a b => digest.localeAtMost a.tradeId b.tradeId
  let builder := BoxPnlDayProofBuilder.new ((docs.head?.map BoxPnlProofDocument.day).getD "")
  ((rows.foldl BoxPnlDayProofBuilder.add builder).finish digest "").1

def boxPnlSummariesEqual (a b : BoxDailyPnlSummary) : Bool :=
  canonicalBoxPnlSummary a = canonicalBoxPnlSummary b

def BoxPnlProofDocument.summarized (doc : BoxPnlProofDocument) : SummarizedRow :=
  ⟨doc.status.getD .closed, doc.grossPnl, doc.netPnl, doc.realisedNetPnl⟩

/-- The stored aggregate is the one its rows give. -/
def boxPnlSummaryMatchesRows (docs : List BoxPnlProofDocument) : Bool :=
  match (docs.find? fun doc => doc.tradeId = summaryField).bind BoxPnlProofDocument.summary with
  | none => false
  | some stored =>
    let rows := docs.filter BoxPnlProofDocument.isTradeRow
    boxPnlSummariesEqual stored (summarizeDayRows stored.day (rows.map BoxPnlProofDocument.summarized) "")

def boxPnlDayProofsEqual (a b : BoxPnlDayProof) : Bool :=
  a.rowCount = b.rowCount && a.contentSha256 = b.contentSha256

end BoxEngine
