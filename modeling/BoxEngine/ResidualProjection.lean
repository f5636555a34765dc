import BoxEngine.BoxScanner

/-!
# The residual projection of an execution attempt

What a flatten pass did is written to the attempt's row as one compare-and-set command: in the store under a row lock,
and as a pure function.
-/

namespace BoxEngine

open Js

def maxFlattenApplicationIds : ℕ := 32

structure CanonicalLeg where
  role : BoxLegRole
  token : Number
  tradingsymbol : String
  exchange : String
  side : OrderSide
  quantity : ℚ
  averagePrice : Number
  source : ResidualExposureSource
  createdAt : Number
  flattenAttempt : Number
  flattenBrokerRejections : Number

structure ApplicationIdentity where
  attemptId : String
  expectedVersion : ℕ
  expectedProjectionIdentity : String
  nextProjectionIdentity : String
  flattenChargeDelta : ℚ
  flattenChargeDay : String

structure Sha256 where
  textAtMost : CanonicalLeg → CanonicalLeg → Bool
  ofResidual : List CanonicalLeg → String
  ofApplication : ApplicationIdentity → String

structure ProjectionCommand where
  applicationId : String
  expectedVersion : ℕ
  expectedProjectionIdentity : String
  expectedResidualExposure : List ResidualLegExposure
  nextProjectionIdentity : String
  residualExposure : List ResidualLegExposure
  flattenChargeDelta : ℚ
  flattenChargeDay : String
  chargeNonneg : 0 ≤ flattenChargeDelta

inductive ProjectionStatus where
  | applied
  | alreadyApplied
  | stale
  | notFound
  deriving DecidableEq

structure ProjectionResult where
  status : ProjectionStatus
  projectionVersion : Option ℕ
  projectionIdentity : Option String
  residualExposure : Option (List ResidualLegExposure)
  flattenCharges : Option Number
  flattenChargeDay : Option String
  flattenChargesForDay : Option Number

/-- The columns a projection reads and writes; legacy rows leave them unset. -/
structure ProjectionSnapshot where
  projectionVersion : Option Number
  residualProjectionIdentity : Option String
  residualExposure : Option (List ResidualLegExposure)
  flattenCharges : Option Number
  flattenChargeDay : Option String
  flattenChargesForDay : Option Number
  appliedFlattenApplications : Option (List String)
  resolved : Option Bool

/-! ## Identities and commands -/

def canonicalLeg (leg : ResidualLegExposure) : CanonicalLeg where
  role := leg.role
  token := leg.token
  tradingsymbol := leg.tradingsymbol
  exchange := leg.exchange.getD "NFO"
  side := leg.side
  quantity := leg.quantity
  averagePrice := leg.averagePrice
  source := leg.source
  createdAt := leg.createdAt
  flattenAttempt := leg.flattenAttempt.getD (.fin 1)
  flattenBrokerRejections := leg.flattenBrokerRejections.getD (.fin 0)

section

variable (sha256 : Sha256)
variable (residual : List ResidualLegExposure)

def canonicalResidual : List CanonicalLeg :=
  (residual.map canonicalLeg).mergeSort sha256.textAtMost

def residualProjectionIdentity : String :=
  sha256.ofResidual (canonicalResidual sha256 residual)

def ProjectionCommand.changes (command : ProjectionCommand) : Bool :=
  command.expectedProjectionIdentity ≠ command.nextProjectionIdentity || decide (0 < command.flattenChargeDelta)

def readVersion (version : Option Number) : ℕ :=
  match version with
  | some (.fin q) => if isSafeInteger (.fin q) ∧ 0 ≤ q then q.num.toNat else 0
  | _ => 0

def isDayText (day : String) : Bool :=
  match day.toList with
  | [a, b, c, d, '-', e, f, '-', g, h] => [a, b, c, d, e, f, g, h].all Char.isDigit
  | _ => false

def chargeDelta (delta : Number) : { q : ℚ // 0 ≤ q } :=
  match delta with
  | .fin q => if h : 0 < q then ⟨round2 q, round2_nonneg h.le⟩ else ⟨0, le_rfl⟩
  | _ => ⟨0, le_rfl⟩

structure ProjectionArgs where
  attemptId : String
  expectedVersion : Number
  expectedResidual : List ResidualLegExposure
  nextResidual : List ResidualLegExposure
  flattenChargeDelta : Number
  flattenChargeDay : String

def createResidualProjectionCommand (args : ProjectionArgs) : ProjectionCommand :=
  let expectedVersion := readVersion (some args.expectedVersion)
  let expectedProjectionIdentity := residualProjectionIdentity sha256 args.expectedResidual
  let nextProjectionIdentity := residualProjectionIdentity sha256 args.nextResidual
  let delta := chargeDelta args.flattenChargeDelta
  let flattenChargeDay := if isDayText args.flattenChargeDay then args.flattenChargeDay else "unattributed"
  { applicationId := sha256.ofApplication
      ⟨args.attemptId, expectedVersion, expectedProjectionIdentity, nextProjectionIdentity, delta.1, flattenChargeDay⟩
    expectedVersion
    expectedProjectionIdentity
    expectedResidualExposure := args.expectedResidual
    nextProjectionIdentity
    residualExposure := args.nextResidual
    flattenChargeDelta := delta.1
    flattenChargeDay
    chargeNonneg := delta.2 }

/-! ## The pure model -/

def readCharges (charges : Option Number) : Number := (Number.fin 0).max (charges.getD (.fin 0))

def snapshotResult (status : ProjectionStatus) (snapshot : ProjectionSnapshot) : ProjectionResult :=
  let residual := snapshot.residualExposure.getD []
  { status
    projectionVersion := some (readVersion snapshot.projectionVersion)
    projectionIdentity := some (snapshot.residualProjectionIdentity.getD (residualProjectionIdentity sha256 residual))
    residualExposure := some residual
    flattenCharges := some (round2Price (readCharges snapshot.flattenCharges))
    flattenChargeDay := snapshot.flattenChargeDay
    flattenChargesForDay := some (round2Price (readCharges snapshot.flattenChargesForDay)) }

def notFoundResult : ProjectionResult := ⟨.notFound, none, none, none, none, none, none⟩

def appendApplication (applications : List String) (id : String) : List String :=
  (applications ++ [id]).drop ((applications ++ [id]).length - maxFlattenApplicationIds)

/-- The same transition in memory. -/
def transitionResidualProjectionSnapshot (snapshot : Option ProjectionSnapshot) (command : ProjectionCommand) :
    ProjectionResult × Option ProjectionSnapshot :=
  match snapshot with
  | none => (notFoundResult, none)
  | some snapshot =>
    let applications := snapshot.appliedFlattenApplications.getD []
    if command.applicationId ∈ applications then (snapshotResult sha256 .alreadyApplied snapshot, some snapshot)
    else
      let version := readVersion snapshot.projectionVersion
      let residual := snapshot.residualExposure.getD []
      let identity := snapshot.residualProjectionIdentity.getD (residualProjectionIdentity sha256 residual)
      if version ≠ command.expectedVersion ∨ identity ≠ command.expectedProjectionIdentity then
        (snapshotResult sha256 .stale snapshot, some snapshot)
      else
        let charged := decide (0 < command.flattenChargeDelta)
        let next : ProjectionSnapshot :=
          { projectionVersion := some (.fin (version + 1))
            residualProjectionIdentity := some command.nextProjectionIdentity
            residualExposure := some command.residualExposure
            flattenCharges := some (round2Price ((readCharges snapshot.flattenCharges).add (.fin command.flattenChargeDelta)))
            flattenChargeDay := if charged then some command.flattenChargeDay else snapshot.flattenChargeDay
            flattenChargesForDay := some <|
              if charged then
                round2Price <| Number.add
                  (if snapshot.flattenChargeDay = some command.flattenChargeDay then readCharges snapshot.flattenChargesForDay
                    else .fin 0)
                  (.fin command.flattenChargeDelta)
              else snapshot.flattenChargesForDay.getD (.fin 0)
            appliedFlattenApplications := some (appendApplication applications command.applicationId)
            resolved := some (decide (command.residualExposure.length = 0)) }
        (snapshotResult sha256 .applied next, some next)

/-- The store's transaction: idempotent by application, refused against another version or identity. -/
def applyBoxExecutionAttemptProjection (before : Option ProjectionSnapshot) (command : ProjectionCommand) :
    ProjectionResult × Option ProjectionSnapshot :=
  match before with
  | none => (notFoundResult, none)
  | some before =>
    let applications := before.appliedFlattenApplications.getD []
    if command.applicationId ∈ applications then (snapshotResult sha256 .alreadyApplied before, some before)
    else
      let currentVersion := readVersion before.projectionVersion
      let currentIdentity := before.residualProjectionIdentity
      let versionMatches := currentVersion = command.expectedVersion ∨
        (command.expectedVersion = 0 ∧ before.projectionVersion = none)
      let residual := before.residualExposure.getD []
      let legacyResidualMatches := residualProjectionIdentity sha256 residual = command.expectedProjectionIdentity
      let identityMatches := currentIdentity = some command.expectedProjectionIdentity ∨
        (command.expectedVersion = 0 ∧ currentIdentity = none ∧ legacyResidualMatches)
      if ¬ versionMatches ∨ ¬ identityMatches then (snapshotResult sha256 .stale before, some before)
      else
        let priorForDay := readCharges before.flattenChargesForDay
        let chargedNow := decide (0 < command.flattenChargeDelta)
        let after : ProjectionSnapshot :=
          { projectionVersion := some (.fin (currentVersion + 1))
            residualProjectionIdentity := some command.nextProjectionIdentity
            residualExposure := some command.residualExposure
            flattenCharges := some (round2Price ((readCharges before.flattenCharges).add (.fin command.flattenChargeDelta)))
            flattenChargeDay := if chargedNow then some command.flattenChargeDay else before.flattenChargeDay
            flattenChargesForDay := some <|
              if chargedNow then
                round2Price <| Number.add
                  (if before.flattenChargeDay = some command.flattenChargeDay then priorForDay else .fin 0)
                  (.fin command.flattenChargeDelta)
              else priorForDay
            appliedFlattenApplications := some (appendApplication applications command.applicationId)
            resolved := some (decide (command.residualExposure.length = 0)) }
        (snapshotResult sha256 .applied after, some after)

end

end BoxEngine
