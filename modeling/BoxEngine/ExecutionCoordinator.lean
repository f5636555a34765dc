import BoxEngine.DurableReservations
import BoxEngine.InventoryCeiling

/-!
# The execution coordinator

What the coordinator of one process keeps, the prologue that admits an entry without an await, and what each operation
changes. Nothing of it reads the records of what did not start.
-/

namespace BoxEngine

open Js BoxScanner

namespace Coordination

/-! ## Records -/

inductive MintKind where
  | entry
  | exit
  | underlying
  deriving DecidableEq

structure MintedId where
  kind : MintKind
  seq : ℕ
  deriving DecidableEq

structure Context where
  broker : String
  generation : ℤ
  deriving DecidableEq

structure Lease where
  keys : List String
  expiresAt : ℚ
  fence : ℕ
  durable : Bool
  deriving DecidableEq

structure ActiveExecution where
  id : MintedId
  keys : List String
  underlying : String
  lease : Option Lease
  context : Context
  ownershipLost : Bool
  ownershipLossReason : Option String
  opportunityId : Option String
  deriving DecidableEq

structure UncertainHold where
  id : MintedId
  lease : Lease
  context : Context
  keys : List String
  heldSince : ℚ
  reason : String

inductive Dependant where
  | trade (tradeId : String)
  | residual (attemptId : String)
  deriving DecidableEq

inductive Holder where
  | pipeline (executionId : MintedId)
  | dependant (dependant : Dependant)
  deriving DecidableEq

structure PositionUnderlyingClaim where
  key : String
  owner : MintedId
  lease : Lease
  context : Context
  underlying : String
  holders : List Holder
  ownershipLost : Bool

structure EntryCandidate where
  key : String
  underlying : String
  lotSize : ℕ
  legKeys : List String

structure Refusal where
  reason : String
  detail : String
  deriving DecidableEq

inductive AcquireResult where
  | acquired (lease : Lease)
  | conflict
  | unavailable (tier detail : String)

structure ExecutionResult where
  ok : Bool
  reason : String
  tradeId : Option String
  residual : List EntryResidual

inductive Answer where
  | consumed (ok : Bool) (detail : Option String)
  | acquire (result : AcquireResult) (revalidated : Except String Unit)
  | woken
  | verified (verdict : OwnershipVerdict)
  | executed (result : ExecutionResult)
  | released
  | rejected

/-! ## Calls under way -/

structure Acquiring where
  owner : MintedId
  key : String
  holder : Holder
  context : Context
  underlying : String
  deriving DecidableEq

inductive EntryStage where
  | consuming
  | holding (acquiring : Acquiring)
  | acquiring (waitStarted : ℚ)
  | fallingBack (waitStarted : ℚ) (waited : Bool)
  | waiting (waitStarted : ℚ)
  | retrying (waitStarted : ℚ)
  | verifying (lease : Lease)
  | releasing (refusal : Refusal)
  | executing
  | promoting (acquiring : Acquiring) (outcome : Certainty)
  | dropping (owner : MintedId) (outcome : Certainty)
  | settling
  deriving DecidableEq

def EntryStage.started : EntryStage → Bool
  | .executing | .promoting .. | .dropping .. | .settling => true
  | _ => false

structure EntryCall where
  id : MintedId
  atomic : Bool
  candidate : EntryCandidate
  context : Context
  stage : EntryStage

inductive ExitStage where
  | acquiring
  | fallingBack
  | executing
  | settling
  deriving DecidableEq

structure ExitCall where
  id : MintedId
  atomic : Bool
  keys : List String
  underlying : String
  stage : ExitStage

inductive TickStage where
  | executions (pending : List MintedId)
  | holds (rest : List MintedId)
  | claims (rest : List MintedId)

structure RenewTick where
  now : ℚ
  context : Context
  stage : TickStage

structure Violation where
  execution : MintedId
  reason : String
  deriving DecidableEq

structure CoordinatorConfig where
  mode : ExecutionMode
  reservationRequireDurable : Bool
  oneActiveBoxPerUnderlying : Bool
  maxOpenBoxes : ℕ
  maxConcurrentPerUnderlying : ℕ
  liveMaxOpenLegQuantity : ℕ
  liveMaxGrossOpenLegQuantity : ℕ
  liveMaxLotsPerLeg : ℕ
  conflictWaitMaxMs : ℚ
  reservationUncertainHoldMaxMs : ℚ
  store : String
  durable : Bool
  hasLocalTier : Bool
  sessionConsumeAttempt : Bool
  toUpperCase : String → String
  mintOwnerId : MintedId → String

structure Blocker where
  code : String
  detail : String

structure SessionVerdict where
  allowed : Bool
  reason : Option String
  detail : Option String

structure EntryGates where
  orphanedExposureGate : Option Blocker
  sessionEntryWindow : Option SessionVerdict
  sessionEntryGate : Option SessionVerdict
  underlyingExclusion : Option Blocker
  activeUnderlying : Option String
  boxInventory : ℕ

/-- The executions, the claims on underlyings, the holds, and the calls that await an answer. -/
structure ExecutionCoordinator where
  seq : ℕ
  context : Context
  active : List ActiveExecution
  holds : List UncertainHold
  positionClaims : List PositionUnderlyingClaim
  activeOpportunities : List (String × MintedId)
  waiting : ℕ
  entries : List EntryCall
  exits : List ExitCall
  acquirings : List Acquiring
  drops : List MintedId
  renewTick : Option RenewTick
  unstarted : List MintedId
  released : List MintedId

namespace ExecutionCoordinator

def init (context : Context) : ExecutionCoordinator := ⟨0, context, [], [], [], [], 0, [], [], [], [], none, [], []⟩

/-! ## The prologue of `coordinateEntry` -/

variable (cfg : CoordinatorConfig)

def opportunityId (s : ExecutionCoordinator) (candidate : EntryCandidate) : String :=
  cfg.toUpperCase s.context.broker ++ ":" ++ candidate.key

def failedClosed : Option Refusal :=
  if cfg.reservationRequireDurable && !cfg.durable && cfg.mode = .live then
    some ⟨"feed_unhealthy", "live execution refused: BOX_RESERVATION_REQUIRE_DURABLE is set but the reservation " ++
      s!"store \"{cfg.store}\" is not durable"⟩
  else none

variable (s : ExecutionCoordinator)

def incumbent? (opportunityId : String) : Option MintedId :=
  ((s.activeOpportunities.find? fun entry => entry.1 = opportunityId).map Prod.snd).filter fun id =>
    id ∈ s.active.map ActiveExecution.id

variable (s : ExecutionCoordinator)

def duplicate (opportunityId : String) : Option Refusal :=
  (s.incumbent? opportunityId).map fun incumbent =>
    ⟨"duplicate", s!"identical opportunity already executing as {cfg.mintOwnerId incumbent}"⟩

variable (underlying : String)

def orphanedExposure (gates : EntryGates) : Option Refusal :=
  gates.orphanedExposureGate.map fun orphaned =>
    ⟨"unowned_attributed_exposure", s!"{orphaned.detail} This candidate ({underlying}) is refused before it can " ++
      "consume a session attempt, take a reservation or send any order, on EVERY underlying — " ++
      "not just the affected contracts."⟩

def sessionRefusal (reason fallback text : String) (verdict : Option SessionVerdict) : Option Refusal :=
  (verdict.filter fun verdict => !verdict.allowed).map fun verdict =>
    ⟨reason, verdict.detail.getD (verdict.reason.getD fallback ++ text)⟩

variable (gates : EntryGates)

def sessionWindow : Option Refusal :=
  sessionRefusal "market_closed" "outside_entry_window" ": new entry is outside the session entry window"
    gates.sessionEntryWindow

def sessionLimit : Option Refusal :=
  sessionRefusal "session_limit_reached" "session_limit_reached" ": the armed trading session refused entry"
    gates.sessionEntryGate

def excluded : Option Refusal :=
  gates.underlyingExclusion.map fun exclusion => ⟨"underlying_excluded", exclusion.detail⟩

variable (lotSize : ℕ)

/-- The tighter of the bound in units and the bound in lots, and whether it is the one in lots. -/
def perLegLimit : Option (ℕ × Bool) :=
  let lots := cfg.liveMaxLotsPerLeg * lotSize
  match decide (0 < cfg.liveMaxOpenLegQuantity), decide (0 < cfg.liveMaxLotsPerLeg ∧ 0 < lotSize) with
  | true, true => some (min cfg.liveMaxOpenLegQuantity lots, lots ≤ cfg.liveMaxOpenLegQuantity)
  | true, false => some (cfg.liveMaxOpenLegQuantity, false)
  | false, true => some (lots, true)
  | false, false => none

def exceedsLots (lotSize bound : ℕ) : String :=
  s!"{lotSize} unit(s) per leg exceeds BOX_LIVE_MAX_LOTS_PER_LEG={cfg.liveMaxLotsPerLeg} " ++
    s!"x a lot of {lotSize} = {bound} unit(s). The bound is expressed in LOTS, so it " ++
    "follows this instrument's lot size rather than a fixed unit count."

def exceedsUnits : String :=
  s!"one lot of this instrument is {lotSize} unit(s)" ++
    s!", above BOX_LIVE_MAX_OPEN_LEG_QUANTITY={cfg.liveMaxOpenLegQuantity}. No leg of this box can be " ++
    "sent. If you intend to trade whatever one lot happens to be across several underlyings, " ++
    "set BOX_LIVE_MAX_LOTS_PER_LEG=1 (a lot-relative bound) instead of raising this unit cap — " ++
    "a single unit number cannot mean \"one lot\" for instruments with different lot sizes."

def exceedsGross : String :=
  s!"four legs of {lotSize} unit(s) need {lotSize * 4} unit(s), above " ++
    s!"BOX_LIVE_MAX_GROSS_OPEN_LEG_QUANTITY={cfg.liveMaxGrossOpenLegQuantity}. A Box is four legs, so this " ++
    "ceiling must be at least 4x the per-leg allowance you intend to carry."

def quantityEnvelope : Option String :=
  match (perLegLimit cfg lotSize).filter fun limit => decide (limit.1 < lotSize) with
  | some (bound, true) => some (exceedsLots cfg lotSize bound)
  | some (_, false) => some (exceedsUnits cfg lotSize)
  | none =>
    if 0 < cfg.liveMaxGrossOpenLegQuantity ∧ cfg.liveMaxGrossOpenLegQuantity < lotSize * 4 then
      some (exceedsGross cfg lotSize)
    else none

variable (candidate : EntryCandidate)

def quantityCap : Option Refusal :=
  if cfg.mode = .live then
    (quantityEnvelope cfg candidate.lotSize).map fun refusal =>
      ⟨"lot_exceeds_quantity_cap", s!"{candidate.underlying}: {refusal} The attempt is refused before it costs an " ++
        "attempt, a reservation or a broker round trip."⟩
  else none

def underlyingActive (gates : EntryGates) : Option Refusal :=
  if cfg.oneActiveBoxPerUnderlying then
    gates.activeUnderlying.map fun detail =>
      ⟨"underlying_already_active", s!"{detail}; BOX_ONE_ACTIVE_BOX_PER_UNDERLYING is enabled, so a second " ++
        s!"{cfg.toUpperCase (trim candidate.underlying)} Box " ++
        "may not enter regardless of strike pair, expiry or direction. This is NOT a contract " ++
        "reservation conflict."⟩
  else none

def entriesInFlight : ℕ :=
  (s.active.filter fun exec => exec.opportunityId.isSome).length

def inventoryLimit : Option Refusal :=
  let held := gates.boxInventory + s.entriesInFlight + s.holds.length
  if 0 < cfg.maxOpenBoxes ∧ cfg.maxOpenBoxes ≤ held then
    some ⟨"box_inventory_limit",
      s!"BOX_MAX_OPEN_BOXES={cfg.maxOpenBoxes} is already met ({held} held: {gates.boxInventory} durable, " ++
        s!"{s.entriesInFlight} entry pipeline(s) in flight, {s.holds.length} reservation(s) held over an " ++
        "uncertain outcome), so no further box is entered on any underlying, in either direction. " ++
        "Exits, reductions and protective cancels are unaffected."⟩
  else none

def sameUnderlying : ℕ :=
  (s.active.filter fun exec => exec.underlying = underlying).length

def underlyingBudget : Option Refusal :=
  if 0 < cfg.maxConcurrentPerUnderlying ∧ cfg.maxConcurrentPerUnderlying ≤ s.sameUnderlying underlying then
    some ⟨"duplicate",
      s!"per-underlying execution budget reached ({s.sameUnderlying underlying}/{cfg.maxConcurrentPerUnderlying})"⟩
  else none

def prologue (gates : EntryGates) : Option Refusal :=
  (failedClosed cfg).or <| (s.duplicate cfg (s.opportunityId cfg candidate)).or <|
    (orphanedExposure candidate.underlying gates).or <| (sessionWindow gates).or <| (sessionLimit gates).or <|
    (excluded gates).or <| (quantityCap cfg candidate).or <| (underlyingActive cfg candidate gates).or <|
    (s.inventoryLimit cfg gates).or (s.underlyingBudget cfg candidate.underlying)

def claim (id : MintedId) (candidate : EntryCandidate) : ExecutionCoordinator :=
  let opportunityId := s.opportunityId cfg candidate
  { s with
    active := Keyed.put ActiveExecution.id s.active
      ⟨id, candidate.legKeys, candidate.underlying, none, s.context, false, none, some opportunityId⟩
    activeOpportunities := Keyed.put Prod.fst s.activeOpportunities (opportunityId, id) }

variable (id : MintedId)

def execution? : Option ActiveExecution :=
  s.active.find? fun exec => exec.id = id

def abandon : ExecutionCoordinator :=
  match s.execution? id with
  | none => s
  | some exec =>
    { s with
      active := s.active.filter fun exec => exec.id ≠ id
      activeOpportunities := s.activeOpportunities.filter fun entry =>
        ¬ (exec.opportunityId = some entry.1 ∧ entry.2 = id) }

def grant (keys : List String) (lease : Lease) : ExecutionCoordinator :=
  { s with active := s.active.map fun exec =>
      if exec.id = id then { exec with keys, lease := some lease, context := s.context } else exec }

def registerActive (keys : List String) (underlying : String) (lease : Lease) : ExecutionCoordinator :=
  { s with
    active := Keyed.put ActiveExecution.id s.active ⟨id, keys, underlying, some lease, s.context, false, none, none⟩ }

def releaseLease : ExecutionCoordinator :=
  { s with released := s.released ++ [id] }

def retain (exec : Option ActiveExecution) (why : String) (now : ℚ) : ExecutionCoordinator :=
  match exec.filter fun exec => !exec.ownershipLost with
  | some ⟨_, keys, _, some lease, context, _, _, _⟩ =>
    { s with holds := Keyed.put UncertainHold.id s.holds ⟨id, lease, context, keys, now, why⟩ }
  | _ => s

def holdOnUncertainty (why : String) (now : ℚ) : ExecutionCoordinator :=
  (s.abandon id).retain id (s.execution? id) why now

def settle (outcome : Certainty) (now : ℚ) : ExecutionCoordinator :=
  match outcome with
  | .clean => (s.abandon id).releaseLease id
  | .uncertain => s.holdOnUncertainty id "uncertain_terminal_state" now

/-! ## The claim on an underlying -/

variable (underlying : String)

def positionClaimKey : String :=
  cfg.toUpperCase (trim s.context.broker) ++ ":" ++ cfg.toUpperCase (trim underlying)

def positionClaim? (key : String) : Option PositionUnderlyingClaim :=
  s.positionClaims.find? fun claim => claim.key = key

def addHolder (key : String) (holder : Holder) : ExecutionCoordinator :=
  { s with positionClaims := s.positionClaims.map fun claim =>
      if claim.key = key then
        { claim with holders := if holder ∈ claim.holders then claim.holders else claim.holders ++ [holder] }
      else claim }

def holdUnderlying (holder : Holder) (exclusive : Bool) : ExecutionCoordinator × (Bool ⊕ Acquiring) :=
  if !cfg.oneActiveBoxPerUnderlying then (s, .inl false)
  else
    let key := s.positionClaimKey cfg underlying
    match s.positionClaim? key with
    | some _ => if exclusive then (s, .inl false) else (s.addHolder key holder, .inl true)
    | none =>
      ({ s with seq := s.seq + 1 },
        .inr ⟨⟨.underlying, s.seq + 1⟩, key, holder, s.context, cfg.toUpperCase (trim underlying)⟩)

def underlyingAcquired (acquiring : Acquiring) : Answer → ExecutionCoordinator × Bool
  | .acquire (.acquired lease) _ =>
    ({ s with
      positionClaims := Keyed.put PositionUnderlyingClaim.key s.positionClaims
        ⟨acquiring.key, acquiring.owner, lease, acquiring.context, acquiring.underlying, [acquiring.holder], false⟩ }, true)
  | _ => (s, false)

/-- `dropUnderlyingHolder` up to its await: the lease it releases when the last holder goes. -/
def dropUnderlyingHolder (holder : Holder) : ExecutionCoordinator × Option MintedId :=
  let key := s.positionClaimKey cfg underlying
  match s.positionClaim? key with
  | none => (s, none)
  | some claim =>
    let holders := claim.holders.filter fun other => other ≠ holder
    if holders ≠ [] then
      ({ s with positionClaims := s.positionClaims.map fun claim =>
          if claim.key = key then { claim with holders } else claim }, none)
    else
      ({ s with
        positionClaims := s.positionClaims.filter fun claim => claim.key ≠ key
        drops := s.drops ++ [claim.owner] }, some claim.owner)

def releasePipelineHold (id : MintedId) (underlying : Option String) : ExecutionCoordinator :=
  match underlying.filter fun underlying => cfg.oneActiveBoxPerUnderlying && underlying != "" with
  | some underlying => (s.dropUnderlyingHolder cfg underlying (.pipeline id)).1
  | none => s

def abandonAndReleaseHold (id : MintedId) : ExecutionCoordinator :=
  (s.releasePipelineHold cfg id ((s.execution? id).map ActiveExecution.underlying)).abandon id

end ExecutionCoordinator

end Coordination

end BoxEngine
