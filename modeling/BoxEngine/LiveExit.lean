import BoxEngine.Lib.Text
import BoxEngine.OrderRequest

/-!
# Live exits and protective unwinds

The exit of a position in two waves and the reversal of a partial entry, each with the trace of its orders. Nothing is
assumed of the venue's answers.
-/

namespace BoxEngine

open Js

structure BoxOptionInstrument where
  token : Number
  tradingsymbol : String
  exchange : String

structure BoxOpenPosition where
  id : String
  direction : Option BoxDirection
  remainingQtyByRole : BoxLegRole → Number
  legs : BoxLegRole → BoxOptionInstrument

def isSafeInteger : Number → Bool
  | .fin q => q.den = 1 && decide (|q| ≤ 9007199254740991)
  | _ => false

/-- The outstanding roles of a position, in the canonical order; an unusable quantity throws. -/
def outstandingRoles (position : BoxOpenPosition) : List BoxLegRole → Except String (List (BoxLegRole × Number))
  | [] => .ok []
  | role :: roles =>
    let q := position.remainingQtyByRole role
    if isSafeInteger q = false ∨ q < .fin 0 then
      .error s!"{role.label} outstanding quantity must be a non-negative safe integer"
    else do
      let out ← outstandingRoles position roles
      return if .fin 0 < q then (role, q) :: out else out

inductive Moment where
  | submitted (request : BrokerOrderRequest)
  | answered (role : BoxLegRole) (answer : SubmitAnswer)

structure ExitWaveOutcome where
  filled : Number
  certain : Bool

abbrev ByRole (α : Type) := BoxLegRole → Option α

def ByRole.set {α : Type} (map : ByRole α) (role : BoxLegRole) (value : α) : ByRole α :=
  fun r => if r = role then some value else map r

structure Venue where
  opening : Except String Unit
  buildOrderPricing : BoxLegRole → OrderSide → ℚ → Except String BrokerLimitPricing
  precheckOne : BrokerOrderRequest → Except String (Option String)
  submit : BrokerOrderRequest → SubmitAnswer
  arrival : (requests : List BrokerOrderRequest) → {arrived : List BrokerOrderRequest // arrived.Perm requests}

/-! ## One wave -/

structure WaveLeg where
  role : BoxLegRole
  quantity : ℚ

structure ExitLog where
  orders : List BrokerOrder
  uncertain : Bool
  attempted : ℕ
  withheld : List String
  brokerRejected : List String
  heldForCover : List String
  notSubmitted : List String
  trace : List Moment

def ExitLog.empty : ExitLog := ⟨[], false, 0, [], [], [], [], []⟩

/-- A reason without the words the position monitor reads as an unprovable outcome. -/
def withheldReason (reason : String) : String :=
  replaceAllFold "reconcil" "re-check" (replaceAllFold "uncertain" "not-established" reason)

def ExitLog.notSent (log : ExitLog) (role : BoxLegRole) (reason : String) : ExitLog :=
  { log with
    withheld := log.withheld ++ [s!"{role.label} not submitted: {withheldReason reason}"]
    notSubmitted := log.notSubmitted ++ [s!"{role.label} ({withheldReason reason})"] }

structure ExitContext where
  position : BoxOpenPosition
  direction : BoxDirection
  attemptId : String

variable (ctx : ExitContext)
variable (venue : Venue)

def ExitContext.build (role : BoxLegRole) (quantity : ℚ) : Except String BrokerOrderRequest := do
  let side := exitSideFor role ctx.direction
  let pricing ← venue.buildOrderPricing role side quantity
  let inst := ctx.position.legs role
  return {
    clientOrderId := boxClientOrderId ctx.position.id .exit role ctx.attemptId
    role
    tradeId := some ctx.position.id
    attemptId := ctx.attemptId
    purpose := .exit
    phase := .exit
    exchange := inst.exchange
    tradingsymbol := inst.tradingsymbol
    token := inst.token
    side
    quantity := .fin quantity
    pricing }

structure Admission where
  log : ExitLog
  byRole : ByRole ExitWaveOutcome
  admitted : List BrokerOrderRequest

/-- A leg that cannot be sent is a proven zero; an error ends the whole wave. -/
def admitLeg (a : Admission) (leg : WaveLeg) : Admission × Option String :=
  let log := { a.log with attempted := a.log.attempted + 1 }
  let refused := fun reason =>
    { a with log := log.notSent leg.role reason, byRole := a.byRole.set leg.role ⟨.fin 0, true⟩ }
  match ctx.build venue leg.role leg.quantity with
  | .error reason => (refused reason, none)
  | .ok request =>
    match venue.precheckOne request with
    | .error thrown => ({ a with log := log }, some thrown)
    | .ok (some reason) => (refused reason, none)
    | .ok none => ({ a with log := log, admitted := a.admitted ++ [request] }, none)

def admitLegs (ctx : ExitContext) (venue : Venue) : Admission → List WaveLeg → Admission × Option String
  | a, [] => (a, none)
  | a, leg :: legs =>
    match admitLeg ctx venue a leg with
    | (a', some thrown) => (a', some thrown)
    | (a', none) => admitLegs ctx venue a' legs

structure Settlement where
  log : ExitLog
  byRole : ByRole ExitWaveOutcome

def settleLeg (s : Settlement) (role : BoxLegRole) : SubmitAnswer → Settlement
  | .ok order =>
    { log := { s.log with
        orders := s.log.orders ++ [order]
        uncertain := s.log.uncertain || order.state = .unknown || order.state = .reconciliationRequired }
      byRole := s.byRole.set role ⟨order.filledQuantity, isBrokerOrderTerminal order.state⟩ }
  -- a local refusal never reached the broker
  | .error (.preSubmitRefused clientOrderId stage spent reason) =>
    { log := s.log.notSent role (errorMessage (.preSubmitRefused clientOrderId stage spent reason))
      byRole := s.byRole.set role ⟨.fin 0, true⟩ }
  | .error (.persistenceAfterFill order) =>
    { log := { s.log with orders := s.log.orders ++ [order], uncertain := true }
      byRole := s.byRole.set role ⟨order.filledQuantity, false⟩ }
  | .error (.orderRejected order) =>
    if provesZeroExposure order then
      let brokerReason := order.rejectReason.getD (errorMessage (.orderRejected order))
      let entry := s!"{role.label} rejected by broker: {withheldReason brokerReason}"
      { log := { s.log with
          withheld := s.log.withheld ++ [entry]
          brokerRejected := s.log.brokerRejected ++ [entry] }
        byRole := s.byRole.set role ⟨.fin 0, true⟩ }
    else
      { log := { s.log with uncertain := true }, byRole := s.byRole.set role ⟨.fin 0, false⟩ }
  | .error _ =>
    { log := { s.log with uncertain := true }, byRole := s.byRole.set role ⟨.fin 0, false⟩ }

def Venue.answer (request : BrokerOrderRequest) : Moment :=
  .answered request.role (venue.submit request)

def runWave (legs : List WaveLeg) (log : ExitLog) : ExitLog × Except String (ByRole ExitWaveOutcome) :=
  if legs.isEmpty then (log, .ok fun _ => none)
  else
    match venue.opening with
    | .error thrown => (log, .error thrown)
    | .ok () =>
      match admitLegs ctx venue ⟨log, fun _ => none, []⟩ legs with
      | (a, some thrown) => (a.log, .error thrown)
      | (a, none) =>
        let sent := { a.log with
          trace := a.log.trace ++ a.admitted.map .submitted ++ (venue.arrival a.admitted).val.map venue.answer }
        let settled := a.admitted.foldl (fun s request => settleLeg s request.role (venue.submit request))
          ⟨sent, a.byRole⟩
        (settled.log, .ok settled.byRole)

/-! ## The exit -/

structure Releases where
  log : ExitLog
  legs : List WaveLeg

/-- What is known of a short when the hedge beside it is sized; no evidence at all is uncertain. -/
def coverEvidence (shortOutstanding : Number) (evidence : Option ExitWaveOutcome) : ShortCloseEvidence where
  shortOutstanding
  confirmedClosed := (evidence.map ExitWaveOutcome.filled).getD (.fin 0)
  certain := (evidence.map ExitWaveOutcome.certain).getD false

/-- One hedge of the second wave, sized from what the first wave proved about its short. -/
def releaseHedge (outstandingByRole : BoxLegRole → Option Number) (wave0 : ByRole ExitWaveOutcome) (r : Releases)
    (slot : ExitDependencySlot) : Releases :=
  match slot.covers with
  | none => r
  | some short =>
    let releasable := releasableHedgeQuantity (.fin slot.outstanding)
      (coverEvidence ((outstandingByRole short).getD (.fin 0)) (wave0 short))
    let held := fun (quantity : ℚ) =>
      let entry := s!"{slot.role.label} held back {(Number.fin quantity).toText} covering {short.label}"
      { r.log with withheld := r.log.withheld ++ [entry], heldForCover := r.log.heldForCover ++ [entry] }
    if releasable ≤ 0 then { r with log := held slot.outstanding }
    else
      { log := if releasable < slot.outstanding then held (slot.outstanding - releasable) else r.log
        legs := r.legs ++ [⟨slot.role, releasable⟩] }

inductive ExitReason where
  | leggingIncomplete | insufficientQuantity
  deriving DecidableEq

structure ExitResult where
  ok : Bool
  reason : Option ExitReason
  detail : String
  violation : Option String
  log : ExitLog

def closedByRole (orders : List BrokerOrder) (role : BoxLegRole) : Number :=
  orders.foldl (fun closed order => if order.role = role then closed.add order.filledQuantity else closed) (.fin 0)

def joined (entries : List String) : String := "; ".intercalate entries

def exitDetail (log : ExitLog) (outstanding : List (BoxLegRole × Number)) : String :=
  let stillOpen := outstanding.filterMap fun (role, quantity) =>
    let remaining := quantity.sub (closedByRole log.orders role)
    if .fin 0 < remaining then some s!"{role.label} {remaining.toText}" else none
  let openSummary := if stillOpen.isEmpty then "none" else ", ".intercalate stillOpen
  let coverSuffix := if log.heldForCover.isEmpty then "" else s!" Held as required cover: {joined log.heldForCover}."
  if log.uncertain then "exit terminal quantity uncertain; position moved to recovery"
  else if ¬ log.brokerRejected.isEmpty ∨ ¬ log.notSubmitted.isEmpty then
    s!"live exit FAILED to reduce {log.brokerRejected.length + log.notSubmitted.length} leg(s); exposure is unchanged on those legs." ++
      (if log.brokerRejected.isEmpty then "" else s!" REJECTED BY BROKER: {joined log.brokerRejected}.") ++
      (if log.notSubmitted.isEmpty then ""
        else s!" NOT SUBMITTED (no order reached the broker): {joined log.notSubmitted}.") ++
      s!" Still open: {openSummary}. Automated reduction will retry, but if it keeps failing the position must be reduced MANUALLY AT THE BROKER TERMINAL." ++
      coverSuffix
  else if ¬ log.heldForCover.isEmpty then
    s!"live exit preserved required hedge cover: {joined log.heldForCover}. Still open: {openSummary}."
  else
    s!"live exit partially filled; the broker confirmed less than the outstanding quantity. Still open: {openSummary}."

def releaseWave (outstandingByRole : BoxLegRole → Option Number)
    (hedges : List ExitDependencySlot) (wave0 : ByRole ExitWaveOutcome) (log : ExitLog) : ExitLog :=
  let releases := hedges.foldl (releaseHedge outstandingByRole wave0) ⟨log, []⟩
  match runWave ctx venue releases.legs releases.log with
  | (log, .ok _) => log
  | (log, .error thrown) =>
    let entry := s!"hedge release blocked: {thrown}"
    { log with withheld := log.withheld ++ [entry], heldForCover := log.heldForCover ++ [entry] }

def finishExit (attemptId : String) (outstanding : List (BoxLegRole × Number)) (log : ExitLog) : ExitResult :=
  let violation :=
    if log.uncertain then some s!"live exit {attemptId} has uncertain broker terminal quantity" else none
  let clean := ¬ log.uncertain ∧ log.withheld.isEmpty ∧
    outstanding.all fun (role, quantity) => quantity ≤ closedByRole log.orders role
  if clean then ⟨true, none, "", violation, log⟩
  else ⟨false, some .leggingIncomplete, exitDetail log outstanding, violation, log⟩

def byRoleOf (outstanding : List (BoxLegRole × Number)) (role : BoxLegRole) : Option Number :=
  (outstanding.find? fun entry => entry.1 = role).map Prod.snd

def BoxOpenPosition.entryDirection (position : BoxOpenPosition) : BoxDirection := position.direction.getD .longBox

def simulateLeggingExit (position : BoxOpenPosition) (detectedAt : Number) (first second : Venue) :
    Except String ExitResult :=
  match outstandingRoles position boxLegRoles with
  | .error thrown => .error thrown
  | .ok outstanding =>
    if outstanding.isEmpty then .ok ⟨false, some .leggingIncomplete, "position already flat", none, .empty⟩
    else
      let ctx := ⟨position, position.entryDirection, stableAttemptId position.id detectedAt "EXIT"⟩
      let plan := planExitDependencies position.entryDirection (byRoleOf outstanding)
      match runWave ctx first (plan.wave0.map fun slot => ⟨slot.role, slot.outstanding⟩) .empty with
      | (log, .error thrown) => .ok ⟨false, some .insufficientQuantity, thrown, none, log⟩
      | (log, .ok wave0) =>
        .ok (finishExit ctx.attemptId outstanding
          (releaseWave ctx second (byRoleOf outstanding) plan.wave1 wave0 log))

/-! ## The protective unwind -/

structure UnwindVenue where
  touchPrice : BrokerOrder → OrderSide → Option Number
  buildOrderPricing : BoxLegRole → OrderSide → Number → Number → Except String BrokerLimitPricing
  precheck : BrokerOrderRequest → Except String Unit
  submit : BrokerOrderRequest → SubmitAnswer

structure UnwindContext where
  instruments : BoxLegRole → BoxOptionInstrument
  tradeId : String
  attemptId : String

structure ConfirmedExposure where
  order : BrokerOrder
  quantity : Number

def confirmedExposure (orders : List BrokerOrder) : ByRole ConfirmedExposure :=
  orders.foldl (fun exposure order =>
    if order.filledQuantity ≤ .fin 0 then exposure
    else
      let prior := ((exposure order.role).map ConfirmedExposure.quantity).getD (.fin 0)
      exposure.set order.role ⟨order, prior.add order.filledQuantity⟩) fun _ => none

structure UnwindLog where
  unwinds : List BrokerOrder
  violations : List String
  trace : List Moment

def UnwindLog.empty : UnwindLog := ⟨[], [], []⟩

def OrderSide.reverse : OrderSide → OrderSide
  | .buy => .sell
  | .sell => .buy

variable (ctx : UnwindContext)

def unwindRequest (order : BrokerOrder) (side : OrderSide) (quantity : Number)
    (pricing : BrokerLimitPricing) : BrokerOrderRequest :=
  let inst := ctx.instruments order.role
  { clientOrderId := boxClientOrderId ctx.tradeId .emergencyResidual order.role ctx.attemptId
    role := order.role
    tradeId := some ctx.tradeId
    attemptId := ctx.attemptId
    purpose := .emergencyResidual
    phase := .unwind
    exchange := inst.exchange
    tradingsymbol := inst.tradingsymbol
    token := inst.token
    side
    quantity
    pricing }

variable (venue : UnwindVenue)

/-- One protective order against a leg that filled; what cannot be priced or sent is noted as a violation. -/
def reverseLeg (order : BrokerOrder) (quantity : Number) (log : UnwindLog) : UnwindLog × ExitWaveOutcome :=
  let side := order.side.reverse
  let failed := fun (log : UnwindLog) (message : String) =>
    { log with
      violations := log.violations ++ [s!"protective unwind failed for {order.clientOrderId}: {message}"] }
  match (venue.touchPrice order side).filter fun price => price ≠ .fin 0 ∧ price ≠ .nan with
  | none =>
    ({ log with violations := log.violations ++ [s!"cannot price protective unwind for {order.clientOrderId}"] },
      ⟨.fin 0, false⟩)
  | some reference =>
    match venue.buildOrderPricing order.role side quantity reference with
    | .error message => (failed log message, ⟨.fin 0, false⟩)
    | .ok pricing =>
      let request := unwindRequest ctx order side quantity pricing
      match venue.precheck request with
      | .error message => (failed log message, ⟨.fin 0, false⟩)
      | .ok () =>
        let answer := venue.submit request
        let log := { log with trace := log.trace ++ [.submitted request, .answered order.role answer] }
        match answer with
        | .ok result =>
          ({ log with unwinds := log.unwinds ++ [result] },
            ⟨result.filledQuantity, isBrokerOrderTerminal result.state⟩)
        | .error (.persistenceAfterFill result) =>
          (failed { log with unwinds := log.unwinds ++ [result] } (errorMessage (.persistenceAfterFill result)),
            ⟨result.filledQuantity, false⟩)
        -- only a local refusal proves that nothing was sent
        | .error (.preSubmitRefused clientOrderId stage spent reason) =>
          (failed log (errorMessage (.preSubmitRefused clientOrderId stage spent reason)), ⟨.fin 0, true⟩)
        | .error error => (failed log (errorMessage error), ⟨.fin 0, false⟩)

structure UnwindState where
  log : UnwindLog
  reduced : ByRole ExitWaveOutcome

def buyBack (exposure : ByRole ConfirmedExposure) (s : UnwindState) (role : BoxLegRole) : UnwindState :=
  match exposure role with
  | none => s
  | some item =>
    if item.order.side = .sell then
      let (log, outcome) := reverseLeg ctx venue item.order item.quantity s.log
      { log, reduced := s.reduced.set role outcome }
    else s

def shortBeside (exposure : ByRole ConfirmedExposure) (role : BoxLegRole) : Number :=
  match exposure (verticalPartner role) with
  | some item => if item.order.side = .sell then item.quantity else .fin 0
  | none => .fin 0

def releaseLong (exposure : ByRole ConfirmedExposure)
    (reduced : ByRole ExitWaveOutcome) (log : UnwindLog) (role : BoxLegRole) : UnwindLog :=
  match exposure role with
  | none => log
  | some item =>
    if item.order.side = .buy then
      let partner := verticalPartner role
      let evidence := reduced partner
      let shortOutstanding := shortBeside exposure role
      let releasable := releasableHedgeQuantity item.quantity (coverEvidence shortOutstanding evidence)
      if releasable ≤ 0 then
        let certainFill := match evidence with
          | some outcome => if outcome.certain then outcome.filled else .fin 0
          | none => .fin 0
        let standing := shortOutstanding.sub (certainFill.min shortOutstanding)
        { log with violations := log.violations ++
          [s!"protective unwind {ctx.attemptId} preserved hedge {role.label} ({item.quantity.toText}) because short {partner.label} still has {standing.toText} outstanding; the exposure is carried as residual instead of sold"] }
      else (reverseLeg ctx venue item.order (.fin releasable) log).1
    else log

def unwindConfirmed (venue : BoxLegRole → UnwindVenue) (orders : List BrokerOrder) : UnwindLog :=
  let exposure := confirmedExposure orders
  let shorts := boxLegRoles.foldl (fun s role => buyBack ctx (venue role) exposure s role) ⟨.empty, fun _ => none⟩
  boxLegRoles.foldl (fun log role => releaseLong ctx (venue role) exposure shorts.reduced log role) shorts.log

end BoxEngine
