import BoxEngine.PartialEntryRecovery

/-!
# Live entries

Four legs submitted hedge first, and their settled answers: a quarantine while anything is unproven, an unwind when
the box is incomplete or misprices, an open box otherwise.
-/

namespace BoxEngine

open Js

structure EntrySubmissionSlot where
  role : BoxLegRole
  side : OrderSide
  rank : ℕ
  hedge : Bool

def entrySubmissionOrder (direction : BoxDirection) : List EntrySubmissionSlot :=
  let sides := boxEntrySidesByDirection direction
  let buys := boxLegRoles.filter fun role => sides role = .buy
  let sells := boxLegRoles.filter fun role => ¬ sides role = .buy
  (buys ++ sells).zipIdx.map fun entry => ⟨entry.1, sides entry.1, entry.2, sides entry.1 = .buy⟩

structure EntryContext where
  direction : BoxDirection
  lotSize : Number
  legs : BoxLegRole → BoxOptionInstrument
  tradeId : String
  attemptId : String

inductive BoxEntryOutcomeClass where
  | opened
  | refusedBeforeSubmit
  | noFill
  | partialEntryUnwound
  | partialEntryResidual
  | filledThenEconomicsAbort
  | filledExposureUnrecorded
  | quarantinedUnknown
  deriving DecidableEq

structure EntryRefusal where
  reason : String
  detail : String
  outcomeClass : Option BoxEntryOutcomeClass

structure BoxEntryDecision where
  qualifies : Bool
  expectedNetProfit : Option Number
  minExpectedNetProfit : Option Number

structure EntryDesk where
  /-- The gates before the requests are built, and those between there and the first submission. -/
  beforeBuild : Option EntryRefusal
  beforeSubmit : Option EntryRefusal
  buildOrderPricing : EntrySubmissionSlot → Except String BrokerLimitPricing
  precheck : List BrokerOrderRequest → Except String Unit
  submit : BrokerOrderRequest → SubmitAnswer
  qualify : List BrokerOrder → Except String BoxEntryDecision
  unwind : BoxLegRole → UnwindVenue

structure EntryResidual where
  token : Number
  tradingsymbol : String
  exchange : Option String
  role : BoxLegRole
  side : OrderSide
  quantity : Number
  averagePrice : Number
  createdAt : Number

structure EntryFailure where
  reason : String
  detail : String
  outcomeClass : Option BoxEntryOutcomeClass
  orders : List BrokerOrder
  residual : List EntryResidual
  unwindOrders : List BrokerOrder
  abortAfterFill : Bool

inductive LiveEntryResult where
  | opened (orders : List BrokerOrder) (decision : BoxEntryDecision)
  | failed (failure : EntryFailure)

structure LiveEntry where
  result : LiveEntryResult
  violations : List String
  submissions : List BrokerOrderRequest
  reversals : List Moment

/-! ## Reading the settled answers -/

variable (settled : List SubmitAnswer)

def ordersFromSettled : List BrokerOrder :=
  settled.filterMap fun
    | .ok order => some order
    | .error (.ambiguousSubmit _ _ order) => order
    | .error (.orderRejected order) => if provesZeroExposure order then none else some order
    | .error (.persistenceAfterFill order) => some order
    | .error (.preSubmitRefused _ _ _ _) => none
    | .error (.other _) => none

variable (orders : List BrokerOrder)

def canonicalRoleOrder : List BrokerOrder :=
  boxLegRoles.flatMap fun role => orders.filter fun order => order.role = role

def provenNoExposure : SubmitError → Bool
  | .preSubmitRefused _ _ _ _ => true
  | .orderRejected order => provesZeroExposure order
  | _ => false

def uncertainError (error : SubmitError) : Bool :=
  ¬ provenNoExposure error ||
    (match error with
    | .persistenceAfterFill _ => true
    | .ambiguousSubmit _ _ _ => true
    | _ => false) ||
    matchesAny ["unknown", "ambiguous", "reconcil"] (errorMessage error)

def disputedState (state : BrokerOrderState) : Bool := state = .unknown || state = .reconciliationRequired

def uncertainEntry (orders : List BrokerOrder) : Bool :=
  settled.any (fun answer => match answer with
    | .ok _ => false
    | .error error => uncertainError error) ||
    orders.any fun order => disputedState order.state

/-- An undisputed snapshot is a settled quantity; a missing one was refused before anything was sent. -/
def entryLegOutcomes (requests : List BrokerOrderRequest) (orders : List BrokerOrder) : List EntryLegOutcome :=
  let byRole : ByRole BrokerOrder := orders.foldl (fun byRole order => byRole.set order.role order) fun _ => none
  requests.map fun request =>
    match byRole request.role with
    | none => ⟨request.role, request.side, request.quantity, .fin 0, true, false, true⟩
    | some order =>
      let provable := ¬ disputedState order.state
      ⟨order.role, order.side, order.quantity, order.filledQuantity, provable, true, provable⟩

def unwindFillByRole (unwinds : List BrokerOrder) : ByRole Number :=
  unwinds.foldl (fun byRole order => byRole.set order.role order.filledQuantity) fun _ => none

def residualAfterUnwind (entries unwinds : List BrokerOrder) : List EntryResidual :=
  let unwindByRole := unwindFillByRole unwinds
  entries.filterMap fun entry =>
    let remaining := entry.filledQuantity.sub ((unwindByRole entry.role).getD (.fin 0))
    if remaining ≤ .fin 0 then none
    else some ⟨entry.token, entry.tradingsymbol, some entry.exchange, entry.role, entry.side, remaining,
      entry.averagePrice.getD (.fin 0), entry.updatedAt⟩

def liveEntryFailure (refusal : EntryRefusal) (residual : Option (List EntryResidual))
    (unwindOrders : List BrokerOrder) : EntryFailure where
  reason := refusal.reason
  detail := refusal.detail
  outcomeClass := refusal.outcomeClass
  orders
  residual := residual.getD (orders.filterMap fun order =>
    if .fin 0 < order.filledQuantity then
      some ⟨order.token, order.tradingsymbol, none, order.role, order.side, order.filledQuantity,
        order.averagePrice.getD order.limitPrice, order.updatedAt⟩
    else none)
  unwindOrders
  abortAfterFill := false

def conservationViolation (plan : PartialEntryPlan) (entryOrders unwindOrders : List BrokerOrder)
    (attemptId phase : String) : Option String :=
  let unwoundByRole : ByRole Number := unwindOrders.foldl (fun (byRole : ByRole Number) order =>
    byRole.set order.role (((byRole order.role).getD (.fin 0)).add order.filledQuantity)) fun _ => none
  let result := verifyQuantityConservation (entryOrders.map fun order =>
    ⟨order.role, order.side, order.quantity, order.filledQuantity, true, true, true⟩) unwoundByRole
  if result.conserved then none
  else
    let listed := "; ".intercalate (result.violations.map fun violation =>
      s!"{violation.role.label}:{violation.kind.label}({violation.detail})")
    some s!"live entry {attemptId} ({phase}) violated quantity conservation: {listed}. Planned unwind was {plan.unwind.length} leg(s)."

/-! ## The entry -/

def disputedLine (order : BrokerOrder) : String :=
  let reason := match order.rejectReason with
    | none => ""
    | some reason => if reason.isEmpty then "" else s!" ({reason})"
  let id := order.brokerOrderId.getD "unknown"
  s!"{order.role.label} {sideLabel order.side} state={order.state.label} cumulative_filled={order.filledQuantity.toText} broker_order_id={id}{reason}"

def quarantineDetail : String :=
  let disputed := orders.filter fun order => disputedState order.state
  if disputed.isEmpty then "broker terminal quantity is uncertain; entry quarantined and NOTHING was unwound"
  else
    let listed := "; ".intercalate (disputed.map disputedLine)
    s!"broker terminal quantity is uncertain; entry quarantined and NOTHING was unwound. Reconcile at the broker: {listed}"

def refusedBeforePost : Option String :=
  let refusals := settled.filterMap fun
    | .error (.preSubmitRefused _ _ _ reason) => some reason
    | _ => none
  if 0 < settled.length ∧ refusals.length = settled.length then some ("; ".intercalate refusals.eraseDups) else none

def failedEntry (failure : EntryFailure) (violations : List String) (reversals : List Moment) : LiveEntry :=
  ⟨.failed failure, violations, [], reversals⟩

def quarantined (detail violation : String) : LiveEntry :=
  failedEntry (liveEntryFailure orders ⟨"legging_incomplete", detail, some .quarantinedUnknown⟩ none []) [violation] []

variable (ctx : EntryContext)

def EntryContext.unwinding (suffix : String) : UnwindContext :=
  ⟨ctx.legs, ctx.tradeId, s!"{ctx.attemptId}:{suffix}"⟩

variable (desk : EntryDesk)

/-- A partial entry is unwound, or quarantined where a leg is not terminal or not proven. -/
def recoverPartialEntry (requests : List BrokerOrderRequest)
    (settled : List SubmitAnswer) (orders : List BrokerOrder) : LiveEntry :=
  let plan := planPartialEntryRecovery (entryLegOutcomes requests orders) boxLegRoles
  if plan.action = .quarantineUnknown ∨ plan.action = .awaitTerminal then
    quarantined orders s!"entry quarantined: {plan.detail}"
      s!"live entry {ctx.attemptId} reached partial-entry recovery with a non-terminal or unprovable leg ({plan.action.label}); quarantined instead of unwinding"
  else
    let unwound := if plan.action = .noExposure then UnwindLog.empty
      else unwindConfirmed (ctx.unwinding "unwind") desk.unwind orders
    let residual := residualAfterUnwind orders unwound.unwinds
    let broken := conservationViolation plan orders unwound.unwinds ctx.attemptId "partial_entry"
    let refused := refusedBeforePost settled
    let detail := match refused with
      | some reasons => s!"entry refused before any broker POST: {reasons}"
      | none => if plan.action = .noExposure then "entry did not fill; no exposure to unwind"
        else "entry incomplete; confirmed fills were protectively unwound"
    let outcomeClass := if plan.action = .noExposure then
        if refused.isSome then BoxEntryOutcomeClass.refusedBeforeSubmit else .noFill
      else if residual.isEmpty then .partialEntryUnwound else .partialEntryResidual
    failedEntry (liveEntryFailure orders ⟨"legging_incomplete", detail, some outcomeClass⟩ (some residual) unwound.unwinds)
      (unwound.violations ++ broken.toList) unwound.trace

def abortAfterFill (requests : List BrokerOrderRequest) (orders : List BrokerOrder) : LiveEntry :=
  let unwound := unwindConfirmed (ctx.unwinding "economics-unwind") desk.unwind orders
  let plan := planPartialEntryRecovery (entryLegOutcomes requests orders) boxLegRoles
  let broken := conservationViolation plan orders unwound.unwinds ctx.attemptId "economics_abort"
  let failure := liveEntryFailure orders
    ⟨"abort_after_fill", "executed prices failed final economics; confirmed box was unwound", some .filledThenEconomicsAbort⟩
    (some (residualAfterUnwind orders unwound.unwinds)) unwound.unwinds
  failedEntry { failure with abortAfterFill := true } (unwound.violations ++ broken.toList) unwound.trace

def settleEntry (requests : List BrokerOrderRequest) (settled : List SubmitAnswer) : LiveEntry :=
  let orders := canonicalRoleOrder (ordersFromSettled settled)
  if uncertainEntry settled orders then
    quarantined orders (quarantineDetail orders) s!"live entry {ctx.attemptId} has uncertain broker terminal quantity"
  else if ¬ (orders.length = requests.length ∧ orders.all fun order => order.quantity ≤ order.filledQuantity) then
    recoverPartialEntry ctx desk requests settled orders
  else
    match desk.qualify orders with
    -- no verdict: the confirmed exposure is kept and worked as residual
    | .error message =>
      let verify := "; ".intercalate (orders.map fun order =>
        let id := order.brokerOrderId.getD "unknown"
        s!"{order.role.label} {sideLabel order.side} {order.filledQuantity.toText} broker_order_id={id}")
      failedEntry (liveEntryFailure orders ⟨"legging_incomplete",
          s!"all four legs FILLED, then final qualification threw ({message}). The box was NOT opened and the confirmed exposure was NOT unwound — it is retained as residual exposure for broker-authoritative reconciliation. New entry is blocked. Verify the four legs at the broker: {verify}",
          some .filledExposureUnrecorded⟩ none [])
        [s!"live entry {ctx.attemptId} filled all four legs and then final qualification THREW ({message}); the confirmed exposure is retained for reconciliation"] []
    | .ok decision =>
      if decision.qualifies then ⟨.opened orders decision, [], [], []⟩ else abortAfterFill ctx desk requests orders

def entryRequest (slot : EntrySubmissionSlot) (pricing : BrokerLimitPricing) : BrokerOrderRequest :=
  let inst := ctx.legs slot.role
  { clientOrderId := boxClientOrderId ctx.tradeId .entry slot.role ctx.attemptId
    role := slot.role
    tradeId := some ctx.tradeId
    attemptId := ctx.attemptId
    purpose := .entry
    phase := .entry
    exchange := inst.exchange
    tradingsymbol := inst.tradingsymbol
    token := inst.token
    side := entrySideFor slot.role ctx.direction
    quantity := ctx.lotSize
    pricing }

def buildEntryRequests (ctx : EntryContext) (desk : EntryDesk) :
    List EntrySubmissionSlot → Except String (List BrokerOrderRequest)
  | [] => .ok []
  | slot :: slots => do
    let pricing ← desk.buildOrderPricing slot
    let rest ← buildEntryRequests ctx desk slots
    return entryRequest ctx slot pricing :: rest

def refusedEntry (refusal : EntryRefusal) : LiveEntry := failedEntry (liveEntryFailure [] refusal none []) [] []

def simulateLeggingEntry : LiveEntry :=
  match desk.beforeBuild with
  | some refusal => refusedEntry refusal
  | none =>
    match buildEntryRequests ctx desk (entrySubmissionOrder ctx.direction) with
    | .error message => refusedEntry ⟨"insufficient_quantity", message, none⟩
    | .ok requests =>
      match desk.precheck requests with
      | .error message => refusedEntry ⟨"insufficient_quantity", message, none⟩
      | .ok () =>
        match desk.beforeSubmit with
        | some refusal => refusedEntry refusal
        | none => { settleEntry ctx desk requests (requests.map desk.submit) with submissions := requests }

end BoxEngine
