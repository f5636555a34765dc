import BoxEngine.ResidualFlatten

/-!
# Live residual flattening

Shorts first, longs only once every short is flattened, then the accounting of what the pass saw. Everything outside
is the desk's.
-/

namespace BoxEngine

open Js

structure ReducingQuote where
  touch : Option Number
  «at» : Number

structure FlattenDesk where
  /-- The journal, when the order manager can be asked: unreadable, empty, or the intent of an id. -/
  findDurableIntent : Option (String → Except Unit (Option BoxOrderIntent))
  quote : Option ReducingQuote
  isTokenWarm : Option Bool
  now : Number
  quoteMaxAgeMs : Number
  buildOrderPricing : Number → Except String BrokerLimitPricing
  precheck : BrokerOrderRequest → Except String Unit
  submit : BrokerOrderRequest → SubmitAnswer

variable (desk : FlattenDesk)

def FlattenDesk.reference : Option Number :=
  desk.quote.bind fun quote =>
    let stale := desk.isTokenWarm.isSome && (desk.quoteMaxAgeMs < desk.now.sub quote.at : Bool)
    quote.touch.filter fun touch =>
      touch ≠ .fin 0 ∧ touch ≠ .nan ∧ desk.isTokenWarm ≠ some false ∧ stale = false

structure ResidualFlattenPass where
  residual : ResidualLegExposure
  attempt : ℕ
  order : Option BrokerOrder
  disposition : ResidualFlattenDisposition
  failure : Option ResidualFlattenFailureKind
  detail : Option String
  submitted : Option BrokerOrderRequest
  violation : Option String

variable (keyPrefix : String)
variable (residual : ResidualLegExposure)

def residualBase : String :=
  stableAttemptId keyPrefix residual.createdAt s!"RESIDUAL-{residual.role.label}"

variable (attempt : ℕ)

def residualClientOrderId : String :=
  boxClientOrderId keyPrefix .emergencyResidual residual.role
    (residualFlattenAttemptId (residualBase keyPrefix residual) attempt)

structure SelectedAttempt where
  attempt : ℕ
  terminalIntent : Option BoxOrderIntent

/-- At most the given number of probes: only a proven local refusal is passed over. -/
def probeAttempts (find : String → Except Unit (Option BoxOrderIntent)) (idOf : ℕ → String) : ℕ → ℕ → SelectedAttempt
  | 0, attempt => ⟨attempt, none⟩
  | fuel + 1, attempt =>
    match find (idOf attempt) with
    -- an unreadable journal keeps the current identity
    | .error () => ⟨attempt, none⟩
    | .ok none => ⟨attempt, none⟩
    | .ok (some existing) =>
      if existing.state = .rejected then
        if hasDurableLocalNoPostProvenance existing then probeAttempts find idOf fuel (attempt + 1)
        else ⟨attempt, some existing⟩
      else if existing.state = .complete ∨ existing.state = .cancelled then ⟨attempt, some existing⟩
      else ⟨attempt, none⟩

def firstAdoptableResidualAttempt (keyPrefix : String) (residual : ResidualLegExposure)
    (firstAttempt : ℕ) : SelectedAttempt :=
  match desk.findDurableIntent with
  | none => ⟨firstAttempt, none⟩
  | some find =>
    probeAttempts find (residualClientOrderId keyPrefix residual) maxResidualFlattenAttemptProbe firstAttempt

/-! ## One residual -/

def failPass (submitted : Option BrokerOrderRequest) (kind : ResidualFlattenFailureKind) (detail : String)
    (order : Option BrokerOrder) : ResidualFlattenPass where
  residual
  attempt
  order
  disposition := dispositionForFailure kind
  failure := some kind
  detail := some detail
  submitted
  violation :=
    if residualFailureIsInvariant kind then
      some s!"residual {keyPrefix} {residual.role.label} attempt-{attempt} [{kind.label}]: {residualFailurePhrase kind} — {detail}"
    else none

def rejectedPass
    (submitted : Option BrokerOrderRequest) (subject fallback : String) (order : BrokerOrder) : ResidualFlattenPass :=
  match verifyZeroBrokerExposure order with
  | none => failPass keyPrefix residual attempt submitted .brokerRejected (order.rejectReason.getD fallback) (some order)
  | some refusal =>
    failPass keyPrefix residual attempt submitted .brokerStateUnknown
      s!"{subject} does not prove zero exposure ({refusal.disproof.label}: {refusal.detail}); recorded fill {order.filledQuantity.toText}"
      (some order)

def replayPass (intent : BoxOrderIntent) : ResidualFlattenPass :=
  let order := brokerOrderFromDurableIntent intent
  if order.state = .rejected then
    rejectedPass keyPrefix residual attempt none "durable REJECTED intent" "durable broker rejection" order
  else
    { residual, attempt, order := some order
      disposition := classifyResidualOrder order residual.quantity
      failure := none, detail := none, submitted := none, violation := none }

def failureOf : SubmitError → ResidualFlattenFailureKind × Option BrokerOrder
  -- the broker owns a fill that could not be recorded
  | .persistenceAfterFill order => (.persistenceAfterFill, some order)
  | .preSubmitRefused _ _ _ _ => (.localPreSubmitRefused, none)
  | .orderRejected order =>
    (if provesZeroExposure order then .brokerRejected else .brokerStateUnknown, some order)
  | .ambiguousSubmit _ _ order => (.brokerStateUnknown, order)
  | .other message => (classifyResidualFlattenErrorMessage message, none)

def answeredPass (request : BrokerOrderRequest) : SubmitAnswer → ResidualFlattenPass
  | .ok order =>
    let disposition := classifyResidualOrder order residual.quantity
    if disposition = .adoptAttempt then
      failPass keyPrefix residual attempt (some request) .brokerStateUnknown
        s!"order state {order.state.label} is not terminal" (some order)
    else if order.state = .rejected then
      rejectedPass keyPrefix residual attempt (some request) "REJECTED snapshot" "broker rejected the reduction" order
    else
      { residual, attempt, order := some order, disposition
        failure := none, detail := none, submitted := some request, violation := none }
  | .error error =>
    let (kind, order) := failureOf error
    failPass keyPrefix residual attempt (some request) kind (errorMessage error) order

def residualRequest (pricing : BrokerLimitPricing) : BrokerOrderRequest where
  clientOrderId := residualClientOrderId keyPrefix residual attempt
  role := residual.role
  tradeId := some keyPrefix
  attemptId := residualFlattenAttemptId (residualBase keyPrefix residual) attempt
  purpose := .emergencyResidual
  phase := .unwind
  exchange := residual.exchange.getD "NFO"
  tradingsymbol := residual.tradingsymbol
  token := residual.token
  side := if residual.side = .buy then .sell else .buy
  quantity := .fin residual.quantity
  pricing

def prepareRequest (keyPrefix : String) (residual : ResidualLegExposure) (attempt : ℕ) :
    Except (ResidualFlattenFailureKind × String) BrokerOrderRequest :=
  match desk.reference with
  | none =>
    let side := if residual.side = .buy then "SELL" else "BUY"
    .error (.noExecutableBook, s!"no current executable {side} touch for {residual.tradingsymbol}")
  | some reference =>
    match desk.buildOrderPricing reference with
    | .error message => .error (classifyResidualFlattenErrorMessage message, message)
    | .ok pricing =>
      let request := residualRequest keyPrefix residual attempt pricing
      match desk.precheck request with
      | .error message => .error (.noExecutableBook, message)
      | .ok () => .ok request

def flattenOneResidual (keyPrefix : String) (residual : ResidualLegExposure) : ResidualFlattenPass :=
  let selected := firstAdoptableResidualAttempt desk keyPrefix residual (residualFlattenAttempt residual)
  if residualRejectionBudgetExhausted residual then
    failPass keyPrefix residual selected.attempt none .brokerRejectionBudgetExhausted
      s!"{(Number.fin residual.quantity).toText} {residual.tradingsymbol} still held ({sideLabel residual.side} side); {residualBrokerRejections residual} consecutive broker rejections with zero fill"
      none
  else
    match selected.terminalIntent with
    | some intent => replayPass keyPrefix residual selected.attempt intent
    | none =>
      match prepareRequest desk keyPrefix residual selected.attempt with
      | .error (kind, detail) => failPass keyPrefix residual selected.attempt none kind detail none
      | .ok request => answeredPass keyPrefix residual selected.attempt request (desk.submit request)

/-! ## Accounting -/

def round2 (v : ℚ) : ℚ := (⌊v * 100 + 1 / 2⌋ : ℚ) / 100

theorem round2_nonneg {v : ℚ} (h : 0 ≤ v) : 0 ≤ round2 v := by
  have hfloor : 0 ≤ ⌊v * 100 + 1 / 2⌋ := Int.floor_nonneg.mpr (by positivity)
  exact div_nonneg (by exact_mod_cast hfloor) (by norm_num)

theorem round2_of_int (k : ℤ) : round2 (k / 100) = k / 100 := by
  unfold round2
  have h : ⌊(k / 100 : ℚ) * 100 + 1 / 2⌋ = k := by
    rw [Int.floor_eq_iff]
    constructor <;> linarith
  rw [h]

variable (v : ℚ)

theorem round2_int : ∃ k : ℤ, round2 v = k / 100 := ⟨_, rfl⟩

@[simp] theorem round2_round2 : round2 (round2 v) = round2 v := by
  obtain ⟨k, hk⟩ := round2_int v
  rw [hk, round2_of_int]

theorem round2_sub {a b : ℚ} (ha : round2 a = a) (hb : round2 b = b) : round2 (a - b) = a - b := by
  obtain ⟨k, hk⟩ := round2_int a
  obtain ⟨l, hl⟩ := round2_int b
  rw [ha] at hk
  rw [hb] at hl
  have h := round2_of_int (k - l)
  rw [hk, hl]
  push_cast at h
  rw [sub_div] at h
  exact h

@[simp] theorem round2_zero : round2 0 = 0 := by
  have := round2_of_int 0
  simpa using this

theorem round2_error : |round2 v - v| ≤ 1 / 200 := by
  unfold round2
  have hle := Int.floor_le (v * 100 + 1 / 2)
  have hlt := Int.lt_floor_add_one (v * 100 + 1 / 2)
  rw [abs_le]
  constructor <;> linarith

/-- The charge estimator: side, contract, quantity, price. A total of charges is never negative. -/
abbrev ChargeTotal := Option (OrderSide → String → Number → Number → ℚ≥0)

variable (chargeTotal : ChargeTotal)

def residualCumulativeCharges (order : BrokerOrder) (filled : Number) (fallback : ℚ) : ℚ :=
  match order.averagePrice with
  | none => fallback
  | some price =>
    if .fin 0 < filled then
      round2 (chargeTotal.elim 0 fun total => total order.side order.tradingsymbol filled price)
    else fallback

inductive Watermarks where
  | legacy
  | valid (filled charges : ℚ)
  | invalid (filled charges : ℚ)
  deriving DecidableEq

def positivePart : Option Number → ℚ
  | some (.fin q) => if 0 < q then q else 0
  | _ => 0

def readWatermarks (rawFilled rawCharge : Option Number) : Watermarks :=
  match rawFilled, rawCharge with
  | none, none => .legacy
  | some (.fin filled), some (.fin charges) =>
    if 0 ≤ filled ∧ 0 ≤ charges then .valid filled (round2 charges)
    else .invalid (positivePart rawFilled) (round2 (positivePart rawCharge))
  | _, _ => .invalid (positivePart rawFilled) (round2 (positivePart rawCharge))

def passWatermarks (residual : ResidualLegExposure) (attempt : ℕ) : Watermarks :=
  if attempt = residualFlattenAttempt residual then
    readWatermarks residual.flattenAccountedFilled residual.flattenAccountedCharges
  else .legacy

structure PassAccount where
  disposition : ResidualFlattenDisposition
  fillDelta : Number
  chargeDelta : ℚ
  accounting : ResidualFlattenAccounting
  violation : Option String

def regressed (order : BrokerOrder) (accountedFilled : Number) : Bool :=
  order.filledQuantity.isFinite = false || order.filledQuantity < accountedFilled ||
    order.filledQuantity < .fin 0 || order.quantity < order.filledQuantity

variable (keyPrefix : String)
variable (pass : ResidualFlattenPass)

def accountOrder (order : BrokerOrder) (accountedFilled : Number) (accountedCharges : ℚ) : PassAccount :=
  let brokerFilled := order.filledQuantity
  let brokerCharges := residualCumulativeCharges chargeTotal order brokerFilled accountedCharges
  let regression := regressed order accountedFilled
  let candidate := if regression then .fin 0 else brokerFilled.sub accountedFilled
  if regression ∨ .fin pass.residual.quantity < candidate then
    -- quarantined: the watermarks stand, nothing is credited
    { disposition := .adoptAttempt
      fillDelta := .fin 0
      chargeDelta := 0
      accounting := ⟨some accountedFilled, some accountedCharges⟩
      violation := some s!"residual {keyPrefix} {pass.residual.role.label} attempt-{pass.attempt} cumulative accounting regressed or exceeded exposure (fill {accountedFilled.toText} -> {brokerFilled.toText}, charge {(Number.fin accountedCharges).toText} -> {(Number.fin brokerCharges).toText}, residual {(Number.fin pass.residual.quantity).toText})" }
  else
    { disposition := pass.disposition
      fillDelta := candidate
      chargeDelta := round2 (max 0 (brokerCharges - accountedCharges))
      accounting := ⟨some brokerFilled, some (max accountedCharges brokerCharges)⟩
      violation := none }

/-- What the immutable quantity of a legacy row's order says was already projected. -/
def legacyFilled (order : BrokerOrder) (residual : ResidualLegExposure) : Number :=
  (Number.fin 0).max (order.quantity.sub (.fin residual.quantity))

/-- What the pass adds to the marks of its attempt; without marks it counts from the legacy fill. -/
def accountPass : PassAccount :=
  match passWatermarks pass.residual pass.attempt with
  | .invalid filled charges =>
    { disposition := .adoptAttempt
      fillDelta := .fin 0
      chargeDelta := 0
      accounting := ⟨some (.fin filled), some charges⟩
      violation := some s!"residual {keyPrefix} {pass.residual.role.label} attempt-{pass.attempt} has inconsistent cumulative accounting watermarks" }
  | .valid filled charges =>
    match pass.order with
    | none => ⟨pass.disposition, .fin 0, 0, ⟨some (.fin filled), some charges⟩, none⟩
    | some order => accountOrder chargeTotal keyPrefix pass order (.fin filled) charges
  | .legacy =>
    match pass.order with
    | none => ⟨pass.disposition, .fin 0, 0, ⟨none, none⟩, none⟩
    | some order =>
      let accountedFilled := legacyFilled order pass.residual
      accountOrder chargeTotal keyPrefix pass order accountedFilled
        (residualCumulativeCharges chargeTotal order accountedFilled 0)

def outstandingAfter : Number :=
  (Number.fin pass.residual.quantity).sub (accountPass chargeTotal keyPrefix pass).fillDelta

def carryPass : Option ResidualLegExposure :=
  let account := accountPass chargeTotal keyPrefix pass
  match outstandingAfter chargeTotal keyPrefix pass with
  | .fin outstanding =>
    if h : 0 < outstanding then
      some (carryResidualForward pass.residual outstanding h pass.attempt account.disposition account.accounting
        pass.failure)
    else none
  | _ => none

structure DeskedResidual where
  residual : ResidualLegExposure
  desk : FlattenDesk

def heldPass (unresolved : List ResidualFlattenPass) (residual : ResidualLegExposure) : ResidualFlattenPass where
  residual
  attempt := residualFlattenAttempt residual
  order := none
  disposition := dispositionForFailure .hedgeCoverRetained
  failure := some .hedgeCoverRetained
  detail :=
    let blocking := ", ".intercalate (unresolved.map fun pass =>
      let kind := (pass.failure.map fun kind => ":" ++ kind.label).getD ""
      s!"{pass.residual.role.label}({pass.disposition.label}{kind})")
    some s!"held as cover while {unresolved.length} short residual(s) remain unproven [{blocking}]; selling it now would create naked short exposure"
  submitted := none
  violation := none

variable (keyPrefix : String)
variable (residuals : List DeskedResidual)

def shortPasses : List ResidualFlattenPass :=
  (residuals.filter fun r => r.residual.side = .sell).map fun r => flattenOneResidual r.desk keyPrefix r.residual

def unresolvedShorts : List ResidualFlattenPass :=
  (shortPasses keyPrefix residuals).filter fun pass => pass.disposition ≠ .flattened

def longPasses : List ResidualFlattenPass :=
  let unresolved := unresolvedShorts keyPrefix residuals
  (residuals.filter fun r => ¬ r.residual.side = .sell).map fun r =>
    if unresolved.isEmpty then flattenOneResidual r.desk keyPrefix r.residual else heldPass unresolved r.residual

def flattenPasses : List ResidualFlattenPass :=
  shortPasses keyPrefix residuals ++ longPasses keyPrefix residuals

structure FlattenResult where
  flattenedByRole : BoxLegRole → Number
  flattenCharges : ℚ
  remaining : List ResidualLegExposure
  violations : List String

def flattenResidual (keyPrefix : String) (residuals : List DeskedResidual) : FlattenResult :=
  let passes := flattenPasses keyPrefix residuals
  { flattenedByRole := fun role => passes.foldl (fun total pass =>
      if pass.residual.role = role then total.add (accountPass chargeTotal keyPrefix pass).fillDelta else total) (.fin 0)
    flattenCharges := passes.foldl (fun total pass =>
      round2 (total + (accountPass chargeTotal keyPrefix pass).chargeDelta)) 0
    remaining := passes.filterMap (carryPass chargeTotal keyPrefix)
    violations := passes.filterMap ResidualFlattenPass.violation ++
      passes.filterMap fun pass => (accountPass chargeTotal keyPrefix pass).violation }

end BoxEngine
