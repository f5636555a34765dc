import BoxEngine.CandidateEvaluation

/-!
# The leg executor

One run works the orders of a box, from one wait to the next: arrivals, deadlines and cancels in a sweep, fills as
books arrive. Travel times and cancel latencies are drawn once for each order.
-/

namespace BoxEngine.LegExecutor

open Js

inductive PaperLegStatus where
  | created | inFlight | pending | partiallyFilled | filled | cancelRequested | timedOut | cancelled | failed
  deriving DecidableEq

def PaperLegStatus.terminal : PaperLegStatus → Bool
  | .filled | .timedOut | .cancelled | .failed => true
  | _ => false

inductive PaperLegCancelStage where
  | preSubmission | inTransport | atExchange
  deriving DecidableEq

inductive CancelCause where
  | abort | timeout
  deriving DecidableEq

structure LegOrderRequest where
  role : BoxLegRole
  side : OrderSide
  token : Number
  detectedPrice : Option Number
  quantity : ℕ
  limitPrice : Option Number

/-- One order's record, as the run reports it. -/
structure PaperLegExecution where
  status : PaperLegStatus
  submitAt : ℚ
  arrivalAt : ℚ
  pendingSince : Option ℚ
  timeoutAt : Option ℚ
  cancelRequestedAt : Option ℚ
  cancelConfirmedAt : Option ℚ
  fillQtyAtCancelRequest : Option ℕ
  racedFillQty : ℕ
  cancelStage : Option PaperLegCancelStage
  fillAt : Option ℚ
  resolvedAt : Option ℚ
  limitPrice : Option Number
  quantity : ℕ
  fillQty : ℕ
  remainingQty : ℕ
  fills : List PaperFillSlice
  failReason : Option String

/-- An order with what the run needs of it; `submitted` and `filledBeforeAbort` only record its history. -/
structure LegState where
  req : LegOrderRequest
  leg : PaperLegExecution
  done : Bool
  fillAttempts : ℕ
  cancelCause : Option CancelCause
  submitted : Bool
  filledBeforeAbort : Bool

structure LegExecutorDeps where
  sequential : Bool
  legTimeoutMs : ℚ
  quoteMaxAgeMs : Number
  queueModel : BoxQueueModel
  queueHaircutPct : Number
  priceOrder : LegOrderRequest → Number → Number
  latency : ℕ → ℚ
  plannedArrivals : ℕ → Option ℚ
  cancelRace : Option (ℕ → ℚ)

structure Market where
  quotes : Number → Option BoxQuote
  reserved : ℕ → Option (Number → Option Number → Number)

structure Abort where
  reason : String
  detail : String

/-- The price a taker gets: the ask for a BUY, the bid for a SELL. -/
def touchPrice (side : OrderSide) (quote : BoxQuote) : Option Number :=
  let book := match side with
    | .buy => BookSide.ask
    | .sell => BookSide.bid
  Best.scan (betterPrice book) (((quote.levels book).filter fun lv =>
    lv.price.isFinite && decide (.fin 0 < lv.price) && isSafeInteger lv.qty && decide (.fin 0 < lv.qty)).map
      BoxDepthLevel.price)

def blankLeg (req : LegOrderRequest) : LegState where
  req
  leg :=
    { status := .created
      submitAt := 0
      arrivalAt := 0
      pendingSince := none
      timeoutAt := none
      cancelRequestedAt := none
      cancelConfirmedAt := none
      fillQtyAtCancelRequest := none
      racedFillQty := 0
      cancelStage := none
      fillAt := none
      resolvedAt := none
      limitPrice := req.limitPrice
      quantity := req.quantity
      fillQty := 0
      remainingQty := req.quantity
      fills := []
      failReason := none }
  done := false
  fillAttempts := 0
  cancelCause := none
  submitted := false
  filledBeforeAbort := false

def noteRacedQuantity (leg : PaperLegExecution) : PaperLegExecution :=
  if leg.cancelRequestedAt.isNone then leg
  else { leg with racedFillQty := leg.fillQty - leg.fillQtyAtCancelRequest.getD 0 }

inductive FillResult where
  | filled | partial_ | none
  deriving DecidableEq

namespace LegState

variable (deps : LegExecutorDeps)
variable (st : LegState)

/-- The order leaves; it arrives a travel time later. -/
def submit (submitAt : ℚ) (i : ℕ) : LegState :=
  let arrivalAt :=
    match if deps.sequential then none else deps.plannedArrivals i with
    | some planned => max submitAt planned
    | none => submitAt + max 0 (deps.latency i)
  { st with leg := { st.leg with status := .inFlight, submitAt, arrivalAt }, submitted := true }

def arriveAtExchange (at_ : ℚ) : LegState :=
  { st with leg := { st.leg with
      status := .pending
      pendingSince := some at_
      timeoutAt := some (st.leg.arrivalAt + deps.legTimeoutMs) } }

def abandon (now : ℚ) (detail : String) : LegState :=
  if st.leg.status.terminal then { st with done := true }
  else
    { st with
      leg := { st.leg with
        status := if 0 < st.leg.fillQty then .cancelled else .failed
        resolvedAt := some now
        failReason := some detail }
      done := true }

def timeOut (now : ℚ) (detail : String) : LegState :=
  { st with
    leg := { st.leg with
      status := .timedOut
      resolvedAt := some (st.leg.timeoutAt.getD now)
      failReason := some detail }
    done := true }

def cancelResting (i : ℕ) (now : ℚ) (cause : CancelCause) (detail : String) : LegState :=
  match deps.cancelRace with
  | none =>
    match cause with
    | .timeout => st.timeOut now detail
    | .abort => st.abandon now detail
  | some latencyMs =>
    if st.leg.cancelRequestedAt.isSome then st
    else
      { st with
        leg := { st.leg with
          cancelRequestedAt := some now
          fillQtyAtCancelRequest := some st.leg.fillQty
          cancelConfirmedAt := some (now + max 0 (latencyMs i))
          status := .cancelRequested
          failReason := some detail
          cancelStage := some .atExchange }
        cancelCause := some cause }

/-- A cancel travels too: the order may still fill until it is confirmed. -/
def requestCancel (i : ℕ) (now : ℚ) (cause : CancelCause) (detail : String) : LegState :=
  if st.leg.status.terminal then { st with done := true }
  else
    match st.leg.status with
    | .created => { st with leg := { st.leg with cancelStage := some .preSubmission } }.abandon now detail
    | .inFlight =>
      if now < st.leg.arrivalAt then
        { st with leg := { st.leg with cancelStage := some .inTransport } }.abandon now detail
      else (st.arriveAtExchange deps now).cancelResting deps i now cause detail
    | _ => st.cancelResting deps i now cause detail

def unfilledDetail : String :=
  "still unfilled " ++ (Number.fin deps.legTimeoutMs).toText ++ "ms after arriving — " ++
    if 0 < st.leg.fillQty then
      "only " ++ toString st.leg.fillQty ++ " of " ++ toString st.leg.quantity ++ " filled within the limit"
    else "no executable quantity within the limit"

def expire (i : ℕ) (now : ℚ) : LegState :=
  match deps.cancelRace with
  | some _ => st.requestCancel deps i now .timeout (st.unfilledDetail deps)
  | none => st.timeOut now (st.unfilledDetail deps)

variable (aborted : Bool)

def complete : LegState := { st with done := true, filledBeforeAbort := !aborted }

/-- Where the race filled the order it is filled, else what is left of it is cancelled. -/
def confirmCancel (now : ℚ) : LegState :=
  let leg := noteRacedQuantity st.leg
  let resolvedAt := leg.cancelConfirmedAt.getD now
  let leg : PaperLegExecution := { leg with resolvedAt := some resolvedAt }
  let raced := " (" ++ toString leg.racedFillQty ++ " filled during cancellation)"
  if leg.remainingQty = 0 ∧ 0 < leg.fillQty then
    { st with leg := { leg with
        status := .filled
        fillAt := some (leg.fillAt.getD resolvedAt)
        failReason := none } }.complete aborted
  else if st.cancelCause = some .timeout then
    { st with
      leg := { leg with
        status := .timedOut
        failReason := some (if 0 < leg.racedFillQty then st.unfilledDetail deps ++ raced else st.unfilledDetail deps) }
      done := true }
  else
    { st with
      leg := { leg with
        status := if 0 < leg.fillQty then .cancelled else .failed
        failReason :=
          if 0 < leg.racedFillQty then some (leg.failReason.getD "cancelled" ++ raced) else leg.failReason }
      done := true }

def failing (reason : String) : LegState × FillResult :=
  ({ st with leg := { st.leg with failReason := some reason } }, .none)

def sideLevels (quote : BoxQuote) : List BoxDepthLevel :=
  match st.req.side with
  | .buy => quote.asks
  | .sell => quote.bids

variable (market : Market)

def walk (i : ℕ) (quote : BoxQuote) (limitPrice : Number) (at_ : ℚ) : DepthWalkResult :=
  walkDepth
    { side := st.req.side
      remainingQty := .fin st.leg.remainingQty
      limitPrice
      queueModel := deps.queueModel
      haircutPct := deps.queueHaircutPct
      at_ := .fin at_
      quoteVersion := some quote.version
      reserved := market.reserved i } (st.sideLevels quote)

def take (at_ : ℚ) (walk : DepthWalkResult) : LegState × FillResult :=
  let fillQty := st.leg.fillQty + walk.filledQty
  let leg : PaperLegExecution := { st.leg with
    fills := st.leg.fills ++ walk.slices
    fillQty
    remainingQty := st.leg.quantity - fillQty
    failReason := none }
  if leg.remainingQty = 0 then
    ({ st with leg := { noteRacedQuantity leg with
        status := .filled
        fillAt := some at_
        resolvedAt := some at_
        cancelConfirmedAt := if leg.cancelRequestedAt.isSome then some at_ else leg.cancelConfirmedAt } }.complete aborted,
      .filled)
  else
    ({ st with leg := { leg with
        status := if leg.status = .cancelRequested then .cancelRequested else .partiallyFilled } }, .partial_)

def fillAtLimit (i : ℕ) (aborted : Bool) (quote : BoxQuote) (limitPrice : Number) (at_ : ℚ) : LegState × FillResult :=
  let st := { st with leg := { st.leg with limitPrice := some limitPrice } }
  let walk := st.walk deps market i quote limitPrice at_
  if walk.filledQty = 0 then
    let past := (touchPrice st.req.side quote).filter fun touch =>
      match st.req.side with
      | .buy => decide (limitPrice < touch)
      | .sell => decide (touch < limitPrice)
    st.failing (match past with
      | some touch => "touch " ++ touch.toText ++ " is past the limit " ++ limitPrice.toText
      | none => "no executable quantity within the limit " ++ limitPrice.toText)
  else st.take aborted at_ walk

/-- A stale quote, a price beyond the limit and an empty side fill nothing. -/
def tryFill (i : ℕ) (aborted : Bool) (at_ : ℚ) : LegState × FillResult :=
  if st.leg.pendingSince.isNone ∨ at_ < st.leg.arrivalAt then st.failing "not yet live at the exchange"
  else
    match market.quotes st.req.token with
    | none => st.failing "no book for this instrument yet"
    | some quote =>
      let age := (Number.fin at_).sub quote.at
      if ¬ (.fin 0 ≤ age ∧ age ≤ deps.quoteMaxAgeMs) then
        st.failing ("book is stale (" ++ age.toText ++ "ms) — waiting for a refresh")
      else
        match st.leg.limitPrice with
        | some limitPrice => st.fillAtLimit deps market i aborted quote limitPrice at_
        | none =>
          match (st.req.detectedPrice <|> touchPrice st.req.side quote).filter fun ref => .fin 0 < ref with
          | none => st.failing (if st.req.side = .buy then "no ask to price against" else "no bid to price against")
          | some ref => st.fillAtLimit deps market i aborted quote (deps.priceOrder st.req ref) at_

def attempt (i : ℕ) (aborted : Bool) (at_ : ℚ) : LegState × FillResult :=
  { st with fillAttempts := st.fillAttempts + 1 }.tryFill deps market i aborted at_

/-- Whether a book update may fill the order: open at the exchange and not past its end. -/
def wakes (changed : List Number) (at_ : ℚ) : Bool :=
  !st.done && (st.leg.status = .pending ∨ st.leg.status = .partiallyFilled ∨ st.leg.status = .cancelRequested) &&
    decide (st.req.token ∈ changed) && st.leg.pendingSince.isSome && decide (st.leg.arrivalAt ≤ at_) &&
    st.leg.cancelConfirmedAt.all (fun confirmed => decide (at_ ≤ confirmed)) &&
    (decide (st.leg.status = .cancelRequested) || st.leg.timeoutAt.all fun timeout => decide (at_ ≤ timeout))

/-- The instant at which the order next needs the sweep. -/
def boundary : Option ℚ :=
  if st.done then none
  else
    match st.leg.status with
    | .inFlight => some st.leg.arrivalAt
    | .pending | .partiallyFilled => st.leg.timeoutAt
    | .cancelRequested => st.leg.cancelConfirmedAt
    | _ => none

end LegState

/-! ## The run -/

inductive RunPoint where
  | top
  | waiting (next : ℚ)
  | ended
  deriving DecidableEq

structure LegRun where
  legs : List LegState
  aborted : Option Abort
  market : Market
  point : RunPoint
  guard : ℕ

structure Readings where
  orderAt : ℕ → ℚ
  checkAt : ℚ
  sweepAt : ℚ

inductive RunEvent where
  | top (abort : Option Abort) (clock : Readings)
  | woke (clock : Readings)
  | books (changed : List Number) (market : Market) (at_ : ℚ)

namespace LegRun

variable (deps : LegExecutorDeps)
variable (s : LegRun)

def update (i : ℕ) (f : LegState → LegState) : LegRun := { s with legs := s.legs.modify i f }

def start (requests : List LegOrderRequest) (submitAt : ℚ) (market : Market) : LegRun where
  legs := (requests.map blankLeg).mapIdx fun i st =>
    if deps.sequential ∧ i ≠ 0 then st else st.submit deps submitAt i
  aborted := none
  market
  point := .top
  guard := 0

/-- In a sequence the next order goes once this one has filled. -/
def submitNext (after : ℕ) (at_ : ℚ) : LegRun :=
  s.update (after + 1) fun st => if st.leg.status = .created then st.submit deps at_ (after + 1) else st

def cancelRemaining (after : ℕ) : LegRun :=
  { s with legs := s.legs.mapIdx fun j st =>
      if after < j ∧ st.done = false ∧ st.leg.status = .created then
        { st with
          leg := { st.leg with
            status := .failed
            resolvedAt := some st.leg.submitAt
            failReason := some "not submitted — an earlier leg failed (sequential mode)" }
          done := true }
      else st }

def isAborted : Bool := s.aborted.isSome

variable (clock : Readings)

def arrive (s : LegRun) (i : ℕ) : LegRun :=
  match s.legs[i]? with
  | none => s
  | some st =>
    if st.done ∨ st.leg.status ≠ .inFlight ∨ clock.sweepAt < st.leg.arrivalAt then s
    else
      let arrived := st.arriveAtExchange deps clock.sweepAt
      -- woken after the order's own deadline: it expired in the market
      if st.leg.arrivalAt + deps.legTimeoutMs < clock.sweepAt then
        let s := s.update i fun _ => arrived.expire deps i (clock.orderAt i)
        if deps.sequential then s.cancelRemaining i else s
      else
        let tried := arrived.attempt deps s.market i s.isAborted clock.sweepAt
        let s := s.update i fun _ => tried.1
        if deps.sequential ∧ tried.2 = .filled then s.submitNext deps i clock.sweepAt else s

def checkDeadline (s : LegRun) (i : ℕ) : LegRun :=
  match s.legs[i]? with
  | none => s
  | some st =>
    if st.done = false ∧ (st.leg.status = .pending ∨ st.leg.status = .partiallyFilled) ∧
        st.leg.timeoutAt.any fun timeout => timeout ≤ clock.sweepAt then
      let expired := st.expire deps i (clock.orderAt i)
      let s := s.update i fun _ => expired
      if deps.sequential ∧ expired.done then s.cancelRemaining i else s
    else s

def checkCancel (s : LegRun) (i : ℕ) : LegRun :=
  match s.legs[i]? with
  | none => s
  | some st =>
    if st.done = false ∧ st.leg.status = .cancelRequested ∧
        st.leg.cancelConfirmedAt.any fun confirmed => confirmed ≤ clock.sweepAt then
      let s := s.update i fun _ => st.confirmCancel deps s.isAborted (clock.orderAt i)
      if deps.sequential then s.cancelRemaining i else s
    else s

def each (visit : LegRun → ℕ → LegRun) (s : LegRun) : LegRun := (List.range s.legs.length).foldl visit s

/-- Cancels are checked before deadlines, and deadlines before arrivals. -/
def sweep : LegRun :=
  ((s.each (arrive deps clock)).each (checkDeadline deps clock)).each (checkCancel deps clock)

def earlier : Option ℚ → Option ℚ → Option ℚ
  | none, t => t
  | t, none => t
  | some a, some b => some (if b < a then b else a)

def nextBoundary : Option ℚ := s.legs.foldl (fun next st => earlier next st.boundary) none

def abortOnce (abort : Option Abort) (clock : Readings) : LegRun :=
  match s.aborted, abort with
  | none, some abort =>
    { s with
      aborted := some abort
      legs := s.legs.mapIdx fun i st =>
        if st.done then st
        else st.requestCancel deps i (clock.orderAt i) .abort abort.detail }
  | _, _ => s

def finish : LegRun :=
  { s with
    legs := s.legs.mapIdx fun i st =>
      if st.done then st
      else st.abandon (clock.orderAt i) (st.leg.failReason.getD "unresolved when the run ended")
    point := .ended }

/-- The loop's own guard. -/
def maxTurns : ℕ := 10000

def fillFromBook (changed : List Number) (at_ : ℚ) (s : LegRun) (i : ℕ) : LegRun :=
  match s.legs[i]? with
  | none => s
  | some st =>
    if st.wakes changed at_ then s.update i fun _ => (st.attempt deps s.market i s.isAborted at_).1 else s

def turn (abort : Option Abort) (clock : Readings) : LegRun :=
  let s := { s with guard := s.guard + 1 }
  if maxTurns < s.guard then s.finish clock
  else
    let s := s.abortOnce deps abort clock
    match s.nextBoundary with
    | none => s.finish clock
    | some next =>
      if clock.checkAt < next then { s with point := .waiting next } else s.sweep deps clock

def step (event : RunEvent) : LegRun × Unit :=
  (match s.point, event with
    | .top, .top abort clock => s.turn deps abort clock
    | .waiting next, .woke clock =>
      if clock.checkAt < next then { s with point := .top } else { s.sweep deps clock with point := .top }
    | .waiting _, .books changed market at_ =>
      { s with market }.each (fillFromBook deps changed at_)
    | _, _ => s, ())

end LegRun

end BoxEngine.LegExecutor
