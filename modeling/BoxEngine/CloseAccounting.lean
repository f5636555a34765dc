import BoxEngine.LeggingExits

/-!
# Close accounting

What a position's close is booked with. A result that leaves the box flat closes it with what the attempts sum to; a
projection whose write fails is retained and written first. Nothing of the code reads the banked fills.
-/

namespace BoxEngine

open Js

/-- A position with its entry prices and the gross of each of its exit attempts. -/
structure AccountedPosition where
  pos : MonitoredPosition
  entryPrices : ByRole Number
  grossPnls : List (Option Number)

structure ExitFill where
  role : BoxLegRole
  quantity : ℚ
  price : ℚ
  deriving DecidableEq

structure CloseBooking where
  legs : List BoxLegEvaluation
  grossPnl : Number

def LeggingExitResult.closedLegs (result : LeggingExitResult) : List BoxLegEvaluation :=
  result.legs.filter fun leg => .fin 0 < result.record.confirmed leg.role

def BoxLegEvaluation.usablePrice (leg : BoxLegEvaluation) : Option Number := leg.price.filter fun price => .fin 0 < price

def LeggingExitRecord.fill (record : LeggingExitRecord) (leg : BoxLegEvaluation) : Option ExitFill :=
  leg.usablePrice.map fun price => ⟨leg.role, (record.confirmed leg.role).value, price.value⟩

def LeggingExitResult.fills (result : LeggingExitResult) : List ExitFill :=
  result.closedLegs.filterMap result.record.fill

namespace AccountedPosition

variable (p : AccountedPosition)
variable (role : BoxLegRole)

def entryPrice : Number := (p.entryPrices role).getD (.fin 0)

def perUnit (price : Number) : Number :=
  if entrySideFor role p.pos.position.entryDirection = .buy then price.sub (p.entryPrice role)
  else (p.entryPrice role).sub price

/-- A leg's part of an attempt's gross; a fill without a usable price is refused. -/
def addGross (record : LeggingExitRecord) (gross : Number) (leg : BoxLegEvaluation) : Number :=
  match leg.usablePrice with
  | none => gross
  | some price => gross.add ((p.perUnit leg.role price).mul (record.confirmed leg.role))

def attemptGross (result : LeggingExitResult) : Number :=
  round2Price (result.closedLegs.foldl (p.addGross result.record) (.fin 0))

def closedSums (attempts : List ExitAttempt) (role : BoxLegRole) : Number × Number :=
  attempts.foldl (fun sums attempt =>
    let q := (attempt.fillsByRole role).getD (.fin 0)
    let p := (attempt.avgPriceByRole role).getD (.fin 0)
    (sums.1.add q, sums.2.add (q.mul p))) (.fin 0, .fin 0)

def finalExitPrice : Number :=
  let sums := closedSums p.pos.exitAttempts role
  if .fin 0 < sums.1 then round2Price (sums.2.div sums.1) else p.entryPrice role

def buildFinalExitLegs : List BoxLegEvaluation :=
  boxLegRoles.map fun role =>
    { role
      side :=
        if p.pos.position.entryDirection = .longBox then if role = .k1Ce ∨ role = .k2Pe then .sell else .buy
        else if role = .k1Ce ∨ role = .k2Pe then .buy else .sell
      token := (p.pos.position.legs role).token
      tradingsymbol := (p.pos.position.legs role).tradingsymbol
      price := some (p.finalExitPrice role) }

def cumulativeGross : Number :=
  round2Price (p.grossPnls.foldl (fun sum gross => sum.add (gross.getD (.fin 0))) (.fin 0))

def booking : CloseBooking := ⟨p.buildFinalExitLegs, round2Price p.cumulativeGross⟩

def recorded (projected : MonitoredPosition) (gross : Option Number) : AccountedPosition :=
  { p with pos := projected, grossPnls := p.grossPnls ++ [gross] }

end AccountedPosition

inductive AccountingEvent where
  | result (result : LeggingExitResult) (origin : ExitOrigin) (reason : String)
  /-- Reconciliation's exact quantities, and the state it, or the flatten after it, gives the position. -/
  | reconciled (exact : BoxLegRole → Number) (state : BoxPositionState)

structure CloseAccount where
  accounted : AccountedPosition
  booked : Option CloseBooking
  fills : List ExitFill

namespace CloseAccount

def applyResult (mode : ExecutionMode) (s : CloseAccount) (result : LeggingExitResult) (origin : ExitOrigin)
    (reason : String) : CloseAccount :=
  let p := s.accounted
  match p.pos.applyLeggingExitResult mode result origin reason with
  | .uncertain persist _ => { s with accounted := p.recorded persist.projected none }
  | .invalid persist _ => { s with accounted := p.recorded persist.projected none }
  | .nothing detail => { s with accounted := { p with pos := { p.pos with exitBlockedReason := some detail } } }
  | .partial_ persist _ =>
    { s with
      accounted := p.recorded persist.projected (some (p.attemptGross result))
      fills := s.fills ++ result.fills }
  | .final projected =>
    let closed := p.recorded projected (some (p.attemptGross result))
    { accounted := closed, booked := some closed.booking, fills := s.fills ++ result.fills }
  | .threw => s

def reconcile (s : CloseAccount) (exact : BoxLegRole → Number) (state : BoxPositionState) : CloseAccount :=
  { s with accounted := { s.accounted with
      pos := { s.accounted.pos.withRemaining exact with positionState := state } } }

def step (mode : ExecutionMode) (s : CloseAccount) (event : AccountingEvent) : CloseAccount × Unit :=
  (if s.booked.isSome then s
    else match event with
      | .result result origin reason => s.applyResult mode result origin reason
      | .reconciled exact state => s.reconcile exact state, ())

end CloseAccount

end BoxEngine
