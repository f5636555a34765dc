import BoxEngine.Order

/-!
# Scheduling policy

The priorities of the order queue, and whether an operation may start now and on which slot.
-/

namespace BoxEngine

open Js

def boxOrderPriority : BoxOrderPurpose → ℕ
  | .emergencyResidual => 0
  | .protectiveCancel => 1
  | .exit => 2
  | .entry => 3

inductive BoxSchedulingSlot where
  | base | entryBurst
  deriving DecidableEq

structure SchedulingLimits where
  maxConcurrentExecutions : Number
  entrySubmitConcurrency : Number

def clampEntrySubmitConcurrency : Number → ℕ
  | .fin q => if ⌊q⌋ < 1 then 1 else if 4 < ⌊q⌋ then 4 else ⌊q⌋.toNat
  | _ => 1

def baseConcurrency : Number → ℕ
  | .fin q => max 1 ⌊q⌋.toNat
  | _ => 1

structure BoxSchedulingOccupancy where
  baseInFlight : ℕ
  burstInFlight : ℕ
  entryAttemptId : Option String
  nonEntryInFlight : ℕ

structure BoxSchedulingRequest where
  purpose : BoxOrderPurpose
  attemptId : String

/-- A base slot serves any purpose; a burst slot only the entry attempt that already runs. -/
def admitBoxOperation (request : BoxSchedulingRequest) (occupancy : BoxSchedulingOccupancy) (limits : SchedulingLimits) :
    Except String BoxSchedulingSlot :=
  let base := baseConcurrency limits.maxConcurrentExecutions
  let burstWidth := clampEntrySubmitConcurrency limits.entrySubmitConcurrency
  let inBase := occupancy.baseInFlight
  let total := occupancy.baseInFlight + occupancy.burstInFlight
  if request.purpose ≠ .entry then
    -- burst slots are invisible to protective work
    if inBase < base then .ok .base
    else .error s!"base concurrency {base} is fully occupied by {inBase} operation(s)"
  else
    match occupancy.entryAttemptId.filter (· ≠ request.attemptId) with
    | some owner =>
      .error s!"attempt {owner} already has ENTRY operations in flight; a second Box pipeline may never overlap it, so contract reservations cannot be bypassed"
    | none =>
      if inBase < base then .ok .base
      else if burstWidth ≤ base then
        .error s!"base concurrency {base} is fully occupied and BOX_LIVE_ENTRY_SUBMIT_CONCURRENCY={burstWidth} adds no headroom"
      else if 0 < occupancy.nonEntryInFlight then
        let others := occupancy.nonEntryInFlight
        .error s!"{others} non-ENTRY operation(s) are in flight; the entry burst never opens alongside protective or exit work"
      else if burstWidth ≤ total then
        .error s!"entry burst width {burstWidth} is fully occupied by {total} submission(s)"
      else .ok .entryBurst

structure SlotCounters where
  inFlight : ℕ
  baseInFlight : ℕ
  burstInFlight : ℕ
  nonEntryInFlight : ℕ
  entryInFlight : ℕ
  entryAttemptInFlight : Option String

namespace SlotCounters

def zero : SlotCounters := ⟨0, 0, 0, 0, 0, none⟩

variable (slots : SlotCounters)

def occupancy : BoxSchedulingOccupancy where
  baseInFlight := slots.baseInFlight
  burstInFlight := slots.burstInFlight
  entryAttemptId := slots.entryAttemptInFlight
  nonEntryInFlight := slots.nonEntryInFlight

def occupySlot (request : BoxSchedulingRequest) (slot : BoxSchedulingSlot) : SlotCounters where
  inFlight := slots.inFlight + 1
  baseInFlight := if slot = .base then slots.baseInFlight + 1 else slots.baseInFlight
  burstInFlight := if slot = .base then slots.burstInFlight else slots.burstInFlight + 1
  nonEntryInFlight := if request.purpose = .entry then slots.nonEntryInFlight else slots.nonEntryInFlight + 1
  entryInFlight := if request.purpose = .entry then slots.entryInFlight + 1 else slots.entryInFlight
  entryAttemptInFlight := if request.purpose = .entry then some request.attemptId else slots.entryAttemptInFlight

/-- Clamped at zero; the pipeline owns the entry slots while one of its legs is in flight. -/
def releaseSlot (request : BoxSchedulingRequest) (slot : BoxSchedulingSlot) : SlotCounters where
  inFlight := slots.inFlight - 1
  baseInFlight := if slot = .base then slots.baseInFlight - 1 else slots.baseInFlight
  burstInFlight := if slot = .base then slots.burstInFlight else slots.burstInFlight - 1
  nonEntryInFlight := if request.purpose = .entry then slots.nonEntryInFlight else slots.nonEntryInFlight - 1
  entryInFlight := if request.purpose = .entry then slots.entryInFlight - 1 else slots.entryInFlight
  entryAttemptInFlight :=
    if request.purpose = .entry ∧ slots.entryInFlight - 1 = 0 then none else slots.entryAttemptInFlight

end SlotCounters

end BoxEngine
