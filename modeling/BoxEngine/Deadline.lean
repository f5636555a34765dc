import BoxEngine.Lib.Number

/-!
# Request deadlines

An absolute expiry on a monotonic clock. Each function takes what that clock reads when it is called.
-/

namespace BoxEngine

open Js

/-- An instant until which a request may wait, with the budget it came from. -/
structure Deadline where
  expiresAt : ℚ
  budgetMs : ℚ
  deriving DecidableEq

namespace Deadline

variable (d : Deadline)

def remainingMs (clock : ℚ) : ℚ := d.expiresAt - clock

def expired (clock : ℚ) : Bool := d.remainingMs clock ≤ 0

def timerMs (clock : ℚ) : ℚ := max 1 (d.remainingMs clock)

/-- A timer is never set to zero, however late it is. -/
theorem timerMs_pos (clock : ℚ) : 0 < d.timerMs clock := lt_max_of_lt_left one_pos

end Deadline

end BoxEngine
