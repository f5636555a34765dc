import Mathlib.Data.Rat.Floor

/-!
# Dates

A date is a whole number of milliseconds in UTC; its calendar day, Gregorian in both directions, is a function of the
day's number.
-/

namespace Js

/-- Day zero is 1 March of year zero, so that a leap day is the last of its year. -/
def daysFromCivil (year month day : ℤ) : ℤ :=
  let y := if month ≤ 2 then year - 1 else year
  let yearOfEra := y % 400
  let dayOfYear := (153 * (if 2 < month then month - 3 else month + 9) + 2) / 5 + day - 1
  let dayOfEra := yearOfEra * 365 + yearOfEra / 4 - yearOfEra / 100 + dayOfYear
  y / 400 * 146097 + dayOfEra - 719468

def civilFromDays (days : ℤ) : ℤ × ℕ × ℕ :=
  let z := days + 719468
  let dayOfEra := z % 146097
  let yearOfEra := (dayOfEra - dayOfEra / 1460 + dayOfEra / 36524 - dayOfEra / 146096) / 365
  let dayOfYear := dayOfEra - (365 * yearOfEra + yearOfEra / 4 - yearOfEra / 100)
  let shifted := (5 * dayOfYear + 2) / 153
  let month := if shifted < 10 then shifted + 3 else shifted - 9
  let year := yearOfEra + z / 146097 * 400
  (if month ≤ 2 then year + 1 else year, month.toNat, (dayOfYear - (153 * shifted + 2) / 5 + 1).toNat)

def isLeapYear (year : ℤ) : Bool := year % 4 = 0 && (year % 100 ≠ 0 || year % 400 = 0)

def daysInMonth (year : ℤ) (month : ℕ) : ℕ :=
  if month = 2 then (if isLeapYear year then 29 else 28)
  else if month = 4 ∨ month = 6 ∨ month = 9 ∨ month = 11 then 30
  else 31

example : civilFromDays 0 = (1970, 1, 1) ∧ civilFromDays 19782 = (2024, 2, 29) ∧ civilFromDays (-719528) = (0, 1, 1) ∧
    daysFromCivil 2024 2 29 = 19782 ∧ daysFromCivil 9999 12 31 = 2932896 := by decide

def padded (width n : ℕ) : List Char :=
  let text := (Nat.toDigits 10 n)
  List.replicate (width - text.length) '0' ++ text

/-- The calendar day as it stands in an ISO text: four digits of a year up to 9999, otherwise a sign and six. -/
def isoDate (days : ℤ) : List Char :=
  let (year, month, day) := civilFromDays days
  let yearText :=
    if 0 ≤ year ∧ year ≤ 9999 then padded 4 year.toNat
    else (if year < 0 then '-' else '+') :: padded 6 year.natAbs
  yearText ++ '-' :: padded 2 month ++ '-' :: padded 2 day

def parseDay (year month day : ℕ) : Option ℤ :=
  if 1 ≤ month ∧ month ≤ 12 ∧ 1 ≤ day ∧ day ≤ daysInMonth year month then some (daysFromCivil year month day) else none

def digitsValue (digits : List Char) : ℕ := digits.foldl (fun n c => 10 * n + (c.toNat - 48)) 0

/-! ## Times -/

def msPerDay : ℤ := 86400000

def truncate (q : ℚ) : ℤ := if 0 ≤ q then ⌊q⌋ else ⌈q⌉

def maxTime : ℤ := 100000000 * msPerDay

structure Date where
  time : ℤ
  inRange : |time| ≤ maxTime

namespace Date

variable (d : Date)

def day : ℤ := d.time / msPerDay

def getUTCHours : ℕ := (d.time % msPerDay / 3600000).toNat

def getUTCMinutes : ℕ := (d.time % 3600000 / 60000).toNat

def getUTCDay : ℕ := ((d.day + 4) % 7).toNat

theorem minuteOfDay : ((d.getUTCHours * 60 + d.getUTCMinutes : ℕ) : ℤ) = d.time % msPerDay / 60000 := by
  unfold getUTCHours getUTCMinutes msPerDay
  omega

end Date

theorem truncate_mono {a b : ℚ} (h : a ≤ b) : truncate a ≤ truncate b := by
  unfold truncate
  by_cases ha : 0 ≤ a
  · rw [if_pos ha, if_pos (ha.trans h)]
    exact Int.floor_mono h
  by_cases hb : 0 ≤ b
  · rw [if_neg ha, if_pos hb]
    have hceil : ⌈a⌉ ≤ 0 := Int.ceil_le.mpr (by push_cast; linarith)
    exact hceil.trans (Int.floor_nonneg.mpr hb)
  · rw [if_neg ha, if_neg hb]
    exact Int.ceil_mono h

theorem truncate_add_le (a : ℚ) (n : ℕ) : truncate (a + n) ≤ truncate a + n := by
  unfold truncate
  by_cases ha : 0 ≤ a
  · rw [if_pos ha, if_pos (by positivity), Int.floor_add_natCast]
  by_cases hb : 0 ≤ a + n
  · rw [if_neg ha, if_pos hb, ← Int.ceil_add_natCast]
    exact Int.floor_le_ceil _
  · rw [if_neg ha, if_neg hb, Int.ceil_add_natCast]

theorem le_truncate_sub (a : ℚ) (n : ℕ) : truncate a - n ≤ truncate (a - n) := by
  unfold truncate
  by_cases ha : 0 ≤ a
  · by_cases hb : 0 ≤ a - n
    · rw [if_pos ha, if_pos hb, Int.floor_sub_natCast]
    · rw [if_pos ha, if_neg hb, ← Int.floor_sub_natCast]
      exact Int.floor_le_ceil _
  · have hb : ¬0 ≤ a - n := fun hb => ha (by linarith [(Nat.cast_nonneg n : (0 : ℚ) ≤ n)])
    rw [if_neg ha, if_neg hb, Int.ceil_sub_natCast]

end Js
