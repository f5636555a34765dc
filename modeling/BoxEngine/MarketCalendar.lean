import BoxEngine.Lib.Date
import BoxEngine.Lib.Keyed
import BoxEngine.Lib.Number
import BoxEngine.Lib.Text

/-!
# The session calendar

Which instants the exchange is open at, from the listed holidays, the ones the environment adds and the special sessions
it declares, and whether a new entry may start at an instant.
-/

namespace BoxEngine

open Js

def istOffsetMs : ℤ := 19800000

def nseSessionOpenMinutes : ℕ := 9 * 60 + 15

def nseSessionCloseMinutes : ℕ := 15 * 60 + 30

inductive NseSessionKind where
  | regular
  | special
  deriving DecidableEq

def NseSessionKind.label : NseSessionKind → String
  | .regular => "regular"
  | .special => "special"

/-- Open from the first minute up to the last, exclusive; `24:00` ends one with its day. -/
structure NseSessionWindow where
  openMinute : ℕ
  closeMinute : ℕ
  kind : NseSessionKind
  label : Option String
  opensBeforeClose : openMinute < closeMinute
  closesWithDay : closeMinute ≤ 24 * 60

def nseTradingHolidaysByYear : List (String × List String) :=
  [("2026",
    ["2026-01-15", "2026-01-26", "2026-03-03", "2026-03-26", "2026-03-31", "2026-04-03", "2026-04-14", "2026-05-01",
      "2026-05-28", "2026-06-26", "2026-09-14", "2026-10-02", "2026-10-20", "2026-11-10", "2026-11-24", "2026-12-25"])]

def nseSpecialSessionDates : List (String × String) :=
  [("2026-11-08", "Diwali-Laxmi Pujan (Muhurat trading session)")]

structure CalendarEnv where
  boxNseTradingHolidays : Option String
  boxNseSpecialSessions : Option String

/-- An instant whose Indian date is not an invalid one; at any other the calendar's functions throw. -/
structure Instant where
  «at» : ℚ
  inRange : |truncate («at» + istOffsetMs)| ≤ maxTime

namespace Instant

def ist (i : Instant) : Date := ⟨truncate (i.at + istOffsetMs), i.inRange⟩

end Instant

variable (i : Instant)

def istDayKeyOf : String := String.ofList ((isoDate i.ist.day).take 10)

def istYearOf : String := String.ofList ((istDayKeyOf i).toList.take 4)

def istMinutesOfDayOf : ℕ := i.ist.getUTCHours * 60 + i.ist.getUTCMinutes

def istDayOfWeekOf : ℕ := i.ist.getUTCDay

/-! ## What the environment declares -/

def isIsoDay (value : String) : Bool :=
  match value.toList with
  | [y1, y2, y3, y4, '-', m1, m2, '-', d1, d2] =>
    [y1, y2, y3, y4, m1, m2, d1, d2].all Char.isDigit &&
      (parseDay (digitsValue [y1, y2, y3, y4]) (digitsValue [m1, m2]) (digitsValue [d1, d2])).any
        fun day => isoDate day = value.toList
  | _ => false

variable (env : CalendarEnv)

def envHolidays : List String :=
  let raw := trimKey env.boxNseTradingHolidays
  if raw = "" then []
  else
    (raw.toList.splitOnP fun c => c = ',' || isSpace c).foldl (fun out token =>
      let day := trim (String.ofList token)
      if isIsoDay day then out.insert day else out) []

def hourDigits : List Char → Option (ℕ × List Char)
  | c :: d :: rest =>
    if c.isDigit then
      if d.isDigit then some (digitsValue [c, d], rest) else some (digitsValue [c], d :: rest)
    else none
  | _ => none

def minuteDigits : List Char → Option (ℕ × List Char)
  | c :: d :: rest => if c.isDigit && d.isDigit then some (digitsValue [c, d], rest) else none
  | _ => none

def clockTime (text : List Char) : Option (ℕ × List Char) := do
  let (hours, rest) ← hourDigits text
  match rest with
  | ':' :: rest =>
    let (minutes, rest) ← minuteDigits rest
    some (hours * 60 + minutes, rest)
  | _ => none

def sessionEntry (token : String) : Option (String × ℕ × ℕ) := do
  let text := (trim token).toList
  match text.drop 10 with
  | ':' :: rest =>
    let (openMinute, rest) ← clockTime rest
    match rest with
    | '-' :: rest =>
      let (closeMinute, rest) ← clockTime rest
      if rest = [] then some (String.ofList (text.take 10), openMinute, closeMinute) else none
    | _ => none
  | _ => none

def envSpecialSessions : List (String × NseSessionWindow) :=
  let raw := trimKey env.boxNseSpecialSessions
  if raw = "" then []
  else
    (raw.toList.splitOnP fun c => c = ',').foldl (fun out token =>
      match sessionEntry (String.ofList token) with
      | some (day, openMinute, closeMinute) =>
        if ¬isIsoDay day then out
        else if h : openMinute < closeMinute ∧ closeMinute ≤ 24 * 60 then
          let label := ((nseSpecialSessionDates.find? fun entry => entry.1 = day).map Prod.snd).getD
            "operator-declared special session"
          Keyed.put Prod.fst out (day, ⟨openMinute, closeMinute, .special, some label, h.1, h.2⟩)
        else out
      | none => out) []

def shippedHolidays (year : String) : Option (List String) :=
  (nseTradingHolidaysByYear.find? fun entry => entry.1 = year).map Prod.snd

def inYear (year day : String) : Bool := (year.toList ++ ['-']).isPrefixOf day.toList

/-- A year is covered by the listed holidays, or by any holiday the environment adds in it. -/
def calendarCoversYear : Bool :=
  let year := istYearOf i
  (shippedHolidays year).isSome || (envHolidays env).any (inYear year)

def holidaysForYearOf : List String :=
  let year := istYearOf i
  (shippedHolidays year).getD [] ++ (envHolidays env).filter (inYear year)

def isTradingHoliday : Bool := istDayKeyOf i ∈ holidaysForYearOf i env

def regularSession : NseSessionWindow where
  openMinute := nseSessionOpenMinutes
  closeMinute := nseSessionCloseMinutes
  kind := .regular
  label := none
  opensBeforeClose := by decide
  closesWithDay := by decide

def nseSessionWindow : Option NseSessionWindow :=
  match (envSpecialSessions env).find? fun entry => entry.1 = istDayKeyOf i with
  | some (_, special) => some special
  | none =>
    let dow := istDayOfWeekOf i
    if dow = 0 ∨ dow = 6 then none else if isTradingHoliday i env then none else some regularSession

def isMarketOpenAt : Bool :=
  match nseSessionWindow i env with
  | none => false
  | some window =>
    let mins := istMinutesOfDayOf i
    window.openMinute ≤ mins && mins < window.closeMinute

def minutesUntilSessionClose : Option ℕ :=
  match nseSessionWindow i env with
  | none => none
  | some window =>
    let mins := istMinutesOfDayOf i
    if mins < window.openMinute ∨ window.closeMinute ≤ mins then none else some (window.closeMinute - mins)

def minutesSinceSessionOpen : Option ℕ :=
  match nseSessionWindow i env with
  | none => none
  | some window =>
    let mins := istMinutesOfDayOf i
    if mins < window.openMinute ∨ window.closeMinute ≤ mins then none else some (mins - window.openMinute)

/-! ## Entry -/

inductive SessionEntryRefusal where
  | marketClosed
  | sessionWarmup
  | entryCutoff
  | calendarYearUncovered
  deriving DecidableEq

structure SessionEntryWindow where
  allowed : Bool
  refusal : Option SessionEntryRefusal
  detail : Option String
  minutesSinceOpen : Option ℕ
  minutesUntilClose : Option ℕ
  window : Option NseSessionWindow

structure SessionEntryArgs where
  «at» : Instant
  cutoffMinutesBeforeClose : Number
  warmupMinutesAfterOpen : Number
  env : CalendarEnv

/-- The refusals in their order: market closed, calendar missing, warm-up, and too close to the end. -/
def evaluateSessionEntryWindow (args : SessionEntryArgs) : SessionEntryWindow :=
  let window := nseSessionWindow args.at args.env
  let minutesSinceOpen := minutesSinceSessionOpen args.at args.env
  let minutesUntilClose := minutesUntilSessionClose args.at args.env
  let refuse (refusal : SessionEntryRefusal) (detail : String) : SessionEntryWindow :=
    { allowed := false, refusal := some refusal, detail := some detail, minutesSinceOpen, minutesUntilClose, window }
  let day := istDayKeyOf args.at
  let year := istYearOf args.at
  if ¬isMarketOpenAt args.at args.env then
    refuse .marketClosed
      (match window with
        | some window =>
          let kind := window.kind.label
          s!"outside the {kind} session window for {day}"
        | none => s!"{day} is not an NSE trading day")
  else if ¬calendarCoversYear args.at args.env then
    refuse .calendarYearUncovered
      (s!"no NSE holiday calendar is loaded for {year}, so this cannot be confirmed as a trading " ++
        s!"day. Extend NSE_TRADING_HOLIDAYS_BY_YEAR or set BOX_NSE_TRADING_HOLIDAYS for {year}. " ++
        "Exits, protective cancels and residual flattening are UNAFFECTED.")
  else
    let warmup := args.warmupMinutesAfterOpen.toText
    let cutoff := args.cutoffMinutesBeforeClose.toText
    match minutesSinceOpen.filter fun since : ℕ => .fin since < args.warmupMinutesAfterOpen with
    | some since =>
      refuse .sessionWarmup
        (s!"{since}min since the open is inside the {warmup}min " ++
          "warm-up; opening books carry previous-close prices that every arrival-time freshness " ++ "check accepts")
    | none =>
      match minutesUntilClose.filter fun left : ℕ => .fin left ≤ args.cutoffMinutesBeforeClose with
      | some left =>
        refuse .entryCutoff
          (s!"{left}min to the close is inside the {cutoff}min " ++
            "entry cutoff; a four-leg entry plus a failed-entry unwind needs several minutes and an " ++
            "unfinished box at the bell becomes overnight naked exposure")
      | none => { allowed := true, refusal := none, detail := none, minutesSinceOpen, minutesUntilClose, window }

/-! ## What a day decides -/

section Day

variable {i j : Instant} {env : CalendarEnv}

section

variable (h : i.ist.day = j.ist.day)

include h

theorem istDayKeyOf_congr : istDayKeyOf i = istDayKeyOf j := by
  simp [istDayKeyOf, h]

theorem istYearOf_congr : istYearOf i = istYearOf j := by
  simp [istYearOf, istDayKeyOf_congr h]

theorem calendarCoversYear_congr : calendarCoversYear i env = calendarCoversYear j env := by
  simp [calendarCoversYear, istYearOf_congr h]

theorem nseSessionWindow_congr : nseSessionWindow i env = nseSessionWindow j env := by
  have hdow : istDayOfWeekOf i = istDayOfWeekOf j := by simp [istDayOfWeekOf, Date.getUTCDay, h]
  simp [nseSessionWindow, isTradingHoliday, holidaysForYearOf, istDayKeyOf_congr h, istYearOf_congr h, hdow]

end

theorem isMarketOpenAt_iff {window : NseSessionWindow} (h : nseSessionWindow i env = some window) :
    isMarketOpenAt i env = true ↔ window.openMinute ≤ istMinutesOfDayOf i ∧ istMinutesOfDayOf i < window.closeMinute := by
  simp [isMarketOpenAt, h]

end Day

/-! ## The last day of all

Dates end with the first instant of a day of a year of six digits, which no calendar covers. -/

theorem head_isDigit_of_isIsoDay {day : String} (h : isIsoDay day = true) : ∃ c rest, day.toList = c :: rest ∧ c.isDigit := by
  unfold isIsoDay at h
  split at h
  · rename_i y1 y2 y3 y4 m1 m2 d1 d2 hday
    simp only [Bool.and_eq_true, List.all_eq_true] at h
    exact ⟨y1, _, hday, h.1 y1 (by simp)⟩
  · cases h

theorem isIsoDay_of_mem_envHolidays {env : CalendarEnv} {day : String} (h : day ∈ envHolidays env) :
    isIsoDay day = true := by
  have hstep : ∀ (tokens : List (List Char)) (out : List String), (∀ d ∈ out, isIsoDay d = true) →
      ∀ d ∈ tokens.foldl (fun out token =>
        let day := trim (String.ofList token)
        if isIsoDay day then out.insert day else out) out, isIsoDay d = true := by
    intro tokens
    induction tokens with
    | nil => exact fun out hout => hout
    | cons token tokens ih =>
      intro out hout
      rw [List.foldl_cons]
      refine ih _ fun d hd => ?_
      by_cases hday : isIsoDay (trim (String.ofList token)) = true
      · rw [if_pos hday, List.mem_insert_iff] at hd
        rcases hd with rfl | hd
        · exact hday
        · exact hout d hd
      · rw [if_neg hday] at hd
        exact hout d hd
  by_cases hraw : trimKey env.boxNseTradingHolidays = ""
  · simp [envHolidays, hraw] at h
  · simp only [envHolidays, if_neg hraw] at h
    exact hstep _ [] (by simp) day h

variable {i : Instant}

theorem not_covered_last (h : i.ist.day = 100000000) (env : CalendarEnv) : calendarCoversYear i env = false := by
  have hyear : istYearOf i = "+275" := by
    simp only [istYearOf, istDayKeyOf, h]
    decide
  have hshipped : shippedHolidays "+275" = none := by decide
  simp only [calendarCoversYear, hyear, hshipped, Option.isSome_none, Bool.false_or, List.any_eq_false]
  intro day hday hprefix
  obtain ⟨c, rest, hc, hdigit⟩ := head_isDigit_of_isIsoDay (isIsoDay_of_mem_envHolidays hday)
  have : c = '+' := by
    simp only [inYear, hc, List.isPrefixOf_iff_prefix] at hprefix
    obtain ⟨tail, htail⟩ := hprefix
    exact (List.cons.inj htail).1.symm
  rw [this] at hdigit
  exact absurd hdigit (by decide)

theorem istMinutesOfDayOf_eq (i : Instant) : (istMinutesOfDayOf i : ℤ) = i.ist.time % msPerDay / 60000 :=
  i.ist.minuteOfDay

theorem minutes_between {t : ℚ} {before after : ℕ} (hday : i.ist.day < 100000000)
    (hbefore : before ≤ istMinutesOfDayOf i) (hafter : istMinutesOfDayOf i + after < 24 * 60)
    (hlow : i.at - before * 60000 ≤ t) (hhigh : t ≤ i.at + after * 60000) :
    ∃ later : Instant, later.at = t ∧ later.ist.day = i.ist.day ∧
      istMinutesOfDayOf i ≤ istMinutesOfDayOf later + before ∧
      istMinutesOfDayOf later ≤ istMinutesOfDayOf i + after := by
  have hminutes := istMinutesOfDayOf_eq i
  have hlow' : i.ist.time - (before * 60000 : ℕ) ≤ truncate (t + istOffsetMs) := by
    have hshift := le_truncate_sub (i.at + istOffsetMs) (before * 60000)
    have hmono : i.at + istOffsetMs - (before * 60000 : ℕ) ≤ t + istOffsetMs := by
      push_cast
      linarith
    exact hshift.trans (truncate_mono hmono)
  have hhigh' : truncate (t + istOffsetMs) ≤ i.ist.time + (after * 60000 : ℕ) := by
    have hshift := truncate_add_le (i.at + istOffsetMs) (after * 60000)
    have hmono : t + istOffsetMs ≤ i.at + istOffsetMs + (after * 60000 : ℕ) := by
      push_cast
      linarith
    exact (truncate_mono hmono).trans hshift
  have hrange := abs_le.mp i.ist.inRange
  simp only [Date.day, msPerDay, maxTime] at hday hminutes hrange
  have hvalid : |truncate (t + istOffsetMs)| ≤ maxTime := by
    rw [abs_le, maxTime, msPerDay]
    omega
  refine ⟨⟨t, hvalid⟩, rfl, ?_⟩
  have hlater := istMinutesOfDayOf_eq ⟨t, hvalid⟩
  simp only [Date.day, msPerDay, Instant.ist] at hlater hminutes hday hlow' hhigh' ⊢
  omega

theorem minutes_mono {i j : Instant} {t : ℚ} (hday : i.ist.day = j.ist.day) (hlow : i.at ≤ t) (hhigh : t ≤ j.at) :
    ∃ between : Instant, between.at = t ∧ between.ist.day = i.ist.day ∧
      istMinutesOfDayOf i ≤ istMinutesOfDayOf between ∧ istMinutesOfDayOf between ≤ istMinutesOfDayOf j := by
  have hlow' : i.ist.time ≤ truncate (t + istOffsetMs) := truncate_mono (by linarith)
  have hhigh' : truncate (t + istOffsetMs) ≤ j.ist.time := truncate_mono (by linarith)
  have hvalid : |truncate (t + istOffsetMs)| ≤ maxTime :=
    abs_le.mpr ⟨(abs_le.mp i.ist.inRange).1.trans hlow', hhigh'.trans (abs_le.mp j.ist.inRange).2⟩
  refine ⟨⟨t, hvalid⟩, rfl, ?_⟩
  have hi := istMinutesOfDayOf_eq i
  have hj := istMinutesOfDayOf_eq j
  have hbetween := istMinutesOfDayOf_eq ⟨t, hvalid⟩
  simp only [Date.day, msPerDay, Instant.ist] at hi hj hbetween hday hlow' hhigh' ⊢
  omega

/-! ## Entry -/

section Entry

variable {i : Instant} {env : CalendarEnv} {cutoff warmup : ℕ}

theorem allowed_eq (args : SessionEntryArgs) : (evaluateSessionEntryWindow args).allowed =
    (isMarketOpenAt args.at args.env && calendarCoversYear args.at args.env &&
      ((minutesSinceSessionOpen args.at args.env).filter
        fun since : ℕ => .fin since < args.warmupMinutesAfterOpen).isNone &&
      ((minutesUntilSessionClose args.at args.env).filter
        fun left : ℕ => .fin left ≤ args.cutoffMinutesBeforeClose).isNone) := by
  by_cases hopen : isMarketOpenAt args.at args.env = true
  · by_cases hcovers : calendarCoversYear args.at args.env = true
    · simp only [evaluateSessionEntryWindow, hopen, hcovers, not_true_eq_false, if_false, Bool.and_self, Bool.true_and]
      split
      · next hwarm => rw [hwarm]; rfl
      · next hwarm =>
        rw [hwarm]
        split
        · next hcut => rw [hcut]; rfl
        · next hcut => rw [hcut]; rfl
    · simp [evaluateSessionEntryWindow, hopen, hcovers]
  · simp [evaluateSessionEntryWindow, hopen]

theorem allowed_iff : (evaluateSessionEntryWindow ⟨i, .fin cutoff, .fin warmup, env⟩).allowed = true ↔
    calendarCoversYear i env = true ∧ ∃ window, nseSessionWindow i env = some window ∧
      window.openMinute + warmup ≤ istMinutesOfDayOf i ∧ istMinutesOfDayOf i + cutoff < window.closeMinute := by
  rw [allowed_eq]
  cases hwindow : nseSessionWindow i env with
  | none => simp [isMarketOpenAt, hwindow]
  | some window =>
    by_cases hopen : window.openMinute ≤ istMinutesOfDayOf i ∧ istMinutesOfDayOf i < window.closeMinute
    · have hin : ¬(istMinutesOfDayOf i < window.openMinute ∨ window.closeMinute ≤ istMinutesOfDayOf i) := by omega
      have hmarket : isMarketOpenAt i env = true := (isMarketOpenAt_iff hwindow).mpr hopen
      simp only [minutesSinceSessionOpen, minutesUntilSessionClose, hwindow, if_neg hin, hmarket]
      simp [and_assoc]
      omega
    · have hmarket : ¬isMarketOpenAt i env = true := mt (isMarketOpenAt_iff hwindow).mp hopen
      have hnot : ¬(window.openMinute + warmup ≤ istMinutesOfDayOf i ∧
          istMinutesOfDayOf i + cutoff < window.closeMinute) := by omega
      simp [hmarket, hnot]

theorem day_lt_of_covered (h : calendarCoversYear i env = true) : i.ist.day < 100000000 := by
  have hrange := abs_le.mp i.ist.inRange
  by_cases hlast : i.ist.day = 100000000
  · rw [not_covered_last hlast] at h
    cases h
  · simp only [Date.day, msPerDay, maxTime] at hrange hlast ⊢
    omega

end Entry

/-- 10:00 on Tuesday 27 January 2026, and 18:20 in a Muhurat session of an hour. -/
example : (evaluateSessionEntryWindow ⟨⟨1769488200000, by decide +kernel⟩, .fin 15, .fin 5, ⟨none, none⟩⟩).allowed = true ∧
    (evaluateSessionEntryWindow ⟨⟨1794142200000, by decide +kernel⟩, .fin 15, .fin 5,
      ⟨none, some "2026-11-08:18:15-19:15"⟩⟩).allowed = true := by decide +kernel

/-- An entry allowed at an instant finds the market open from the warm-up before it to the cutoff after it, without a
gap. -/
theorem entry_runway (env : CalendarEnv) (cutoff warmup : ℕ) :
    (∀ i : Instant, (evaluateSessionEntryWindow ⟨i, .fin cutoff, .fin warmup, env⟩).allowed = true →
      calendarCoversYear i env = true ∧
        ∀ t : ℚ, i.at - warmup * 60000 ≤ t → t ≤ i.at + cutoff * 60000 →
          ∃ later : Instant, later.at = t ∧ isMarketOpenAt later env = true) ∧
      ∀ day : ℤ, Set.OrdConnected {t : ℚ | ∃ i : Instant, i.at = t ∧ i.ist.day = day ∧
        (evaluateSessionEntryWindow ⟨i, .fin cutoff, .fin warmup, env⟩).allowed = true} := by
  constructor
  · intro i hallowed
    obtain ⟨hcovers, window, hwindow, hwarm, hcut⟩ := allowed_iff.mp hallowed
    refine ⟨hcovers, fun t hlow hhigh => ?_⟩
    have hclose := window.closesWithDay
    obtain ⟨later, hat, hday, hafter, hbefore⟩ := minutes_between (day_lt_of_covered hcovers)
      (by omega : warmup ≤ istMinutesOfDayOf i) (by omega : istMinutesOfDayOf i + cutoff < 24 * 60) hlow hhigh
    refine ⟨later, hat, (isMarketOpenAt_iff ((nseSessionWindow_congr hday).trans hwindow)).mpr ?_⟩
    omega
  · intro day
    refine ⟨?_⟩
    rintro _ ⟨i, rfl, hi, hallowedi⟩ _ ⟨j, rfl, hj, hallowedj⟩ t ⟨hit, htj⟩
    obtain ⟨between, hat, hday, hafter, hbefore⟩ := minutes_mono (hi.trans hj.symm) hit htj
    obtain ⟨hcovers, window, hwindow, hwarm, -⟩ := allowed_iff.mp hallowedi
    obtain ⟨-, window', hwindow', -, hcut⟩ := allowed_iff.mp hallowedj
    rw [← nseSessionWindow_congr (hi.trans hj.symm), hwindow] at hwindow'
    cases hwindow'
    refine ⟨between, hat, hday.trans hi, allowed_iff.mpr ⟨(calendarCoversYear_congr hday).trans hcovers, window,
      (nseSessionWindow_congr hday).trans hwindow, ?_⟩⟩
    omega

end BoxEngine
