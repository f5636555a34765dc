import BoxEngine.Lib.Number
import BoxEngine.Lib.Run
import BoxEngine.Lib.SlidingWindow

/-!
# The order budget of one broker account

The published windows, what one worker may spend in each, and the ledger of its requests. Limits, spans and clock
readings are finite.
-/

namespace BoxEngine

open Js

/-! ## Limits and policy -/

inductive BrokerEndpointClass where
  | orderPlace
  | orderModify
  | orderCancel
  | dataRead
  deriving DecidableEq

def isOrderEndpoint (klass : BrokerEndpointClass) : Bool :=
  klass == .orderPlace || klass == .orderModify || klass == .orderCancel

structure RateWindow where
  spanMs : ℚ
  limit : Option ℚ

structure BrokerRateLimits where
  perSecond : RateWindow
  perMinute : RateWindow
  perHour : RateWindow
  perDay : RateWindow

def SECOND : ℚ := 1000
def MINUTE : ℚ := 60 * SECOND
def HOUR : ℚ := 60 * MINUTE
def DAY : ℚ := 24 * HOUR

def BROKER_RATE_LIMITS.dhan : BrokerRateLimits where
  perSecond := ⟨SECOND, some 10⟩
  perMinute := ⟨MINUTE, some 250⟩
  perHour := ⟨HOUR, some 1000⟩
  perDay := ⟨DAY, some 7000⟩

structure OrderBudgetPolicy where
  workerCount : ℚ
  recoveryReserveFraction : ℚ

def DEFAULT_ORDER_BUDGET_POLICY : OrderBudgetPolicy := ⟨1, 1 / 5⟩

def resolveOrderBudgetPolicy (workers reserve : Option Number) : OrderBudgetPolicy where
  workerCount :=
    match workers with
    | some (.fin workers) => if 1 ≤ workers then ⌊workers⌋ else 1
    | _ => 1
  recoveryReserveFraction :=
    match reserve with
    | some (.fin reserve) =>
      if 0 ≤ reserve ∧ reserve ≤ 1 / 2 then reserve else DEFAULT_ORDER_BUDGET_POLICY.recoveryReserveFraction
    | _ => DEFAULT_ORDER_BUDGET_POLICY.recoveryReserveFraction

inductive BudgetWindow where
  | perSecond
  | perMinute
  | perHour
  | perDay
  deriving DecidableEq

structure PlacementBudget where
  window : BudgetWindow
  spanMs : ℚ
  accountLimit : Option ℚ
  perWorkerLimit : Option ℤ
  placementLimit : Option ℤ
  recoveryReserve : ℤ

/-- Quotient and product are exact here; `Math.ceil` of the code's double product may be one higher. -/
def placementBudget (policy : OrderBudgetPolicy) (window : BudgetWindow) (win : RateWindow) : PlacementBudget :=
  match win.limit with
  | none =>
    { window, spanMs := win.spanMs, accountLimit := none, perWorkerLimit := none, placementLimit := none,
      recoveryReserve := 0 }
  | some limit =>
    let perWorker : ℤ := max 0 ⌊limit / max 1 policy.workerCount⌋
    let reserve : ℤ := ⌈perWorker * policy.recoveryReserveFraction⌉
    { window, spanMs := win.spanMs, accountLimit := some limit, perWorkerLimit := some perWorker,
      placementLimit := some (max 0 (perWorker - reserve)), recoveryReserve := reserve }

def placementBudgets (limits : BrokerRateLimits) (policy : OrderBudgetPolicy) : List PlacementBudget :=
  [placementBudget policy .perSecond limits.perSecond, placementBudget policy .perMinute limits.perMinute,
    placementBudget policy .perHour limits.perHour, placementBudget policy .perDay limits.perDay]

def PlacementBudget.ceiling (b : PlacementBudget) (isRecovery : Bool) : Option ℤ :=
  match b.accountLimit with
  | none => none
  | some _ => if isRecovery then b.perWorkerLimit else b.placementLimit

/-! ## The ledger -/

inductive BudgetReason where
  | dataRead
  | cooldown (until_ : ℚ)
  | breach (klass : BrokerEndpointClass) (window : BudgetWindow) (used : ℕ) (ceiling : ℤ) (isRecovery protective : Bool)
  | within

structure BudgetDecision where
  allowed : Bool
  bindingWindow : Option BudgetWindow
  reason : BudgetReason
  retryAtMs : Option ℚ

structure RateBudgetLedger where
  limits : BrokerRateLimits
  policy : OrderBudgetPolicy
  placementTimes : List ℚ
  recoveryTimes : List ℚ
  cooldownUntil : Option ℚ

namespace RateBudgetLedger

def new (limits : BrokerRateLimits) (policy : OrderBudgetPolicy) : RateBudgetLedger := ⟨limits, policy, [], [], none⟩

variable (l : RateBudgetLedger)

def limitedSpans : List ℚ :=
  ([l.limits.perSecond, l.limits.perMinute, l.limits.perHour, l.limits.perDay].filter fun w => w.limit.isSome).map
    RateWindow.spanMs

def horizonMs : ℚ :=
  match l.limitedSpans with
  | [] => DAY
  | span :: spans => spans.foldl max span

def prune (now : ℚ) : RateBudgetLedger :=
  let cutoff := now - l.horizonMs
  { l with
    placementTimes := l.placementTimes.dropWhile fun t => t ≤ cutoff
    recoveryTimes := l.recoveryTimes.dropWhile fun t => t ≤ cutoff }

def countWithin (spanMs now : ℚ) : ℕ :=
  (l.placementTimes.countP fun t => now - spanMs < t) + l.recoveryTimes.countP fun t => now - spanMs < t

def oldestInWindow (spanMs now : ℚ) : ℚ :=
  (l.placementTimes ++ l.recoveryTimes).foldl
    (fun oldest t => if now - spanMs < t ∧ t < oldest then t else oldest) now

def inCooldown (now : ℚ) : Bool := l.cooldownUntil.any fun cooldownUntil => now < cooldownUntil

variable (klass : BrokerEndpointClass)
variable (protective : Bool)

/-- Cancels and modifications reduce risk by nature, a placement when the caller says so. -/
def isRecovery : Bool :=
  klass == .orderCancel || klass == .orderModify || protective

def refusal (now : ℚ) (b : PlacementBudget) : Option BudgetDecision :=
  match b.ceiling (isRecovery klass protective) with
  | none => none
  | some ceiling =>
    let used := l.countWithin b.spanMs now
    if ceiling ≤ used then
      some
        { allowed := false
          bindingWindow := some b.window
          reason := .breach klass b.window used ceiling (isRecovery klass protective) protective
          retryAtMs := some (l.oldestInWindow b.spanMs now + b.spanMs) }
    else none

def check (now : ℚ) : RateBudgetLedger × BudgetDecision :=
  if ¬ isOrderEndpoint klass then
    (l, { allowed := true, bindingWindow := none, reason := .dataRead, retryAtMs := none })
  else
    match l.cooldownUntil.filter fun cooldownUntil => now < cooldownUntil with
    | some cooldownUntil =>
      (l, { allowed := false, bindingWindow := none, reason := .cooldown cooldownUntil, retryAtMs := some cooldownUntil })
    | none =>
      let l := l.prune now
      (l, ((placementBudgets l.limits l.policy).findSome? (l.refusal klass protective now)).getD
        { allowed := true, bindingWindow := none, reason := .within, retryAtMs := none })

def record (now : ℚ) : RateBudgetLedger :=
  if ¬ isOrderEndpoint klass then l
  else if klass = .orderCancel ∨ klass = .orderModify then
    { l with recoveryTimes := l.recoveryTimes ++ [now] }.prune now
  else { l with placementTimes := l.placementTimes ++ [now] }.prune now

/-- A hint that is no positive number falls back to the span of the shortest window. -/
def cooldownFor : Option Number → ℚ
  | some (.fin retryAfterMs) => if 0 < retryAfterMs then retryAfterMs else l.limits.perSecond.spanMs
  | _ => l.limits.perSecond.spanMs

def penalize (now : ℚ) (retryAfterMs : Option Number) : RateBudgetLedger :=
  let until_ := now + l.cooldownFor retryAfterMs
  if l.cooldownUntil.all fun cooldownUntil => cooldownUntil < until_ then { l with cooldownUntil := some until_ } else l

end RateBudgetLedger

structure Sent where
  klass : BrokerEndpointClass
  protective : Bool
  at_ : ℚ

structure BudgetedWorker where
  ledger : RateBudgetLedger
  now : ℚ
  sent : List Sent

inductive BudgetEvent where
  | elapsed (duration : ℚ)
  | asked (klass : BrokerEndpointClass) (protective : Bool)
  | requested (klass : BrokerEndpointClass) (protective : Bool)
  | penalised (retryAfterMs : Option Number)
  | snapshotted

namespace BudgetedWorker

def start (limits : BrokerRateLimits) (policy : OrderBudgetPolicy) (now : ℚ) : BudgetedWorker :=
  ⟨.new limits policy, now, []⟩

variable (w : BudgetedWorker)
variable (klass : BrokerEndpointClass)
variable (protective : Bool)

def check : BudgetDecision :=
  (w.ledger.check klass protective w.now).2

def checked : BudgetedWorker :=
  { w with ledger := (w.ledger.check klass protective w.now).1 }

def recorded : BudgetedWorker :=
  { w with
    ledger := w.ledger.record klass w.now
    sent := if isOrderEndpoint klass then w.sent ++ [⟨klass, protective, w.now⟩] else w.sent }

def step : BudgetEvent → BudgetedWorker × Option BudgetDecision
  | .elapsed duration => ({ w with now := w.now + max 0 duration }, none)
  | .asked klass protective => (w.checked klass protective, some (w.check klass protective))
  | .requested klass protective =>
    let decision := w.check klass protective
    let w := w.checked klass protective
    (if decision.allowed then w.recorded klass protective else w, some decision)
  | .penalised retryAfterMs => ({ w with ledger := w.ledger.penalize w.now retryAfterMs }, none)
  | .snapshotted => ({ w with ledger := w.ledger.prune w.now }, none)

end BudgetedWorker

open SlidingWindow

def OrderBudgetPolicy.Reserving (policy : OrderBudgetPolicy) : Prop :=
  0 ≤ policy.recoveryReserveFraction ∧ policy.recoveryReserveFraction ≤ 1

theorem resolveOrderBudgetPolicy_reserving (workers reserve : Option Number) :
    (resolveOrderBudgetPolicy workers reserve).Reserving := by
  have hdefault : DEFAULT_ORDER_BUDGET_POLICY.Reserving := by
    constructor <;> norm_num [DEFAULT_ORDER_BUDGET_POLICY]
  unfold OrderBudgetPolicy.Reserving resolveOrderBudgetPolicy
  dsimp only
  split
  · split
    next hrange => exact ⟨hrange.1, hrange.2.trans (by norm_num)⟩
    next => exact hdefault
  · exact hdefault

structure PlacementBudget.Limited (b : PlacementBudget) (perWorker placement : ℤ) : Prop where
  ceiling : ∀ isRecovery, b.ceiling isRecovery = some (if isRecovery then perWorker else placement)
  perWorkerLimit : b.perWorkerLimit = some perWorker
  placementLimit : b.placementLimit = some placement
  nonneg : 0 ≤ perWorker ∧ 0 ≤ placement

theorem placementBudget_unlimited {policy : OrderBudgetPolicy} {window : BudgetWindow} {win : RateWindow}
    (h : win.limit = none) :
    (placementBudget policy window win).perWorkerLimit = none ∧ (placementBudget policy window win).placementLimit = none ∧
      ∀ isRecovery, (placementBudget policy window win).ceiling isRecovery = none := by
  simp [placementBudget, h, PlacementBudget.ceiling]

theorem placementBudget_limited {policy : OrderBudgetPolicy} (hpolicy : policy.Reserving) {window : BudgetWindow}
    {win : RateWindow} {limit : ℚ} (h : win.limit = some limit) :
    ∃ perWorker placement, (placementBudget policy window win).Limited perWorker placement ∧ placement ≤ perWorker ∧
      (placementBudget policy window win).recoveryReserve ≤ perWorker - placement := by
  simp only [placementBudget, h]
  refine ⟨_, _, ⟨fun isRecovery => by cases isRecovery <;> rfl, rfl, rfl, le_max_left _ _, le_max_left _ _⟩, ?_⟩
  generalize hworker : max 0 ⌊limit / max 1 policy.workerCount⌋ = perWorker
  have hnonneg : 0 ≤ perWorker := hworker ▸ le_max_left _ _
  have hcast : (0 : ℚ) ≤ perWorker := by exact_mod_cast hnonneg
  have hlow : 0 ≤ ⌈(perWorker : ℚ) * policy.recoveryReserveFraction⌉ := Int.ceil_nonneg (mul_nonneg hcast hpolicy.1)
  have hhigh : ⌈(perWorker : ℚ) * policy.recoveryReserveFraction⌉ ≤ perWorker :=
    Int.ceil_le.mpr (mul_le_of_le_one_right hcast hpolicy.2)
  omega

/-! ## One check -/

namespace RateBudgetLedger

variable {l : RateBudgetLedger} {klass : BrokerEndpointClass} {protective : Bool} {now : ℚ}

theorem le_foldl_max {spans : List ℚ} {a b : ℚ} (h : b ≤ a ∨ b ∈ spans) : b ≤ spans.foldl max a := by
  induction spans generalizing a with
  | nil => simpa using h
  | cons span spans ih =>
    apply ih
    rw [List.mem_cons] at h
    rcases h with h | h | h
    · exact .inl (h.trans (le_max_left _ _))
    · exact .inl (h ▸ le_max_right _ _)
    · exact .inr h

theorem le_horizonMs {win : RateWindow} (hwin : win ∈ [l.limits.perSecond, l.limits.perMinute, l.limits.perHour, l.limits.perDay])
    (hlimit : win.limit.isSome = true) : win.spanMs ≤ l.horizonMs := by
  have hmem : win.spanMs ∈ l.limitedSpans := List.mem_map_of_mem (List.mem_filter.mpr ⟨hwin, hlimit⟩)
  unfold horizonMs
  cases hspans : l.limitedSpans with
  | nil => simp [hspans] at hmem
  | cons span spans =>
    rw [hspans, List.mem_cons] at hmem
    exact le_foldl_max (hmem.imp_left le_of_eq)

def budgets (l : RateBudgetLedger) : List PlacementBudget := placementBudgets l.limits l.policy

variable {b : PlacementBudget}

theorem budget_cases (hpolicy : l.policy.Reserving) (hb : b ∈ l.budgets) :
    (b.perWorkerLimit = none ∧ b.placementLimit = none ∧ ∀ isRecovery, b.ceiling isRecovery = none) ∨
      ∃ perWorker placement, b.Limited perWorker placement ∧ b.spanMs ≤ l.horizonMs ∧ placement ≤ perWorker ∧
        b.recoveryReserve ≤ perWorker - placement := by
  have hwin : ∃ window win, b = placementBudget l.policy window win ∧
      win ∈ [l.limits.perSecond, l.limits.perMinute, l.limits.perHour, l.limits.perDay] := by
    simp only [budgets, placementBudgets, List.mem_cons, List.not_mem_nil, or_false] at hb
    rcases hb with rfl | rfl | rfl | rfl <;> exact ⟨_, _, rfl, by simp⟩
  obtain ⟨window, win, rfl, hmem⟩ := hwin
  cases hlimit : win.limit with
  | none => exact .inl (placementBudget_unlimited hlimit)
  | some limit =>
    obtain ⟨perWorker, placement, hlimited, hle, hreserve⟩ := placementBudget_limited hpolicy hlimit
    have hspan : (placementBudget l.policy window win).spanMs = win.spanMs := by simp [placementBudget, hlimit]
    exact .inr ⟨perWorker, placement, hlimited, hspan ▸ le_horizonMs hmem (by simp [hlimit]), hle, hreserve⟩

theorem budget_limited (hpolicy : l.policy.Reserving) (hb : b ∈ l.budgets) {perWorker placement : ℤ}
    (hlimited : b.Limited perWorker placement) :
    b.spanMs ≤ l.horizonMs ∧ placement ≤ perWorker ∧ b.recoveryReserve ≤ perWorker - placement := by
  rcases budget_cases hpolicy hb with hunlimited | ⟨perWorker', placement', hlimited', hbounds⟩
  · simp [hlimited.perWorkerLimit] at hunlimited
  · have hworker := hlimited'.perWorkerLimit
    have hplacement := hlimited'.placementLimit
    rw [hlimited.perWorkerLimit, Option.some.injEq] at hworker
    rw [hlimited.placementLimit, Option.some.injEq] at hplacement
    rwa [hworker, hplacement]

theorem refusal_eq_some {d : BudgetDecision} (h : l.refusal klass protective now b = some d) :
    ∃ ceiling, b.ceiling (isRecovery klass protective) = some ceiling ∧ ceiling ≤ l.countWithin b.spanMs now ∧
      d.allowed = false ∧ d.bindingWindow = some b.window ∧ d.retryAtMs = some (l.oldestInWindow b.spanMs now + b.spanMs) := by
  unfold refusal at h
  cases hceiling : b.ceiling (isRecovery klass protective) with
  | none => simp [hceiling] at h
  | some ceiling =>
    simp only [hceiling] at h
    by_cases hfull : ceiling ≤ l.countWithin b.spanMs now
    · simp only [if_pos hfull, Option.some.injEq] at h
      subst h
      exact ⟨ceiling, rfl, hfull, rfl, rfl, rfl⟩
    · simp [hfull] at h

theorem refusal_eq_none (h : l.refusal klass protective now b = none) {ceiling : ℤ}
    (hceiling : b.ceiling (isRecovery klass protective) = some ceiling) :
    (l.countWithin b.spanMs now : ℤ) < ceiling := by
  by_contra hfull
  simp [refusal, hceiling, not_lt.mp hfull] at h

inductive Checked (l : RateBudgetLedger) (klass : BrokerEndpointClass) (protective : Bool) (now : ℚ) :
    RateBudgetLedger → BudgetDecision → Prop
  | cooling {d : BudgetDecision} (hcooling : l.inCooldown now = true) (hd : d.allowed = false)
      (hwindow : d.bindingWindow = none) :
    Checked l klass protective now l d
  | refused {b : PlacementBudget} {d : BudgetDecision} (hb : b ∈ l.budgets)
      (hd : (l.prune now).refusal klass protective now b = some d) (hcalm : l.inCooldown now = false) :
    Checked l klass protective now (l.prune now) d
  | allowed {d : BudgetDecision} (hd : d.allowed = true) (hwindow : d.bindingWindow = none)
      (hroom : ∀ b ∈ l.budgets, (l.prune now).refusal klass protective now b = none) (hcalm : l.inCooldown now = false) :
    Checked l klass protective now (l.prune now) d

theorem check_checked (hklass : isOrderEndpoint klass = true) :
    Checked l klass protective now (l.check klass protective now).1 (l.check klass protective now).2 := by
  unfold check
  rw [if_neg (by simp [hklass])]
  cases hcooling : l.cooldownUntil.filter fun cooldownUntil => now < cooldownUntil with
  | some cooldownUntil =>
    have hmem := Option.filter_eq_some_iff.mp hcooling
    exact .cooling (by simp [inCooldown, hmem.1, of_decide_eq_true hmem.2]) rfl rfl
  | none =>
    have hcalm : l.inCooldown now = false := by
      unfold inCooldown
      cases huntil : l.cooldownUntil with
      | none => rfl
      | some cooldownUntil => simpa [huntil] using hcooling
    cases hrefused : (placementBudgets l.limits l.policy).findSome? ((l.prune now).refusal klass protective now) with
    | some d =>
      obtain ⟨b, hb, hd⟩ := List.exists_of_findSome?_eq_some hrefused
      have hdecision : (placementBudgets (l.prune now).limits (l.prune now).policy).findSome?
          ((l.prune now).refusal klass protective now) = some d := hrefused
      simp only [hdecision, Option.getD_some]
      exact .refused hb hd hcalm
    | none =>
      have hdecision : (placementBudgets (l.prune now).limits (l.prune now).policy).findSome?
          ((l.prune now).refusal klass protective now) = none := hrefused
      simp only [hdecision, Option.getD_none]
      exact .allowed rfl rfl (List.findSome?_eq_none_iff.mp hrefused) hcalm

theorem check_budgets (l : RateBudgetLedger) (klass : BrokerEndpointClass) (protective : Bool) (now : ℚ) :
    (l.check klass protective now).1.budgets = l.budgets := by
  unfold check
  split
  · rfl
  · split <;> rfl

theorem oldestInWindow_le {spanMs t : ℚ} (ht : t ∈ l.placementTimes ∨ t ∈ l.recoveryTimes) (hin : now - spanMs < t) :
    l.oldestInWindow spanMs now ≤ t := by
  have hfold : ∀ (times : List ℚ) (start : ℚ),
      times.foldl (fun oldest t => if now - spanMs < t ∧ t < oldest then t else oldest) start ≤ start ∧
        ∀ t ∈ times, now - spanMs < t →
          times.foldl (fun oldest t => if now - spanMs < t ∧ t < oldest then t else oldest) start ≤ t := by
    intro times
    induction times with
    | nil => simp
    | cons first times ih =>
      intro start
      simp only [List.foldl_cons]
      by_cases hfirst : now - spanMs < first ∧ first < start
      · rw [if_pos hfirst]
        refine ⟨(ih first).1.trans hfirst.2.le, fun t ht hin => ?_⟩
        rcases List.mem_cons.mp ht with rfl | ht
        · exact (ih t).1
        · exact (ih first).2 t ht hin
      · rw [if_neg hfirst]
        refine ⟨(ih start).1, fun t ht hin => ?_⟩
        rcases List.mem_cons.mp ht with rfl | ht
        · exact (ih start).1.trans (not_lt.mp fun hlt => hfirst ⟨hin, hlt⟩)
        · exact (ih start).2 t ht hin
  exact (hfold _ now).2 t (List.mem_append.mpr ht) hin

end RateBudgetLedger

/-! ## What is recorded -/

def Sent.isPlacement (s : Sent) : Bool := s.klass == .orderPlace

def Sent.isEntry (s : Sent) : Bool := s.klass == .orderPlace && !s.protective

namespace BudgetedWorker

variable {w : BudgetedWorker} {klass : BrokerEndpointClass} {protective : Bool}

def within (w : BudgetedWorker) (span t : ℚ) : ℕ := count Sent.at_ w.sent span t

def entriesWithin (w : BudgetedWorker) (span t : ℚ) : ℕ := count Sent.at_ (w.sent.filter Sent.isEntry) span t

def nonEntriesWithin (w : BudgetedWorker) (span t : ℚ) : ℕ := count Sent.at_ (w.sent.filter fun s => !s.isEntry) span t

structure Remembers (w : BudgetedWorker) : Prop where
  past : ∀ s ∈ w.sent, s.at_ ≤ w.now
  placed : Prunes Sent.at_ (w.sent.filter Sent.isPlacement) (w.now - w.ledger.horizonMs) w.ledger.placementTimes
  recovered : Prunes Sent.at_ (w.sent.filter fun s => !s.isPlacement) (w.now - w.ledger.horizonMs) w.ledger.recoveryTimes

def pruned (w : BudgetedWorker) : BudgetedWorker := { w with ledger := w.ledger.prune w.now }

theorem Remembers.pruned (h : w.Remembers) : w.pruned.Remembers := ⟨h.past, h.placed.dropWhile, h.recovered.dropWhile⟩

theorem Remembers.countWithin (h : w.Remembers) {span : ℚ} (hspan : span ≤ w.ledger.horizonMs) :
    w.ledger.countWithin span w.now = w.within span w.now := by
  have hstart : w.now - w.ledger.horizonMs ≤ w.now - span := by linarith
  unfold RateBudgetLedger.countWithin within
  rw [h.placed.countP hstart, h.recovered.countP hstart, ← count_filter_add Sent.isPlacement,
    count_eq_recent fun s hs => h.past s (List.mem_filter.mp hs).1,
    count_eq_recent fun s hs => h.past s (List.mem_filter.mp hs).1]

theorem Remembers.elapsed (h : w.Remembers) (duration : ℚ) : Remembers { w with now := w.now + max 0 duration } := by
  have hle : w.now ≤ w.now + max 0 duration := le_add_of_nonneg_right (le_max_left _ _)
  exact ⟨fun s hs => (h.past s hs).trans hle, h.placed.mono (sub_le_sub_right hle _), h.recovered.mono (sub_le_sub_right hle _)⟩

theorem filter_snoc (p : Sent → Bool) (l : List Sent) (s : Sent) :
    (l ++ [s]).filter p = if p s then l.filter p ++ [s] else l.filter p := by
  by_cases hp : p s <;> simp [List.filter_append, hp]

theorem Remembers.recorded (h : w.Remembers) (klass : BrokerEndpointClass) (protective : Bool) :
    (w.recorded klass protective).Remembers := by
  have hpast : ∀ s ∈ w.sent ++ [⟨klass, protective, w.now⟩], s.at_ ≤ w.now := by
    intro s hs
    rcases List.mem_append.mp hs with hs | hs
    · exact h.past s hs
    · rw [List.mem_singleton.mp hs]
  -- the stamp joins one list, and both are pruned
  have hplaced : ∀ s : Sent, s.isPlacement = false →
      Prunes Sent.at_ ((w.sent ++ [s]).filter Sent.isPlacement) (w.now - w.ledger.horizonMs)
        (w.ledger.placementTimes.dropWhile fun t => t ≤ w.now - w.ledger.horizonMs) := by
    intro s hs
    rw [filter_snoc, hs]
    exact h.placed.dropWhile
  cases klass with
  | orderPlace =>
    refine ⟨hpast, ?_, ?_⟩
    · show Prunes Sent.at_ ((w.sent ++ [_]).filter _) _ _
      rw [filter_snoc]
      exact (h.placed.snoc ⟨.orderPlace, protective, w.now⟩).dropWhile
    · show Prunes Sent.at_ ((w.sent ++ [_]).filter _) _ _
      rw [filter_snoc]
      exact h.recovered.dropWhile
  | orderModify =>
    refine ⟨hpast, hplaced _ rfl, ?_⟩
    show Prunes Sent.at_ ((w.sent ++ [_]).filter _) _ _
    rw [filter_snoc]
    exact (h.recovered.snoc ⟨.orderModify, protective, w.now⟩).dropWhile
  | orderCancel =>
    refine ⟨hpast, hplaced _ rfl, ?_⟩
    show Prunes Sent.at_ ((w.sent ++ [_]).filter _) _ _
    rw [filter_snoc]
    exact (h.recovered.snoc ⟨.orderCancel, protective, w.now⟩).dropWhile
  | dataRead => exact h

/-! ## The two bounds -/

structure Sound (w : BudgetedWorker) : Prop extends w.Remembers where
  policy : w.ledger.policy.Reserving
  bounded : ∀ b ∈ w.ledger.budgets, ∀ perWorker placement, b.Limited perWorker placement →
    ∀ t, (w.within b.spanMs t : ℤ) ≤ perWorker
  entries : ∀ b ∈ w.ledger.budgets, ∀ perWorker placement, b.Limited perWorker placement →
    ∀ t, (w.entriesWithin b.spanMs t : ℤ) ≤ placement

theorem start_sound (limits : BrokerRateLimits) {policy : OrderBudgetPolicy} (hpolicy : policy.Reserving) (now : ℚ) :
    (start limits policy now).Sound where
  past := by simp [start]
  placed := .nil
  recovered := .nil
  policy := hpolicy
  bounded _ _ _ _ hlimited _ := hlimited.nonneg.1
  entries _ _ _ _ hlimited _ := hlimited.nonneg.2

variable {b : PlacementBudget} {perWorker placement : ℤ}

theorem Sound.room (h : w.Sound) (hklass : isOrderEndpoint klass = true)
    (hallowed : (w.check klass protective).allowed = true) (hb : b ∈ w.ledger.budgets)
    (hlimited : b.Limited perWorker placement) :
    (w.within b.spanMs w.now : ℤ) < if RateBudgetLedger.isRecovery klass protective then perWorker else placement := by
  obtain ⟨hspan, _⟩ := RateBudgetLedger.budget_limited h.policy hb hlimited
  have hpruned : (w.ledger.prune w.now).countWithin b.spanMs w.now = w.within b.spanMs w.now := h.pruned.countWithin hspan
  have hchecked : RateBudgetLedger.Checked w.ledger klass protective w.now _ _ := RateBudgetLedger.check_checked hklass
  unfold check at hallowed
  generalize (w.ledger.check klass protective w.now).1 = l at hchecked
  generalize (w.ledger.check klass protective w.now).2 = d at hchecked hallowed
  cases hchecked with
  | cooling _ hd => simp [hd] at hallowed
  | refused _ hd =>
    obtain ⟨_, _, _, hrefused, _⟩ := RateBudgetLedger.refusal_eq_some hd
    simp [hrefused] at hallowed
  | allowed _ _ hroom =>
    have hcount := RateBudgetLedger.refusal_eq_none (hroom b hb) (hlimited.ceiling _)
    rwa [hpruned] at hcount

theorem Sound.recorded (h : w.Sound) (hroom : isOrderEndpoint klass = true → ∀ b ∈ w.ledger.budgets,
      ∀ perWorker placement, b.Limited perWorker placement → (w.within b.spanMs w.now : ℤ) <
        if RateBudgetLedger.isRecovery klass protective then perWorker else placement) :
    (w.recorded klass protective).Sound := by
  by_cases hklass : isOrderEndpoint klass = true
  · have hledger : (w.recorded klass protective).ledger.budgets = w.ledger.budgets := by cases klass <;> rfl
    have hpolicy : (w.recorded klass protective).ledger.policy = w.ledger.policy := by cases klass <;> rfl
    have hsent : (w.recorded klass protective).sent = w.sent ++ [⟨klass, protective, w.now⟩] := if_pos hklass
    have hstamp : Sent.at_ ⟨klass, protective, w.now⟩ = w.now := rfl
    refine ⟨h.toRemembers.recorded klass protective, hpolicy ▸ h.policy, ?_, ?_⟩
    · intro b hb perWorker placement hlimited t
      rw [hledger] at hb
      have hroom := hroom hklass b hb perWorker placement hlimited
      have hfree : (w.within b.spanMs w.now : ℤ) < perWorker := by
        obtain ⟨_, hle, _⟩ := RateBudgetLedger.budget_limited h.policy hb hlimited
        split at hroom
        · exact hroom
        · exact hroom.trans_le hle
      unfold within
      rw [hsent]
      apply bounded_snoc (h.bounded b hb perWorker placement hlimited) hstamp h.past hfree
    · intro b hb perWorker placement hlimited t
      rw [hledger] at hb
      unfold entriesWithin
      rw [hsent, filter_snoc]
      split
      · rename_i hentry
        have hplain : RateBudgetLedger.isRecovery klass protective = false := by
          simp only [Sent.isEntry, Bool.and_eq_true, beq_iff_eq, Bool.not_eq_true'] at hentry
          simp [RateBudgetLedger.isRecovery, hentry.1, hentry.2]
        have hroom := hroom hklass b hb perWorker placement hlimited
        rw [hplain, if_neg (by decide)] at hroom
        have hfree : (w.entriesWithin b.spanMs w.now : ℤ) < placement :=
          (Int.ofNat_le.mpr (count_filter_le Sent.isEntry)).trans_lt hroom
        apply bounded_snoc (h.entries b hb perWorker placement hlimited) hstamp
        · exact fun s hs => h.past s (List.mem_filter.mp hs).1
        · exact hfree
      · exact h.entries b hb perWorker placement hlimited t
  · cases klass with
    | dataRead => exact h
    | _ => exact absurd rfl hklass

theorem Sound.pruned (h : w.Sound) : w.pruned.Sound := ⟨h.toRemembers.pruned, h.policy, h.bounded, h.entries⟩

theorem Sound.checked (h : w.Sound) (klass : BrokerEndpointClass) (protective : Bool) : (w.checked klass protective).Sound := by
  unfold BudgetedWorker.checked RateBudgetLedger.check
  split
  · exact h
  · split
    · exact h
    · exact h.pruned

theorem Sound.step (h : w.Sound) (event : BudgetEvent) : (w.step event).1.Sound := by
  cases event with
  | elapsed duration => exact ⟨h.toRemembers.elapsed duration, h.policy, h.bounded, h.entries⟩
  | asked klass protective => exact h.checked klass protective
  | requested klass protective =>
    simp only [BudgetedWorker.step]
    by_cases hallowed : (w.check klass protective).allowed = true
    · rw [if_pos hallowed]
      apply (h.checked klass protective).recorded
      intro hklass b hb perWorker placement hlimited
      exact h.room hklass hallowed ((RateBudgetLedger.check_budgets w.ledger klass protective w.now) ▸ hb) hlimited
    · rw [if_neg hallowed]
      exact h.checked klass protective
  | penalised retryAfterMs =>
    simp only [BudgetedWorker.step, RateBudgetLedger.penalize]
    split
    · exact ⟨⟨h.past, h.placed, h.recovered⟩, h.policy, h.bounded, h.entries⟩
    · exact h
  | snapshotted => exact h.pruned

theorem sound_run (limits : BrokerRateLimits) {policy : OrderBudgetPolicy} (hpolicy : policy.Reserving) (now : ℚ)
    (events : List BudgetEvent) : (Run.finish step (start limits policy now) events).Sound := by
  have hstart := start_sound limits hpolicy now
  generalize start limits policy now = w at hstart
  induction events generalizing w with
  | nil => exact hstart
  | cons event events ih => exact ih _ (hstart.step event)

/-! ## What a check says -/

theorem Sound.refused (h : w.Sound) {window : BudgetWindow} (hwindow : (w.check klass protective).bindingWindow = some window) :
    ∃ b ∈ w.ledger.budgets, b.window = window ∧ ∃ perWorker placement, b.Limited perWorker placement ∧
      (if RateBudgetLedger.isRecovery klass protective then perWorker else placement) ≤ (w.within b.spanMs w.now : ℤ) ∧
      (w.check klass protective).retryAtMs = some ((w.ledger.prune w.now).oldestInWindow b.spanMs w.now + b.spanMs) := by
  by_cases hklass : isOrderEndpoint klass = true
  · have hchecked : RateBudgetLedger.Checked w.ledger klass protective w.now _ _ := RateBudgetLedger.check_checked hklass
    unfold check at hwindow ⊢
    generalize (w.ledger.check klass protective w.now).1 = l at hchecked
    generalize (w.ledger.check klass protective w.now).2 = d at hchecked hwindow ⊢
    cases hchecked with
    | cooling _ _ hnone => simp [hnone] at hwindow
    | allowed _ hnone => simp [hnone] at hwindow
    | @refused b _ hb hd =>
      obtain ⟨ceiling, hceiling, hfull, _, hbinding, hretry⟩ := RateBudgetLedger.refusal_eq_some hd
      rw [hbinding, Option.some.injEq] at hwindow
      rcases RateBudgetLedger.budget_cases h.policy hb with hunlimited | ⟨perWorker, placement, hlimited, hspan, _⟩
      · simp [hunlimited.2.2] at hceiling
      · rw [hlimited.ceiling, Option.some.injEq] at hceiling
        have hpruned : (w.ledger.prune w.now).countWithin b.spanMs w.now = w.within b.spanMs w.now :=
          h.pruned.countWithin hspan
        rw [hpruned] at hfull
        exact ⟨b, hb, hwindow, perWorker, placement, hlimited, hceiling ▸ hfull, hretry⟩
  · simp [check, RateBudgetLedger.check, hklass] at hwindow

theorem Sound.oldest_le (h : w.Sound) (hb : b ∈ w.ledger.budgets) (hlimited : b.Limited perWorker placement) {t : ℚ}
    (hle : w.now ≤ t) (hfewer : w.within b.spanMs t < w.within b.spanMs w.now) :
    (w.ledger.prune w.now).oldestInWindow b.spanMs w.now + b.spanMs ≤ t := by
  obtain ⟨s, hs, hin, haged⟩ := exists_aged h.past hle hfewer
  obtain ⟨hspan, _⟩ := RateBudgetLedger.budget_limited h.policy hb hlimited
  have hkept : s.at_ ∈ (w.ledger.prune w.now).placementTimes ∨ s.at_ ∈ (w.ledger.prune w.now).recoveryTimes := by
    have hrecent : w.now - w.ledger.horizonMs < s.at_ := by linarith
    by_cases hplacement : s.isPlacement = true
    · exact .inl (h.pruned.placed.mem (List.mem_filter.mpr ⟨hs, hplacement⟩) hrecent)
    · exact .inr (h.pruned.recovered.mem (List.mem_filter.mpr ⟨hs, by simp [hplacement]⟩) hrecent)
  have holdest := RateBudgetLedger.oldestInWindow_le hkept hin
  linarith

theorem Sound.nonEntries (h : w.Sound) (hb : b ∈ w.ledger.budgets) (hlimited : b.Limited perWorker placement)
    (hfull : perWorker ≤ (w.within b.spanMs w.now : ℤ)) :
    b.recoveryReserve ≤ (w.nonEntriesWithin b.spanMs w.now : ℤ) := by
  have hentries := h.entries b hb perWorker placement hlimited w.now
  obtain ⟨_, _, hreserve⟩ := RateBudgetLedger.budget_limited h.policy hb hlimited
  have hsplit : w.entriesWithin b.spanMs w.now + w.nonEntriesWithin b.spanMs w.now = w.within b.spanMs w.now :=
    count_filter_add Sent.isEntry
  omega

variable (w : BudgetedWorker)

theorem cooldown_step (event : BudgetEvent) {until_ : ℚ} (h : w.ledger.cooldownUntil = some until_) :
    ∃ until', (w.step event).1.ledger.cooldownUntil = some until' ∧ until_ ≤ until' := by
  have hcheck : ∀ klass protective, (w.ledger.check klass protective w.now).1.cooldownUntil = some until_ := by
    intro klass protective
    unfold RateBudgetLedger.check
    split
    · exact h
    · split <;> exact h
  cases event with
  | elapsed duration => exact ⟨until_, h, le_refl _⟩
  | asked klass protective => exact ⟨until_, hcheck klass protective, le_refl _⟩
  | requested klass protective =>
    refine ⟨until_, ?_, le_refl _⟩
    simp only [step]
    split
    · cases klass <;> exact hcheck _ protective
    · exact hcheck klass protective
  | penalised retryAfterMs =>
    simp only [step, RateBudgetLedger.penalize, h, Option.all_some]
    split
    · rename_i hlonger
      exact ⟨_, rfl, (of_decide_eq_true hlonger).le⟩
    · exact ⟨until_, h, le_refl _⟩
  | snapshotted => exact ⟨until_, h, le_refl _⟩

theorem budgets_step (event : BudgetEvent) : (w.step event).1.ledger.budgets = w.ledger.budgets := by
  cases event with
  | elapsed duration => rfl
  | asked klass protective => exact RateBudgetLedger.check_budgets ..
  | requested klass protective =>
    simp only [step]
    split
    · cases klass <;> exact RateBudgetLedger.check_budgets ..
    · exact RateBudgetLedger.check_budgets ..
  | penalised retryAfterMs =>
    simp only [step, RateBudgetLedger.penalize]
    split <;> rfl
  | snapshotted => rfl

theorem budgets_run (events : List BudgetEvent) : (Run.finish step w events).ledger.budgets = w.ledger.budgets := by
  induction events generalizing w with
  | nil => rfl
  | cons event events ih => exact (ih _).trans (budgets_step w event)

structure BudgetsHold (w : BudgetedWorker) : Prop where
  limited : ∀ b ∈ w.ledger.budgets, ∀ limit, b.perWorkerLimit = some limit → ∀ t, (w.within b.spanMs t : ℤ) ≤ limit
  placement : (w.check .orderPlace false).allowed = true → ∀ b ∈ w.ledger.budgets, ∀ limit,
    b.placementLimit = some limit → (w.within b.spanMs w.now : ℤ) < limit
  reserve : ∀ klass protective window, RateBudgetLedger.isRecovery klass protective = true →
    (w.check klass protective).bindingWindow = some window →
      ∃ b ∈ w.ledger.budgets, b.window = window ∧ b.recoveryReserve ≤ (w.nonEntriesWithin b.spanMs w.now : ℤ)
  cooldown : ∀ klass protective, isOrderEndpoint klass = true → w.ledger.inCooldown w.now = true →
    (w.check klass protective).allowed = false
  kept : ∀ event until_, w.ledger.cooldownUntil = some until_ →
    ∃ until', (w.step event).1.ledger.cooldownUntil = some until' ∧ until_ ≤ until'
  retry : ∀ klass protective window at_, (w.check klass protective).bindingWindow = some window →
    (w.check klass protective).retryAtMs = some at_ →
      ∃ b ∈ w.ledger.budgets, b.window = window ∧ ∃ ceiling,
        b.ceiling (RateBudgetLedger.isRecovery klass protective) = some ceiling ∧
          ∀ t, w.now ≤ t → (w.within b.spanMs t : ℤ) < ceiling → at_ ≤ t

/-- **The budgets hold** under a policy that reserves a part of the budget. -/
theorem budgets_hold (limits : BrokerRateLimits) (policy : OrderBudgetPolicy) (hpolicy : policy.Reserving) (now : ℚ)
    (events : List BudgetEvent) : (Run.finish step (start limits policy now) events).BudgetsHold := by
  have h := sound_run limits hpolicy now events
  generalize Run.finish step (start limits policy now) events = w at h
  refine ⟨?_, ?_, ?_, ?_, fun event _ hkept => cooldown_step w event hkept, ?_⟩
  · intro b hb limit hlimit t
    rcases RateBudgetLedger.budget_cases h.policy hb with hunlimited | ⟨perWorker, placement, hlimited, _⟩
    · simp [hunlimited.1] at hlimit
    · rw [hlimited.perWorkerLimit, Option.some.injEq] at hlimit
      exact hlimit ▸ h.bounded b hb perWorker placement hlimited t
  · intro hallowed b hb limit hlimit
    rcases RateBudgetLedger.budget_cases h.policy hb with hunlimited | ⟨perWorker, placement, hlimited, _⟩
    · simp [hunlimited.2.1] at hlimit
    · rw [hlimited.placementLimit, Option.some.injEq] at hlimit
      exact hlimit ▸ h.room rfl hallowed hb hlimited
  · intro klass protective window hrecovery hwindow
    obtain ⟨b, hb, hname, perWorker, placement, hlimited, hfull, _⟩ := h.refused hwindow
    rw [if_pos hrecovery] at hfull
    exact ⟨b, hb, hname, h.nonEntries hb hlimited hfull⟩
  · intro klass protective hklass hcooling
    have hchecked : RateBudgetLedger.Checked w.ledger klass protective w.now _ _ := RateBudgetLedger.check_checked hklass
    unfold check
    generalize (w.ledger.check klass protective w.now).1 = l at hchecked
    generalize (w.ledger.check klass protective w.now).2 = d at hchecked ⊢
    cases hchecked with
    | cooling _ hd => exact hd
    | refused _ _ hcalm => simp [hcooling] at hcalm
    | allowed _ _ _ hcalm => simp [hcooling] at hcalm
  · intro klass protective window at_ hwindow hretry
    obtain ⟨b, hb, hname, perWorker, placement, hlimited, hfull, hat⟩ := h.refused hwindow
    rw [hat, Option.some.injEq] at hretry
    refine ⟨b, hb, hname, _, hlimited.ceiling _, fun t hle hroom => ?_⟩
    rw [← hretry]
    exact h.oldest_le hb hlimited hle (by omega)

/-- Nine placements asked for at once: one second has room for eight, and two are held back. -/
theorem budgets_hold_dhan :
    (Run.finish step (start BROKER_RATE_LIMITS.dhan DEFAULT_ORDER_BUDGET_POLICY 0)
        (List.replicate 9 (.requested .orderPlace false))).sent.length = 8 ∧
      (Run.finish step (start BROKER_RATE_LIMITS.dhan DEFAULT_ORDER_BUDGET_POLICY 0)
        (List.replicate 9 (.requested .orderPlace false))).BudgetsHold := by
  refine ⟨by decide +kernel, ?_⟩
  exact budgets_hold _ _ (resolveOrderBudgetPolicy_reserving none none) 0 _

/-- A data read during a cooldown, and placements over the share under a negative reserve. -/
theorem budgets_broken :
    ((Run.finish step (start BROKER_RATE_LIMITS.dhan DEFAULT_ORDER_BUDGET_POLICY 0)
      [.penalised none]).ledger.inCooldown 0 = true ∧
        ((Run.finish step (start BROKER_RATE_LIMITS.dhan DEFAULT_ORDER_BUDGET_POLICY 0) [.penalised none]).check
          .dataRead false).allowed = true) ∧
      ¬ (Run.finish step (start BROKER_RATE_LIMITS.dhan ⟨1, -1⟩ 0)
        (List.replicate 11 (.requested .orderPlace false))).BudgetsHold := by
  refine ⟨by decide +kernel, fun h => ?_⟩
  have hperSecond : placementBudget ⟨1, -1⟩ .perSecond BROKER_RATE_LIMITS.dhan.perSecond ∈
      (Run.finish step (start BROKER_RATE_LIMITS.dhan ⟨1, -1⟩ 0)
        (List.replicate 11 (.requested .orderPlace false))).ledger.budgets := by
    rw [budgets_run]
    exact .head _
  have hlimited := h.limited _ hperSecond 10 (by decide +kernel) 0
  exact absurd hlimited (by decide +kernel)

end BudgetedWorker

end BoxEngine
