import BoxEngine.Lib.Run
import BoxEngine.LegExecutor

/-!
# Sequential release

An order is released in the step in which the one before it arrives and fills at once. One that is completed by a book
update releases nothing.
-/

namespace BoxEngine.LegExecutor

open Js

/-! ## One order -/

namespace LegState

variable {deps : LegExecutorDeps} {st : LegState} {market : Market} {i : ℕ} {aborted : Bool} {at_ : ℚ}

structure Sound (aborted : Bool) (st : LegState) : Prop where
  filled : st.filledBeforeAbort = true → st.done = true ∧ st.submitted = true ∧ st.leg.status = .filled
  counted : aborted = false → st.leg.status = .filled → st.filledBeforeAbort = true
  released : st.done = false → st.leg.status ≠ .created → st.submitted = true
  short : st.done = false → 0 < st.leg.fillQty → 0 < st.leg.remainingQty
  cancelling : aborted = true → st.done = false → st.leg.status = .cancelRequested
  requested : st.done = false → st.leg.cancelRequestedAt.isSome = true → st.leg.status = .cancelRequested
  working : st.done = false → st.leg.status.terminal = false

structure Stops (st st' : LegState) : Prop where
  submitted : st'.submitted = st.submitted
  filled : st'.filledBeforeAbort = st.filledBeforeAbort
  notFilled : st'.leg.status ≠ .filled
  stopped : st'.done = true ∨ st'.done = st.done ∧ st.leg.status ≠ .created ∧ st'.leg.status = .cancelRequested ∧
    st'.leg.fillQty = st.leg.fillQty ∧ st'.leg.remainingQty = st.leg.remainingQty

theorem Sound.stops (h : st.Sound aborted) (hopen : st.done = false) {st' : LegState} (hstops : st.Stops st')
    (aborted' : Bool) : st'.Sound aborted' := by
  have hnone : st.filledBeforeAbort = false := by
    by_contra hfilled
    simp [(h.filled (by simpa using hfilled)).1] at hopen
  have hnone' : st'.filledBeforeAbort = false := hstops.filled.trans hnone
  obtain hdone | ⟨hdone, hcreated, hstatus, hfill, hremaining⟩ := hstops.stopped
  · exact ⟨by simp [hnone'], fun _ hfilled => absurd hfilled hstops.notFilled, by simp [hdone], by simp [hdone],
      by simp [hdone], by simp [hdone], by simp [hdone]⟩
  · refine ⟨by simp [hnone'], fun _ hfilled => absurd hfilled hstops.notFilled, ?_, ?_, fun _ _ => hstatus,
      fun _ _ => hstatus, fun _ => by simp [hstatus, PaperLegStatus.terminal]⟩
    · intro _ _
      rw [hstops.submitted]
      exact h.released hopen hcreated
    · intro _ hpos
      rw [hremaining]
      exact h.short hopen (hfill ▸ hpos)

theorem stops_abandon (hopen : st.leg.status.terminal = false) (now : ℚ) (detail : String) :
    st.Stops (st.abandon now detail) := by
  unfold abandon
  rw [if_neg (by simp [hopen])]
  refine ⟨rfl, rfl, ?_, .inl rfl⟩
  dsimp only
  split <;> decide

theorem stops_timeOut (now : ℚ) (detail : String) : st.Stops (st.timeOut now detail) :=
  ⟨rfl, rfl, by simp [timeOut], .inl rfl⟩

section

variable (hopen : st.leg.status.terminal = false)

include hopen

theorem stops_cancelResting (hcreated : st.leg.status ≠ .created)
    (hrequested : st.leg.cancelRequestedAt.isSome = true → st.leg.status = .cancelRequested) (now : ℚ)
    (cause : CancelCause) (detail : String) : st.Stops (st.cancelResting deps i now cause detail) := by
  unfold cancelResting
  cases deps.cancelRace with
  | none =>
    cases cause with
    | timeout => exact stops_timeOut now detail
    | abort => exact stops_abandon hopen now detail
  | some latencyMs =>
    by_cases hsome : st.leg.cancelRequestedAt.isSome = true
    · have hstatus := hrequested hsome
      simp only [hsome, if_true]
      exact ⟨rfl, rfl, by simp [hstatus], .inr ⟨rfl, hcreated, hstatus, rfl, rfl⟩⟩
    · simp only [hsome, Bool.false_eq_true, if_false]
      exact ⟨rfl, rfl, by simp, .inr ⟨rfl, hcreated, rfl, rfl, rfl⟩⟩

theorem stops_requestCancel
    (hrequested : st.leg.cancelRequestedAt.isSome = true → st.leg.status = .cancelRequested) (now : ℚ)
    (cause : CancelCause) (detail : String) : st.Stops (st.requestCancel deps i now cause detail) := by
  unfold requestCancel
  rw [if_neg (by simp [hopen])]
  cases hstatus : st.leg.status with
  | created =>
    have h := @stops_abandon { st with leg := { st.leg with cancelStage := some .preSubmission } } hopen now detail
    exact ⟨h.submitted, h.filled, h.notFilled, h.stopped⟩
  | inFlight =>
    dsimp only
    by_cases hearly : now < st.leg.arrivalAt
    · have h := @stops_abandon { st with leg := { st.leg with cancelStage := some .inTransport } } hopen now detail
      rw [if_pos hearly]
      exact ⟨h.submitted, h.filled, h.notFilled, h.stopped⟩
    · have hnone : st.leg.cancelRequestedAt.isSome ≠ true := by
        intro hsome
        simp [hstatus] at hrequested
        simp [hrequested] at hsome
      have h := @stops_cancelResting deps (st.arriveAtExchange deps now) i rfl (by simp [arriveAtExchange])
        (fun hsome => absurd hsome hnone) now cause detail
      rw [if_neg hearly]
      exact ⟨h.submitted, h.filled, h.notFilled,
        h.stopped.imp_right fun hstop => ⟨hstop.1, by simp [hstatus], hstop.2.2⟩⟩
  | pending | partiallyFilled | cancelRequested =>
    exact stops_cancelResting hopen (by simp [hstatus]) hrequested now cause detail
  | filled | timedOut | cancelled | failed => simp [hstatus, PaperLegStatus.terminal] at hopen

theorem stops_expire
    (hrequested : st.leg.cancelRequestedAt.isSome = true → st.leg.status = .cancelRequested) (now : ℚ) :
    st.Stops (st.expire deps i now) := by
  unfold expire
  cases deps.cancelRace with
  | none => exact stops_timeOut now _
  | some latencyMs => exact stops_requestCancel hopen hrequested now _ _

end

theorem stops_confirmCancel (hshort : 0 < st.leg.fillQty → 0 < st.leg.remainingQty) (now : ℚ) :
    st.Stops (st.confirmCancel deps aborted now) ∧ (st.confirmCancel deps aborted now).done = true := by
  have hquantities : (noteRacedQuantity st.leg).fillQty = st.leg.fillQty ∧
      (noteRacedQuantity st.leg).remainingQty = st.leg.remainingQty := by
    unfold noteRacedQuantity
    split <;> simp
  have hnot : ¬ ((noteRacedQuantity st.leg).remainingQty = 0 ∧ 0 < (noteRacedQuantity st.leg).fillQty) := by
    rw [hquantities.1, hquantities.2]
    intro hfull
    have := hshort hfull.2
    omega
  unfold confirmCancel
  dsimp only
  rw [if_neg hnot]
  by_cases hcause : st.cancelCause = some .timeout
  · rw [if_pos hcause]
    exact ⟨⟨rfl, rfl, by simp, .inl rfl⟩, rfl⟩
  · rw [if_neg hcause]
    refine ⟨⟨rfl, rfl, ?_, .inl rfl⟩, rfl⟩
    dsimp only
    split <;> decide

/-! ## Filling -/

structure Tried (aborted : Bool) (st : LegState) (tried : LegState × FillResult) : Prop where
  submitted : tried.1.submitted = st.submitted
  completed : tried.2 = .filled →
    tried.1.done = true ∧ tried.1.leg.status = .filled ∧ tried.1.filledBeforeAbort = !aborted
  working : tried.2 ≠ .filled → tried.1.done = st.done ∧ tried.1.filledBeforeAbort = st.filledBeforeAbort ∧
    tried.1.leg.cancelRequestedAt = st.leg.cancelRequestedAt ∧
    (tried.1.leg.status = st.leg.status ∨ st.leg.status ≠ .cancelRequested ∧ tried.1.leg.status = .partiallyFilled) ∧
    (tried.1.leg.fillQty = st.leg.fillQty ∧ tried.1.leg.remainingQty = st.leg.remainingQty ∨
      0 < tried.1.leg.remainingQty)

theorem tried_failing (reason : String) : st.Tried aborted (st.failing reason) :=
  ⟨rfl, (fun h => by cases h), fun _ => ⟨rfl, rfl, rfl, .inl rfl, .inl ⟨rfl, rfl⟩⟩⟩

theorem tried_take (walk : DepthWalkResult) : st.Tried aborted (st.take aborted at_ walk) := by
  unfold take
  dsimp only
  by_cases hfull : st.leg.quantity - (st.leg.fillQty + walk.filledQty) = 0
  · rw [if_pos hfull]
    exact ⟨rfl, fun _ => ⟨rfl, rfl, rfl⟩, fun h => absurd rfl h⟩
  · rw [if_neg hfull]
    refine ⟨rfl, (fun h => by cases h), fun _ => ⟨rfl, rfl, rfl, ?_, .inr (Nat.pos_of_ne_zero hfull)⟩⟩
    by_cases hcancel : st.leg.status = .cancelRequested
    · simp [hcancel]
    · simp [hcancel]

def offered (deps : LegExecutorDeps) (st : LegState) (market : Market) (i : ℕ) (at_ : ℚ) : ℕ :=
  match market.quotes st.req.token with
  | none => 0
  | some quote =>
    match st.leg.limitPrice with
    | some limitPrice => (st.walk deps market i quote limitPrice at_).filledQty
    | none =>
      match (st.req.detectedPrice <|> touchPrice st.req.side quote).filter fun ref => .fin 0 < ref with
      | none => 0
      | some ref => (st.walk deps market i quote (deps.priceOrder st.req ref) at_).filledQty

theorem tried_fillAtLimit (quote : BoxQuote) (limitPrice : Number) :
    st.Tried aborted (st.fillAtLimit deps market i aborted quote limitPrice at_) := by
  unfold fillAtLimit
  dsimp only
  have hlimit : ∀ tried, ({ st with leg := { st.leg with limitPrice := some limitPrice } } : LegState).Tried aborted
      tried → st.Tried aborted tried := fun tried h => ⟨h.submitted, h.completed, h.working⟩
  split
  · exact hlimit _ (tried_failing _)
  · exact hlimit _ (tried_take _)

theorem tried_tryFill (market : Market) : st.Tried aborted (st.tryFill deps market i aborted at_) := by
  unfold tryFill
  split
  · exact tried_failing _
  · cases market.quotes st.req.token with
    | none => exact tried_failing _
    | some quote =>
      dsimp only
      split
      · exact tried_failing _
      · cases st.leg.limitPrice with
        | some limitPrice => exact tried_fillAtLimit quote limitPrice
        | none =>
          dsimp only
          split
          · exact tried_failing _
          · exact tried_fillAtLimit quote _

theorem tried_attempt (market : Market) : st.Tried aborted (st.attempt deps market i aborted at_) := by
  have h := @tried_tryFill deps { st with fillAttempts := st.fillAttempts + 1 } i aborted at_ market
  exact ⟨h.submitted, h.completed, h.working⟩

theorem filled_fillAtLimit {quote : BoxQuote} {limitPrice : Number}
    (h : (st.fillAtLimit deps market i aborted quote limitPrice at_).2 = .filled) :
    st.leg.quantity ≤ st.leg.fillQty + (st.walk deps market i quote limitPrice at_).filledQty := by
  unfold fillAtLimit at h
  dsimp only at h
  split at h
  · cases h
  · unfold take at h
    dsimp only at h
    split at h
    · rename_i hfull
      exact Nat.le_of_sub_eq_zero hfull
    · cases h

theorem filled_tryFill (h : (st.tryFill deps market i aborted at_).2 = .filled) :
    st.leg.quantity ≤ st.leg.fillQty + st.offered deps market i at_ := by
  unfold tryFill at h
  unfold offered
  split at h
  · cases h
  · cases hquote : market.quotes st.req.token with
    | none =>
      rw [hquote] at h
      cases h
    | some quote =>
      rw [hquote] at h
      dsimp only at h ⊢
      split at h
      · cases h
      · cases hlimit : st.leg.limitPrice with
        | some limitPrice =>
          rw [hlimit] at h
          exact filled_fillAtLimit h
        | none =>
          rw [hlimit] at h
          dsimp only at h ⊢
          split at h
          · cases h
          · rename_i ref href
            simpa only [href] using filled_fillAtLimit h

theorem filled_attempt (h : (st.attempt deps market i aborted at_).2 = .filled) :
    st.leg.quantity ≤ st.leg.fillQty + st.offered deps market i at_ :=
  @filled_tryFill deps { st with fillAttempts := st.fillAttempts + 1 } market i aborted at_ h

theorem Sound.tried (h : st.Sound aborted) (hopen : st.done = false) (hsubmitted : st.submitted = true)
    {tried : LegState × FillResult} (htried : st.Tried aborted tried) : tried.1.Sound aborted := by
  by_cases hfilled : tried.2 = .filled
  · obtain ⟨hdone, hstatus, hghost⟩ := htried.completed hfilled
    refine ⟨fun _ => ⟨hdone, htried.submitted.trans hsubmitted, hstatus⟩, ?_, by simp [hdone], by simp [hdone],
      by simp [hdone], by simp [hdone], by simp [hdone]⟩
    intro haborted _
    simp [hghost, haborted]
  · obtain ⟨hdone, hghost, hcancel, hstatus, hquantity⟩ := htried.working hfilled
    have hnone : st.filledBeforeAbort ≠ true := fun hwas => by simp [(h.filled hwas).1] at hopen
    refine ⟨fun hwas => absurd (hghost ▸ hwas) hnone, ?_, fun _ _ => htried.submitted.trans hsubmitted, ?_, ?_, ?_, ?_⟩
    · intro haborted hnow
      obtain hsame | ⟨-, hmoved⟩ := hstatus
      · exact hghost ▸ h.counted haborted (hsame ▸ hnow)
      · simp [hmoved] at hnow
    · intro _ hpos
      obtain ⟨hfill, hremaining⟩ | hremaining := hquantity
      · rw [hremaining]
        exact h.short hopen (hfill ▸ hpos)
      · exact hremaining
    · intro haborted _
      have hwas := h.cancelling haborted hopen
      obtain hsame | ⟨hother, -⟩ := hstatus
      · exact hsame.trans hwas
      · exact absurd hwas hother
    · intro _ hsome
      have hwas := h.requested hopen (hcancel ▸ hsome)
      obtain hsame | ⟨hother, -⟩ := hstatus
      · exact hsame.trans hwas
      · exact absurd hwas hother
    · intro _
      obtain hsame | ⟨-, hmoved⟩ := hstatus
      · rw [hsame]
        exact h.working hopen
      · simp [hmoved, PaperLegStatus.terminal]

end LegState

/-! ## The orders of a run -/

namespace LegState

def Flying (st : LegState) : Prop := st.done = false ∧ st.leg.status = .inFlight

def Fresh (st : LegState) : Prop := st.done = false ∧ st.leg.status = .created

structure Behind (st st' : LegState) : Prop where
  order : st'.submitted = true → st.filledBeforeAbort = true
  fresh : st.Flying → st'.Fresh

end LegState

namespace LegRun

variable {deps : LegExecutorDeps} {s : LegRun} {i : ℕ} {st : LegState}

structure InOrder (s : LegRun) : Prop where
  sound : ∀ (i : ℕ) (st : LegState), s.legs[i]? = some st → st.Sound s.isAborted
  behind : ∀ (i j : ℕ) (st st' : LegState), i < j → s.legs[i]? = some st → s.legs[j]? = some st' → st.Behind st'
  released : ∀ (i : ℕ) (st st' : LegState), s.legs[i]? = some st → s.legs[i + 1]? = some st' →
    st.filledBeforeAbort = true → st'.submitted = true

theorem getElem?_update (s : LegRun) (i : ℕ) (f : LegState → LegState) (j : ℕ) :
    (s.update i f).legs[j]? = if i = j then (s.legs[j]?).map f else s.legs[j]? := by
  unfold update
  rw [List.getElem?_modify]
  split <;> simp

variable {st' : LegState}

theorem InOrder.update (h : s.InOrder) (hst : s.legs[i]? = some st) (hfresh : ¬ st.Fresh)
    (hsound : st'.Sound s.isAborted) (hsubmitted : st'.submitted = st.submitted)
    (hfilled : i + 1 < s.legs.length → st'.filledBeforeAbort = st.filledBeforeAbort) (hflying : ¬ st'.Flying) :
    (s.update i fun _ => st').InOrder := by
  have hget : ∀ (j : ℕ) (x : LegState), (s.update i fun _ => st').legs[j]? = some x →
      j = i ∧ x = st' ∨ j ≠ i ∧ s.legs[j]? = some x := by
    intro j x hx
    rw [getElem?_update] at hx
    by_cases hj : i = j
    · subst hj
      simp [hst] at hx
      exact .inl ⟨rfl, hx.symm⟩
    · rw [if_neg hj] at hx
      exact .inr ⟨Ne.symm hj, hx⟩
  refine ⟨?_, ?_, ?_⟩
  · intro j x hx
    obtain ⟨rfl, rfl⟩ | ⟨-, hx'⟩ := hget j x hx
    · exact hsound
    · exact h.sound j x hx'
  · intro j k x y hjk hx hy
    obtain ⟨rfl, rfl⟩ | ⟨-, hx'⟩ := hget j x hx
    · obtain ⟨rfl, rfl⟩ | ⟨-, hy'⟩ := hget k y hy
      · exact absurd hjk (Nat.lt_irrefl _)
      · have hlast := hfilled (Nat.lt_of_le_of_lt hjk (List.getElem?_eq_some_iff.mp hy').1)
        exact ⟨fun hsub => hlast.trans ((h.behind _ _ _ _ hjk hst hy').order hsub), fun hfly => absurd hfly hflying⟩
    · obtain ⟨rfl, rfl⟩ | ⟨-, hy'⟩ := hget k y hy
      · have hbehind := h.behind _ _ _ _ hjk hx' hst
        exact ⟨fun hsub => hbehind.order (hsubmitted ▸ hsub), fun hfly => absurd (hbehind.fresh hfly) hfresh⟩
      · exact h.behind j k x y hjk hx' hy'
  · intro j x y hx hy hwas
    obtain ⟨rfl, rfl⟩ | ⟨-, hx'⟩ := hget j x hx
    · obtain ⟨hj, -⟩ | ⟨-, hy'⟩ := hget _ y hy
      · omega
      · exact h.released _ _ _ hst hy' (hfilled (List.getElem?_eq_some_iff.mp hy').1 ▸ hwas)
    · obtain ⟨hj, rfl⟩ | ⟨-, hy'⟩ := hget _ y hy
      · rw [hsubmitted]
        exact h.released j x st hx' (hj ▸ hst) hwas
      · exact h.released j x y hx' hy' hwas

theorem InOrder.quiet (h : s.InOrder) (hst : s.legs[i]? = some st) (hsubmitted : st.submitted = true)
    (hunfilled : st.filledBeforeAbort = false) (hflying : ¬ st.Flying) :
    ∀ (j : ℕ) (x : LegState), s.legs[j]? = some x → ¬ x.Flying := by
  intro j x hx hfly
  have hreleased := (h.sound j x hx).released hfly.1 (by simp [hfly.2])
  obtain hj | rfl | hj := Nat.lt_trichotomy j i
  · have hfilled := (h.behind _ _ _ _ hj hx hst).order hsubmitted
    exact absurd hfly.1 (by simp [((h.sound j x hx).filled hfilled).1])
  · obtain rfl : st = x := Option.some_inj.mp (hst.symm.trans hx)
    exact hflying hfly
  · simp [(h.behind _ _ _ _ hj hst hx).order hreleased] at hunfilled

theorem getElem?_cancelRemaining (s : LegRun) (i j : ℕ) {x : LegState} (h : (s.cancelRemaining i).legs[j]? = some x) :
    ∃ y, s.legs[j]? = some y ∧ (x = y ∨ i < j ∧ y.Fresh ∧ y.Stops x ∧ x.done = true) := by
  simp only [cancelRemaining, List.getElem?_mapIdx, Option.map_eq_some_iff] at h
  obtain ⟨y, hy, hx⟩ := h
  refine ⟨y, hy, ?_⟩
  split at hx
  · rename_i hfresh
    subst hx
    exact .inr ⟨hfresh.1, hfresh.2, ⟨rfl, rfl, by simp, .inl rfl⟩, rfl⟩
  · exact .inl hx.symm

theorem InOrder.cancelRemaining (h : s.InOrder)
    (hquiet : ∀ (j : ℕ) (x : LegState), s.legs[j]? = some x → ¬ x.Flying) (i : ℕ) :
    (s.cancelRemaining i).InOrder := by
  have hkept : ∀ (j : ℕ) (x y : LegState), s.legs[j]? = some y →
      (x = y ∨ i < j ∧ y.Fresh ∧ y.Stops x ∧ x.done = true) →
      x.submitted = y.submitted ∧ x.filledBeforeAbort = y.filledBeforeAbort ∧ ¬ x.Flying := by
    intro j x y hy hx
    obtain rfl | ⟨-, -, hstops, hdone⟩ := hx
    · exact ⟨rfl, rfl, hquiet j x hy⟩
    · exact ⟨hstops.submitted, hstops.filled, fun hfly => by simp [hfly.1] at hdone⟩
  refine ⟨?_, ?_, ?_⟩
  · intro j x hx
    obtain ⟨y, hy, rfl | ⟨-, hfresh, hstops, -⟩⟩ := getElem?_cancelRemaining s i j hx
    · exact h.sound j x hy
    · exact (h.sound j y hy).stops hfresh.1 hstops _
  · intro j k x x' hjk hx hx'
    obtain ⟨y, hy, hxy⟩ := getElem?_cancelRemaining s i j hx
    obtain ⟨y', hy', hxy'⟩ := getElem?_cancelRemaining s i k hx'
    obtain ⟨-, hfilled, hflying⟩ := hkept j x y hy hxy
    obtain ⟨hsubmitted, -, -⟩ := hkept k x' y' hy' hxy'
    refine ⟨fun hsub => ?_, fun hfly => absurd hfly hflying⟩
    rw [hfilled]
    exact (h.behind j k y y' hjk hy hy').order (hsubmitted ▸ hsub)
  · intro j x x' hx hx' hwas
    obtain ⟨y, hy, hxy⟩ := getElem?_cancelRemaining s i j hx
    obtain ⟨y', hy', hxy'⟩ := getElem?_cancelRemaining s i (j + 1) hx'
    rw [(hkept _ x' y' hy' hxy').1]
    exact h.released j y y' hy hy' ((hkept j x y hy hxy).2.1 ▸ hwas)

theorem InOrder.stop (h : s.InOrder) (hst : s.legs[i]? = some st) (hopen : st.done = false)
    (hsubmitted : st.submitted = true) (hfresh : ¬ st.Fresh) (hstops : st.Stops st') :
    (s.update i fun _ => st').InOrder ∧ ((s.update i fun _ => st').cancelRemaining i).InOrder := by
  have hsound := h.sound i st hst
  have hunfilled : st.filledBeforeAbort = false := by
    by_contra hwas
    simp [(hsound.filled (by simpa using hwas)).1] at hopen
  have hflying : ¬ st'.Flying := by
    intro hfly
    obtain hdone | ⟨-, -, hstatus, -⟩ := hstops.stopped
    · simp [hfly.1] at hdone
    · simp [hfly.2] at hstatus
  have hupdate := h.update hst hfresh (hsound.stops hopen hstops _) hstops.submitted (fun _ => hstops.filled) hflying
  refine ⟨hupdate, hupdate.cancelRemaining ?_ i⟩
  have hget : (s.update i fun _ => st').legs[i]? = some st' := by simp [getElem?_update, hst]
  exact hupdate.quiet hget (hstops.submitted.trans hsubmitted) (hstops.filled.trans hunfilled) hflying

theorem Sound.unfilled {aborted : Bool} (h : st.Sound aborted) (hopen : st.done = false) : st.filledBeforeAbort = false := by
  by_contra hwas
  simp [(h.filled (by simpa using hwas)).1] at hopen

theorem sound_submit (h : st.Sound false) (hfresh : st.Fresh) (at_ : ℚ) (i : ℕ) : (st.submit deps at_ i).Sound false := by
  have hunfilled := Sound.unfilled h hfresh.1
  refine ⟨fun hwas => ?_, fun _ hfilled => ?_, fun _ _ => rfl, fun _ hpos => h.short hfresh.1 hpos, (fun ha => by cases ha),
    fun _ hsome => ?_, fun _ => rfl⟩
  · exact absurd (hunfilled.symm.trans hwas) (by simp)
  · simp [LegState.submit] at hfilled
  · have := h.requested hfresh.1 hsome
    simp [hfresh.2] at this

theorem InOrder.release (h : s.InOrder) (hst : s.legs[i]? = some st) (hflying : st.Flying)
    (hrunning : s.isAborted = false) (hsound : st'.Sound s.isAborted) (hdone : st'.done = true)
    (hsubmitted : st'.submitted = true) (hfilled : st'.filledBeforeAbort = true) (at_ : ℚ) :
    ((s.update i fun _ => st').submitNext deps i at_).InOrder := by
  have hreleased : st.submitted = true := (h.sound i st hst).released hflying.1 (by simp [hflying.2])
  have hunfilled := Sound.unfilled (h.sound i st hst) hflying.1
  have hnotFresh : ¬ st.Fresh := fun hfresh => by simpa [hfresh.2] using hflying.2
  have hlanded : ¬ st'.Flying := fun hfly => by simp [hfly.1] at hdone
  have hnext : ∀ (j : ℕ) (y : LegState), i < j → s.legs[j]? = some y → y.Fresh ∧ y.submitted ≠ true := by
    intro j y hj hy
    have hbehind := h.behind i j st y hj hst hy
    refine ⟨hbehind.fresh hflying, fun hsub => ?_⟩
    simp [hbehind.order hsub] at hunfilled
  -- the order that filled, the one submitted after it, and the rest as they were
  have hget : ∀ (j : ℕ) (x : LegState), ((s.update i fun _ => st').submitNext deps i at_).legs[j]? = some x →
      j = i ∧ x = st' ∨ (j = i + 1 ∧ ∃ y, s.legs[j]? = some y ∧ x = y.submit deps at_ j) ∨
        j ≠ i ∧ j ≠ i + 1 ∧ s.legs[j]? = some x := by
    intro j x hx
    unfold submitNext at hx
    rw [getElem?_update, getElem?_update] at hx
    by_cases hj : i = j
    · subst hj
      simp [hst] at hx
      exact .inl ⟨rfl, hx.symm⟩
    · rw [if_neg hj] at hx
      by_cases hj' : i + 1 = j
      · subst hj'
        rw [if_pos rfl] at hx
        obtain ⟨y, hy, rfl⟩ := Option.map_eq_some_iff.mp hx
        refine .inr (.inl ⟨rfl, y, hy, ?_⟩)
        rw [if_pos (hnext _ y (Nat.lt_succ_self i) hy).1.2]
      · rw [if_neg hj'] at hx
        exact .inr (.inr ⟨Ne.symm hj, Ne.symm hj', hx⟩)
  have hfresh_submit : ∀ (j : ℕ) (y : LegState), i < j → s.legs[j]? = some y →
      (y.submit deps at_ j).filledBeforeAbort ≠ true := by
    intro j y hj hy hwas
    have hopen := (hnext j y hj hy).1.1
    have := Sound.unfilled (h.sound j y hy) hopen
    exact absurd (this.symm.trans hwas) (by simp)
  refine ⟨?_, ?_, ?_⟩
  · intro j x hx
    change x.Sound s.isAborted
    obtain ⟨-, rfl⟩ | ⟨rfl, y, hy, rfl⟩ | ⟨-, -, hx'⟩ := hget j x hx
    · exact hsound
    · have hy' := h.sound _ y hy
      rw [hrunning] at hy' ⊢
      exact sound_submit hy' (hnext _ y (Nat.lt_succ_self i) hy).1 at_ _
    · exact h.sound j x hx'
  · intro j k x x' hjk hx hx'
    obtain ⟨rfl, rfl⟩ | ⟨rfl, y, hy, rfl⟩ | ⟨hji, hji', hxj⟩ := hget j x hx
    · exact ⟨fun _ => hfilled, fun hfly => absurd hfly hlanded⟩
    · obtain ⟨rfl, rfl⟩ | ⟨rfl, y', hy', rfl⟩ | ⟨-, -, hxk⟩ := hget k x' hx'
      · omega
      · omega
      · obtain ⟨hfresh, hsub⟩ := hnext k x' (by omega) hxk
        exact ⟨fun hwas => absurd hwas hsub, fun _ => hfresh⟩
    · obtain ⟨rfl, rfl⟩ | ⟨rfl, y', hy', rfl⟩ | ⟨-, -, hxk⟩ := hget k x' hx'
      · have hbehind := h.behind j _ x st hjk hxj hst
        exact ⟨fun _ => hbehind.order hreleased, fun hfly => absurd (hbehind.fresh hfly) hnotFresh⟩
      · have hbehind := h.behind j i x st (by omega) hxj hst
        exact ⟨fun _ => hbehind.order hreleased, fun hfly => absurd (hbehind.fresh hfly) hnotFresh⟩
      · exact h.behind j k x x' hjk hxj hxk
  · intro j x x' hx hx' hwas
    obtain ⟨rfl, rfl⟩ | ⟨rfl, y, hy, rfl⟩ | ⟨hji, hji', hxj⟩ := hget j x hx
    · obtain ⟨hj, -⟩ | ⟨-, y', -, rfl⟩ | ⟨-, hj, -⟩ := hget _ x' hx'
      · omega
      · rfl
      · exact absurd rfl hj
    · exact absurd hwas (hfresh_submit _ y (by omega) hy)
    · obtain ⟨-, rfl⟩ | ⟨hj, -, -, -⟩ | ⟨-, -, hxk⟩ := hget _ x' hx'
      · exact hsubmitted
      · omega
      · exact h.released j x x' hxj hxk hwas

theorem InOrder.tried (h : s.InOrder) (hst : s.legs[i]? = some st) (hopen : st.done = false) (hfresh : ¬ st.Fresh)
    (hsound : st'.Sound s.isAborted) (hsubmitted : st'.submitted = st.submitted) {tried : LegState × FillResult}
    (hopen' : st'.done = false) (hstatus : st'.leg.status ≠ .inFlight) (hreleased : st'.submitted = true)
    (htried : st'.Tried s.isAborted tried) (hnot : tried.2 = .filled → i + 1 < s.legs.length → s.isAborted = true) :
    (s.update i fun _ => tried.1).InOrder := by
  have hunfilled := Sound.unfilled (h.sound i st hst) hopen
  have hunfilled' := Sound.unfilled hsound hopen'
  refine h.update hst hfresh (hsound.tried hopen' hreleased htried) (htried.submitted.trans hsubmitted) ?_ ?_
  · intro hnext
    by_cases hfilled : tried.2 = .filled
    · rw [(htried.completed hfilled).2.2, hnot hfilled hnext, hunfilled]
      rfl
    · rw [(htried.working hfilled).2.1, hunfilled', hunfilled]
  · intro hfly
    by_cases hfilled : tried.2 = .filled
    · exact absurd hfly.1 (by simp [(htried.completed hfilled).1])
    · obtain hsame | ⟨-, hmoved⟩ := (htried.working hfilled).2.2.2.1
      · exact hstatus (hsame ▸ hfly.2)
      · simpa [hmoved] using hfly.2

/-! ## Sweeps -/

theorem InOrder.arrive (hseq : deps.sequential = true) (clock : Readings) (h : s.InOrder) (i : ℕ) :
    (s.arrive deps clock i).InOrder := by
  unfold LegRun.arrive
  cases hst : s.legs[i]? with
  | none => exact h
  | some st =>
    dsimp only
    by_cases hskip : st.done = true ∨ st.leg.status ≠ .inFlight ∨ clock.sweepAt < st.leg.arrivalAt
    · rw [if_pos hskip]
      exact h
    · rw [if_neg hskip]
      push Not at hskip
      have hflying : st.Flying := ⟨by simpa using hskip.1, hskip.2.1⟩
      have hsound := h.sound i st hst
      have hrunning : s.isAborted = false := by
        by_contra haborted
        have := hsound.cancelling (by simpa using haborted) hflying.1
        simp [hflying.2] at this
      have hreleased := hsound.released hflying.1 (by simp [hflying.2])
      have hnotFresh : ¬ st.Fresh := fun hfresh => by simpa [hfresh.2] using hflying.2
      have hcancel : st.leg.cancelRequestedAt.isSome ≠ true := by
        intro hsome
        have := hsound.requested hflying.1 hsome
        simp [hflying.2] at this
      set arrived := st.arriveAtExchange deps clock.sweepAt
      by_cases hlate : st.leg.arrivalAt + deps.legTimeoutMs < clock.sweepAt
      · rw [if_pos hlate, if_pos hseq]
        have hstops := @LegState.stops_expire deps arrived i rfl (fun hsome => absurd hsome hcancel) (clock.orderAt i)
        exact (h.stop hst hflying.1 hreleased hnotFresh ⟨hstops.submitted, hstops.filled, hstops.notFilled,
          hstops.stopped.imp_right fun hstop => ⟨hstop.1, by simp [hflying.2], hstop.2.2⟩⟩).2
      · rw [if_neg hlate]
        have harrived : arrived.Sound s.isAborted := by
          have hunfilled := Sound.unfilled hsound hflying.1
          refine ⟨fun hwas => absurd (hunfilled.symm.trans hwas) (by simp), fun _ hfilled => ?_, fun _ _ => hreleased,
            fun _ hpos => hsound.short hflying.1 hpos, fun haborted => absurd (hrunning.symm.trans haborted) (by simp),
            fun _ hsome => absurd hsome hcancel, fun _ => rfl⟩
          simp [arrived, LegState.arriveAtExchange] at hfilled
        have htried := @LegState.tried_attempt deps arrived i s.isAborted clock.sweepAt s.market
        by_cases hfilled : (arrived.attempt deps s.market i s.isAborted clock.sweepAt).2 = .filled
        · rw [if_pos ⟨hseq, hfilled⟩]
          obtain ⟨hdone, -, hghost⟩ := htried.completed hfilled
          exact h.release hst hflying hrunning (harrived.tried hflying.1 hreleased htried) hdone
            (htried.submitted.trans hreleased) (by rw [hghost, hrunning]; rfl) clock.sweepAt
        · rw [if_neg (fun hboth => hfilled hboth.2)]
          exact h.tried hst hflying.1 hnotFresh harrived rfl hflying.1 (by simp [arrived, LegState.arriveAtExchange])
            hreleased htried fun hnow => absurd hnow hfilled

theorem InOrder.checkDeadline (clock : Readings) (h : s.InOrder) (i : ℕ) :
    (s.checkDeadline deps clock i).InOrder := by
  unfold LegRun.checkDeadline
  cases hst : s.legs[i]? with
  | none => exact h
  | some st =>
    dsimp only
    split
    · rename_i hdue
      obtain ⟨hopen, hstatus, -⟩ := hdue
      have hsound := h.sound i st hst
      have hcreated : st.leg.status ≠ .created := by
        intro hcreated
        simp [hcreated] at hstatus
      have hboth := h.stop hst hopen (hsound.released hopen hcreated) (fun hfresh => hcreated hfresh.2)
        (@LegState.stops_expire deps st i (hsound.working hopen) (hsound.requested hopen) (clock.orderAt i))
      split
      · exact hboth.2
      · exact hboth.1
    · exact h

theorem InOrder.checkCancel (hseq : deps.sequential = true) (clock : Readings) (h : s.InOrder) (i : ℕ) :
    (s.checkCancel deps clock i).InOrder := by
  unfold LegRun.checkCancel
  cases hst : s.legs[i]? with
  | none => exact h
  | some st =>
    dsimp only
    split
    · rename_i hdue
      obtain ⟨hopen, hstatus, -⟩ := hdue
      have hsound := h.sound i st hst
      have hcreated : st.leg.status ≠ .created := by simp [hstatus]
      have hboth := h.stop hst hopen (hsound.released hopen hcreated) (fun hfresh => hcreated hfresh.2)
        (@LegState.stops_confirmCancel deps st s.isAborted (hsound.short hopen) (clock.orderAt i)).1
      exact hboth.2
    · exact h

theorem InOrder.each {visit : LegRun → ℕ → LegRun}
    (hvisit : ∀ (t : LegRun) (i : ℕ), t.InOrder → (visit t i).InOrder) (h : s.InOrder) : (s.each visit).InOrder := by
  unfold LegRun.each
  generalize List.range s.legs.length = order
  induction order generalizing s with
  | nil => exact h
  | cons i order ih => exact ih (hvisit s i h)

theorem InOrder.sweep (hseq : deps.sequential = true) (h : s.InOrder) (clock : Readings) : (s.sweep deps clock).InOrder := by
  unfold LegRun.sweep
  refine InOrder.each (fun t i ht => ht.checkCancel hseq clock i) ?_
  refine InOrder.each (fun t i ht => ht.checkDeadline clock i) ?_
  exact h.each fun t i ht => ht.arrive hseq clock i

/-! ## Aborts and the end -/

theorem InOrder.stopAll (h : s.InOrder) {s' : LegRun} {f : ℕ → LegState → LegState}
    (hlegs : s'.legs = s.legs.mapIdx fun i st => if st.done then st else f i st)
    (hf : ∀ (i : ℕ) (st : LegState), st.Sound s.isAborted → st.done = false → st.Stops (f i st))
    (haborted : s.isAborted = true → s'.isAborted = true) : s'.InOrder := by
  have hget : ∀ (j : ℕ) (x : LegState), s'.legs[j]? = some x →
      ∃ y, s.legs[j]? = some y ∧ x.submitted = y.submitted ∧ x.filledBeforeAbort = y.filledBeforeAbort ∧
        ¬ x.Flying ∧ x.Sound s'.isAborted := by
    intro j x hx
    rw [hlegs, List.getElem?_mapIdx] at hx
    obtain ⟨y, hy, rfl⟩ := Option.map_eq_some_iff.mp hx
    have hsound := h.sound j y hy
    refine ⟨y, hy, ?_⟩
    by_cases hdone : y.done = true
    · simp only [hdone, if_true, true_and]
      refine ⟨fun hfly => absurd hfly.1 (by simp [hdone]), hsound.filled, fun hnot hfilled => ?_, by simp [hdone],
        by simp [hdone], by simp [hdone], by simp [hdone], by simp [hdone]⟩
      refine hsound.counted ?_ hfilled
      by_contra hwas
      simp [haborted (by simpa using hwas)] at hnot
    · have hopen : y.done = false := by simpa using hdone
      have hstops := hf j y hsound hopen
      simp only [hopen, Bool.false_eq_true, if_false]
      refine ⟨hstops.submitted, hstops.filled, fun hfly => ?_, hsound.stops hopen hstops _⟩
      obtain hdone | ⟨-, -, hstatus, -⟩ := hstops.stopped
      · exact absurd hfly.1 (by simp [hdone])
      · exact absurd hfly.2 (by simp [hstatus])
  refine ⟨?_, ?_, ?_⟩
  · intro j x hx
    obtain ⟨y, -, -, -, -, hsound⟩ := hget j x hx
    exact hsound
  · intro j k x x' hjk hx hx'
    obtain ⟨y, hy, -, hfilled, hflying, -⟩ := hget j x hx
    obtain ⟨y', hy', hsubmitted, -, -, -⟩ := hget k x' hx'
    refine ⟨fun hsub => ?_, fun hfly => absurd hfly hflying⟩
    rw [hfilled]
    exact (h.behind j k y y' hjk hy hy').order (hsubmitted ▸ hsub)
  · intro j x x' hx hx' hwas
    obtain ⟨y, hy, -, hfilled, -, -⟩ := hget j x hx
    obtain ⟨y', hy', hsubmitted, -, -, -⟩ := hget _ x' hx'
    rw [hsubmitted]
    exact h.released j y y' hy hy' (hfilled ▸ hwas)

theorem InOrder.abortOnce (h : s.InOrder) (abort : Option Abort) (clock : Readings) :
    (s.abortOnce deps abort clock).InOrder := by
  unfold LegRun.abortOnce
  split
  · rename_i abort hrunning
    refine h.stopAll rfl (fun i st hsound hopen => ?_) fun _ => rfl
    exact LegState.stops_requestCancel (hsound.working hopen) (hsound.requested hopen) _ _ _
  · exact h

theorem InOrder.finish (h : s.InOrder) (clock : Readings) : (s.finish clock).InOrder :=
  h.stopAll rfl (fun _ _ hsound hopen => LegState.stops_abandon (hsound.working hopen) _ _) id

theorem InOrder.turn (hseq : deps.sequential = true) (h : s.InOrder) (abort : Option Abort) (clock : Readings) :
    (s.turn deps abort clock).InOrder := by
  have hcounted : ({ s with guard := s.guard + 1 } : LegRun).InOrder := ⟨h.sound, h.behind, h.released⟩
  have haborted := @InOrder.abortOnce deps _ hcounted abort clock
  unfold LegRun.turn
  dsimp only
  split
  · exact hcounted.finish clock
  · split
    · exact haborted.finish clock
    · split
      · exact ⟨haborted.sound, haborted.behind, haborted.released⟩
      · exact haborted.sweep hseq clock

/-! ## Book updates -/

/-- The update completes no resting order that has a successor. -/
def Short (deps : LegExecutorDeps) (s : LegRun) : RunEvent → Prop
  | .books changed market at_ => s.aborted = none → ∀ (i : ℕ) (st : LegState), s.legs[i]? = some st →
      i + 1 < s.legs.length → st.wakes changed at_ = true →
        st.leg.fillQty + st.offered deps market i at_ < st.leg.quantity
  | _ => True

theorem InOrder.fillFromBook (h : s.InOrder) {changed : List Number} {at_ : ℚ}
    (hshort : s.aborted = none → ∀ st : LegState, s.legs[i]? = some st → i + 1 < s.legs.length →
      st.wakes changed at_ = true → st.leg.fillQty + st.offered deps s.market i at_ < st.leg.quantity) :
    (s.fillFromBook deps changed at_ i).InOrder := by
  unfold LegRun.fillFromBook
  cases hst : s.legs[i]? with
  | none => exact h
  | some st =>
    dsimp only
    split
    · rename_i hwakes
      have hopen : st.done = false ∧ st.leg.status ≠ .inFlight ∧ st.leg.status ≠ .created := by
        simp only [LegState.wakes, Bool.and_eq_true, Bool.not_eq_true', decide_eq_true_eq] at hwakes
        refine ⟨hwakes.1.1.1.1.1.1, fun hstatus => ?_, fun hstatus => ?_⟩
        · simp [hstatus] at hwakes
        · simp [hstatus] at hwakes
      have hsound := h.sound i st hst
      have htried := @LegState.tried_attempt deps st i s.isAborted at_ s.market
      refine h.tried hst hopen.1 (fun hfresh => hopen.2.2 hfresh.2) hsound rfl hopen.1 hopen.2.1
        (hsound.released hopen.1 hopen.2.2) htried ?_
      intro hfilled hnext
      by_contra hrunning
      have hnone : s.aborted = none := by simpa [isAborted] using hrunning
      have := hshort hnone st hst hnext hwakes
      have := LegState.filled_attempt hfilled
      omega
    · exact h

theorem frame_fillFromBook (changed : List Number) (at_ : ℚ) :
    (s.fillFromBook deps changed at_ i).aborted = s.aborted ∧ (s.fillFromBook deps changed at_ i).market = s.market ∧
      (s.fillFromBook deps changed at_ i).legs.length = s.legs.length ∧ ∀ j, j ≠ i →
        (s.fillFromBook deps changed at_ i).legs[j]? = s.legs[j]? := by
  unfold LegRun.fillFromBook
  cases s.legs[i]? with
  | none => exact ⟨rfl, rfl, rfl, fun _ _ => rfl⟩
  | some st =>
    dsimp only
    split
    · refine ⟨rfl, rfl, List.length_modify .., fun j hj => ?_⟩
      rw [getElem?_update, if_neg (Ne.symm hj)]
    · exact ⟨rfl, rfl, rfl, fun _ _ => rfl⟩

theorem InOrder.fillAll {changed : List Number} {at_ : ℚ} (order : List ℕ) (hnodup : order.Nodup)
    (h : s.InOrder)
    (hshort : s.aborted = none → ∀ i ∈ order, ∀ st : LegState, s.legs[i]? = some st → i + 1 < s.legs.length →
      st.wakes changed at_ = true → st.leg.fillQty + st.offered deps s.market i at_ < st.leg.quantity) :
    (order.foldl (LegRun.fillFromBook deps changed at_) s).InOrder := by
  induction order generalizing s with
  | nil => exact h
  | cons i order ih =>
    rw [List.nodup_cons] at hnodup
    obtain ⟨haborted, hmarket, hlength, hrest⟩ := @frame_fillFromBook deps s i changed at_
    refine ih hnodup.2 (h.fillFromBook fun hnone => hshort hnone i (.head _)) ?_
    intro hnone j hj st hst
    rw [hmarket, hlength]
    rw [hrest j (fun hji => hnodup.1 (hji ▸ hj))] at hst
    exact hshort (haborted ▸ hnone) j (.tail _ hj) st hst

theorem InOrder.step (hseq : deps.sequential = true) (h : s.InOrder) (event : RunEvent) (hshort : Short deps s event) :
    (s.step deps event).1.InOrder := by
  unfold LegRun.step
  dsimp only
  split
  · exact h.turn hseq _ _
  · split
    · exact ⟨h.sound, h.behind, h.released⟩
    · have hswept := h.sweep hseq (by assumption)
      exact ⟨hswept.sound, hswept.behind, hswept.released⟩
  · rename_i changed market at_ _
    have hmarket : ({ s with market } : LegRun).InOrder := ⟨h.sound, h.behind, h.released⟩
    refine InOrder.fillAll _ List.nodup_range hmarket ?_
    intro hnone i _ st hst hnext hwakes
    exact hshort hnone i st hst hnext hwakes
  · exact h

theorem start_inOrder (hseq : deps.sequential = true) (requests : List LegOrderRequest) (submitAt : ℚ) (market : Market) :
    (start deps requests submitAt market).InOrder := by
  have hblank : ∀ req, (blankLeg req).Sound false := fun req =>
    ⟨by simp [blankLeg], by simp [blankLeg], by simp [blankLeg], by simp [blankLeg], by simp, by simp [blankLeg],
      by simp [blankLeg, PaperLegStatus.terminal]⟩
  have hget : ∀ (j : ℕ) (x : LegState), (start deps requests submitAt market).legs[j]? = some x →
      ∃ req, x = if j = 0 then (blankLeg req).submit deps submitAt 0 else blankLeg req := by
    intro j x hx
    simp only [start, List.getElem?_mapIdx, List.getElem?_map, Option.map_eq_some_iff, hseq, true_and] at hx
    obtain ⟨_, ⟨req, -, rfl⟩, rfl⟩ := hx
    by_cases hj : j = 0
    · exact ⟨req, by simp [hj]⟩
    · exact ⟨req, by simp [hj]⟩
  refine ⟨?_, ?_, ?_⟩
  · intro j x hx
    obtain ⟨req, rfl⟩ := hget j x hx
    split
    · exact sound_submit (hblank req) ⟨rfl, rfl⟩ submitAt 0
    · exact hblank req
  · intro j k x x' hjk hx hx'
    obtain ⟨req, rfl⟩ := hget k x' hx'
    rw [if_neg (by omega)]
    exact ⟨fun hsub => by simp [blankLeg] at hsub, fun _ => ⟨rfl, rfl⟩⟩
  · intro j x x' hx hx' hwas
    obtain ⟨req, rfl⟩ := hget j x hx
    split at hwas <;> simp [blankLeg, LegState.submit] at hwas

end LegRun

/-- Where no update completes a resting order, one is submitted exactly when the one before it filled before any
abort. -/
theorem sequential_release (deps : LegExecutorDeps) (hseq : deps.sequential = true) (requests : List LegOrderRequest)
    (submitAt : ℚ) (market : Market) (events : List RunEvent)
    (h : Run.Guarded (LegRun.step deps) (LegRun.Short deps) (LegRun.start deps requests submitAt market) events) :
    let s := Run.finish (LegRun.step deps) (LegRun.start deps requests submitAt market) events
    ∀ (i : ℕ) (st st' : LegState), s.legs[i]? = some st → s.legs[i + 1]? = some st' →
      (st'.submitted = true ↔ st.filledBeforeAbort = true) ∧
      (st.filledBeforeAbort = true → st.leg.status = .filled) ∧
      (s.aborted = none → st.leg.status = .filled → st.filledBeforeAbort = true) := by
  intro s i st st' hst hst'
  have hs : s.InOrder := h.invariant LegRun.InOrder (fun t event ht hshort => ht.step hseq event hshort)
    (LegRun.start_inOrder hseq requests submitAt market)
  have hsound := hs.sound i st hst
  refine ⟨⟨(hs.behind i (i + 1) st st' (Nat.lt_succ_self i) hst hst').order, hs.released i st st' hst hst'⟩,
    fun hwas => (hsound.filled hwas).2.2, fun hnone hfilled => hsound.counted ?_ hfilled⟩
  simp [LegRun.isAborted, hnone]

def sequentialDeps : LegExecutorDeps where
  sequential := true
  legTimeoutMs := 1000
  quoteMaxAgeMs := .fin 5000
  queueModel := .none
  queueHaircutPct := .fin 0
  priceOrder := fun _ ref => ref
  latency := fun _ => 10
  plannedArrivals := fun _ => none
  cancelRace := none

def buyAt (token : ℚ) : LegOrderRequest := ⟨.k1Ce, .buy, .fin token, some (.fin 100), 50, none⟩

def askOf50 : BoxQuote :=
  ⟨.fin 1, .fin 0, .fin 0, .fin 100, .fin 50, [], [⟨.fin 100, .fin 50⟩], .fin 1, .fin 0, none⟩

def noBooks : Market := ⟨fun _ => none, fun _ => none⟩

def books : Market := ⟨fun _ => some askOf50, fun _ => none⟩

def readAt (t : ℚ) : Readings := ⟨fun _ => t, t, t⟩

def orderRun (market : Market) (events : List RunEvent) : LegRun :=
  Run.finish (LegRun.step sequentialDeps) (LegRun.start sequentialDeps [buyAt 1, buyAt 2] 0 market) events

/-- Twenty of the fifty that the second order rests with. -/
def thinBook : Market := ⟨fun _ => some { askOf50 with asks := [⟨.fin 100, .fin 20⟩] }, fun _ => none⟩

def firstBook : Market := ⟨fun token => if token = .fin 1 then some askOf50 else none, fun _ => none⟩

def partlyFilled : List RunEvent :=
  [.top none (readAt 0), .woke (readAt 10), .top none (readAt 10), .woke (readAt 20), .top none (readAt 20),
    .books [.fin 2] thinBook 25]

/-- The first order fills at its arrival and releases the second, which an update fills in part. -/
theorem sequential_release_books :
    let s := Run.finish (LegRun.step sequentialDeps) (LegRun.start sequentialDeps [buyAt 1, buyAt 2, buyAt 3] 0 firstBook)
      partlyFilled
    s.legs.map (fun st => (st.leg.status, st.leg.fillQty, st.submitted)) =
        [(.filled, 50, true), (.partiallyFilled, 20, true), (.created, 0, false)] ∧
      ∀ (i : ℕ) (st st' : LegState), s.legs[i]? = some st → s.legs[i + 1]? = some st' →
        (st'.submitted = true ↔ st.filledBeforeAbort = true) := by
  refine ⟨by decide +kernel, fun i st st' hst hst' => (sequential_release sequentialDeps rfl [buyAt 1, buyAt 2, buyAt 3]
    0 firstBook partlyFilled ⟨trivial, trivial, trivial, trivial, trivial, ?_, trivial⟩ i st st' hst hst').1⟩
  let s := Run.finish (LegRun.step sequentialDeps) (LegRun.start sequentialDeps [buyAt 1, buyAt 2, buyAt 3] 0 firstBook)
    partlyFilled.dropLast
  have hlength : s.legs.length = 3 := by decide +kernel
  have hbelow : ∀ j < 2, ∀ resting ∈ s.legs[j]?, resting.wakes [.fin 2] 25 = true →
      resting.leg.fillQty + resting.offered sequentialDeps thinBook j 25 < resting.leg.quantity := by
    decide +kernel
  intro _ i st hst hnext hwakes
  exact hbelow i (Nat.lt_of_succ_lt_succ (hnext.trans_eq hlength)) st hst hwakes

theorem resting_fill_releases_nothing :
    let s := orderRun noBooks
      [.top none (readAt 0), .woke (readAt 10), .top none (readAt 10), .books [.fin 1] books 20, .woke (readAt 20),
        .top none (readAt 20)]
    s.point = .ended ∧ s.aborted.isNone ∧
      s.legs.map (fun st => (st.leg.status, st.submitted)) = [(.filled, true), (.failed, false)] := by
  decide +kernel

end BoxEngine.LegExecutor
