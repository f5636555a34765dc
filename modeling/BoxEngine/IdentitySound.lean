import BoxEngine.FlattenRun

/-!
# One live identity

A generation is retired only on evidence that its order is closed or was never sent. What the orders really are is a
world beside the run.
-/

namespace BoxEngine

open Js

/-! ## The probe -/

theorem probeAttempts_skipped (find : String → Except Unit (Option BoxOrderIntent)) (idOf : ℕ → String)
    (fuel first : ℕ) : ∀ attempt, first ≤ attempt → attempt < (probeAttempts find idOf fuel first).attempt →
      ∃ intent, find (idOf attempt) = .ok (some intent) ∧ hasDurableLocalNoPostProvenance intent = true := by
  induction fuel generalizing first with
  | zero =>
    intro attempt hle hlt
    exact absurd hlt (not_lt.mpr hle)
  | succ fuel ih =>
    intro attempt hle hlt
    unfold probeAttempts at hlt
    split at hlt
    · exact absurd hlt (not_lt.mpr hle)
    · exact absurd hlt (not_lt.mpr hle)
    · rename_i intent hfind
      split at hlt
      · split at hlt
        · rename_i hnoPost
          rcases Nat.eq_or_lt_of_le hle with rfl | hnext
          · exact ⟨intent, hfind, hnoPost⟩
          · exact ih (first + 1) attempt hnext hlt
        · exact absurd hlt (not_lt.mpr hle)
      · split at hlt
        · exact absurd hlt (not_lt.mpr hle)
        · exact absurd hlt (not_lt.mpr hle)

theorem probeAttempts_terminal (find : String → Except Unit (Option BoxOrderIntent)) (idOf : ℕ → String)
    (fuel first : ℕ) {intent : BoxOrderIntent}
    (h : (probeAttempts find idOf fuel first).terminalIntent = some intent) :
    find (idOf (probeAttempts find idOf fuel first).attempt) = .ok (some intent) ∧
      (intent.state = .rejected → hasDurableLocalNoPostProvenance intent = false) := by
  induction fuel generalizing first with
  | zero => cases h
  | succ fuel ih =>
    unfold probeAttempts at h ⊢
    cases hfind : find (idOf first) with
    | error _ =>
      rw [hfind] at h
      cases h
    | ok row =>
      rw [hfind] at h
      cases row with
      | none => cases h
      | some existing =>
        dsimp only at h ⊢
        by_cases hrejected : existing.state = .rejected
        · rw [if_pos hrejected] at h ⊢
          by_cases hnoPost : hasDurableLocalNoPostProvenance existing = true
          · rw [if_pos hnoPost] at h ⊢
            exact ih (first + 1) h
          · rw [if_neg hnoPost] at h ⊢
            cases h
            exact ⟨hfind, fun _ => Bool.eq_false_iff.mpr hnoPost⟩
        · rw [if_neg hrejected] at h ⊢
          by_cases hterminal : existing.state = .complete ∨ existing.state = .cancelled
          · rw [if_pos hterminal] at h ⊢
            cases h
            exact ⟨hfind, fun hstate => absurd hstate hrejected⟩
          · rw [if_neg hterminal] at h
            cases h

/-! ## What retires a generation -/

/-- An error that proves the order manager left nothing working under the identity. -/
def SubmitError.Spends : SubmitError → Prop
  | .preSubmitRefused _ _ _ _ => True
  | .orderRejected order => provesZeroExposure order = true
  | _ => False

variable (order : BrokerOrder)

def BrokerOrder.FallsShort (residual : ResidualLegExposure) : Prop :=
  ((order.state = .complete ∨ order.state = .cancelled) ∧ ¬ .fin residual.quantity ≤ order.filledQuantity) ∨
    provesZeroExposure order = true

variable (keyPrefix : String)

def LeftOver (r : DeskedResidual) : Prop :=
  (∃ order, shownOrder keyPrefix r = some order ∧ order.FallsShort r.residual) ∨
    ∃ request error, reachedRequest keyPrefix r = some request ∧ r.desk.submit request = .error error ∧ error.Spends

section

variable {keyPrefix : String}
variable {kind : ResidualFlattenFailureKind}

theorem retire_failure (h : dispositionForFailure kind = .retireAttempt) :
    kind = .localPreSubmitRefused ∨ kind = .brokerRejected ∨ kind = .identityConflict := by
  cases kind <;> simp [dispositionForFailure] at h ⊢

variable {order : BrokerOrder}

theorem classify_retire {requested : ℚ} (hrejected : order.state ≠ .rejected) :
    classifyResidualOrder order requested = .retireAttempt ↔
      (order.state = .complete ∨ order.state = .cancelled) ∧ ¬ .fin requested ≤ order.filledQuantity := by
  unfold classifyResidualOrder isBrokerOrderTerminal
  cases hstate : order.state <;> simp_all

theorem not_proves_of_state (h : order.state ≠ .rejected) : provesZeroExposure order ≠ true :=
  fun hproves => h (provesZeroExposure_spec hproves).2

theorem fallsShort_iff {residual : ResidualLegExposure} (h : order.state ≠ .rejected) :
    classifyResidualOrder order residual.quantity = .retireAttempt ↔ order.FallsShort residual := by
  rw [classify_retire h, BrokerOrder.FallsShort]
  simp [not_proves_of_state h]

theorem fallsShort_rejected {residual : ResidualLegExposure} (h : order.state = .rejected) :
    order.FallsShort residual ↔ provesZeroExposure order = true := by
  simp [BrokerOrder.FallsShort, h]

variable (residual : ResidualLegExposure)
variable (attempt : ℕ)

theorem rejectedPass_retire (submitted : Option BrokerOrderRequest)
    (subject fallback : String) (order : BrokerOrder) :
    (rejectedPass keyPrefix residual attempt submitted subject fallback order).disposition = .retireAttempt ↔
      provesZeroExposure order = true := by
  obtain ⟨detail, heq⟩ := rejectedPass_eq keyPrefix residual attempt submitted subject fallback order
  rw [heq, failPass_disposition]
  by_cases h : provesZeroExposure order = true
  · simp [h, dispositionForFailure]
  · simp [h, dispositionForFailure]

theorem replayPass_retire (intent : BoxOrderIntent) :
    (replayPass keyPrefix residual attempt intent).disposition = .retireAttempt ↔
      (brokerOrderFromDurableIntent intent).FallsShort residual := by
  unfold replayPass
  dsimp only
  by_cases hrejected : (brokerOrderFromDurableIntent intent).state = .rejected
  · rw [if_pos hrejected, rejectedPass_retire, fallsShort_rejected hrejected]
  · rw [if_neg hrejected, ← fallsShort_iff hrejected]

def SubmitAnswer.Conflicts : SubmitAnswer → Prop
  | .error (.other message) => classifyResidualFlattenErrorMessage message = .identityConflict
  | _ => False

theorem classifyMessage_kinds (message : String) :
    classifyResidualFlattenErrorMessage message ≠ .localPreSubmitRefused ∧
      classifyResidualFlattenErrorMessage message ≠ .brokerRejected := by
  unfold classifyResidualFlattenErrorMessage
  split_ifs <;> simp

theorem answeredPass_retire (request : BrokerOrderRequest) {answer : SubmitAnswer} (hconflict : ¬ answer.Conflicts) :
    (answeredPass keyPrefix residual attempt request answer).disposition = .retireAttempt ↔
      (∃ order, answer = .ok order ∧ order.FallsShort residual) ∨ ∃ error, answer = .error error ∧ error.Spends := by
  cases answer with
  | error error =>
    simp only [reduceCtorEq, false_and, exists_false, false_or, Except.error.injEq, exists_eq_left']
    show dispositionForFailure (failureOf error).1 = _ ↔ _
    cases error with
    | preSubmitRefused => simp [failureOf, dispositionForFailure, SubmitError.Spends]
    | orderRejected order =>
      by_cases h : provesZeroExposure order = true
      · simp [failureOf, dispositionForFailure, SubmitError.Spends, h]
      · simp [failureOf, dispositionForFailure, SubmitError.Spends, h]
    | ambiguousSubmit | persistenceAfterFill => simp [failureOf, dispositionForFailure, SubmitError.Spends]
    | other message =>
      simp only [SubmitError.Spends, iff_false]
      intro hretire
      rcases retire_failure hretire with h | h | h
      · exact (classifyMessage_kinds message).1 h
      · exact (classifyMessage_kinds message).2 h
      · exact hconflict h
  | ok order =>
    simp only [Except.ok.injEq, exists_eq_left', reduceCtorEq, false_and, exists_false, or_false]
    dsimp only [answeredPass]
    by_cases hadopt : classifyResidualOrder order residual.quantity = .adoptAttempt
    · rw [if_pos hadopt]
      simp only [failPass_disposition, dispositionForFailure, reduceCtorEq, false_iff]
      intro hshort
      by_cases hrejected : order.state = .rejected
      · have hzero := (provesZeroExposure_spec ((fallsShort_rejected hrejected).mp hshort)).1
        simp [classifyResidualOrder, isBrokerOrderTerminal, hrejected, hzero] at hadopt
      · rw [(fallsShort_iff hrejected).mpr hshort] at hadopt
        cases hadopt
    · rw [if_neg hadopt]
      by_cases hrejected : order.state = .rejected
      · rw [if_pos hrejected, rejectedPass_retire, fallsShort_rejected hrejected]
      · rw [if_neg hrejected]
        exact fallsShort_iff hrejected

structure ConflictFree (keyPrefix : String) (r : DeskedResidual) : Prop where
  pricing : ∀ touch message, r.desk.reference = some touch → r.desk.buildOrderPricing touch = .error message →
    classifyResidualFlattenErrorMessage message ≠ .identityConflict
  answer : ∀ request, reachedRequest keyPrefix r = some request → ¬ SubmitAnswer.Conflicts (r.desk.submit request)

theorem prepareRequest_not_retire {r : DeskedResidual} (h : ConflictFree keyPrefix r) {attempt : ℕ}
    {detail : String}
    (hprepared : prepareRequest r.desk keyPrefix r.residual attempt = .error (kind, detail)) :
    dispositionForFailure kind ≠ .retireAttempt := by
  unfold prepareRequest at hprepared
  split at hprepared
  · cases hprepared
    simp [dispositionForFailure]
  · rename_i touch hreference
    split at hprepared
    · rename_i message hpricing
      cases hprepared
      intro hretire
      rcases retire_failure hretire with hkind | hkind | hkind
      · exact (classifyMessage_kinds detail).1 hkind
      · exact (classifyMessage_kinds detail).2 hkind
      · exact h.pricing touch detail hreference hpricing hkind
    · dsimp only at hprepared
      split at hprepared
      · cases hprepared
        simp [dispositionForFailure]
      · cases hprepared

theorem flattenOne_retire {r : DeskedResidual} (h : ConflictFree keyPrefix r) :
    (flattenOneResidual r.desk keyPrefix r.residual).disposition = .retireAttempt ↔ LeftOver keyPrefix r := by
  have hanswer := h.answer
  unfold LeftOver shownOrder
  unfold reachedRequest at hanswer ⊢
  unfold flattenOneResidual
  dsimp only
  by_cases hbudget : residualRejectionBudgetExhausted r.residual = true
  · simp [hbudget, dispositionForFailure]
  · simp only [if_neg hbudget] at hanswer ⊢
    unfold selectedAttempt at hanswer ⊢
    cases hselected : (firstAdoptableResidualAttempt r.desk keyPrefix r.residual
        (residualFlattenAttempt r.residual)).terminalIntent with
    | some intent => simp [replayPass_retire]
    | none =>
      rw [hselected] at hanswer
      dsimp only at hanswer ⊢
      cases hprepared : prepareRequest r.desk keyPrefix r.residual _ with
      | error failed => simpa [Except.toOption] using prepareRequest_not_retire h hprepared
      | ok request =>
        rw [hprepared] at hanswer
        simp only [Except.toOption, Option.some.injEq, exists_and_left, exists_eq_left', Option.bind_some,
          forall_eq'] at hanswer ⊢
        rw [answeredPass_retire _ _ _ hanswer]
        cases r.desk.submit request <;> simp

end

section

variable {chargeTotal : ChargeTotal} {keyPrefix : String}

theorem accountPass_disposition (pass : ResidualFlattenPass) :
    (accountPass chargeTotal keyPrefix pass).disposition =
      if (accountPass chargeTotal keyPrefix pass).violation = none then pass.disposition else .adoptAttempt := by
  have horder : ∀ order accounted charges, (accountOrder chargeTotal keyPrefix pass order accounted charges).disposition =
      if (accountOrder chargeTotal keyPrefix pass order accounted charges).violation = none then pass.disposition
        else .adoptAttempt := by
    intro order accounted charges
    unfold accountOrder
    dsimp only
    by_cases hquarantined : regressed order accounted = true ∨ Number.fin pass.residual.quantity <
        (if regressed order accounted = true then .fin 0 else order.filledQuantity.sub accounted)
    · rw [if_pos hquarantined]
      rfl
    · rw [if_neg hquarantined]
      rfl
  unfold accountPass
  split
  · rfl
  · split
    · rfl
    · exact horder ..
  · split
    · rfl
    · exact horder ..

theorem carryPass_some {pass : ResidualFlattenPass} {next : ResidualLegExposure}
    (h : carryPass chargeTotal keyPrefix pass = some next) :
    ∃ held : 0 < next.quantity, next = carryResidualForward pass.residual next.quantity held pass.attempt
      (accountPass chargeTotal keyPrefix pass).disposition (accountPass chargeTotal keyPrefix pass).accounting
      pass.failure := by
  unfold carryPass at h
  dsimp only at h
  split at h
  · split at h
    · cases h
      exact ⟨_, rfl⟩
    · cases h
  · cases h

theorem carried_attempt {pass : ResidualFlattenPass} {next : ResidualLegExposure} (hpos : 0 < pass.attempt)
    (h : carryPass chargeTotal keyPrefix pass = some next) :
    residualFlattenAttempt next =
      if pass.disposition = .retireAttempt ∧ (accountPass chargeTotal keyPrefix pass).violation = none then
        pass.attempt + 1
      else pass.attempt := by
  obtain ⟨held, hnext⟩ := carryPass_some h
  rw [hnext, carry_attempt _ _ _ hpos, accountPass_disposition]
  by_cases hviolation : (accountPass chargeTotal keyPrefix pass).violation = none
  · simp [hviolation]
  · simp [hviolation]

end

inductive OrderFate where
  | absent
  | live
  | closed
  | refused
  deriving DecidableEq

def OrderFate.Spent (fate : OrderFate) : Prop := fate = .closed ∨ fate = .refused

inductive OrderFate.Moves : OrderFate → OrderFate → Prop where
  | stay (fate : OrderFate) : Moves fate fate
  | close : Moves .live .closed
  | refuse : Moves .live .refused

theorem OrderFate.Moves.spent {fate fate' : OrderFate} (h : fate.Moves fate') (hspent : fate.Spent) : fate'.Spent := by
  cases h with
  | stay => exact hspent
  | close => exact .inl rfl
  | refuse => exact .inr rfl

theorem OrderFate.Moves.absent {fate' : OrderFate} (h : OrderFate.absent.Moves fate') : fate' = .absent := by
  cases h
  rfl

abbrev World := ℕ → OrderFate

/-- A row of the journal is of an order that exists; its terminal state is the order's. -/
structure RowTruth (intent : BoxOrderIntent) (fate : OrderFate) : Prop where
  exists_ : fate ≠ .absent
  finished : intent.state = .complete ∨ intent.state = .cancelled → fate = .closed
  noPost : hasDurableLocalNoPostProvenance intent = true → fate = .refused
  rejected : hasDurableLocalNoPostProvenance intent = false →
    provesZeroExposure (brokerOrderFromDurableIntent intent) = true → fate = .closed

def AnswerTruth : SubmitAnswer → OrderFate → Prop
  | .ok order, fate =>
    order.state = .complete ∨ order.state = .cancelled ∨ provesZeroExposure order = true → fate = .closed
  | .error (.orderRejected order), fate => provesZeroExposure order = true → fate = .closed
  | .error (.preSubmitRefused _ _ _ _), fate => fate = .refused
  | .error _, _ => True

structure Answered (keyPrefix : String) (world world' : World) (entry : FlattenEntry) : Prop where
  journal : ∀ find, entry.asked.desk.findDurableIntent = some find → ∀ attempt intent,
    find (residualClientOrderId keyPrefix entry.asked.residual attempt) = .ok (some intent) →
      RowTruth intent (world attempt)
  others : ∀ attempt, attempt ≠ entry.pass.attempt → (world attempt).Moves (world' attempt)
  own : entry.pass.submitted = none ∨ world entry.pass.attempt ≠ .absent →
    (world entry.pass.attempt).Moves (world' entry.pass.attempt)
  answer : ∀ request, entry.pass.submitted = some request →
    AnswerTruth (entry.asked.desk.submit request) (world' entry.pass.attempt)

/-! ## One pass in the world -/

section

variable {chargeTotal : ChargeTotal} {keyPrefix : String} {world world' : World} {entry : FlattenEntry}

def FlattenEntry.Worked (keyPrefix : String) (entry : FlattenEntry) : Prop :=
  entry.pass = flattenOneResidual entry.asked.desk keyPrefix entry.asked.residual

theorem FlattenEntry.Worked.attempt (h : entry.Worked keyPrefix) :
    entry.pass.attempt = (selectedAttempt keyPrefix entry.asked).attempt := by
  rw [h, (flattenOne_about entry.asked).2.1]

theorem FlattenEntry.Worked.submitted (h : entry.Worked keyPrefix) :
    entry.pass.submitted = reachedRequest keyPrefix entry.asked := by
  rw [h, flattenOne_submitted]

section

variable (h : Answered keyPrefix world world' entry)
include h

theorem Answered.moves {attempt : ℕ} (hexists : world attempt ≠ .absent) : (world attempt).Moves (world' attempt) := by
  by_cases hown : attempt = entry.pass.attempt
  · subst hown
    exact h.own (.inr hexists)
  · exact h.others attempt hown

theorem Answered.spent {attempt : ℕ} (hspent : (world attempt).Spent) : (world' attempt).Spent := by
  refine (h.moves ?_).spent hspent
  intro habsent
  rw [habsent] at hspent
  rcases hspent with hspent | hspent <;> cases hspent

theorem Answered.skipped (hworked : entry.Worked keyPrefix) {attempt : ℕ}
    (hle : residualFlattenAttempt entry.asked.residual ≤ attempt) (hlt : attempt < entry.pass.attempt) :
    world attempt = .refused := by
  rw [hworked.attempt] at hlt
  unfold selectedAttempt firstAdoptableResidualAttempt at hlt
  cases hfind : entry.asked.desk.findDurableIntent with
  | none =>
    rw [hfind] at hlt
    exact absurd hlt (not_lt.mpr hle)
  | some find =>
    rw [hfind] at hlt
    obtain ⟨intent, hrow, hnoPost⟩ := probeAttempts_skipped find _ _ _ attempt hle hlt
    exact (h.journal find hfind attempt intent hrow).noPost hnoPost

theorem Answered.terminal (hworked : entry.Worked keyPrefix) {intent : BoxOrderIntent}
    (hterminal : (selectedAttempt keyPrefix entry.asked).terminalIntent = some intent) :
    RowTruth intent (world entry.pass.attempt) ∧
      (intent.state = .rejected → hasDurableLocalNoPostProvenance intent = false) := by
  rw [hworked.attempt]
  unfold selectedAttempt firstAdoptableResidualAttempt at hterminal ⊢
  cases hfind : entry.asked.desk.findDurableIntent with
  | none =>
    rw [hfind] at hterminal
    cases hterminal
  | some find =>
    rw [hfind] at hterminal
    obtain ⟨hrow, hrejected⟩ := probeAttempts_terminal find _ _ _ hterminal
    exact ⟨h.journal find hfind _ intent hrow, hrejected⟩

theorem Answered.leftOver_spent (hworked : entry.Worked keyPrefix) (hleft : LeftOver keyPrefix entry.asked) :
    (world' entry.pass.attempt).Spent := by
  have hsubmitted := hworked.submitted
  rcases hleft with ⟨order, hshown, hshort⟩ | ⟨request, error, hreached, herror, hspends⟩
  · unfold shownOrder at hshown
    split at hshown
    · cases hshown
    · split at hshown
      · rename_i intent hterminal
        cases hshown
        obtain ⟨hrow, hnoPost⟩ := h.terminal hworked hterminal
        refine h.spent (.inl ?_)
        rcases hshort with ⟨hfinished, -⟩ | hproves
        · exact hrow.finished hfinished
        · exact hrow.rejected (hnoPost (provesZeroExposure_spec hproves).2) hproves
      · cases hreached : reachedRequest keyPrefix entry.asked with
        | none =>
          rw [hreached] at hshown
          cases hshown
        | some request =>
          rw [hreached] at hshown hsubmitted
          have htruth := h.answer request hsubmitted
          simp only [Option.bind_some] at hshown
          cases hanswer : entry.asked.desk.submit request with
          | error error =>
            rw [hanswer] at hshown
            cases hshown
          | ok answered =>
            rw [hanswer] at hshown htruth
            cases hshown
            refine .inl (htruth ?_)
            rcases hshort with ⟨hstate | hstate, -⟩ | hproves
            · exact .inl hstate
            · exact .inr (.inl hstate)
            · exact .inr (.inr hproves)
  · rw [hreached] at hsubmitted
    have htruth := h.answer request hsubmitted
    rw [herror] at htruth
    cases error with
    | preSubmitRefused => exact .inr htruth
    | orderRejected order => exact .inl (htruth hspends)
    | _ => exact hspends.elim

theorem Answered.selected_of_absent (habsent : world (residualFlattenAttempt entry.asked.residual) = .absent) :
    selectedAttempt keyPrefix entry.asked = ⟨residualFlattenAttempt entry.asked.residual, none⟩ := by
  unfold selectedAttempt firstAdoptableResidualAttempt
  cases hfind : entry.asked.desk.findDurableIntent with
  | none => rfl
  | some find =>
    show probeAttempts find _ (63 + 1) _ = _
    unfold probeAttempts
    split
    · rfl
    · rfl
    · rename_i intent hrow
      exact absurd habsent (h.journal find hfind _ intent hrow).exists_

end

theorem FlattenEntry.Sound.worked_or_held (h : entry.Sound keyPrefix) : entry.Worked keyPrefix ∨
    entry.pass.attempt = residualFlattenAttempt entry.asked.residual ∧ entry.pass.submitted = none ∧
      entry.pass.disposition = .reuseAttempt := by
  rcases h with h | ⟨unresolved, h⟩
  · exact .inl h
  · refine .inr ?_
    rw [h]
    exact ⟨rfl, rfl, rfl⟩

structure Going (world : World) (residual : ResidualLegExposure) : Prop where
  spent : ∀ attempt, 0 < attempt → attempt < residualFlattenAttempt residual → (world attempt).Spent
  absent : ∀ attempt, residualFlattenAttempt residual < attempt → world attempt = .absent

theorem Going.below (h : Going world entry.asked.residual) (hsound : entry.Sound keyPrefix)
    (hanswered : Answered keyPrefix world world' entry) :
    ∀ attempt, 0 < attempt → attempt < entry.pass.attempt → (world attempt).Spent := by
  intro attempt hpos hlt
  by_cases hown : attempt < residualFlattenAttempt entry.asked.residual
  · exact h.spent attempt hpos hown
  · rcases hsound.worked_or_held with hworked | ⟨heq, -, -⟩
    · exact .inr (hanswered.skipped hworked (not_lt.mp hown) hlt)
    · rw [heq] at hlt
      exact absurd hlt hown

theorem Going.above (h : Going world entry.asked.residual) (hsound : entry.Sound keyPrefix)
    (hanswered : Answered keyPrefix world world' entry) :
    ∀ attempt, entry.pass.attempt < attempt → world' attempt = .absent := by
  intro attempt hlt
  have hmoves := hanswered.others attempt hlt.ne'
  rw [h.absent attempt (hsound.attempt_le.trans_lt hlt)] at hmoves
  exact hmoves.absent

theorem FlattenEntry.Sound.attempt_pos (h : entry.Sound keyPrefix) : 0 < entry.pass.attempt :=
  (residualFlattenAttempt_pos _).trans_le h.attempt_le

variable {next : ResidualLegExposure}

theorem Going.step (h : Going world entry.asked.residual) (hsound : entry.Sound keyPrefix)
    (hanswered : Answered keyPrefix world world' entry) (hfree : ConflictFree keyPrefix entry.asked)
    (hnext : carryPass chargeTotal keyPrefix entry.pass = some next) :
    Going world' next := by
  have hbelow : ∀ attempt, 0 < attempt → attempt < entry.pass.attempt → (world' attempt).Spent :=
    fun attempt hpos hlt => hanswered.spent (h.below hsound hanswered attempt hpos hlt)
  have habove := h.above hsound hanswered
  have hattempt := carried_attempt hsound.attempt_pos hnext
  by_cases hretired : entry.pass.disposition = .retireAttempt ∧
      (accountPass chargeTotal keyPrefix entry.pass).violation = none
  · rw [if_pos hretired] at hattempt
    refine ⟨?_, fun attempt hlt => habove attempt (by omega)⟩
    intro attempt hpos hlt
    rw [hattempt] at hlt
    rcases Nat.lt_or_eq_of_le (Nat.le_of_lt_succ hlt) with hlt | rfl
    · exact hbelow attempt hpos hlt
    · rcases hsound.worked_or_held with hworked | ⟨-, -, hreuse⟩
      · have hdisposition := hretired.1
        rw [hworked] at hdisposition
        exact hanswered.leftOver_spent hworked ((flattenOne_retire hfree).mp hdisposition)
      · rw [hreuse] at hretired
        cases hretired.1
  · rw [if_neg hretired] at hattempt
    refine ⟨?_, fun attempt hlt => habove attempt (by omega)⟩
    intro attempt hpos hlt
    exact hbelow attempt hpos (by omega)

/-! ## Moving on -/

structure Retired (chargeTotal : ChargeTotal) (keyPrefix : String) (entry : FlattenEntry) : Prop where
  worked : entry.Worked keyPrefix
  left : LeftOver keyPrefix entry.asked
  trusted : (accountPass chargeTotal keyPrefix entry.pass).violation = none

structure Ready (keyPrefix : String) (entry : FlattenEntry) : Prop where
  worked : entry.Worked keyPrefix
  budget : residualRejectionBudgetExhausted entry.asked.residual = false
  book : ∃ request, prepareRequest entry.asked.desk keyPrefix entry.asked.residual entry.pass.attempt = .ok request

def Submits (keyPrefix : String) (entry : FlattenEntry) (attempt : ℕ) : Prop :=
  ∃ request, entry.pass.submitted = some request ∧
    request.clientOrderId = residualClientOrderId keyPrefix entry.asked.residual attempt

theorem Submits.attempt_eq (hsound : entry.Sound keyPrefix) {attempt : ℕ} (hpos : 0 < attempt)
    (h : Submits keyPrefix entry attempt) : entry.pass.attempt = attempt := by
  obtain ⟨request, hrequest, hid⟩ := h
  rcases hsound.worked_or_held with hworked | ⟨-, hnone, -⟩
  · rw [hworked.submitted] at hrequest
    obtain ⟨pricing, rfl⟩ := reachedRequest_eq hrequest
    have hown := hsound.attempt_pos
    rw [hworked.attempt] at hown ⊢
    exact residualClientOrderId_inj hown hpos hid
  · rw [hnone] at hrequest
    cases hrequest

structure Waiting (world : World) (residual : ResidualLegExposure) (attempt : ℕ) : Prop where
  attempt_eq : residualFlattenAttempt residual = attempt
  unused : world attempt = .absent

theorem Retired.waiting (h : Retired chargeTotal keyPrefix entry) (hgoing : Going world entry.asked.residual)
    (hanswered : Answered keyPrefix world world' entry) (hfree : ConflictFree keyPrefix entry.asked)
    (hnext : carryPass chargeTotal keyPrefix entry.pass = some next) :
    Waiting world' next (entry.pass.attempt + 1) := by
  have hsound : entry.Sound keyPrefix := .inl h.worked
  have hdisposition : entry.pass.disposition = .retireAttempt := by
    rw [h.worked]
    exact (flattenOne_retire hfree).mpr h.left
  refine ⟨?_, hgoing.above hsound hanswered _ (Nat.lt_succ_self _)⟩
  rw [carried_attempt hsound.attempt_pos hnext, if_pos ⟨hdisposition, h.trusted⟩]

theorem Waiting.ready {attempt : ℕ} (h : Waiting world entry.asked.residual attempt)
    (hanswered : Answered keyPrefix world world' entry) (hready : Ready keyPrefix entry) :
    Submits keyPrefix entry attempt := by
  obtain ⟨rfl, hunused⟩ := h
  have hselected := hanswered.selected_of_absent hunused
  obtain ⟨request, hprepared⟩ := hready.book
  rw [hready.worked.attempt, hselected] at hprepared
  refine ⟨request, ?_, ?_⟩
  · rw [hready.worked.submitted]
    unfold reachedRequest
    rw [hready.budget, hselected, hprepared]
    rfl
  · obtain ⟨pricing, rfl⟩ := prepareRequest_eq hprepared
    rfl

theorem Waiting.step {attempt : ℕ} (h : Waiting world entry.asked.residual attempt) (hsound : entry.Sound keyPrefix)
    (hanswered : Answered keyPrefix world world' entry) (hfree : ConflictFree keyPrefix entry.asked)
    (hready : ¬ Ready keyPrefix entry)
    (hnext : carryPass chargeTotal keyPrefix entry.pass = some next) : Waiting world' next attempt := by
  obtain ⟨rfl, hunused⟩ := h
  have hselected := hanswered.selected_of_absent hunused
  -- a pass that was not ready stays on its attempt and sends nothing
  have hquiet : entry.pass.attempt = residualFlattenAttempt entry.asked.residual ∧ entry.pass.submitted = none ∧
      entry.pass.disposition ≠ .retireAttempt := by
    rcases hsound.worked_or_held with hworked | ⟨heq, hnone, hreuse⟩
    · have hattempt := hworked.attempt
      rw [hselected] at hattempt
      have hnone : reachedRequest keyPrefix entry.asked = none := by
        by_contra hsome
        obtain ⟨request, hreached⟩ := Option.ne_none_iff_exists'.mp hsome
        refine hready ⟨hworked, ?_, request, ?_⟩
        · by_contra hbudget
          rw [reachedRequest, if_pos (by simpa using hbudget)] at hreached
          cases hreached
        · unfold reachedRequest at hreached
          split at hreached
          · cases hreached
          · rw [hselected] at hreached
            rw [hattempt]
            cases hprepared : prepareRequest entry.asked.desk keyPrefix entry.asked.residual
                (residualFlattenAttempt entry.asked.residual) with
            | error failed =>
              rw [hprepared] at hreached
              cases hreached
            | ok prepared =>
              rw [hprepared] at hreached
              cases hreached
              rfl
      refine ⟨hattempt, hworked.submitted.trans hnone, ?_⟩
      rw [hworked]
      intro hretire
      rcases (flattenOne_retire hfree).mp hretire with ⟨order, hshown, -⟩ | ⟨request, error, hreached, -⟩
      · unfold shownOrder at hshown
        rw [hselected, hnone] at hshown
        split at hshown <;> cases hshown
      · rw [hnone] at hreached
        cases hreached
    · rw [hreuse]
      exact ⟨heq, hnone, by simp⟩
  obtain ⟨hattempt, hnone, hkept⟩ := hquiet
  refine ⟨?_, ?_⟩
  · rw [carried_attempt hsound.attempt_pos hnext, if_neg (fun h => hkept h.1), hattempt]
  · have hmoves := hanswered.own (.inl hnone)
    rw [hattempt, hunused] at hmoves
    exact hmoves.absent

end

/-! ## Runs -/

/-- The `k`-th pass goes from `worlds k` to `worlds (k + 1)` and is told of no conflict. -/
def Consistent (worlds : ℕ → World) (passes : List FlattenEntry) : Prop :=
  Run.Each (fun past entry => Answered keyPrefix (worlds past.length) (worlds (past.length + 1)) entry ∧
    ConflictFree keyPrefix entry.asked) passes

def BoxOrderIntent.Finished (intent : BoxOrderIntent) : Prop :=
  intent.state = .complete ∨ intent.state = .cancelled ∨
    intent.state = .rejected ∧ hasDurableLocalNoPostProvenance intent = false

def Finds (r : DeskedResidual) (intent : BoxOrderIntent) : Prop :=
  ∃ find, r.desk.findDurableIntent = some find ∧ intent.Finished ∧
    find (residualClientOrderId keyPrefix r.residual (residualFlattenAttempt r.residual)) = .ok (some intent)

theorem finds_shown {keyPrefix : String} {r : DeskedResidual} {intent : BoxOrderIntent} (h : Finds keyPrefix r intent)
    (hbudget : residualRejectionBudgetExhausted r.residual = false) :
    (flattenOneResidual r.desk keyPrefix r.residual).attempt = residualFlattenAttempt r.residual ∧
      shownOrder keyPrefix r = some (brokerOrderFromDurableIntent intent) ∧
      (flattenOneResidual r.desk keyPrefix r.residual).submitted = none := by
  obtain ⟨find, hfind, hfinished, hrow⟩ := h
  have hselected : selectedAttempt keyPrefix r = ⟨residualFlattenAttempt r.residual, some intent⟩ := by
    unfold selectedAttempt firstAdoptableResidualAttempt
    rw [hfind]
    show probeAttempts find _ (63 + 1) _ = _
    unfold probeAttempts
    rw [hrow]
    rcases hfinished with hstate | hstate | ⟨hstate, hposted⟩
    · simp [hstate]
    · simp [hstate]
    · simp [hstate, hposted]
  refine ⟨?_, ?_, ?_⟩
  · rw [(flattenOne_about r).2.1, hselected]
  · rw [shownOrder, hbudget, hselected]
    rfl
  · rw [flattenOne_submitted, reachedRequest, hbudget, hselected]
    rfl

structure OneLive (chargeTotal : ChargeTotal) (keyPrefix : String) (worlds : ℕ → World) (passes : List FlattenEntry) :
    Prop where
  safe : ∀ past entry, past ++ [entry] <+: passes → ∀ attempt, 0 < attempt → Submits keyPrefix entry attempt →
    ∀ earlier, 0 < earlier → earlier < attempt → (worlds past.length earlier).Spent
  moves : ∀ past entry waiting next, past ++ entry :: waiting ++ [next] <+: passes →
    Retired chargeTotal keyPrefix entry → (∀ x ∈ waiting, ¬ Ready keyPrefix x) → Ready keyPrefix next →
      Submits keyPrefix next (entry.pass.attempt + 1)
  projects : ∀ entry ∈ passes, entry.Worked keyPrefix → residualRejectionBudgetExhausted entry.asked.residual = false →
    ∀ intent, Finds keyPrefix entry.asked intent →
      entry.pass.attempt = residualFlattenAttempt entry.asked.residual ∧
        shownOrder keyPrefix entry.asked = some (brokerOrderFromDurableIntent intent) ∧ entry.pass.submitted = none

section

variable {chargeTotal : ChargeTotal} {keyPrefix : String} {worlds : ℕ → World}

structure Identified (chargeTotal : ChargeTotal) (keyPrefix : String) (worlds : ℕ → World)
    (residual : ResidualLegExposure) (passes : List FlattenEntry) : Prop where
  going : Going (worlds passes.length) residual
  waiting : ∀ past entry waiting, passes = past ++ entry :: waiting → Retired chargeTotal keyPrefix entry →
    (∀ x ∈ waiting, ¬ Ready keyPrefix x) → Waiting (worlds passes.length) residual (entry.pass.attempt + 1)
  history : OneLive chargeTotal keyPrefix worlds passes

variable {residual : ResidualLegExposure} {passes : List FlattenEntry} {entry : FlattenEntry}

section

variable (h : Identified chargeTotal keyPrefix worlds residual passes)
include h

theorem Identified.history_snoc (hsound : entry.Sound keyPrefix) (hasked : entry.asked.residual = residual)
    (hanswered : Answered keyPrefix (worlds passes.length) (worlds (passes.length + 1)) entry) :
    OneLive chargeTotal keyPrefix worlds (passes ++ [entry]) := by
  subst hasked
  constructor
  · intro past e hpre attempt hpos hsubmits
    rcases List.prefix_concat_iff.mp hpre with heq | hpre
    · obtain ⟨hpast, he⟩ := List.append_inj' heq rfl
      obtain rfl := hpast
      obtain rfl := (List.cons.inj he).1
      rw [← hsubmits.attempt_eq hsound hpos]
      exact h.going.below hsound hanswered
    · exact h.history.safe past e hpre attempt hpos hsubmits
  · intro past e waiting next hpre hretired hquiet hready
    rcases List.prefix_concat_iff.mp hpre with heq | hpre
    · obtain ⟨hpast, he⟩ := List.append_inj' heq rfl
      obtain rfl := (List.cons.inj he).1
      exact (h.waiting past e waiting hpast.symm hretired hquiet).ready hanswered hready
    · exact h.history.moves past e waiting next hpre hretired hquiet hready
  · intro e _ hworked hbudget intent hfinds
    rw [hworked]
    exact finds_shown hfinds hbudget

theorem Identified.step (hsound : entry.Sound keyPrefix) (hasked : entry.asked.residual = residual)
    (hanswered : Answered keyPrefix (worlds passes.length) (worlds (passes.length + 1)) entry)
    (hfree : ConflictFree keyPrefix entry.asked) {next : ResidualLegExposure}
    (hnext : carryPass chargeTotal keyPrefix entry.pass = some next) :
    Identified chargeTotal keyPrefix worlds next (passes ++ [entry]) := by
  have hhistory := h.history_snoc hsound hasked hanswered
  subst hasked
  refine ⟨?_, ?_, hhistory⟩
  · rw [List.length_append]
    exact h.going.step hsound hanswered hfree hnext
  · intro past e waiting heq hretired hquiet
    rw [List.length_append]
    rcases Run.split_snoc heq with ⟨rfl, rfl, rfl⟩ | ⟨front, rfl, hpasses⟩
    · exact hretired.waiting h.going hanswered hfree hnext
    · have hold := h.waiting past e front hpasses hretired fun y hy => hquiet y (List.mem_append_left _ hy)
      exact hold.step hsound hanswered hfree (hquiet entry (by simp)) hnext

end

end

/-- **One live identity.** A generation is submitted with every earlier one spent, a finished order is projected by
the pass that finds it, and the next submission takes the next generation. -/
theorem one_live_identity (chargeTotal : ChargeTotal) (keyPrefix : String) {initial : List ResidualLegExposure}
    (hdistinct : Distinct keyPrefix initial) (calls : List (ℕ → FlattenDesk)) {residual : ResidualLegExposure}
    (hresidual : residual ∈ initial) (worlds : ℕ → World) (hgoing : Going (worlds 0) residual)
    (hconsistent : Consistent keyPrefix worlds (passesOf keyPrefix (residualBase keyPrefix residual)
      (flattenRun chargeTotal keyPrefix initial calls).history)) :
    OneLive chargeTotal keyPrefix worlds (passesOf keyPrefix (residualBase keyPrefix residual)
      (flattenRun chargeTotal keyPrefix initial calls).history) := by
  have htracked := @run_tracked chargeTotal keyPrefix initial hdistinct (Identified chargeTotal keyPrefix worlds)
    (OneLive chargeTotal keyPrefix worlds) (Consistent keyPrefix worlds) (fun past entry h => Run.Each.past h) (by
      intro r past entry hP hsound hasked hok
      obtain ⟨hanswered, hfree⟩ := Run.Each.last hok
      exact ⟨fun next hnext => hP.step hsound hasked hanswered hfree hnext,
        fun _ => hP.history_snoc hsound hasked hanswered⟩)
    residual hresidual ⟨hgoing, by simp, ⟨by simp, by simp, by simp⟩⟩ calls hconsistent
  unfold TrackedAt at htracked
  split at htracked
  · exact htracked.history
  · exact htracked

def completeDesk : FlattenDesk :=
  openDesk none (.ok (brokerOrderFromDurableIntent (legIntent .complete .k2Ce .buy 25 25)))

def twoCalls : List (ℕ → FlattenDesk) := [fun _ => partialDesk, fun _ => completeDesk]

def twoWorlds (k attempt : ℕ) : OrderFate :=
  if 0 < attempt ∧ attempt ≤ k then .closed else .absent

theorem twoCalls_passes : ∃ next, residualFlattenAttempt next = 2 ∧ residualRejectionBudgetExhausted next = false ∧
    passesOf "T1" (residualBase "T1" shortResidual) (flattenRun none "T1" [shortResidual] twoCalls).history =
      [partialEntry, ⟨⟨next, completeDesk⟩, flattenOneResidual completeDesk "T1" next⟩] := by
  have hcarried : (carryPass none "T1" partialEntry.pass).map (fun r =>
      (r.side, residualFlattenAttempt r, residualRejectionBudgetExhausted r)) = some (.sell, 2, false) := by
    decide +kernel
  obtain ⟨next, hnext, hfacts⟩ := Option.map_eq_some_iff.mp hcarried
  obtain ⟨hside, hattempt, hbudget⟩ : next.side = .sell ∧ _ ∧ _ := by simpa using hfacts
  have hbase : residualBase "T1" next = residualBase "T1" shortResidual := by
    have hresidual : partialEntry.pass.residual = shortResidual := rfl
    rw [carryPass_base hnext, hresidual]
  refine ⟨next, hattempt, hbudget, ?_⟩
  have hremaining : (flattenRun none "T1" [shortResidual] [fun _ => partialDesk]).residuals = [next] := by
    show [partialEntry.pass].filterMap (carryPass none "T1") = _
    rw [List.filterMap_cons_some hnext, List.filterMap_nil]
  have hhistory : (flattenRun none "T1" [shortResidual] twoCalls).history =
      [partialEntry] ++ flattenEntries "T1" (desked [next] fun _ => completeDesk) := by
    rw [← hremaining]
    rfl
  rw [hhistory]
  simp [flattenEntries, desked, hside, passesOf, FlattenEntry.base, hbase, partialEntry]

theorem openDesk_submits {residual : ResidualLegExposure}
    (hbudget : residualRejectionBudgetExhausted residual = false) :
    flattenOneResidual (openDesk none (.ok order)) "T1" residual =
      answeredPass "T1" residual (residualFlattenAttempt residual)
        (residualRequest "T1" residual (residualFlattenAttempt residual) ⟨.fin 10, .fin (1 / 20), .fin 4, .fin 10⟩)
        (.ok order) := by
  unfold flattenOneResidual
  rw [if_neg (by simp [hbudget])]
  rfl

theorem openDesk_consistent {residual : ResidualLegExposure} {k : ℕ}
    (hbudget : residualRejectionBudgetExhausted residual = false) (hattempt : residualFlattenAttempt residual = k + 1) :
    let entry : FlattenEntry :=
      ⟨⟨residual, openDesk none (.ok order)⟩, flattenOneResidual (openDesk none (.ok order)) "T1" residual⟩
    Answered "T1" (twoWorlds k) (twoWorlds (k + 1)) entry ∧ ConflictFree "T1" entry.asked := by
  intro entry
  have hpass : entry.pass = _ := openDesk_submits order hbudget
  have hown : entry.pass.attempt = k + 1 := by rw [hpass, (answeredPass_about ..).2.1, hattempt]
  refine ⟨⟨?_, ?_, ?_, ?_⟩, ?_, fun _ _ h => h⟩
  · intro find hfind attempt intent hrow
    cases hfind
    cases hrow
  · intro attempt hne
    rw [hown] at hne
    have : twoWorlds (k + 1) attempt = twoWorlds k attempt := by
      unfold twoWorlds
      congr 1
      rw [eq_iff_iff]
      omega
    rw [this]
    exact .stay _
  · rw [hpass, answeredPass_submitted, ← hpass, hown]
    simp [twoWorlds]
  · intro request _
    rw [hown]
    show _ → twoWorlds (k + 1) (k + 1) = .closed
    simp [twoWorlds]
  · intro touch message _ h
    cases h

/-- The rest is submitted under the second generation once the first is closed. -/
theorem one_live_identity_two :
    ∃ second, passesOf "T1" (residualBase "T1" shortResidual)
        (flattenRun none "T1" [shortResidual] twoCalls).history = [partialEntry, second] ∧
      Submits "T1" second 2 ∧ (twoWorlds 1 1).Spent := by
  obtain ⟨next, hattempt, hbudget, hpasses⟩ := twoCalls_passes
  have hconsistent : Consistent "T1" twoWorlds
      [partialEntry, ⟨⟨next, completeDesk⟩, flattenOneResidual completeDesk "T1" next⟩] :=
    (Run.Each.nil.snoc (openDesk_consistent _ rfl rfl) : Consistent "T1" twoWorlds [partialEntry]).snoc
      (openDesk_consistent _ hbudget hattempt)
  have hfirst : residualFlattenAttempt shortResidual = 1 := rfl
  have hgoing : Going (twoWorlds 0) shortResidual := by
    refine ⟨?_, ?_⟩
    · intro attempt hpos hlt
      omega
    · intro attempt hlt
      exact if_neg (by omega)
  have hlive := @one_live_identity none "T1" [shortResidual] (List.nodup_singleton _) twoCalls
    shortResidual (List.mem_singleton_self _) twoWorlds hgoing (hpasses ▸ hconsistent)
  rw [hpasses] at hlive
  have hretired : Retired none "T1" partialEntry :=
    ⟨rfl, .inl ⟨_, rfl, .inl ⟨.inr rfl, by decide +kernel⟩⟩, by decide +kernel⟩
  have hsubmits := hlive.moves [] partialEntry [] _ (List.prefix_refl _) hretired (by simp) ⟨rfl, hbudget, _, rfl⟩
  exact ⟨_, hpasses, hsubmits,
    hlive.safe [partialEntry] _ (List.prefix_refl _) 2 (by decide) hsubmits 1 (by decide) (by decide)⟩

def stoppedDesk : FlattenDesk :=
  openDesk (some (legIntent .cancelled .k2Ce .buy 75 0)) (.error (.other ""))

/-- All 75 are outstanding and the book is executable, and the pass submits nothing. -/
theorem finished_order_not_resubmitted :
    let entry : FlattenEntry := ⟨⟨shortResidual, stoppedDesk⟩, flattenOneResidual stoppedDesk "T1" shortResidual⟩
    (flattenRun none "T1" [shortResidual] [fun _ => stoppedDesk]).history = [entry] ∧
      Finds "T1" entry.asked (legIntent .cancelled .k2Ce .buy 75 0) ∧ Ready "T1" entry ∧
      entry.pass.submitted = none ∧ outstandingAfter none "T1" entry.pass = .fin 75 := by
  refine ⟨rfl, ⟨_, rfl, .inr (.inl rfl), rfl⟩, ⟨rfl, rfl, _, rfl⟩, rfl, ?_⟩
  decide +kernel

end BoxEngine
