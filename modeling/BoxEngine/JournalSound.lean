import BoxEngine.IntentJournal
import BoxEngine.Lib.Run

/-!
# A row moves forward

Over the manager's writes the fill never falls, the reported transitions add up to what the row gained, and a terminal
label stays terminal.
-/

namespace BoxEngine

open Js

variable (before : StoredIntent)

def JournalCall.step (call : JournalCall) : StoredIntent × Option BoxOrderIntentUpdateResult :=
  match call.onRow before with
  | .ok (after, result) => (after, some result)
  | .error _ => (before, none)

inductive JournalCall.Outcome (call : JournalCall) (before : StoredIntent) :
    StoredIntent × Option BoxOrderIntentUpdateResult → Prop
  | wrote (after : StoredIntent) (writes : call.writes before.row = true)
      (row : after.row = call.patch.write call.audit before.row) :
      Outcome call before (after, some ⟨some after, true, some (.fin before.fill), some (.fin after.fill)⟩)
  | refused (refuses : call.writes before.row = false) :
      Outcome call before (before, some ⟨some before, false, some (.fin before.fill), some (.fin before.fill)⟩)
  | thrown (refuses : call.writes before.row = false) : Outcome call before (before, none)

theorem JournalCall.step_outcome (call : JournalCall) (before : StoredIntent) :
    call.Outcome before (call.step before) := by
  unfold step onRow StoredIntent.update
  dsimp only
  by_cases hadmits : call.patch.admits call.expectedStates before.row = true
  · rw [if_pos hadmits]
    by_cases hchecked : (call.patch.write call.audit before.row).checked = true
    · rw [dif_pos hchecked]
      have hfill := StoredIntent.filled_eq ⟨call.patch.write call.audit before.row, before.asked, hchecked⟩
      dsimp only at hfill ⊢
      rw [hfill, show (call.patch.write call.audit before.row).previousFilledQuantity = some before.row.filledQuantity from rfl,
        before.filled_eq]
      exact .wrote _ (by simp [writes, hadmits, hchecked]) rfl
    · rw [dif_neg hchecked]
      exact .thrown (by simp [writes, hchecked])
  · rw [if_neg hadmits]
    dsimp only
    rw [before.filled_eq]
    exact .refused (by simp [writes, hadmits])

theorem predecessor_terminal {before after : BrokerOrderState} (h : before ∈ intentStatePredecessors after)
    (hterminal : isBrokerOrderTerminal before = true) : isBrokerOrderTerminal after = true := by
  revert h hterminal
  cases after <;> cases before <;> decide

section

variable {call : JournalCall} {before after : StoredIntent}

theorem wrote_state (hwrites : call.writes before.row = true) (hrow : after.row = call.patch.write call.audit before.row) :
    before.row.state ∈ intentStatePredecessors after.row.state := by
  unfold JournalCall.writes BoxOrderIntentPatch.admits BoxOrderIntentPatch.stateOk at hwrites
  simp only [Bool.and_eq_true] at hwrites
  have hstate := hwrites.1.1.1.1
  rw [hrow]
  cases call with
  | persistOrder | transition => simpa [JournalCall.patch, BoxOrderIntentPatch.write] using hstate

theorem wrote_fill (hwrites : call.writes before.row = true) (hrow : after.row = call.patch.write call.audit before.row) :
    before.fill ≤ after.fill := by
  unfold JournalCall.writes BoxOrderIntentPatch.admits BoxOrderIntentPatch.fillOk at hwrites
  simp only [Bool.and_eq_true] at hwrites
  have hfill := hwrites.1.1.2
  have hafter := after.filled_eq
  rw [hrow] at hafter
  cases call with
  | persistOrder intent order message now =>
    have hfilled : order.filledQuantity = .fin after.fill := hafter
    simpa [JournalCall.patch, hfilled, before.filled_eq] using hfill
  | transition =>
    have hfilled : before.row.filledQuantity = .fin after.fill := hafter
    rw [before.filled_eq] at hfilled
    exact (Number.fin.inj hfilled).le

theorem wrote_brokerOrderId (hrow : after.row = call.patch.write call.audit before.row) :
    after.row.brokerOrderId = call.brokerOrderId := by
  rw [hrow]
  cases call <;> rfl

theorem named_stored (hwrites : call.writes before.row = true) {id named : String}
    (hid : before.row.brokerOrderId = some id) (hnamed : call.patch.namedBrokerId = some named) :
    call.brokerOrderId = some id := by
  unfold JournalCall.writes BoxOrderIntentPatch.admits BoxOrderIntentPatch.brokerOk at hwrites
  simp only [Bool.and_eq_true, hnamed, hid, Option.all_some, Bool.or_eq_true, decide_eq_true_eq, Option.some.injEq,
    reduceCtorEq, false_or] at hwrites
  have hcall : call.patch.namedBrokerId = call.brokerOrderId.filter (· ≠ "") := by
    cases call <;> rfl
  rw [hcall, Option.filter_eq_some_iff] at hnamed
  rw [hnamed.1, hwrites.1.2]

end

/-! ## Runs -/

structure StoredIntent.Forward (a b : StoredIntent) : Prop where
  fill : a.fill ≤ b.fill
  terminal : isBrokerOrderTerminal a.row.state = true → isBrokerOrderTerminal b.row.state = true
  brokerOrderId : ∀ id, a.row.brokerOrderId = some id → b.row.brokerOrderId = some id

def reportedWidth : Option BoxOrderIntentUpdateResult → ℚ
  | some ⟨_, true, some previous, some current⟩ => (current.sub previous).value
  | _ => 0

def NamesStoredId (call : JournalCall) : Prop :=
  call.writes before.row = true → ∀ id, before.row.brokerOrderId = some id →
    call.brokerOrderId = some id ∨ call.patch.namedBrokerId ≠ none

theorem StoredIntent.Forward.refl (a : StoredIntent) : a.Forward a := ⟨le_refl _, id, fun _ h => h⟩

theorem StoredIntent.Forward.trans {a b c : StoredIntent} (hab : a.Forward b) (hbc : b.Forward c) : a.Forward c where
  fill := hab.fill.trans hbc.fill
  terminal h := hbc.terminal (hab.terminal h)
  brokerOrderId id h := hbc.brokerOrderId id (hab.brokerOrderId id h)

theorem step_forward {before : StoredIntent} {call : JournalCall} (h : NamesStoredId before call) :
    before.Forward (call.step before).1 := by
  have houtcome := call.step_outcome before
  generalize call.step before = stepped at houtcome ⊢
  cases houtcome with
  | refused => exact .refl before
  | thrown => exact .refl before
  | wrote after writes row =>
    refine ⟨wrote_fill writes row, predecessor_terminal (wrote_state writes row), ?_⟩
    intro id hid
    rw [wrote_brokerOrderId row]
    rcases h writes id hid with hnamed | hnamed
    · exact hnamed
    · obtain ⟨named, hnamed⟩ := Option.ne_none_iff_exists'.mp hnamed
      exact named_stored writes hid hnamed

theorem step_brokerOrderId {before : StoredIntent} {call : JournalCall} (hwrites : call.writes before.row = true) :
    (call.step before).1.row.brokerOrderId = call.brokerOrderId := by
  have houtcome := call.step_outcome before
  generalize call.step before = stepped at houtcome ⊢
  cases houtcome with
  | refused refuses | thrown refuses => rw [refuses] at hwrites; cases hwrites
  | wrote after writes row => exact wrote_brokerOrderId row

theorem step_width (call : JournalCall) :
    reportedWidth (call.step before).2 + before.fill = (call.step before).1.fill := by
  have houtcome := call.step_outcome before
  generalize call.step before = stepped at houtcome ⊢
  cases houtcome with
  | refused => simp [reportedWidth]
  | thrown => simp [reportedWidth]
  | wrote after => simp [reportedWidth, Number.sub]

section

variable (start : StoredIntent) (calls : List JournalCall)

def rowAfter : StoredIntent := Run.finish (fun before (call : JournalCall) => call.step before) start calls

def answersOf : List (Option BoxOrderIntentUpdateResult) :=
  Run.answers (fun before (call : JournalCall) => call.step before) start calls

def MovesForward : Prop :=
  ∀ earlier later, earlier ++ later <+: calls →
    (rowAfter start earlier).Forward (rowAfter start (earlier ++ later)) ∧
      ((answersOf (rowAfter start earlier) later).map reportedWidth).sum =
        (rowAfter start (earlier ++ later)).fill - (rowAfter start earlier).fill

end

theorem run_width (start : StoredIntent) (calls : List JournalCall) :
    ((answersOf start calls).map reportedWidth).sum = (rowAfter start calls).fill - start.fill := by
  rw [eq_sub_iff_add_eq]
  exact Run.sum_rises StoredIntent.fill (fun before (call : JournalCall) => step_width before call) start calls

theorem run_forward {start : StoredIntent} {calls : List JournalCall}
    (h : Run.Guarded (fun before (call : JournalCall) => call.step before) NamesStoredId start calls) :
    start.Forward (rowAfter start calls) :=
  h.invariant start.Forward (fun _ _ hreached hok => hreached.trans (step_forward hok)) (.refl start)

/-- **The durable intent** only moves forward iff no write that names no broker id is let through while one is stored.
-/
theorem intent_moves_forward (start : StoredIntent) (calls : List JournalCall) :
    MovesForward start calls ↔
      Run.Guarded (fun before (call : JournalCall) => call.step before) NamesStoredId start calls := by
  constructor
  · intro h
    refine Run.guarded_of_forall ?_
    intro earlier call later hcalls hwrites id hid
    by_contra hnamed
    rw [not_or] at hnamed
    have hsplit : earlier ++ [call] <+: calls := ⟨later, by rw [hcalls]; simp⟩
    have hkept := (h earlier [call] hsplit).1.brokerOrderId id hid
    have hstep : rowAfter start (earlier ++ [call]) = (call.step (rowAfter start earlier)).1 := Run.finish_append ..
    rw [hstep] at hkept
    exact hnamed.1 ((step_brokerOrderId hwrites).symm.trans hkept)
  · intro h earlier later hprefix
    obtain ⟨rest, rfl⟩ := hprefix
    have hlater := (h.append.1.append).2
    have hfinish : rowAfter start (earlier ++ later) = rowAfter (rowAfter start earlier) later := Run.finish_append ..
    rw [hfinish]
    exact ⟨run_forward hlater, run_width _ _⟩

def submittingIntent : StoredIntent where
  row := { (unfilledIntent .submitting).row with brokerOrderId := none }
  asked := rfl
  checked := by decide +kernel

def staleQuarantine : List JournalCall :=
  [.persistOrder submittingIntent.row (legOrder .open 75 0 none) "adapter order snapshot" (.fin 2),
    .transition submittingIntent.row .reconciliationRequired none
      "durable nonterminal intent not found in broker order list; no resubmit" (.fin 3) none none]

/-- The stored id is erased. -/
theorem broker_id_erased : ¬ MovesForward submittingIntent staleQuarantine := by
  intro h
  have hsplit : staleQuarantine.take 1 ++ staleQuarantine.drop 1 <+: staleQuarantine := by
    simp only [List.take_append_drop, List.prefix_refl]
  have hid : (rowAfter submittingIntent (staleQuarantine.take 1)).row.brokerOrderId = some "B1" := by
    decide +kernel
  have hkept := (h _ _ hsplit).1.brokerOrderId "B1" hid
  have herased : (rowAfter submittingIntent (staleQuarantine.take 1 ++ staleQuarantine.drop 1)).row.brokerOrderId = none := by
    decide +kernel
  rw [herased] at hkept
  cases hkept

end BoxEngine
