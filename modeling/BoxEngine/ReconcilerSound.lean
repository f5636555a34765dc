import Mathlib.Algebra.BigOperators.Ring.List
import Mathlib.Algebra.Order.BigOperators.Group.List
import BoxEngine.JournalSound
import BoxEngine.Reconciler

/-!
# Attribution follows the journal

Attributed and under way add up to the journal. A rebuild keeps this when its copy and the increments under way make
up the journal.
-/

namespace BoxEngine

open Js

namespace StoredIntent

variable (stored : StoredIntent)

def sign : ℚ := if stored.row.side = .buy then 1 else -1

def netOn (symbol : String) (stored : StoredIntent) : ℚ := if stored.contract = symbol then stored.sign * stored.fill else 0

/-- A copy of a stored row that may lag its fill. -/
structure Behind (copy stored : StoredIntent) : Prop where
  clientOrderId : copy.clientOrderId = stored.clientOrderId
  contract : copy.contract = stored.contract
  sign : copy.sign = stored.sign
  fill : copy.fill ≤ stored.fill

theorem Behind.refl : stored.Behind stored := ⟨rfl, rfl, rfl, le_refl _⟩

theorem Behind.trans {a b c : StoredIntent} (hab : a.Behind b) (hbc : b.Behind c) : a.Behind c :=
  ⟨hab.1.trans hbc.1, hab.2.trans hbc.2, hab.3.trans hbc.3, hab.4.trans hbc.4⟩

theorem signed_fin (q : ℚ) : stored.signed (.fin q) = .fin (stored.sign * q) := by
  unfold signed sign
  split
  · rw [one_mul]
  · rw [neg_one_mul]
    rfl

end StoredIntent

def Journal.net (journal : Journal) (symbol : String) : ℚ := (journal.rows.map (StoredIntent.netOn symbol)).sum

namespace InFlight

def gain (answer : InFlight) : ℚ := if answer.attributes then (durableFillDelta answer.result).value else 0

def previous (answer : InFlight) : ℚ := (answer.result.previousFilledQuantity.map Number.value).getD 0

def netOn (symbol : String) (answer : InFlight) : ℚ :=
  if answer.updated.contract = symbol then answer.updated.sign * answer.gain else 0

/-- The answer's delta is what its write gained. -/
structure Reports (answer : InFlight) : Prop where
  finite : durableFillDelta answer.result = .fin (durableFillDelta answer.result).value
  gain : answer.gain = answer.updated.fill - answer.previous
  nonneg : 0 ≤ answer.gain

end InFlight

def gainFrom (level : ℚ) (inFlight : List InFlight) (clientOrderId : String) : ℚ :=
  ((inFlight.filter fun answer => answer.updated.clientOrderId = clientOrderId && level ≤ answer.previous).map InFlight.gain).sum

def gainOf (inFlight : List InFlight) (clientOrderId : String) : ℚ :=
  ((inFlight.filter fun answer => answer.updated.clientOrderId = clientOrderId).map InFlight.gain).sum

def shownFill (intents : List StoredIntent) (clientOrderId : String) : ℚ :=
  ((intents.find? fun intent => intent.clientOrderId = clientOrderId).map StoredIntent.fill).getD 0

/-! ## One write at the journal -/

variable {call : JournalCall}

theorem written_fill {before after : StoredIntent} (hrow : after.row = call.patch.write call.audit before.row)
    (hcall : call.isPersist = false) : after.fill = before.fill := by
  unfold StoredIntent.fill
  rw [hrow]
  cases call with
  | persistOrder => cases hcall
  | transition => rfl

theorem written_behind {before after : StoredIntent} (hwrites : call.writes before.row = true)
    (hrow : after.row = call.patch.write call.audit before.row) : before.Behind after := by
  refine ⟨?_, ?_, ?_, wrote_fill hwrites hrow⟩
  · show before.row.clientOrderId = after.row.clientOrderId
    rw [hrow]
    rfl
  · unfold StoredIntent.contract
    rw [hrow]
    rfl
  · unfold StoredIntent.sign
    rw [hrow]
    rfl

theorem reports_wrote (own attributes : Bool) {after : StoredIntent} {p : ℚ} (hle : p ≤ after.fill)
    (hlabel : attributes = false → p = after.fill) :
    InFlight.previous ⟨own, attributes, after, ⟨some after, true, some (.fin p), some (.fin after.fill)⟩⟩ = p ∧
      InFlight.Reports ⟨own, attributes, after, ⟨some after, true, some (.fin p), some (.fin after.fill)⟩⟩ := by
  have hdelta : durableFillDelta ⟨some after, true, some (.fin p), some (.fin after.fill)⟩ = .fin (after.fill - p) := by
    simp [durableFillDelta, Number.sub, hle]
  have hgain : InFlight.gain ⟨own, attributes, after, ⟨some after, true, some (.fin p), some (.fin after.fill)⟩⟩ =
      after.fill - p := by
    unfold InFlight.gain
    dsimp only
    rw [hdelta]
    cases attributes with
    | true => rfl
    | false => simp [hlabel rfl]
  refine ⟨rfl, by rw [hdelta]; rfl, hgain, ?_⟩
  rw [hgain]
  linarith

theorem reports_refused (own attributes : Bool) (before : StoredIntent) :
    InFlight.previous ⟨own, attributes, before, ⟨some before, false, some (.fin before.fill), some (.fin before.fill)⟩⟩ =
        before.fill ∧
      InFlight.Reports ⟨own, attributes, before, ⟨some before, false, some (.fin before.fill), some (.fin before.fill)⟩⟩ := by
  have hgain : InFlight.gain ⟨own, attributes, before, ⟨some before, false, some (.fin before.fill), some (.fin before.fill)⟩⟩ =
      0 := by
    simp [InFlight.gain, durableFillDelta]
  refine ⟨rfl, rfl, ?_, hgain.ge⟩
  rw [hgain]
  simp [InFlight.previous]

variable {result : BoxOrderIntentUpdateResult}

theorem onRow_ok {before after : StoredIntent} (h : call.onRow before = .ok (after, result)) :
    (call.writes before.row = true ∧ after.row = call.patch.write call.audit before.row ∧
        result = ⟨some after, true, some (.fin before.fill), some (.fin after.fill)⟩) ∨
      after = before ∧ result = ⟨some before, false, some (.fin before.fill), some (.fin before.fill)⟩ := by
  have houtcome := call.step_outcome before
  unfold JournalCall.step at houtcome
  rw [h] at houtcome
  cases houtcome with
  | wrote _ writes row => exact .inl ⟨writes, row, rfl⟩
  | refused => exact .inr ⟨rfl, rfl⟩

structure Written (journal next : Journal) (answer : InFlight) (before after : StoredIntent) : Prop where
  mem : before ∈ journal.rows
  behind : before.Behind after
  next : next = journal.replace after
  updated : answer.updated = after
  previous : answer.previous = before.fill
  reports : answer.Reports

theorem evaluate_written {journal next : Journal} {updated : StoredIntent}
    (own : Bool) (h : call.run journal = .ok (next, result)) (hresult : result.intent = some updated) :
    ∃ before after, Written journal next ⟨own, call.isPersist, updated, result⟩ before after := by
  unfold JournalCall.run updateBoxOrderIntent at h
  cases hfind : journal.find call.clientOrderId with
  | none =>
    rw [hfind] at h
    cases h
    cases hresult
  | some before =>
    rw [hfind] at h
    have hmem : before ∈ journal.rows := List.mem_of_find?_eq_some hfind
    dsimp only at h
    cases hupdate : call.onRow before with
    | error message =>
      unfold JournalCall.onRow at hupdate
      rw [hupdate] at h
      cases h
    | ok written =>
      obtain ⟨after, answer⟩ := written
      have hcases := onRow_ok hupdate
      unfold JournalCall.onRow at hupdate
      rw [hupdate] at h
      cases h
      rcases hcases with ⟨writes, row, rfl⟩ | ⟨rfl, rfl⟩
      · obtain rfl := Option.some.inj hresult
        have hbehind := written_behind writes row
        obtain ⟨hprevious, hreports⟩ := reports_wrote own call.isPersist hbehind.fill fun hcall => (written_fill row hcall).symm
        exact ⟨before, after, hmem, hbehind, rfl, rfl, hprevious, hreports⟩
      · obtain rfl := Option.some.inj hresult
        obtain ⟨hprevious, hreports⟩ := reports_refused own call.isPersist after
        exact ⟨after, after, hmem, .refl after, rfl, rfl, hprevious, hreports⟩

def ReconcilePass.rows : ReconcilePass → List StoredIntent
  | idle => []
  | loading rows => rows
  | running owned => owned

namespace Reconciler

def copies (m : Reconciler) : List StoredIntent :=
  m.knownIntents ++ m.pass.rows ++ m.inFlight.map InFlight.updated

structure Sound (m : Reconciler) : Prop where
  behind : ∀ copy ∈ m.copies, ∃ stored ∈ m.journal.rows, copy.Behind stored
  distinct : (m.pass.rows.map StoredIntent.clientOrderId).Nodup
  reports : ∀ answer ∈ m.inFlight, answer.Reports
  above : ∀ stored ∈ m.journal.rows, ∀ level,
    gainFrom level m.inFlight stored.clientOrderId ≤ max 0 (stored.fill - level)
  balance : ∀ symbol, m.attributedBoxPositions symbol =
    .fin (m.journal.net symbol - (m.inFlight.map (InFlight.netOn symbol)).sum)

end Reconciler

theorem gainFrom_append (level : ℚ) (inFlight : List InFlight) (answer : InFlight) (clientOrderId : String) :
    gainFrom level (inFlight ++ [answer]) clientOrderId = gainFrom level inFlight clientOrderId +
      if answer.updated.clientOrderId = clientOrderId ∧ level ≤ answer.previous then answer.gain else 0 := by
  unfold gainFrom
  rw [List.filter_append, List.map_append, List.sum_append]
  congr 1
  split
  · rename_i h
    simp [h.1, h.2]
  · rename_i h
    rw [List.filter_cons_of_neg (by simpa using h)]
    rfl

theorem gainFrom_perm {l l' : List InFlight} (h : l.Perm l') (level : ℚ) (clientOrderId : String) :
    gainFrom level l clientOrderId = gainFrom level l' clientOrderId :=
  ((h.filter _).map _).sum_eq

theorem intentNetBySymbol_eq (owned : List StoredIntent) (symbol : String) :
    intentNetBySymbol owned symbol = .fin ((owned.map (StoredIntent.netOn symbol)).sum) := by
  have hfold : ∀ x : ℚ, (owned.filter fun intent => .fin 0 < intent.row.filledQuantity && intent.contract = symbol).foldl
      (fun (net : Number) intent => net.add (intent.signed intent.row.filledQuantity)) (.fin x) =
        .fin (x + (owned.map (StoredIntent.netOn symbol)).sum) := by
    induction owned with
    | nil => simp
    | cons intent owned ih =>
      intro x
      rw [List.map_cons, List.sum_cons]
      by_cases hcounts : 0 < intent.fill ∧ intent.contract = symbol
      · rw [List.filter_cons_of_pos (by simpa [intent.filled_eq] using hcounts), List.foldl_cons, intent.filled_eq,
          intent.signed_fin, Number.add_fin, ih, StoredIntent.netOn, if_pos hcounts.2, add_assoc]
      · have hzero : intent.netOn symbol = 0 := by
          unfold StoredIntent.netOn
          split
          · rename_i hsymbol
            have hfill : intent.fill = 0 := le_antisymm (not_lt.mp fun h => hcounts ⟨h, hsymbol⟩) intent.fill_nonneg
            rw [hfill, mul_zero]
          · rfl
        rw [List.filter_cons_of_neg (by simpa [intent.filled_eq] using hcounts), ih, hzero, zero_add]
  have := hfold 0
  rwa [zero_add] at this

/-! ## A write under way -/

section

variable {journal next : Journal} {answer : InFlight} {before after stored : StoredIntent}

theorem Journal.eq_of_id {a b : StoredIntent} (ha : a ∈ journal.rows) (hb : b ∈ journal.rows)
    (h : a.clientOrderId = b.clientOrderId) : a = b :=
  List.inj_on_of_nodup_map journal.distinct ha hb h

theorem Journal.replace_self (h : stored ∈ journal.rows) : journal.replace stored = journal := by
  have hrows : (journal.replace stored).rows = journal.rows := by
    unfold Journal.replace Keyed.replace
    dsimp only
    conv_rhs => rw [← List.map_id journal.rows]
    refine List.map_congr_left ?_
    intro other hother
    split
    · rename_i hid
      exact (journal.eq_of_id hother h hid).symm
    · rfl
  cases journal
  unfold Journal.replace at hrows ⊢
  congr

section

variable (h : Written journal next answer before after)
include h

theorem Written.mem_next (hstored : stored ∈ next.rows) :
    stored = after ∨ (stored ∈ journal.rows ∧ after.clientOrderId ≠ stored.clientOrderId) := by
  rw [h.next] at hstored
  obtain ⟨old, hold, rfl⟩ := List.mem_map.mp hstored
  split
  · exact .inl rfl
  · rename_i hid
    exact .inr ⟨hold, fun heq => hid heq.symm⟩

theorem Written.moves (hstored : stored ∈ journal.rows) : ∃ moved ∈ next.rows, stored.Behind moved := by
  rw [h.next]
  by_cases hid : stored.clientOrderId = after.clientOrderId
  · obtain rfl := journal.eq_of_id hstored h.mem (hid.trans h.behind.clientOrderId.symm)
    exact ⟨after, List.mem_map.mpr ⟨stored, hstored, if_pos hid⟩, h.behind⟩
  · exact ⟨stored, List.mem_map.mpr ⟨stored, hstored, if_neg hid⟩, .refl stored⟩

theorem Written.net (symbol : String) : next.net symbol = journal.net symbol + answer.netOn symbol := by
  have hsum := Keyed.sum_replace journal.distinct h.mem h.behind.clientOrderId (StoredIntent.netOn symbol)
  have hgain : answer.netOn symbol + before.netOn symbol = after.netOn symbol := by
    unfold InFlight.netOn StoredIntent.netOn
    rw [h.updated, h.reports.gain, h.updated, h.previous, h.behind.contract, h.behind.sign]
    split
    · ring
    · exact zero_add 0
  have hnext : next.net symbol = ((Keyed.replace StoredIntent.clientOrderId journal.rows after).map
      (StoredIntent.netOn symbol)).sum := by
    rw [h.next]
    rfl
  unfold Journal.net at hnext ⊢
  linarith

end

end

theorem ReconcilePass.rows_mem {m : Reconciler} {copy : StoredIntent} :
    copy ∈ m.copies ↔ copy ∈ m.knownIntents ∨ copy ∈ m.pass.rows ∨ ∃ answer ∈ m.inFlight, answer.updated = copy := by
  simp [Reconciler.copies]

theorem mem_foldl_setIntent {rows known : List StoredIntent} {copy : StoredIntent}
    (h : copy ∈ rows.foldl setIntent known) : copy ∈ rows ∨ copy ∈ known := by
  induction rows generalizing known with
  | nil => exact .inr h
  | cons row rows ih =>
    rcases ih h with hrow | hknown
    · exact .inl (.tail _ hrow)
    · rcases Keyed.mem_put hknown with rfl | hknown
      · exact .inl (.head _)
      · exact .inr hknown

namespace Reconciler.Sound

variable {m : Reconciler}

theorem written (h : m.Sound) {next : Journal} {answer : InFlight} {before after : StoredIntent}
    (hwritten : Written m.journal next answer before after) :
    Sound { m with journal := next, inFlight := m.inFlight ++ [answer] } where
  behind := by
    intro copy hcopy
    have hcases : copy ∈ m.copies ∨ copy = after := by
      rw [ReconcilePass.rows_mem] at hcopy ⊢
      rcases hcopy with hknown | hpass | ⟨other, hother, rfl⟩
      · exact .inl (.inl hknown)
      · exact .inl (.inr (.inl hpass))
      · rcases List.mem_append.mp hother with hother | hother
        · exact .inl (.inr (.inr ⟨other, hother, rfl⟩))
        · rw [List.mem_singleton.mp hother, hwritten.updated]
          exact .inr rfl
    rcases hcases with hcopy | rfl
    · obtain ⟨stored, hstored, hbehind⟩ := h.behind copy hcopy
      obtain ⟨moved, hmoved, hmove⟩ := hwritten.moves hstored
      exact ⟨moved, hmoved, hbehind.trans hmove⟩
    · refine ⟨copy, ?_, .refl copy⟩
      rw [hwritten.next]
      exact List.mem_map.mpr ⟨before, hwritten.mem, if_pos hwritten.behind.clientOrderId⟩
  distinct := h.distinct
  reports := by
    intro other hother
    rcases List.mem_append.mp hother with hother | hother
    · exact h.reports other hother
    · rw [List.mem_singleton.mp hother]
      exact hwritten.reports
  above := by
    intro stored hstored level
    dsimp only
    rw [gainFrom_append, hwritten.updated, hwritten.previous]
    rcases hwritten.mem_next hstored with rfl | ⟨hold, hid⟩
    · have habove := h.above before hwritten.mem level
      have hgain := hwritten.reports.gain
      rw [hwritten.updated, hwritten.previous] at hgain
      rw [hwritten.behind.clientOrderId] at habove
      by_cases hlevel : level ≤ before.fill
      · rw [if_pos ⟨rfl, hlevel⟩]
        rw [max_eq_right (by linarith)] at habove
        refine le_max_of_le_right ?_
        linarith
      · rw [if_neg fun hand => hlevel hand.2, add_zero]
        rw [max_eq_left (by linarith)] at habove
        exact le_max_of_le_left habove
    · rw [if_neg fun hand => hid hand.1, add_zero]
      exact h.above stored hold level
  balance := by
    intro symbol
    dsimp only
    rw [h.balance symbol, hwritten.net symbol, List.map_append, List.sum_append, List.map_singleton, List.sum_singleton]
    congr 1
    ring

theorem evaluate (h : m.Sound) (own : Bool) (call : JournalCall) : (m.evaluate own call).Sound := by
  unfold Reconciler.evaluate
  split
  · exact h
  · split
    · exact h
    · rename_i next result hrun
      split
      · exact h
      · rename_i updated hresult
        obtain ⟨before, after, hwritten⟩ := evaluate_written own hrun hresult
        exact h.written hwritten

theorem insert (h : m.Sound) {fresh : StoredIntent} (hfill : fresh.fill = 0)
    (hnew : fresh.clientOrderId ∉ m.journal.rows.map StoredIntent.clientOrderId) :
    Sound { m with journal := m.journal.insert fresh hnew } where
  behind := by
    intro copy hcopy
    obtain ⟨stored, hstored, hbehind⟩ := h.behind copy hcopy
    exact ⟨stored, List.mem_append_left _ hstored, hbehind⟩
  distinct := h.distinct
  reports := h.reports
  above := by
    intro stored hstored level
    rcases List.mem_append.mp hstored with hstored | hstored
    · exact h.above stored hstored level
    · rw [List.mem_singleton.mp hstored]
      refine le_max_of_le_left (le_of_eq ?_)
      -- nothing is under way for an intent the journal did not have
      unfold gainFrom
      rw [List.filter_eq_nil_iff.mpr]
      · rfl
      · intro answer hanswer hand
        rw [Bool.and_eq_true, decide_eq_true_eq] at hand
        obtain ⟨old, hold, hbehind⟩ := h.behind answer.updated (ReconcilePass.rows_mem.mpr (.inr (.inr ⟨answer, hanswer, rfl⟩)))
        rw [← hand.1, hbehind.clientOrderId] at hnew
        exact hnew (List.mem_map_of_mem hold)
  balance := by
    intro symbol
    have hzero : fresh.netOn symbol = 0 := by
      simp [StoredIntent.netOn, hfill]
    have hnet : (m.journal.insert fresh hnew).net symbol = m.journal.net symbol := by
      unfold Journal.net Journal.insert
      rw [List.map_append, List.sum_append, List.map_singleton, List.sum_singleton, hzero, add_zero]
    rw [hnet]
    exact h.balance symbol

theorem create (h : m.Sound) (fresh : StoredIntent) : (m.create fresh).Sound := by
  unfold Reconciler.create
  split
  · rename_i hfresh
    have hfill : fresh.fill = 0 := by
      unfold StoredIntent.fill
      rw [hfresh.1]
      rfl
    have hmem : fresh ∈ (m.journal.insert fresh hfresh.2).rows := List.mem_append_right _ (List.mem_singleton_self _)
    obtain ⟨hprevious, hreports⟩ := reports_refused false false fresh
    have hwritten := (h.insert hfill hfresh.2).written
      ⟨hmem, .refl fresh, (Journal.replace_self hmem).symm, rfl, hprevious, hreports⟩
    rw [hfill] at hwritten
    exact hwritten
  · exact h

theorem arrived {place : ℕ} {answer : InFlight} (hanswer : m.inFlight[place]? = some answer) :
    m.inFlight.Perm (m.inFlight.eraseIdx place ++ [answer]) := by
  obtain ⟨hlt, rfl⟩ := List.getElem?_eq_some_iff.mp hanswer
  exact (List.getElem_cons_eraseIdx_perm hlt).symm.trans (List.perm_append_singleton ..).symm

theorem attribute_eq {answer : InFlight} (hreports : answer.Reports) {positions : String → Number} {symbol : String} {x : ℚ}
    (hx : positions symbol = .fin x) : answer.attribute positions symbol = .fin (x + answer.netOn symbol) := by
  have hnonneg := hreports.nonneg
  have hfinite := hreports.finite
  unfold InFlight.attribute InFlight.netOn InFlight.gain
  unfold InFlight.gain at hnonneg
  generalize durableFillDelta answer.result = delta at hfinite hnonneg ⊢
  obtain ⟨q, rfl⟩ : ∃ q, delta = .fin q := ⟨_, hfinite⟩
  rw [Number.value_fin] at hnonneg ⊢
  by_cases hadds : answer.attributes = true ∧ Number.fin 0 < Number.fin q
  · rw [if_pos hadds, if_pos hadds.1]
    by_cases hsymbol : answer.updated.contract = symbol
    · subst hsymbol
      rw [if_pos rfl, Function.update_self, hx, answer.updated.signed_fin, Number.add_fin]
    · rw [if_neg hsymbol, Function.update_of_ne (Ne.symm hsymbol), hx, add_zero]
  · have hzero : (if answer.attributes = true then q else 0) = 0 := by
      split at hnonneg
      · rename_i hattributes
        rw [if_pos hattributes]
        exact le_antisymm (not_lt.mp fun hpos => hadds ⟨hattributes, Number.fin_lt_fin.mpr hpos⟩) hnonneg
      · rename_i hattributes
        rw [if_neg hattributes]
    rw [if_neg hadds, hzero, mul_zero, ite_self, add_zero, hx]

variable {pass : ReconcilePass}

theorem note_mem {updated copy : StoredIntent} (h : copy ∈ (pass.note updated).rows) :
    copy = updated ∨ copy ∈ pass.rows := by
  cases pass with
  | running owned => exact Keyed.mem_put h
  | idle => exact .inr h
  | loading rows => exact .inr h

theorem note_distinct (h : (pass.rows.map StoredIntent.clientOrderId).Nodup) (updated : StoredIntent) :
    ((pass.note updated).rows.map StoredIntent.clientOrderId).Nodup := by
  cases pass with
  | running owned => exact Keyed.nodup_put h updated
  | idle => exact h
  | loading rows => exact h

theorem withCopies (h : m.Sound) {known : List StoredIntent}
    (hcopies : ∀ copy, copy ∈ known ∨ copy ∈ pass.rows → copy ∈ m.copies ∨ copy ∈ m.journal.rows)
    (hdistinct : (pass.rows.map StoredIntent.clientOrderId).Nodup) : Sound { m with knownIntents := known, pass } where
  behind := by
    intro copy hcopy
    have hcases : copy ∈ m.copies ∨ copy ∈ m.journal.rows := by
      rcases ReconcilePass.rows_mem.mp hcopy with hknown | hpass | hanswer
      · exact hcopies copy (.inl hknown)
      · exact hcopies copy (.inr hpass)
      · exact .inl (ReconcilePass.rows_mem.mpr (.inr (.inr hanswer)))
    rcases hcases with hcopy | hrow
    · exact h.behind copy hcopy
    · exact ⟨copy, hrow, .refl copy⟩
  distinct := hdistinct
  reports := h.reports
  above := h.above
  balance := h.balance

theorem load (h : m.Sound) : Sound { m with pass := .loading m.journal.rows } := by
  refine h.withCopies ?_ m.journal.distinct
  rintro copy (hknown | hrow)
  · exact .inl (ReconcilePass.rows_mem.mpr (.inl hknown))
  · exact .inr hrow

theorem loaded (h : m.Sound) {rows : List StoredIntent} (hpass : m.pass = .loading rows) :
    Sound { m with knownIntents := rows.foldl setIntent m.knownIntents, pass := .running rows } := by
  have hrows : m.pass.rows = rows := by rw [hpass]; rfl
  have hcopy : ∀ copy ∈ rows, copy ∈ m.copies := fun copy hrow =>
    ReconcilePass.rows_mem.mpr (.inr (.inl (hrows.symm ▸ hrow)))
  refine h.withCopies ?_ (hrows ▸ h.distinct)
  rintro copy (hknown | hrow)
  · rcases mem_foldl_setIntent hknown with hrow | hknown
    · exact .inl (hcopy copy hrow)
    · exact .inl (ReconcilePass.rows_mem.mpr (.inl hknown))
  · exact .inl (hcopy copy hrow)

theorem idle (h : m.Sound) : Sound { m with pass := .idle } := by
  refine h.withCopies ?_ List.nodup_nil
  rintro copy (hknown | hrow)
  · exact .inl (ReconcilePass.rows_mem.mpr (.inl hknown))
  · cases hrow

theorem deliver (h : m.Sound) (place : ℕ) : (m.deliver place).Sound := by
  unfold Reconciler.deliver
  split
  · exact h
  · rename_i answer hanswer
    have hperm := arrived hanswer
    have hmem : answer ∈ m.inFlight := List.mem_of_getElem? hanswer
    have hrest : ∀ other ∈ m.inFlight.eraseIdx place, other ∈ m.inFlight := fun other hother =>
      List.mem_of_mem_eraseIdx hother
    have hreports : ∀ other ∈ m.inFlight.eraseIdx place, other.Reports := fun other hother =>
      h.reports other (hrest other hother)
    constructor
    · intro copy hcopy
      refine h.behind copy ?_
      rw [ReconcilePass.rows_mem] at hcopy ⊢
      dsimp only at hcopy
      rcases hcopy with hknown | hpass | ⟨other, hother, rfl⟩
      · rcases Keyed.mem_put hknown with rfl | hknown
        · exact .inr (.inr ⟨answer, hmem, rfl⟩)
        · exact .inl hknown
      · split at hpass
        · rcases note_mem hpass with rfl | hpass
          · exact .inr (.inr ⟨answer, hmem, rfl⟩)
          · exact .inr (.inl hpass)
        · exact .inr (.inl hpass)
      · exact .inr (.inr ⟨other, hrest other hother, rfl⟩)
    · dsimp only
      split
      · exact note_distinct h.distinct answer.updated
      · exact h.distinct
    · exact hreports
    · intro stored hstored level
      have habove := h.above stored hstored level
      rw [gainFrom_perm hperm, gainFrom_append] at habove
      have hnonneg := (h.reports answer hmem).nonneg
      split at habove
      · linarith
      · linarith
    · intro symbol
      dsimp only
      rw [attribute_eq (h.reports answer hmem) (h.balance symbol), (hperm.map _).sum_eq, List.map_append, List.sum_append,
        List.map_singleton, List.sum_singleton]
      congr 1
      ring

end Reconciler.Sound

/-! ## The rebuild -/

/-- The copies show the row's whole fill, or an answer on its way still does. -/
structure ShowsDurable (m : Reconciler) (owned : List StoredIntent) (stored : StoredIntent) : Prop where
  pending : ∀ answer ∈ m.inFlight, answer.updated.clientOrderId = stored.clientOrderId → 0 < answer.gain →
    shownFill owned stored.clientOrderId ≤ answer.previous
  shown : shownFill owned stored.clientOrderId + gainOf m.inFlight stored.clientOrderId < stored.fill →
    shownFill owned stored.clientOrderId < shownFill m.knownIntents stored.clientOrderId

instance (m : Reconciler) (owned : List StoredIntent) (stored : StoredIntent) : Decidable (ShowsDurable m owned stored) :=
  decidable_of_iff
    ((∀ answer ∈ m.inFlight, answer.updated.clientOrderId = stored.clientOrderId → 0 < answer.gain →
        shownFill owned stored.clientOrderId ≤ answer.previous) ∧
      (shownFill owned stored.clientOrderId + gainOf m.inFlight stored.clientOrderId < stored.fill →
        shownFill owned stored.clientOrderId < shownFill m.knownIntents stored.clientOrderId))
    ⟨fun h => ⟨h.1, h.2⟩, fun h => ⟨h.1, h.2⟩⟩

variable (m : Reconciler)

def RebuildsDurable (event : ReconcilerEvent) : Prop :=
  match event, m.pass with
  | .rebuild, .running owned =>
    m.awaiting = false → snapshotIsStale owned m.knownIntents = false → ∀ stored ∈ m.journal.rows,
      stored.contract ∈ ownedSymbols owned → ShowsDurable m owned stored
  | _, _ => True

section

variable {m : Reconciler} {owned : List StoredIntent} {stored : StoredIntent}

theorem shownFill_nonneg (intents : List StoredIntent) (clientOrderId : String) : 0 ≤ shownFill intents clientOrderId := by
  unfold shownFill
  cases intents.find? fun intent => intent.clientOrderId = clientOrderId with
  | none => exact le_refl 0
  | some intent => exact intent.fill_nonneg

theorem gainOf_eq_gainFrom {level : ℚ} {inFlight : List InFlight} {clientOrderId : String}
    (hreports : ∀ answer ∈ inFlight, answer.Reports)
    (h : ∀ answer ∈ inFlight, answer.updated.clientOrderId = clientOrderId → 0 < answer.gain → level ≤ answer.previous) :
    gainOf inFlight clientOrderId = gainFrom level inFlight clientOrderId := by
  induction inFlight with
  | nil => rfl
  | cons answer inFlight ih =>
    have hrest := ih (fun other hother => hreports other (.tail _ hother))
      fun other hother => h other (.tail _ hother)
    have hanswer := h answer (.head _)
    have hnonneg := (hreports answer (.head _)).nonneg
    unfold gainOf gainFrom at hrest ⊢
    by_cases hid : answer.updated.clientOrderId = clientOrderId
    · rw [List.filter_cons_of_pos (by simpa using hid), List.map_cons, List.sum_cons, hrest]
      by_cases hlevel : level ≤ answer.previous
      · rw [List.filter_cons_of_pos (by simp [hid, hlevel]), List.map_cons, List.sum_cons]
      · have hzero : answer.gain = 0 := le_antisymm (not_lt.mp fun hpos => hlevel (hanswer hid hpos)) hnonneg
        rw [List.filter_cons_of_neg (by simp [hlevel]), hzero, zero_add]
    · rw [List.filter_cons_of_neg (by simpa using hid), List.filter_cons_of_neg (by simp [hid]), hrest]

theorem copy_behind (h : m.Sound) (hstored : stored ∈ m.journal.rows) {copy : StoredIntent} (hcopy : copy ∈ m.copies)
    (hid : copy.clientOrderId = stored.clientOrderId) : copy.Behind stored := by
  obtain ⟨row, hrow, hbehind⟩ := h.behind copy hcopy
  obtain rfl := m.journal.eq_of_id hrow hstored (hbehind.clientOrderId.symm.trans hid)
  exact hbehind

theorem copies_of_running (hpass : m.pass = .running owned) {copy : StoredIntent} (hcopy : copy ∈ owned) : copy ∈ m.copies :=
  ReconcilePass.rows_mem.mpr (.inr (.inl (by rw [hpass]; exact hcopy)))

section

variable (h : m.Sound)
include h

theorem known_le (hfresh : snapshotIsStale owned m.knownIntents = false) (hstored : stored ∈ m.journal.rows)
    (hsymbol : stored.contract ∈ ownedSymbols owned) :
    shownFill m.knownIntents stored.clientOrderId ≤ shownFill owned stored.clientOrderId := by
  have hnonneg := shownFill_nonneg owned stored.clientOrderId
  unfold shownFill at hnonneg ⊢
  cases hfind : m.knownIntents.find? fun intent => intent.clientOrderId = stored.clientOrderId with
  | none => exact hnonneg
  | some known =>
    have hmem := List.mem_of_find?_eq_some hfind
    have hid : known.clientOrderId = stored.clientOrderId := by simpa using List.find?_some hfind
    have hbehind := copy_behind h hstored (ReconcilePass.rows_mem.mpr (.inl hmem)) hid
    have hover : overtaken owned known = false := by
      have := List.any_eq_false.mp hfresh known hmem
      simpa using this
    unfold overtaken at hover
    rw [hid, known.filled_eq, hbehind.contract] at hover
    show known.fill ≤ _
    by_cases hpos : 0 < known.fill
    · cases hsnapshot : owned.find? fun intent => intent.clientOrderId = stored.clientOrderId with
      | none => simp [hsnapshot, hpos, hsymbol] at hover
      | some snapshot => simpa [hsnapshot, hpos, hsymbol, snapshot.filled_eq] using hover
    · exact (not_lt.mp hpos).trans hnonneg

theorem shown_eq (hpass : m.pass = .running owned) (hfresh : snapshotIsStale owned m.knownIntents = false)
    (hstored : stored ∈ m.journal.rows) (hsymbol : stored.contract ∈ ownedSymbols owned)
    (hshows : ShowsDurable m owned stored) :
    shownFill owned stored.clientOrderId + gainOf m.inFlight stored.clientOrderId = stored.fill := by
  have hle := known_le h hfresh hstored hsymbol
  have hlow : stored.fill ≤ shownFill owned stored.clientOrderId + gainOf m.inFlight stored.clientOrderId := by
    by_contra hlt
    exact absurd (hshows.shown (not_le.mp hlt)) (not_lt.mpr hle)
  have hcopy : shownFill owned stored.clientOrderId ≤ stored.fill := by
    unfold shownFill
    cases hfind : owned.find? fun intent => intent.clientOrderId = stored.clientOrderId with
    | none => exact stored.fill_nonneg
    | some copy =>
      have hid : copy.clientOrderId = stored.clientOrderId := by simpa using List.find?_some hfind
      exact (copy_behind h hstored (copies_of_running hpass (List.mem_of_find?_eq_some hfind)) hid).fill
  have hgain := gainOf_eq_gainFrom h.reports hshows.pending
  have habove := h.above stored hstored (shownFill owned stored.clientOrderId)
  rw [max_eq_right (by linarith), ← hgain] at habove
  linarith

theorem copy_net (hpass : m.pass = .running owned) (hstored : stored ∈ m.journal.rows) (symbol : String) :
    ((owned.filter fun copy => copy.clientOrderId = stored.clientOrderId).map (StoredIntent.netOn symbol)).sum =
      if stored.contract = symbol then stored.sign * shownFill owned stored.clientOrderId else 0 := by
  have hdistinct : (owned.map StoredIntent.clientOrderId).Nodup := by
    have := h.distinct
    rwa [hpass] at this
  unfold shownFill
  cases hfind : owned.find? fun copy => copy.clientOrderId = stored.clientOrderId with
  | none =>
    rw [List.filter_eq_nil_iff.mpr fun copy hcopy => List.find?_eq_none.mp hfind copy hcopy]
    simp
  | some copy =>
    have hmem := List.mem_of_find?_eq_some hfind
    have hid : copy.clientOrderId = stored.clientOrderId := by simpa using List.find?_some hfind
    have hbehind := copy_behind h hstored (copies_of_running hpass hmem) hid
    rw [← hid, Keyed.filter_of_mem hdistinct hmem, List.map_singleton, List.sum_singleton]
    unfold StoredIntent.netOn
    rw [hbehind.contract, hbehind.sign]
    rfl

theorem flight_net (hstored : stored ∈ m.journal.rows) (symbol : String) :
    ((m.inFlight.filter fun answer => answer.updated.clientOrderId = stored.clientOrderId).map (InFlight.netOn symbol)).sum =
      if stored.contract = symbol then stored.sign * gainOf m.inFlight stored.clientOrderId else 0 := by
  have hterm : ∀ answer ∈ m.inFlight.filter fun answer => answer.updated.clientOrderId = stored.clientOrderId,
      answer.netOn symbol = (if stored.contract = symbol then stored.sign else 0) * answer.gain := by
    intro answer hanswer
    obtain ⟨hmem, hid⟩ := List.mem_filter.mp hanswer
    have hbehind := copy_behind h hstored (ReconcilePass.rows_mem.mpr (.inr (.inr ⟨answer, hmem, rfl⟩)))
      (of_decide_eq_true hid)
    unfold InFlight.netOn
    rw [hbehind.contract, hbehind.sign, ite_mul, zero_mul]
  rw [List.map_congr_left hterm, List.sum_map_mul_left, ite_mul, zero_mul]
  rfl

theorem rebuilt_eq (hpass : m.pass = .running owned) {symbol : String}
    (hshown : ∀ stored ∈ m.journal.rows, stored.contract = symbol →
      shownFill owned stored.clientOrderId + gainOf m.inFlight stored.clientOrderId = stored.fill) :
    (owned.map (StoredIntent.netOn symbol)).sum =
      m.journal.net symbol - (m.inFlight.map (InFlight.netOn symbol)).sum := by
  have hids : ∀ copy ∈ m.copies, copy.clientOrderId ∈ m.journal.rows.map StoredIntent.clientOrderId := by
    intro copy hcopy
    obtain ⟨row, hrow, hbehind⟩ := h.behind copy hcopy
    rw [hbehind.clientOrderId]
    exact List.mem_map_of_mem hrow
  have hflight : (m.inFlight.map (InFlight.netOn symbol)).sum = (m.journal.rows.map fun stored =>
      ((m.inFlight.filter fun answer => answer.updated.clientOrderId = stored.clientOrderId).map
        (InFlight.netOn symbol)).sum).sum :=
    Keyed.sum_by_key m.journal.distinct _ fun answer hanswer =>
      hids _ (ReconcilePass.rows_mem.mpr (.inr (.inr ⟨answer, hanswer, rfl⟩)))
  have hcopy : (owned.map (StoredIntent.netOn symbol)).sum = (m.journal.rows.map fun stored =>
      ((owned.filter fun copy => copy.clientOrderId = stored.clientOrderId).map (StoredIntent.netOn symbol)).sum).sum :=
    Keyed.sum_by_key m.journal.distinct _ fun copy hcopy => hids copy (copies_of_running hpass hcopy)
  rw [eq_sub_iff_add_eq, hflight, hcopy, ← List.sum_map_add]
  unfold Journal.net
  congr 1
  refine List.map_congr_left ?_
  intro stored hstored
  rw [copy_net h hpass hstored, flight_net h hstored]
  unfold StoredIntent.netOn
  split
  · rename_i hsymbol
    rw [← mul_add, hshown stored hstored hsymbol]
  · exact zero_add 0

theorem Reconciler.Sound.rebuild (hok : RebuildsDurable m .rebuild) : m.rebuild.Sound := by
  unfold Reconciler.rebuild
  split
  · rename_i owned hpass
    unfold RebuildsDurable at hok
    rw [hpass] at hok
    cases hawaiting : m.awaiting with
    | true => exact h
    | false =>
      cases hfresh : snapshotIsStale owned m.knownIntents with
      | true => exact h.idle
      | false =>
        have hshows := hok hawaiting hfresh
        have hbalance : ∀ symbol, rebuiltPositions owned m.attributedBoxPositions symbol =
            .fin (m.journal.net symbol - (m.inFlight.map (InFlight.netOn symbol)).sum) := by
          intro symbol
          unfold rebuiltPositions
          split
          · rename_i hsymbol
            rw [intentNetBySymbol_eq, rebuilt_eq h hpass]
            intro stored hstored hcontract
            have howned : stored.contract ∈ ownedSymbols owned := hcontract ▸ hsymbol
            exact shown_eq h hpass hfresh hstored howned (hshows stored hstored howned)
          · exact h.balance symbol
        exact ⟨h.idle.behind, h.idle.distinct, h.reports, h.above, hbalance⟩
  · exact h

theorem Reconciler.Sound.step {event : ReconcilerEvent} (hok : RebuildsDurable m event) : (m.step event).Sound := by
  cases event with
  | create fresh => exact h.create fresh
  | evaluate own call => exact h.evaluate own call
  | deliver place => exact h.deliver place
  | rebuild => exact h.rebuild hok
  | load =>
    simp only [Reconciler.step]
    split
    · exact h.load
    · exact h
  | loaded =>
    simp only [Reconciler.step]
    split
    · rename_i rows hpass
      exact h.loaded hpass
    · exact h
  | abort =>
    simp only [Reconciler.step]
    split
    · exact h
    · exact h.idle

end

end

/-! ## Runs -/

variable (journal : Journal)

def Reconciler.start : Reconciler where
  journal
  inFlight := []
  knownIntents := journal.rows
  attributedBoxPositions := rebuiltPositions journal.rows fun _ => .fin 0
  pass := .idle

def Reconciler.Quiet : Prop := (∀ answer ∈ m.inFlight, answer.attributes = false) ∧ m.pass = .idle

def reconcilerStep (event : ReconcilerEvent) : Reconciler × Unit := (m.step event, ())

def Reconciler.after (events : List ReconcilerEvent) : Reconciler :=
  Run.finish reconcilerStep (Reconciler.start journal) events

theorem Reconciler.start_sound : (Reconciler.start journal).Sound where
  behind := by
    intro copy hcopy
    have hrow : copy ∈ journal.rows := by simpa [Reconciler.start, Reconciler.copies, ReconcilePass.rows] using hcopy
    exact ⟨copy, hrow, .refl copy⟩
  distinct := List.nodup_nil
  reports := by
    intro answer hanswer
    cases hanswer
  above := by
    intro stored _ level
    exact le_max_left 0 _
  balance := by
    intro symbol
    simp only [Reconciler.start, rebuiltPositions, Journal.net, List.map_nil, List.sum_nil, sub_zero]
    split
    · rw [intentNetBySymbol_eq]
    · rename_i hsymbol
      have hzero : ∀ stored ∈ journal.rows, stored.netOn symbol = 0 := by
        intro stored hstored
        unfold StoredIntent.netOn
        rw [if_neg]
        rintro rfl
        exact hsymbol (List.mem_map_of_mem hstored)
      rw [List.map_congr_left hzero]
      simp

/-- **Attribution.** At rest every contract is attributed the signed sum of its durable fills. -/
theorem attribution_is_durable (journal : Journal) (events : List ReconcilerEvent)
    (h : Run.Guarded reconcilerStep RebuildsDurable (Reconciler.start journal) events) :
    (Reconciler.after journal events).Quiet → ∀ stored ∈ (Reconciler.after journal events).journal.rows,
      (Reconciler.after journal events).attributedBoxPositions stored.contract =
        .fin ((Reconciler.after journal events).journal.net stored.contract) := by
  have hsound : (Reconciler.after journal events).Sound := by
    refine h.invariant Reconciler.Sound ?_ (Reconciler.start_sound journal)
    intro m event hm hok
    exact hm.step hok
  intro hquiet stored _
  rw [hsound.balance stored.contract]
  have hnone : ∀ answer ∈ (Reconciler.after journal events).inFlight, answer.netOn stored.contract = 0 := by
    intro answer hanswer
    simp [InFlight.netOn, InFlight.gain, hquiet.1 answer hanswer]
  rw [List.map_congr_left hnone]
  simp

def fillWrite : JournalCall := .persistOrder (unfilledIntent .open).row (legOrder .complete 75 75 none) "adapter order snapshot" (.fin 2)

def answeredLate : List ReconcilerEvent :=
  [.evaluate false fillWrite, .load, .loaded, .evaluate true fillWrite, .deliver 1, .rebuild, .deliver 0]

theorem fill_counted_twice :
    (Reconciler.after (unfilledJournal .open) answeredLate).Quiet ∧
      (Reconciler.after (unfilledJournal .open) answeredLate).journal.net (unfilledIntent .open).contract = 75 ∧
      (Reconciler.after (unfilledJournal .open) answeredLate).attributedBoxPositions (unfilledIntent .open).contract =
        .fin 150 := by
  refine ⟨⟨?_, ?_⟩, ?_, ?_⟩
  · decide +kernel
  · rfl
  · decide +kernel
  · decide +kernel

def answeredInTime : List ReconcilerEvent :=
  [.evaluate false fillWrite, .load, .loaded, .deliver 0, .evaluate true fillWrite, .deliver 0, .rebuild]

theorem attribution_is_durable_in_time :
    (Reconciler.after (unfilledJournal .open) answeredInTime).attributedBoxPositions (unfilledIntent .open).contract =
      .fin ((Reconciler.after (unfilledJournal .open) answeredInTime).journal.net (unfilledIntent .open).contract) := by
  refine attribution_is_durable (unfilledJournal .open) answeredInTime ?_ ⟨?_, ?_⟩
    ((Reconciler.after (unfilledJournal .open) answeredInTime).journal.rows.head (by decide +kernel))
    (List.head_mem _)
  · refine ⟨trivial, trivial, trivial, trivial, trivial, trivial, ?_, trivial⟩
    intro _ _
    decide +kernel
  · decide +kernel
  · rfl

end BoxEngine
