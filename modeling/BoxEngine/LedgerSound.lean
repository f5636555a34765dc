import BoxEngine.FillLedger
import BoxEngine.Lib.Run

/-!
# Conservation of filled quantity

The cumulative quantity is the greatest valid one a ledger was shown, and its answers add up to it.
-/

namespace BoxEngine

open Js Run

def reportedQuantities (events : List CumulativeFillEvent) : Set ℕ :=
  {q | ∃ e ∈ events, wholeQuantity e.cumulativeQty = some q}

/-- Events of one id show one quantity. -/
def IdentitiesAgree (events : List CumulativeFillEvent) : Prop :=
  ∀ e ∈ events, ∀ e' ∈ events, trimKey e.eventId ≠ "" → trimKey e.eventId = trimKey e'.eventId →
    e.cumulativeQty = e'.cumulativeQty

theorem wholeQuantity_bounds {q : Number} {n : ℕ} (h : wholeQuantity q = some n) :
    Number.fin n ≤ q ∧ q < Number.fin (n + 1) := by
  cases q with
  | fin q =>
    by_cases hneg : q < 0
    · simp [wholeQuantity, hneg] at h
    · simp only [wholeQuantity, if_neg hneg, Option.some.injEq] at h
      subst h
      simp only [Number.fin_le_fin, Number.fin_lt_fin]
      exact ⟨Nat.floor_le (not_lt.mp hneg), Nat.lt_floor_add_one q⟩
  | nan => cases h
  | negInf => cases h
  | posInf => cases h

namespace CumulativeFillLedger

/-! ## One observation -/

structure Noted (l l' : CumulativeFillLedger) (id : String) : Prop where
  requested : l'.requested = l.requested
  cumulativeQty : l'.cumulativeQty = l.cumulativeQty
  overfillQty : l'.overfillQty = l.overfillQty
  seenEventIds : l'.seenEventIds = (l.remember id).seenEventIds

variable {l : CumulativeFillLedger}

theorem mem_remember {id x : String} : x ∈ (l.remember id).seenEventIds ↔ (x = id ∧ id ≠ "") ∨ x ∈ l.seenEventIds := by
  by_cases h : id = "" <;> simp [remember, h]

theorem noted_noteSequence (l : CumulativeFillLedger) (id : String) (sequence : Option Number) :
    Noted l ((l.remember id).noteSequence sequence).1 id := by
  have hr : Noted l (l.remember id) id := by
    by_cases h : id = "" <;> constructor <;> simp [remember, h]
  unfold noteSequence
  split
  · exact hr
  · split
    · exact ⟨hr.1, hr.2, hr.3, hr.4⟩
    · exact ⟨hr.1, hr.2, hr.3, hr.4⟩

def Seen (l : CumulativeFillLedger) (e : CumulativeFillEvent) : Prop :=
  trimKey e.eventId ≠ "" ∧ trimKey e.eventId ∈ l.seenEventIds

/-- An event is unusable, known or stale, or it advances the ledger. -/
theorem apply_cases (l : CumulativeFillLedger) (e : CumulativeFillEvent) :
    (wholeQuantity e.cumulativeQty = none ∧ l.apply e = (l, l.result .invalid 0 false)) ∨
    ∃ observed, wholeQuantity e.cumulativeQty = some observed ∧
      ((l.Seen e ∧ ∃ l', Noted l l' "" ∧ l.apply e = (l', l'.result .duplicateEvent 0 false)) ∨
        (¬ l.Seen e ∧ observed ≤ l.cumulativeQty ∧ ∃ l' regression, Noted l l' (trimKey e.eventId) ∧
          l.apply e = (l', l'.result .staleCumulative 0 regression)) ∨
        (¬ l.Seen e ∧ l.cumulativeQty < observed ∧ ∃ noted regression outcome, Noted l noted (trimKey e.eventId) ∧
          (outcome = .applied ∨ outcome = .appliedOverfill) ∧
          l.apply e = (noted.advance e observed,
            (noted.advance e observed).result outcome (observed - l.cumulativeQty) regression))) := by
  unfold apply
  cases hq : wholeQuantity e.cumulativeQty with
  | none => exact .inl ⟨rfl, rfl⟩
  | some observed =>
    refine .inr ⟨observed, rfl, ?_⟩
    by_cases hdup : trimKey e.eventId ≠ "" ∧ trimKey e.eventId ∈ l.seenEventIds
    · refine .inl ⟨hdup, { l with duplicateCount := l.duplicateCount + 1 }, ?_, ?_⟩
      · exact ⟨rfl, rfl, rfl, rfl⟩
      · simp only [if_pos hdup]
    · have hn := noted_noteSequence l (trimKey e.eventId) e.sequence
      simp only [if_neg hdup]
      generalize (l.remember (trimKey e.eventId)).noteSequence e.sequence = p at hn ⊢
      obtain ⟨noted, regression⟩ := p
      have hcum : noted.cumulativeQty = l.cumulativeQty := hn.cumulativeQty
      by_cases hle : observed ≤ l.cumulativeQty
      · refine .inr (.inl ⟨hdup, hle, { noted with staleCount := noted.staleCount + 1 }, regression, ?_, ?_⟩)
        · exact ⟨hn.1, hn.2, hn.3, hn.4⟩
        · have hle' : observed ≤ noted.cumulativeQty := hcum ▸ hle
          simp only [if_pos hle']
      · refine .inr (.inr ⟨hdup, by omega, noted, regression,
          if 0 < (noted.advance e observed).overfillQty then .appliedOverfill else .applied, hn, ?_, ?_⟩)
        · split
          · exact .inr rfl
          · exact .inl rfl
        · simp only [hcum, if_neg hle]

/-- What exceeds the request is overfill. -/
structure Balanced (requested : ℕ) (l : CumulativeFillLedger) : Prop where
  request : l.requested = requested
  overfill : l.overfillQty = l.cumulativeQty - requested

variable {requested : ℕ}

theorem Noted.balanced {l l' : CumulativeFillLedger} {id : String} (h : Noted l l' id) (hl : Balanced requested l) :
    Balanced requested l' :=
  ⟨h.requested.trans hl.request, by rw [h.overfillQty, h.cumulativeQty, hl.overfill]⟩

theorem Balanced.step (hl : Balanced requested l) (e : CumulativeFillEvent) : Balanced requested (l.apply e).1 := by
  obtain ⟨-, happ⟩ |
    ⟨observed, -, ⟨-, l', hn, happ⟩ | ⟨-, -, l', _, hn, happ⟩ | ⟨-, -, noted, _, _, hn, -, happ⟩⟩ :=
    apply_cases l e
  · rw [happ]; exact hl
  · rw [happ]; exact hn.balanced hl
  · rw [happ]; exact hn.balanced hl
  · rw [happ]
    have hnoted := hn.balanced hl
    exact ⟨hnoted.request, by simp [advance, hnoted.request]⟩

theorem apply_result (l : CumulativeFillLedger) (e : CumulativeFillEvent) :
    (l.apply e).2.cumulative = (l.apply e).1.cumulativeQty ∧ (l.apply e).2.remaining = (l.apply e).1.remaining ∧
      (l.apply e).2.overfill = (l.apply e).1.overfillQty ∧
      (l.apply e).2.delta + l.cumulativeQty = (l.apply e).1.cumulativeQty := by
  obtain ⟨-, happ⟩ |
    ⟨observed, -, ⟨-, l', hn, happ⟩ | ⟨-, -, l', _, hn, happ⟩ | ⟨-, hlt, noted, _, _, hn, -, happ⟩⟩ :=
    apply_cases l e
  · rw [happ]; simp [result]
  · rw [happ]; simp [result, hn.cumulativeQty]
  · rw [happ]; simp [result, hn.cumulativeQty]
  · rw [happ]
    simp only [result, advance, true_and]
    omega

theorem Balanced.answer (hl : Balanced requested l) (e : CumulativeFillEvent) :
    (l.apply e).2.cumulative + (l.apply e).2.remaining = requested + (l.apply e).2.overfill := by
  obtain ⟨hc, hr, ho, -⟩ := apply_result l e
  have hb := hl.step e
  rw [hc, hr, ho, hb.overfill, remaining, hb.request]
  omega

/-! ## The greatest quantity shown -/

/-- The ledger is the summary of the events it was shown. -/
structure Records (l : CumulativeFillLedger) (past : List CumulativeFillEvent) : Prop where
  greatest : IsGreatest (insert 0 (reportedQuantities past)) l.cumulativeQty
  seen : ∀ id ∈ l.seenEventIds, ∃ e ∈ past, trimKey e.eventId = id ∧
    ∃ q, wholeQuantity e.cumulativeQty = some q

theorem records_new (clientOrderId : String) (requestedQty : Number) : Records (new clientOrderId requestedQty) [] where
  greatest := by simp [new, reportedQuantities]
  seen := by simp [new]

variable {past : List CumulativeFillEvent} {e : CumulativeFillEvent} {q : ℕ}

theorem mem_reported_snoc :
    q ∈ insert 0 (reportedQuantities (past ++ [e])) ↔
      q ∈ insert 0 (reportedQuantities past) ∨ wholeQuantity e.cumulativeQty = some q := by
  simp [reportedQuantities, or_and_right, exists_or, or_assoc]

theorem greatest_snoc_le {m : ℕ} (h : IsGreatest (insert 0 (reportedQuantities past)) m)
    (he : ∀ q, wholeQuantity e.cumulativeQty = some q → q ≤ m) :
    IsGreatest (insert 0 (reportedQuantities (past ++ [e]))) m := by
  refine ⟨mem_reported_snoc.mpr (.inl h.1), ?_⟩
  intro q hq
  rcases mem_reported_snoc.mp hq with hq | hq
  · exact h.2 hq
  · exact he q hq

theorem greatest_snoc_lt {m q : ℕ} (h : IsGreatest (insert 0 (reportedQuantities past)) m)
    (he : wholeQuantity e.cumulativeQty = some q) (hm : m < q) :
    IsGreatest (insert 0 (reportedQuantities (past ++ [e]))) q := by
  refine ⟨mem_reported_snoc.mpr (.inr he), ?_⟩
  intro p hp
  rcases mem_reported_snoc.mp hp with hp | hp
  · exact (h.2 hp).trans hm.le
  · rw [he] at hp
    exact (Option.some.inj hp).ge

theorem Records.seen_snoc {l l' : CumulativeFillLedger} (h : Records l past)
    (he : wholeQuantity e.cumulativeQty = some q)
    (hl' : l'.seenEventIds = (l.remember (trimKey e.eventId)).seenEventIds) :
    ∀ id ∈ l'.seenEventIds, ∃ e' ∈ past ++ [e], trimKey e'.eventId = id ∧
      ∃ q, wholeQuantity e'.cumulativeQty = some q := by
  intro id hid
  rw [hl'] at hid
  rcases mem_remember.mp hid with ⟨rfl, -⟩ | hid
  · exact ⟨e, by simp, rfl, q, he⟩
  · obtain ⟨e', he', hkey, hq⟩ := h.seen id hid
    exact ⟨e', by simp [he'], hkey, hq⟩

theorem Records.step (h : Records l past) (e : CumulativeFillEvent) (hids : IdentitiesAgree (past ++ [e])) :
    Records (l.apply e).1 (past ++ [e]) := by
  have widen : ∀ id ∈ l.seenEventIds, ∃ e' ∈ past ++ [e], trimKey e'.eventId = id ∧
      ∃ q, wholeQuantity e'.cumulativeQty = some q := by
    intro id hid
    obtain ⟨e', he', rest⟩ := h.seen id hid
    exact ⟨e', by simp [he'], rest⟩
  obtain ⟨hnone, happ⟩ | ⟨observed, hq, hcase⟩ := apply_cases l e
  · rw [happ]
    exact ⟨greatest_snoc_le h.greatest (by simp [hnone]), widen⟩
  · obtain ⟨⟨hne, hmem⟩, l', hn, happ⟩ | ⟨-, hle, l', _, hn, happ⟩ | ⟨-, hlt, noted, _, _, hn, -, happ⟩ := hcase
    · -- the event that carried this identity first reported the same quantity, and it is in the maximum
      rw [happ]
      obtain ⟨e', he', hkey, p, hp⟩ := h.seen _ hmem
      have heq : e.cumulativeQty = e'.cumulativeQty :=
        hids e (by simp) e' (by simp [he']) hne hkey.symm
      refine ⟨?_, by rw [hn.seenEventIds]; exact widen⟩
      rw [hn.cumulativeQty]
      refine greatest_snoc_le h.greatest ?_
      intro q hq'
      exact h.greatest.2 (.inr ⟨e', he', heq ▸ hq'⟩)
    · rw [happ]
      refine ⟨?_, h.seen_snoc hq hn.seenEventIds⟩
      rw [hn.cumulativeQty]
      refine greatest_snoc_le h.greatest ?_
      intro q hq'
      rw [hq] at hq'
      exact Option.some.inj hq' ▸ hle
    · rw [happ]
      exact ⟨greatest_snoc_lt h.greatest hq hlt, h.seen_snoc hq hn.seenEventIds⟩

theorem Records.run (h : Records l past) (events : List CumulativeFillEvent) (hids : IdentitiesAgree (past ++ events)) :
    Records (finish apply l events) (past ++ events) := by
  induction events generalizing l past with
  | nil => simpa using h
  | cons e events ih =>
    have hfirst : IdentitiesAgree (past ++ [e]) := by
      intro a ha b hb
      refine hids a ?_ b ?_
      · simp only [List.mem_append, List.mem_cons, List.not_mem_nil, or_false] at ha ⊢; tauto
      · simp only [List.mem_append, List.mem_cons, List.not_mem_nil, or_false] at hb ⊢; tauto
    have hrest := ih (h.step e hfirst) (by simpa using hids)
    simpa using hrest

/-! ## Whole runs -/

/-- **Conservation of filled quantity**, in whatever order and however often: the deltas add up to the greatest valid
one. -/
theorem ledger_conserves (clientOrderId : String) (requestedQty : Number) (events : List CumulativeFillEvent)
    (hids : IdentitiesAgree events) :
    IsGreatest (insert 0 (reportedQuantities events))
        (finish apply (new clientOrderId requestedQty) events).cumulativeQty ∧
      (∀ events', IdentitiesAgree events' → (∀ e, e ∈ events' ↔ e ∈ events) →
        (finish apply (new clientOrderId requestedQty) events').cumulativeQty =
          (finish apply (new clientOrderId requestedQty) events).cumulativeQty) ∧
      ((answers apply (new clientOrderId requestedQty) events).map FillApplyResult.delta).sum =
        (finish apply (new clientOrderId requestedQty) events).cumulativeQty ∧
      ((answers apply (new clientOrderId requestedQty) events).map FillApplyResult.cumulative).Pairwise (· ≤ ·) ∧
      ∀ r ∈ answers apply (new clientOrderId requestedQty) events,
        r.cumulative + r.remaining = (new clientOrderId requestedQty).requested + r.overfill := by
  have greatest : ∀ events, IdentitiesAgree events → IsGreatest (insert 0 (reportedQuantities events))
      (Run.finish CumulativeFillLedger.apply (new clientOrderId requestedQty) events).cumulativeQty :=
    fun events h => by simpa using ((records_new clientOrderId requestedQty).run events (by simpa using h)).greatest
  refine ⟨greatest events hids, ?_, ?_, ?_, ?_⟩
  · intro events' hids' hsame
    have hset : reportedQuantities events' = reportedQuantities events := by
      ext q
      simp only [reportedQuantities, Set.mem_ofPred_eq, hsame]
    have := greatest events' hids'
    rw [hset] at this
    exact this.unique (greatest events hids)
  · have := sum_gains cumulativeQty (fun l e => (apply_result l e).2.2.2)
      (new clientOrderId requestedQty) events
    simpa [new] using this
  · have hmono : ∀ (l : CumulativeFillLedger) e, l.cumulativeQty ≤ (l.apply e).1.cumulativeQty := by
      intro l e
      have := (apply_result l e).2.2.2
      omega
    have := answers_rise hmono (fun l e => (apply_result l e).1) (new clientOrderId requestedQty) events
    exact (List.pairwise_cons.mp this).2
  · refine forall_answers (Balanced (new clientOrderId requestedQty).requested) ?_ ⟨rfl, by simp [new]⟩
    intro l e hl
    exact ⟨hl.step e, hl.answer e⟩

def fillEvent (cumulativeQty : Number) (eventId : Option String) : CumulativeFillEvent where
  cumulativeQty
  averagePrice := none
  eventId
  sequence := none
  observedAtMono := none
  observedAtWall := none
  source := .orderUpdate

def overfilled : List CumulativeFillEvent :=
  [fillEvent (.fin 50) (some "u1"), fillEvent (.fin 80) (some "u2"), fillEvent (.fin 50) (some " u1 "),
    fillEvent .nan none]

theorem ledger_conserves_overfilled :
    IsGreatest (insert 0 (reportedQuantities overfilled)) 80 ∧
      ((answers apply (new "co1" (.fin 75)) overfilled).map FillApplyResult.delta).sum = 80 ∧
      ∀ r ∈ answers apply (new "co1" (.fin 75)) overfilled, r.cumulative + r.remaining = 75 + r.overfill := by
  have hids : IdentitiesAgree overfilled := by unfold IdentitiesAgree; decide +kernel
  have hfinal : (finish apply (new "co1" (.fin 75)) overfilled).cumulativeQty = 80 := by decide +kernel
  have hrequested : (new "co1" (.fin 75)).requested = 75 := by decide +kernel
  obtain ⟨hmax, -, hsum, -, hbal⟩ := ledger_conserves "co1" (.fin 75) overfilled hids
  rw [hfinal] at hmax hsum
  rw [hrequested] at hbal
  exact ⟨hmax, hsum, hbal⟩

end CumulativeFillLedger

end BoxEngine
