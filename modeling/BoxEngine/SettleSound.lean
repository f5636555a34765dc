import Mathlib.Data.List.Induction
import BoxEngine.JournalSound
import BoxEngine.PerformReconcile

/-!
# What a pass settles

A pass settles an intent exactly when the adopted order keeps its label terminal and its fill, the row's label may be
followed, and the fill stays within the request.
-/

namespace BoxEngine

open Js

theorem Journal.find_of_mem {journal : Journal} {stored : StoredIntent} (h : stored ∈ journal.rows) :
    journal.find stored.clientOrderId = some stored :=
  Keyed.find?_of_mem journal.distinct h

theorem Journal.find_replace {journal : Journal} {before after : StoredIntent}
    (h : journal.find after.clientOrderId = some before)
    (k : String) : (journal.replace after).find k = if k = after.clientOrderId then some after else journal.find k := by
  have hmem : after.clientOrderId ∈ journal.rows.map StoredIntent.clientOrderId := by
    have hid : before.clientOrderId = after.clientOrderId := by simpa using List.find?_some h
    rw [← hid]
    exact List.mem_map_of_mem (List.mem_of_find?_eq_some h)
  unfold Journal.find Journal.replace
  dsimp only
  rw [Keyed.find?_replace]
  by_cases hk : k = after.clientOrderId
  · rw [if_pos ⟨hk, hk ▸ hmem⟩, if_pos hk]
  · rw [if_neg fun hand => hk hand.1, if_neg hk]

theorem step_clientOrderId (call : JournalCall) (before : StoredIntent) :
    (call.step before).1.clientOrderId = before.clientOrderId := by
  have houtcome := call.step_outcome before
  generalize call.step before = stepped at houtcome ⊢
  cases houtcome with
  | refused => rfl
  | thrown => rfl
  | wrote after writes row =>
    show after.row.clientOrderId = before.row.clientOrderId
    rw [row]
    rfl

section

variable (adoptOrder : AdoptOrder) (now : Number)

def writtenRow (intent : StoredIntent) (order : BrokerOrder) : StoredIntent :=
  match adoptedOrder adoptOrder intent order with
  | .ok attributed => ((JournalCall.persistOrder intent.row attributed "broker reconciliation snapshot" now).step intent).1
  | .error _ => intent

theorem writtenRow_clientOrderId (intent : StoredIntent) (order : BrokerOrder) :
    (writtenRow adoptOrder now intent order).clientOrderId = intent.clientOrderId := by
  unfold writtenRow
  split
  · exact step_clientOrderId ..
  · rfl

variable {intent : StoredIntent}

theorem adoptAndPersist_cases {journal : Journal} (h : journal.find intent.clientOrderId = some intent)
    (order : BrokerOrder) :
    (∃ error, adoptAndPersist adoptOrder now journal intent order = .error error ∧
        writtenRow adoptOrder now intent order = intent) ∨
      adoptAndPersist adoptOrder now journal intent order =
        .ok (journal.replace (writtenRow adoptOrder now intent order), writtenRow adoptOrder now intent order) := by
  unfold adoptAndPersist writtenRow
  cases adoptedOrder adoptOrder intent order with
  | error error => exact .inl ⟨error, rfl, rfl⟩
  | ok attributed =>
    show (∃ error, persistOrder _ _ _ _ _ = .error error ∧ _) ∨ persistOrder _ _ _ _ _ = _
    dsimp only
    generalize hcall : JournalCall.persistOrder intent.row attributed "broker reconciliation snapshot" now = call
    have hid : call.clientOrderId = intent.clientOrderId := by rw [← hcall]; rfl
    have houtcome := call.step_outcome intent
    unfold persistOrder JournalCall.run updateBoxOrderIntent
    rw [hcall, hid, h]
    dsimp only
    unfold JournalCall.step JournalCall.onRow at houtcome ⊢
    cases hupdate : intent.update call.patch call.audit call.expectedStates with
    | error message => exact .inl ⟨_, rfl, rfl⟩
    | ok written =>
      obtain ⟨after, result⟩ := written
      refine .inr ?_
      rw [hupdate] at houtcome
      have hresult : result.intent = some after := by
        cases houtcome with
        | wrote _ _ _ => rfl
        | refused => rfl
      simp only [Except.map, hresult]

/-! ## Matching -/

variable (journal : Journal)

def matchesIntent (intent : StoredIntent) (order : BrokerOrder) : Bool :=
  (intentOf journal.rows journal.rows order).any fun found => found.clientOrderId = intent.clientOrderId

def ordersOf (orders : List BrokerOrder) (intent : StoredIntent) : List BrokerOrder :=
  orders.filter (matchesIntent journal intent)

def settledRow (done : List BrokerOrder) (intent : StoredIntent) : StoredIntent :=
  match ordersOf journal done intent with
  | [] => intent
  | order :: _ => writtenRow adoptOrder now intent order

theorem settledRow_clientOrderId (done : List BrokerOrder) (intent : StoredIntent) :
    (settledRow adoptOrder now journal done intent).clientOrderId = intent.clientOrderId := by
  unfold settledRow
  split
  · rfl
  · exact writtenRow_clientOrderId ..

structure Tracks (journal : Journal) (done : List BrokerOrder) (s : ReconcileState) : Prop where
  keys : s.ownedByClient.map StoredIntent.clientOrderId = journal.rows.map StoredIntent.clientOrderId
  counts : ∀ intent ∈ journal.rows, 0 < s.matchCounts intent.clientOrderId ↔ ordersOf journal done intent ≠ []
  rows : ∀ intent ∈ journal.rows,
    s.journal.find intent.clientOrderId = some (settledRow adoptOrder now journal done intent)
  owned : ∀ intent ∈ journal.rows,
    (s.ownedByClient.find? fun copy => copy.clientOrderId = intent.clientOrderId) =
      some (settledRow adoptOrder now journal done intent)
  nonterminal : ∀ intent ∈ journal.rows,
    (s.nonterminalByClient.find? fun copy => copy.clientOrderId = intent.clientOrderId) =
      if isBrokerOrderTerminal (settledRow adoptOrder now journal done intent).row.state then none
      else some (settledRow adoptOrder now journal done intent)
  only : ∀ copy ∈ s.nonterminalByClient, copy.clientOrderId ∈ journal.rows.map StoredIntent.clientOrderId

variable {adoptOrder now} {journal : Journal} {done : List BrokerOrder} {s : ReconcileState}
variable {loaded : List StoredIntent}

theorem intentByBroker_mem {id : Option String} (h : intentByBroker loaded id = some intent) : intent ∈ loaded := by
  obtain ⟨key, -, hlast⟩ := Option.bind_eq_some_iff.mp h
  exact (List.mem_filter.mp (List.mem_of_getLast? hlast)).1

theorem intentByTag_mem {tag : Option String} (h : intentByTag loaded tag = some intent) : intent ∈ loaded := by
  obtain ⟨key, -, hone⟩ := Option.bind_eq_some_iff.mp h
  split at hone
  · rename_i only heq
    obtain rfl := Option.some.inj hone
    have hmem : only ∈ [only] := List.mem_singleton_self _
    rw [← heq] at hmem
    exact (List.mem_filter.mp hmem).1
  · cases hone

theorem intentOf_mem {order : BrokerOrder} (h : intentOf loaded loaded order = some intent) : intent ∈ loaded := by
  unfold intentOf at h
  cases hfind : loaded.find? fun intent => intent.clientOrderId = order.clientOrderId with
  | some found =>
    rw [hfind] at h
    cases h
    exact List.mem_of_find?_eq_some hfind
  | none =>
    rw [hfind] at h
    cases hbroker : intentByBroker loaded order.brokerOrderId with
    | some found =>
      rw [hbroker] at h
      cases h
      exact intentByBroker_mem hbroker
    | none =>
      rw [hbroker] at h
      exact intentByTag_mem h

theorem Tracks.intentOf_eq (h : Tracks adoptOrder now journal done s) (order : BrokerOrder) :
    (intentOf journal.rows journal.rows order = none ∧ intentOf journal.rows s.ownedByClient order = none) ∨
      ∃ intent found, intent ∈ journal.rows ∧ intentOf journal.rows journal.rows order = some intent ∧
        intentOf journal.rows s.ownedByClient order = some found ∧ found.clientOrderId = intent.clientOrderId ∧
          (ordersOf journal done intent = [] → found = intent) := by
  cases hfind : journal.rows.find? fun intent => intent.clientOrderId = order.clientOrderId with
  | some intent =>
    have hmem := List.mem_of_find?_eq_some hfind
    have hid : intent.clientOrderId = order.clientOrderId := by simpa using List.find?_some hfind
    have howned := h.owned intent hmem
    refine .inr ⟨intent, settledRow adoptOrder now journal done intent, hmem, ?_, ?_, settledRow_clientOrderId .., ?_⟩
    · unfold intentOf
      rw [hfind]
      rfl
    · unfold intentOf
      rw [← hid, howned]
      rfl
    · intro hnone
      unfold settledRow
      rw [hnone]
  | none =>
    -- no intent has this client id, so neither map answers and the loaded copies decide
    have howned : (s.ownedByClient.find? fun intent => intent.clientOrderId = order.clientOrderId) = none := by
      rw [List.find?_eq_none] at hfind ⊢
      intro copy hcopy hid
      have hkey : copy.clientOrderId ∈ journal.rows.map StoredIntent.clientOrderId := h.keys ▸ List.mem_map_of_mem hcopy
      obtain ⟨row, hrow, hkey⟩ := List.mem_map.mp hkey
      exact hfind row hrow (by rw [hkey]; exact hid)
    have hsame : intentOf journal.rows s.ownedByClient order = intentOf journal.rows journal.rows order := by
      unfold intentOf
      rw [hfind, howned]
    cases hintent : intentOf journal.rows journal.rows order with
    | none => exact .inl ⟨rfl, hsame.trans hintent⟩
    | some intent =>
      exact .inr ⟨intent, intent, intentOf_mem hintent, rfl, hsame.trans hintent, rfl, fun _ => rfl⟩

/-! ## One step of the pass -/

theorem ordersOf_snoc (journal : Journal) (done : List BrokerOrder) (order : BrokerOrder) (intent : StoredIntent) :
    ordersOf journal (done ++ [order]) intent =
      ordersOf journal done intent ++ if matchesIntent journal intent order then [order] else [] := by
  unfold ordersOf
  rw [List.filter_append]
  congr 1
  by_cases h : matchesIntent journal intent order = true
  · rw [if_pos h, List.filter_cons_of_pos h]
    rfl
  · rw [if_neg h, List.filter_cons_of_neg h]
    rfl

theorem settledRow_snoc (journal : Journal) (done : List BrokerOrder) (order : BrokerOrder) (intent : StoredIntent) :
    settledRow adoptOrder now journal (done ++ [order]) intent =
      if matchesIntent journal intent order = true ∧ ordersOf journal done intent = [] then
        writtenRow adoptOrder now intent order
      else settledRow adoptOrder now journal done intent := by
  unfold settledRow
  rw [ordersOf_snoc]
  cases hdone : ordersOf journal done intent with
  | nil =>
    by_cases h : matchesIntent journal intent order = true
    · simp [h]
    · simp [h]
  | cons first rest => simp

structure ReconcileState.SameRows (s t : ReconcileState) : Prop where
  journal : t.journal = s.journal
  owned : t.ownedByClient = s.ownedByClient
  nonterminal : t.nonterminalByClient = s.nonterminalByClient
  counts : t.matchCounts = s.matchCounts

theorem ReconcileState.SameRows.trans {s t u : ReconcileState} (hst : s.SameRows t) (htu : t.SameRows u) : s.SameRows u :=
  ⟨htu.1.trans hst.1, htu.2.trans hst.2, htu.3.trans hst.3, htu.4.trans hst.4⟩

theorem trip_same (s : ReconcileState) (reason : String) : s.SameRows (s.trip reason) := ⟨rfl, rfl, rfl, rfl⟩

theorem affect_same (s : ReconcileState) (intent : StoredIntent) : s.SameRows (s.affect intent) := by
  unfold ReconcileState.affect
  split
  · exact ⟨rfl, rfl, rfl, rfl⟩
  · exact ⟨rfl, rfl, rfl, rfl⟩

theorem lose_same (s : ReconcileState) (error : SubmitError) : s.SameRows (s.lose error) := by
  unfold ReconcileState.lose
  split
  · exact trip_same _ _
  · exact ⟨rfl, rfl, rfl, rfl⟩

theorem mismatch_same (s : ReconcileState) (intent : StoredIntent) (error : SubmitError) :
    s.SameRows (s.mismatch intent error) := by
  have hsame := (lose_same s error).trans (affect_same _ intent)
  exact ⟨hsame.journal, hsame.owned, hsame.nonterminal, hsame.counts⟩

def ReconcileState.counting (s : ReconcileState) (id : String) : ReconcileState :=
  { s with matchCounts := Function.update s.matchCounts id (s.matchCounts id + 1) }

theorem reconcileOrder_none {order : BrokerOrder} (h : intentOf journal.rows s.ownedByClient order = none) :
    s.SameRows (reconcileOrder adoptOrder now journal.rows s order) := by
  unfold reconcileOrder
  rw [h]
  dsimp only
  split
  · exact ⟨rfl, rfl, rfl, rfl⟩
  · exact ⟨rfl, rfl, rfl, rfl⟩

theorem reconcileOrder_again {order : BrokerOrder}
    (h : intentOf journal.rows s.ownedByClient order = some intent) (hcount : 0 < s.matchCounts intent.clientOrderId) :
    (s.counting intent.clientOrderId).SameRows (reconcileOrder adoptOrder now journal.rows s order) := by
  unfold reconcileOrder
  rw [h]
  dsimp only
  rw [if_pos hcount]
  exact (affect_same _ intent).trans (trip_same _ _)

theorem reconcileOrder_error {order : BrokerOrder} {error : SubmitError}
    (h : intentOf journal.rows s.ownedByClient order = some intent) (hcount : ¬ 0 < s.matchCounts intent.clientOrderId)
    (herror : adoptAndPersist adoptOrder now s.journal intent order = .error error) :
    (s.counting intent.clientOrderId).SameRows (reconcileOrder adoptOrder now journal.rows s order) := by
  unfold reconcileOrder
  rw [h]
  dsimp only
  rw [if_neg hcount, herror]
  dsimp only
  have hclaimed : (s.counting intent.clientOrderId).SameRows { s.counting intent.clientOrderId with matched := s.matched + 1 } :=
    ⟨rfl, rfl, rfl, rfl⟩
  exact hclaimed.trans (mismatch_same _ intent error)

theorem reconcileOrder_ok {order : BrokerOrder} {intent updated : StoredIntent} {next : Journal}
    (h : intentOf journal.rows s.ownedByClient order = some intent) (hcount : ¬ 0 < s.matchCounts intent.clientOrderId)
    (hok : adoptAndPersist adoptOrder now s.journal intent order = .ok (next, updated)) :
    ((s.counting intent.clientOrderId).note next updated).SameRows
      (reconcileOrder adoptOrder now journal.rows s order) := by
  unfold reconcileOrder
  rw [h]
  dsimp only
  rw [if_neg hcount, hok]
  exact ⟨rfl, rfl, rfl, rfl⟩

section

variable {order : BrokerOrder} {t : ReconcileState}

theorem Tracks.unchanged (h : Tracks adoptOrder now journal done s) (hjournal : t.journal = s.journal)
    (howned : t.ownedByClient = s.ownedByClient) (hnonterminal : t.nonterminalByClient = s.nonterminalByClient)
    (hcounts : ∀ intent ∈ journal.rows, 0 < t.matchCounts intent.clientOrderId ↔ ordersOf journal (done ++ [order]) intent ≠ [])
    (hrows : ∀ intent ∈ journal.rows,
      settledRow adoptOrder now journal (done ++ [order]) intent = settledRow adoptOrder now journal done intent) :
    Tracks adoptOrder now journal (done ++ [order]) t where
  keys := by rw [howned]; exact h.keys
  counts := hcounts
  rows := by
    intro intent hintent
    rw [hjournal, hrows intent hintent]
    exact h.rows intent hintent
  owned := by
    intro intent hintent
    rw [howned, hrows intent hintent]
    exact h.owned intent hintent
  nonterminal := by
    intro intent hintent
    rw [hnonterminal, hrows intent hintent]
    exact h.nonterminal intent hintent
  only := by
    rw [hnonterminal]
    exact h.only

theorem Tracks.replaced (h : Tracks adoptOrder now journal done s) {intent row : StoredIntent} (hintent : intent ∈ journal.rows)
    (hid : row.clientOrderId = intent.clientOrderId)
    (hsame : (s.note (s.journal.replace row) row).SameRows { t with matchCounts := s.matchCounts })
    (hcounts : ∀ intent ∈ journal.rows, 0 < t.matchCounts intent.clientOrderId ↔ ordersOf journal (done ++ [order]) intent ≠ [])
    (hrows : ∀ other ∈ journal.rows, settledRow adoptOrder now journal (done ++ [order]) other =
      if other.clientOrderId = row.clientOrderId then row else settledRow adoptOrder now journal done other) :
    Tracks adoptOrder now journal (done ++ [order]) t := by
  have hjournal : t.journal = s.journal.replace row := hsame.journal
  have howned : t.ownedByClient = setIntent s.ownedByClient row := hsame.owned
  have hnonterminal : t.nonterminalByClient =
      if isBrokerOrderTerminal row.row.state then
        s.nonterminalByClient.filter fun copy => ¬ copy.clientOrderId = row.clientOrderId
      else setIntent s.nonterminalByClient row := hsame.nonterminal
  have hfind := h.rows intent hintent
  rw [← hid] at hfind
  constructor
  · have hmem : row.clientOrderId ∈ s.ownedByClient.map StoredIntent.clientOrderId := by
      rw [h.keys, hid]
      exact List.mem_map_of_mem hintent
    rw [howned]
    unfold setIntent
    rw [Keyed.map_put_of_mem hmem]
    exact h.keys
  · exact hcounts
  · intro other hother
    rw [hjournal, Journal.find_replace hfind, hrows other hother]
    split
    · rfl
    · exact h.rows other hother
  · intro other hother
    rw [howned]
    unfold setIntent
    rw [Keyed.find?_put, hrows other hother]
    split
    · rfl
    · exact h.owned other hother
  · intro other hother
    have hold := h.nonterminal other hother
    rw [hnonterminal, hrows other hother]
    -- a settled row leaves the list of nonterminal intents
    by_cases hsettled : isBrokerOrderTerminal row.row.state = true
    · rw [if_pos hsettled, Keyed.find?_erase]
      by_cases hrow : other.clientOrderId = row.clientOrderId
      · rw [if_pos hrow, if_pos hrow, if_pos hsettled]
      · rw [if_neg hrow, if_neg hrow]
        exact hold
    · rw [if_neg hsettled]
      unfold setIntent
      rw [Keyed.find?_put]
      by_cases hrow : other.clientOrderId = row.clientOrderId
      · rw [if_pos hrow, if_pos hrow, if_neg hsettled]
      · rw [if_neg hrow, if_neg hrow]
        exact hold
  · intro copy hcopy
    rw [hnonterminal] at hcopy
    split at hcopy
    · exact h.only copy (List.mem_filter.mp hcopy).1
    · rcases Keyed.mem_put hcopy with rfl | hcopy
      · rw [hid]
        exact List.mem_map_of_mem hintent
      · exact h.only copy hcopy

theorem matches_iff {intent other : StoredIntent} (hintent : intent ∈ journal.rows) (hother : other ∈ journal.rows)
    (h : intentOf journal.rows journal.rows order = some intent) : matchesIntent journal other order = true ↔ other = intent := by
  unfold matchesIntent
  rw [h, Option.any_some, decide_eq_true_eq]
  constructor
  · exact fun hid => (List.inj_on_of_nodup_map journal.distinct hintent hother hid).symm
  · rintro rfl
    rfl

theorem Tracks.counted (h : Tracks adoptOrder now journal done s) {intent : StoredIntent} (hintent : intent ∈ journal.rows)
    (hmatch : intentOf journal.rows journal.rows order = some intent)
    (hcounts : t.matchCounts = (s.counting intent.clientOrderId).matchCounts) :
    ∀ other ∈ journal.rows, 0 < t.matchCounts other.clientOrderId ↔ ordersOf journal (done ++ [order]) other ≠ [] := by
  intro other hother
  rw [hcounts, ordersOf_snoc]
  unfold ReconcileState.counting
  dsimp only
  by_cases hsame : other = intent
  · subst hsame
    rw [Function.update_self, if_pos ((matches_iff hintent hintent hmatch).mpr rfl)]
    simp
  · have hid : other.clientOrderId ≠ intent.clientOrderId := fun heq =>
      hsame (List.inj_on_of_nodup_map journal.distinct hother hintent heq)
    rw [Function.update_of_ne hid, if_neg fun hmatches => hsame ((matches_iff hintent hother hmatch).mp hmatches),
      List.append_nil]
    exact h.counts other hother

theorem Tracks.step (h : Tracks adoptOrder now journal done s) (order : BrokerOrder) :
    Tracks adoptOrder now journal (done ++ [order]) (reconcileOrder adoptOrder now journal.rows s order) := by
  -- an order of no intent changes nothing; the first one of an intent writes its row
  rcases h.intentOf_eq order with ⟨hstatic, hnone⟩ | ⟨intent, found, hintent, hstatic, hfound, hid, hfirst⟩
  · have hsame : s.SameRows (reconcileOrder adoptOrder now journal.rows s order) := reconcileOrder_none hnone
    have hmatches : ∀ other, matchesIntent journal other order = false := by
      intro other
      unfold matchesIntent
      rw [hstatic]
      rfl
    refine h.unchanged hsame.journal hsame.owned hsame.nonterminal ?_ ?_
    · intro other hother
      rw [hsame.counts, ordersOf_snoc, hmatches]
      simpa using h.counts other hother
    · intro other _
      rw [settledRow_snoc, hmatches]
      simp
  · have hothers : ∀ other ∈ journal.rows, other ≠ intent →
        settledRow adoptOrder now journal (done ++ [order]) other = settledRow adoptOrder now journal done other := by
      intro other hother hne
      rw [settledRow_snoc, if_neg]
      rintro ⟨hmatches, -⟩
      exact hne ((matches_iff hintent hother hstatic).mp hmatches)
    by_cases hcount : 0 < s.matchCounts found.clientOrderId
    · have hsame : (s.counting found.clientOrderId).SameRows (reconcileOrder adoptOrder now journal.rows s order) :=
        reconcileOrder_again hfound hcount
      rw [hid] at hsame hcount
      refine h.unchanged hsame.journal hsame.owned hsame.nonterminal (h.counted hintent hstatic hsame.counts) ?_
      intro other hother
      by_cases hne : other = intent
      · subst hne
        rw [settledRow_snoc, if_neg]
        rintro ⟨-, hnone⟩
        exact (h.counts other hother).mp hcount hnone
      · exact hothers other hother hne
    · have hnone : ordersOf journal done intent = [] := by
        by_contra hsome
        exact hcount (hid ▸ (h.counts intent hintent).mpr hsome)
      obtain rfl := hfirst hnone
      have hrow : settledRow adoptOrder now journal done found = found := by
        unfold settledRow
        rw [hnone]
      have hwritten : settledRow adoptOrder now journal (done ++ [order]) found = writtenRow adoptOrder now found order := by
        rw [settledRow_snoc, if_pos ⟨(matches_iff hintent hintent hstatic).mpr rfl, hnone⟩]
      have hfind := h.rows found hintent
      rw [hrow] at hfind
      rcases adoptAndPersist_cases adoptOrder now hfind order with ⟨error, herror, hkept⟩ | hok
      · have hsame : (s.counting found.clientOrderId).SameRows (reconcileOrder adoptOrder now journal.rows s order) :=
          reconcileOrder_error hfound hcount herror
        refine h.unchanged hsame.journal hsame.owned hsame.nonterminal (h.counted hintent hstatic hsame.counts) ?_
        intro other hother
        by_cases hne : other = found
        · rw [hne, hwritten, hkept, hrow]
        · exact hothers other hother hne
      · have hsame : ((s.counting found.clientOrderId).note (s.journal.replace (writtenRow adoptOrder now found order))
            (writtenRow adoptOrder now found order)).SameRows (reconcileOrder adoptOrder now journal.rows s order) :=
          reconcileOrder_ok hfound hcount hok
        refine h.replaced hintent (writtenRow_clientOrderId ..) ⟨hsame.journal, hsame.owned, hsame.nonterminal, rfl⟩
          (h.counted hintent hstatic hsame.counts) ?_
        intro other hother
        rw [writtenRow_clientOrderId]
        by_cases hne : other = found
        · rw [hne, if_pos rfl, hwritten]
        · rw [if_neg fun heq => hne (List.inj_on_of_nodup_map journal.distinct hother hintent heq)]
          exact hothers other hother hne

end

theorem Tracks.start (breakerReason : Option String) :
    Tracks adoptOrder now journal [] (ReconcileState.load journal breakerReason) where
  keys := rfl
  counts := by
    intro intent _
    simp [ReconcileState.load, ordersOf]
  rows := fun intent hintent => Journal.find_of_mem hintent
  owned := fun intent hintent => Journal.find_of_mem hintent
  nonterminal := by
    intro intent hintent
    show (nonterminalIntents journal).find? _ = if isBrokerOrderTerminal intent.row.state then none else some intent
    by_cases hterminal : isBrokerOrderTerminal intent.row.state = true
    · rw [if_pos hterminal, List.find?_eq_none]
      intro copy hcopy hid
      obtain ⟨hrow, hopen⟩ := List.mem_filter.mp hcopy
      obtain rfl := List.inj_on_of_nodup_map journal.distinct hrow hintent (of_decide_eq_true hid)
      exact of_decide_eq_true hopen hterminal
    · rw [if_neg hterminal]
      have hdistinct : ((nonterminalIntents journal).map StoredIntent.clientOrderId).Nodup :=
        (List.filter_sublist.map _).nodup journal.distinct
      exact Keyed.find?_of_mem hdistinct (List.mem_filter.mpr ⟨hintent, by simpa using hterminal⟩)
  only := by
    intro copy hcopy
    exact List.mem_map_of_mem (List.mem_filter.mp hcopy).1

theorem Tracks.orders (breakerReason : Option String) (orders : List BrokerOrder) :
    Tracks adoptOrder now journal orders
      (orders.foldl (reconcileOrder adoptOrder now journal.rows) (ReconcileState.load journal breakerReason)) := by
  induction orders using List.reverseRecOn with
  | nil => exact .start breakerReason
  | append_singleton orders order ih =>
    rw [List.foldl_append]
    exact ih.step order

theorem reconcileMissing_matched {intents : List StoredIntent}
    (h : ∀ intent ∈ intents, 0 < s.matchCounts intent.clientOrderId) : intents.foldlM (reconcileMissing now) s = .ok s := by
  induction intents with
  | nil => rfl
  | cons intent intents ih =>
    have hfirst : reconcileMissing now s intent = .ok s := by
      unfold reconcileMissing
      rw [if_pos (h intent (.head _))]
    rw [List.foldlM_cons, hfirst]
    exact ih fun other hother => h other (.tail _ hother)

end

/-! ## The order that settles an intent -/

/-- The adopted order is terminal with the broker's fill, between the stored one and the request, and fits the row. -/
structure SettlesAs (adoptOrder : AdoptOrder) (intent : StoredIntent) (order attributed : BrokerOrder) : Prop where
  adopted : adoptedOrder adoptOrder intent order = .ok attributed
  terminal : isBrokerOrderTerminal attributed.state = true
  fill : attributed.filledQuantity = order.filledQuantity
  follows : intent.row.state ∈ intentStatePredecessors attributed.state
  grows : intent.row.filledQuantity ≤ attributed.filledQuantity
  within : attributed.filledQuantity ≤ intent.row.quantity
  identity : ∀ id, attributed.brokerOrderId = some id → id ≠ "" →
    intent.row.brokerOrderId = none ∨ intent.row.brokerOrderId = some id

theorem writes_snapshot_iff (intent : StoredIntent) (attributed : BrokerOrder) (message : String) (now : Number) :
    (JournalCall.persistOrder intent.row attributed message now).writes intent.row = true ↔
      intent.row.state ∈ intentStatePredecessors attributed.state ∧
        intent.row.filledQuantity ≤ attributed.filledQuantity ∧ attributed.filledQuantity ≤ intent.row.quantity ∧
          ∀ id, attributed.brokerOrderId = some id → id ≠ "" →
            intent.row.brokerOrderId = none ∨ intent.row.brokerOrderId = some id := by
  have hbroker : ∀ named : Option String,
      ((named.filter (· ≠ "")).all fun id => intent.row.brokerOrderId = none || intent.row.brokerOrderId = some id) = true ↔
        ∀ id, named = some id → id ≠ "" → intent.row.brokerOrderId = none ∨ intent.row.brokerOrderId = some id := by
    intro named
    cases named with
    | none => simp
    | some id =>
      by_cases hid : id = ""
      · simp [hid]
      · simp [hid]
  have hlow : intent.row.filledQuantity ≤ attributed.filledQuantity → Number.fin 0 ≤ attributed.filledQuantity := by
    intro hgrows
    refine Number.le_trans ?_ hgrows
    rw [intent.filled_eq, Number.fin_le_fin]
    exact intent.fill_nonneg
  unfold JournalCall.writes BoxOrderIntentPatch.admits BoxOrderIntent.checked BoxOrderIntentPatch.brokerOk
  simp only [Bool.and_eq_true]
  constructor
  · rintro ⟨⟨⟨⟨hstate, -⟩, hfill⟩, hid⟩, ⟨-, hwithin⟩, -⟩
    exact ⟨of_decide_eq_true hstate, of_decide_eq_true hfill, of_decide_eq_true hwithin, (hbroker _).mp hid⟩
  · rintro ⟨hstate, hfill, hwithin, hid⟩
    exact ⟨⟨⟨⟨decide_eq_true hstate, rfl⟩, decide_eq_true hfill⟩, (hbroker _).mpr hid⟩,
      ⟨decide_eq_true (hlow hfill), decide_eq_true hwithin⟩, decide_eq_true hfill⟩

variable {intent : StoredIntent}

theorem writtenRow_settled_iff {adoptOrder : AdoptOrder} {now : Number} {order : BrokerOrder}
    (hopen : ¬ isBrokerOrderTerminal intent.row.state = true) :
    (isBrokerOrderTerminal (writtenRow adoptOrder now intent order).row.state = true ∧
        (writtenRow adoptOrder now intent order).row.filledQuantity = order.filledQuantity) ↔
      ∃ attributed, SettlesAs adoptOrder intent order attributed := by
  unfold writtenRow
  cases hadopted : adoptedOrder adoptOrder intent order with
  | error error =>
    constructor
    · exact fun hsettled => absurd hsettled.1 hopen
    · rintro ⟨attributed, hsettles⟩
      cases hadopted.symm.trans hsettles.adopted
  | ok attributed =>
    dsimp only
    have hwrites := writes_snapshot_iff intent attributed "broker reconciliation snapshot" now
    have houtcome := (JournalCall.persistOrder intent.row attributed "broker reconciliation snapshot" now).step_outcome intent
    generalize JournalCall.step intent _ = stepped at houtcome ⊢
    constructor
    · rintro ⟨hterminal, hfill⟩
      refine ⟨attributed, ?_⟩
      cases houtcome with
      | refused => exact absurd hterminal hopen
      | thrown => exact absurd hterminal hopen
      | wrote after writes row =>
        dsimp only at hterminal hfill
        rw [row] at hterminal hfill
        obtain ⟨hfollows, hgrows, hwithin, hidentity⟩ := hwrites.mp writes
        exact ⟨hadopted, hterminal, hfill, hfollows, hgrows, hwithin, hidentity⟩
    · rintro ⟨other, hsettles⟩
      obtain rfl := Except.ok.inj (hadopted.symm.trans hsettles.adopted)
      have hmust := hwrites.mpr ⟨hsettles.follows, hsettles.grows, hsettles.within, hsettles.identity⟩
      cases houtcome with
      | refused refuses | thrown refuses => rw [refuses] at hmust; cases hmust
      | wrote after writes row =>
        dsimp only
        rw [row]
        exact ⟨hsettles.terminal, hsettles.fill⟩

theorem settledRow_terminal {adoptOrder : AdoptOrder} {now : Number} {journal : Journal} {done : List BrokerOrder}
    (h : isBrokerOrderTerminal intent.row.state = true) :
    isBrokerOrderTerminal (settledRow adoptOrder now journal done intent).row.state = true := by
  unfold settledRow writtenRow
  split
  · exact h
  · split
    · rename_i attributed _
      have houtcome := (JournalCall.persistOrder intent.row attributed "broker reconciliation snapshot" now).step_outcome intent
      generalize JournalCall.step intent _ = stepped at houtcome ⊢
      cases houtcome with
      | refused => exact h
      | thrown => exact h
      | wrote after writes row => exact predecessor_terminal (wrote_state writes row) h
    · exact h

/-! ## What the pass leaves -/

def MatchedOnce (journal : Journal) (orders : List BrokerOrder) : Prop :=
  ∀ intent ∈ nonterminalIntents journal, ∃ order, ordersOf journal orders intent = [order]

structure OrderManagerReconcileReport.Settled (report : OrderManagerReconcileReport) (journal : Journal)
    (orders : List BrokerOrder) : Prop where
  rows : ∀ intent ∈ nonterminalIntents journal, ∀ order ∈ ordersOf journal orders intent,
    ∃ row, report.state.journal.find intent.clientOrderId = some row ∧ isBrokerOrderTerminal row.row.state = true ∧
      row.row.filledQuantity = order.filledQuantity
  unknown : report.unknownOrders = 0
  unattended : report.unattendedWorkingOrders = 0

/-- **Reconciliation** settles every intent the broker has settled iff each order is adopted as one that settles it.
-/
theorem reconcile_settles_iff (adoptOrder : AdoptOrder) (orders : List BrokerOrder) (activeClientIds : List String)
    (now : Number) (breakerReason : Option String) {journal : Journal} (h : MatchedOnce journal orders) :
    (∃ report, performReconcile adoptOrder orders activeClientIds now breakerReason journal = .ok report ∧
        report.Settled journal orders) ↔
      ∀ intent ∈ nonterminalIntents journal, ∀ order ∈ ordersOf journal orders intent,
        ∃ attributed, SettlesAs adoptOrder intent order attributed := by
  have htracks : Tracks adoptOrder now journal orders _ := Tracks.orders breakerReason orders
  set s := orders.foldl (reconcileOrder adoptOrder now journal.rows) (ReconcileState.load journal breakerReason)
  have hmem : ∀ intent ∈ nonterminalIntents journal, intent ∈ journal.rows ∧ ¬ isBrokerOrderTerminal intent.row.state = true := by
    intro intent hintent
    obtain ⟨hrow, hopen⟩ := List.mem_filter.mp hintent
    exact ⟨hrow, of_decide_eq_true hopen⟩
  have hmatched : ∀ intent ∈ nonterminalIntents journal, 0 < s.matchCounts intent.clientOrderId := by
    intro intent hintent
    obtain ⟨order, horder⟩ := h intent hintent
    rw [htracks.counts intent (hmem intent hintent).1, horder]
    exact List.cons_ne_nil _ _
  have hpass : performReconcile adoptOrder orders activeClientIds now breakerReason journal = .ok
      { state := s
        unknownOrders := (s.nonterminalByClient.filter fun intent => reconcileStates intent.row.state).length
        unattendedWorkingOrders := (s.nonterminalByClient.filter fun intent =>
          ¬ reconcileStates intent.row.state ∧ intent.row.state ≠ .created ∧
              intent.clientOrderId ∉ activeClientIds).length } := by
    unfold performReconcile
    dsimp only
    rw [reconcileMissing_matched hmatched]
    rfl
  have hrow : ∀ intent ∈ nonterminalIntents journal, ∀ order ∈ ordersOf journal orders intent,
      settledRow adoptOrder now journal orders intent = writtenRow adoptOrder now intent order := by
    intro intent hintent order horder
    obtain ⟨only, honly⟩ := h intent hintent
    rw [honly, List.mem_singleton] at horder
    unfold settledRow
    rw [honly, horder]
  constructor
  · rintro ⟨report, hreport, hsettled⟩ intent hintent order horder
    obtain rfl := Except.ok.inj (hpass.symm.trans hreport)
    obtain ⟨hrows, hopen⟩ := hmem intent hintent
    obtain ⟨row, hfind, hterminal, hfill⟩ := hsettled.rows intent hintent order horder
    rw [htracks.rows intent hrows, hrow intent hintent order horder] at hfind
    obtain rfl := Option.some.inj hfind
    exact (writtenRow_settled_iff hopen).mp ⟨hterminal, hfill⟩
  · intro hsettles
    -- with every intent settled the pass has nothing left to report
    have hdone : s.nonterminalByClient = [] := by
      rw [List.eq_nil_iff_forall_not_mem]
      intro copy hcopy
      obtain ⟨intent, hintent, hid⟩ := List.mem_map.mp (htracks.only copy hcopy)
      have hterminal : isBrokerOrderTerminal (settledRow adoptOrder now journal orders intent).row.state = true := by
        by_cases hopen : isBrokerOrderTerminal intent.row.state = true
        · exact settledRow_terminal hopen
        · have hunresolved : intent ∈ nonterminalIntents journal := List.mem_filter.mpr ⟨hintent, by simpa using hopen⟩
          obtain ⟨order, horder⟩ := h intent hunresolved
          have hmatch : order ∈ ordersOf journal orders intent := horder ▸ List.mem_singleton_self order
          rw [hrow intent hunresolved order hmatch]
          exact ((writtenRow_settled_iff hopen).mpr (hsettles intent hunresolved order hmatch)).1
      have hnone := htracks.nonterminal intent hintent
      rw [if_pos hterminal, List.find?_eq_none] at hnone
      exact hnone copy hcopy (decide_eq_true hid.symm)
    refine ⟨_, hpass, ?_, ?_, ?_⟩
    · intro intent hintent order horder
      obtain ⟨hrows, hopen⟩ := hmem intent hintent
      obtain ⟨hterminal, hfill⟩ := (writtenRow_settled_iff hopen).mpr (hsettles intent hintent order horder)
      refine ⟨_, htracks.rows intent hrows, ?_⟩
      rw [hrow intent hintent order horder]
      exact ⟨hterminal, hfill⟩
    · simp [hdone]
    · simp [hdone]

structure SettledAtBroker (journal : Journal) (orders : List BrokerOrder) : Prop where
  once : MatchedOnce journal orders
  settled : ∀ intent ∈ nonterminalIntents journal, ∀ order ∈ ordersOf journal orders intent,
    isBrokerOrderTerminal order.state = true ∧
      (∀ id, intent.row.brokerOrderId = some id → order.brokerOrderId = some id) ∧
        intent.row.filledQuantity ≤ order.filledQuantity ∧ (order.state = .rejected → order.filledQuantity = .fin 0)

theorem nonterminal_unfilled {state : BrokerOrderState}
    (h : intent ∈ nonterminalIntents (unfilledJournal state)) : intent = unfilledIntent state :=
  List.mem_singleton.mp (List.mem_filter.mp h).1

theorem rejection_unsettled :
    SettledAtBroker (unfilledJournal .reconciliationRequired) [legOrder .rejected 75 0 none] ∧
      ∀ report, performReconcile none [legOrder .rejected 75 0 none] [] (.fin 2) none
          (unfilledJournal .reconciliationRequired) = .ok report →
        ¬ report.Settled (unfilledJournal .reconciliationRequired) [legOrder .rejected 75 0 none] := by
  refine ⟨⟨?_, ?_⟩, ?_⟩
  · intro intent hintent
    rw [nonterminal_unfilled hintent]
    exact ⟨_, rfl⟩
  · intro intent hintent order horder
    rw [nonterminal_unfilled hintent] at horder ⊢
    obtain rfl : order = legOrder .rejected 75 0 none := List.mem_singleton.mp horder
    exact ⟨rfl, fun _ hid => hid, by decide +kernel, fun _ => rfl⟩
  · intro report hreport hsettled
    have hcount : (performReconcile none [legOrder .rejected 75 0 none] [] (.fin 2) none
        (unfilledJournal .reconciliationRequired)).toOption.map OrderManagerReconcileReport.unknownOrders = some 1 := by
      decide +kernel
    rw [hreport] at hcount
    cases hsettled.unknown.symm.trans (Option.some.inj hcount)

/-- A fill that arrives for it settles it. -/
theorem reconcile_settles_fill :
    ∃ report, performReconcile none [legOrder .complete 75 75 none] [] (.fin 2) none
        (unfilledJournal .reconciliationRequired) = .ok report ∧
      report.Settled (unfilledJournal .reconciliationRequired) [legOrder .complete 75 75 none] := by
  refine (reconcile_settles_iff none _ [] (.fin 2) none ?_).mpr ?_
  · intro intent hintent
    rw [nonterminal_unfilled hintent]
    exact ⟨_, rfl⟩
  · intro intent hintent order horder
    rw [nonterminal_unfilled hintent] at horder ⊢
    obtain rfl : order = legOrder .complete 75 75 none := List.mem_singleton.mp horder
    refine ⟨_, rfl, rfl, rfl, by decide, by decide +kernel, by decide +kernel, ?_⟩
    intro id hid _
    exact .inr hid

end BoxEngine
