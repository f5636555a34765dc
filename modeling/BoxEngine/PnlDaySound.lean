import BoxEngine.PnlDay

/-!
# No stale proof at rest

Whichever statement makes a day stale, its operation still owes the invalidation: unless it gives up without
withdrawing the proof.
-/

namespace BoxEngine

open Js Statements

variable {day : String} {digest : DayDigest}

/-- The day is complete under this proof. -/
def PnlDay.Certifies (s : PnlDay) (proof : BoxPnlDayProof) : Prop :=
  ∃ state, s.state = some state ∧ state.complete = true ∧ boxPnlDayProofFromState state = some proof

instance (s : PnlDay) (proof : BoxPnlDayProof) : Decidable (s.Certifies proof) :=
  decidable_of_iff ((s.state.filter DayState.complete).bind boxPnlDayProofFromState = some proof)
    (by simp [PnlDay.Certifies, Option.bind_eq_some_iff, Option.filter_eq_some_iff, and_assoc])

/-- The proof is the one its rows give. -/
def Fits (digest : DayDigest) (docs : List BoxPnlProofDocument) (proof : BoxPnlDayProof) : Prop :=
  boxPnlDayProofsEqual proof (buildBoxPnlDayProof digest docs) = true ∧ boxPnlSummaryMatchesRows docs = true

def PnlDay.stale (digest : DayDigest) (s : PnlDay) : Set BoxPnlDayProof :=
  {proof | s.Certifies proof ∧ ¬Fits digest s.rows proof}

def DayStatement.sure : DayStatement → Bool
  | .now | .keepRetryProof _ | .readRetryProof | .markIncomplete _ | .markRetryIfProof _ => true
  | _ => false

def DayStatement.Withdraws : DayStatement → DayOwn → PnlDay → Prop
  | .markLegacyRetry, g, s => ∀ proof ∈ g.published, ¬s.Certifies proof
  | .markRetryIfProof withdrawn, g, s => ∀ proof ∈ g.published, s.Certifies proof → proof = withdrawn
  | _, _, _ => True

instance : ∀ (c : DayStatement) (g : DayOwn) (s : PnlDay), Decidable (c.Withdraws g s)
  | .markLegacyRetry, g, s => inferInstanceAs (Decidable (∀ proof ∈ g.published, ¬s.Certifies proof))
  | .markRetryIfProof withdrawn, g, s =>
    inferInstanceAs (Decidable (∀ proof ∈ g.published, s.Certifies proof → proof = withdrawn))
  | .now, _, _ | .keepRetryProof _, _, _ | .readRetryProof, _, _ | .markIncomplete _, _, _ => isTrue trivial
  | .existingTrades _, _, _ | .completedFences _, _, _ | .scanPage _, _, _ | .loadSnapshot, _, _ => isTrue trivial
  | .loadDayState, _, _ | .upsertRow _, _, _ | .upsertSummary _, _, _ | .deleteRows _, _, _ => isTrue trivial
  | .publishComplete _, _, _ | .publishRepaired _ _, _, _ | .publishLegacy _, _, _ => isTrue trivial
  | .finalizeLegacy _, _, _ => isTrue trivial

def SureAnswered (c : DayStatement) (_ : DayOwn) (_ : PnlDay) (reply : Reply) : Prop :=
  c.sure = true → reply = .answered

def AnsweredOrWithdrawn (c : DayStatement) (g : DayOwn) (s : PnlDay) (reply : Reply) : Prop :=
  SureAnswered c g s reply ∧ c.Withdraws g s

instance (c : DayStatement) (g : DayOwn) (s : PnlDay) (reply : Reply) : Decidable (SureAnswered c g s reply) :=
  inferInstanceAs (Decidable (c.sure = true → reply = .answered))

instance (c : DayStatement) (g : DayOwn) (s : PnlDay) (reply : Reply) :
    Decidable (AnsweredOrWithdrawn c g s reply) :=
  inferInstanceAs (Decidable (_ ∧ _))

abbrev DayEnds (day : String) (digest : DayDigest) {α : Type} (post : Except PnlError α → DayOwn → Set BoxPnlDayProof → Prop)
    (owed : Set BoxPnlDayProof) (g : DayOwn) (program : DayProgram α) : Prop :=
  Ends (DayStatement.exec day digest) AnsweredOrWithdrawn (PnlDay.stale digest) post owed g program

abbrev DaySettles (day : String) (digest : DayDigest) {α : Type} (program : DayProgram α) : Prop :=
  Settles (DayStatement.exec day digest) AnsweredOrWithdrawn (PnlDay.stale digest) program

/-! ## The state of a day -/

theorem hasProof_of_fromState {state : DayState} {proof : BoxPnlDayProof}
    (h : boxPnlDayProofFromState state = some proof) : state.HasProof proof := by
  unfold boxPnlDayProofFromState at h
  split at h
  · rename_i version count sha hversion hcount hsha
    split at h
    · rename_i hvalid
      simp only [Bool.and_eq_true, decide_eq_true_eq] at hvalid
      cases h
      exact ⟨by rw [hversion, hvalid.1.1], hcount, hsha⟩
    · cases h
  · cases h

theorem DayState.HasProof.unique {state : DayState} {proof proof' : BoxPnlDayProof} (h : state.HasProof proof)
    (h' : state.HasProof proof') : proof = proof' := by
  obtain ⟨-, hcount, hsha⟩ := h
  obtain ⟨-, hcount', hsha'⟩ := h'
  cases proof
  cases proof'
  simp_all

namespace PnlDay

variable {s s' : PnlDay} {proof : BoxPnlDayProof}

theorem Certifies.hasProof (h : s.Certifies proof) :
    ∃ state, s.state = some state ∧ state.complete = true ∧ state.HasProof proof := by
  obtain ⟨state, hstate, hcomplete, hfrom⟩ := h
  exact ⟨state, hstate, hcomplete, hasProof_of_fromState hfrom⟩

theorem stale_subset (hrows : s'.rows = s.rows) (h : ∀ proof, s'.Certifies proof → s.Certifies proof) :
    s'.stale digest ⊆ s.stale digest := by
  rintro proof ⟨hcert, hfits⟩
  refine ⟨h proof hcert, ?_⟩
  rw [← hrows]
  exact hfits

theorem stale_of_incomplete (h : ∀ state, s.state = some state → state.complete = false) : s.stale digest = ∅ := by
  apply Set.eq_empty_iff_forall_notMem.mpr
  rintro proof ⟨⟨state, hstate, hcomplete, -⟩, -⟩
  simp [h state hstate] at hcomplete

theorem invalidated_stale (needsReproof : Bool) : (s.invalidated needsReproof).stale digest = ∅ := by
  apply stale_of_incomplete
  rintro state hstate
  unfold invalidated at hstate
  cases hold : s.state with
  | none | some old => simp only [hold, Option.some.injEq] at hstate; rw [← hstate]

theorem updateState_rows (matching : DayState → Bool) (change : DayState → DayState) :
    (s.updateState matching change).2.rows = s.rows := by
  unfold updateState
  split
  · rfl
  · split <;> rfl

theorem updateState_cases (matching : DayState → Bool) (change : DayState → DayState) :
    (s.updateState matching change = (0, s) ∧ ∀ state, s.state = some state → matching state = false) ∨
    ∃ state, s.state = some state ∧ matching state = true ∧
      s.updateState matching change = (1, { s with state := some (change state) }) := by
  unfold updateState
  cases hstate : s.state with
  | none => exact .inl ⟨rfl, by simp⟩
  | some state =>
    cases hmatch : matching state with
    | false =>
      refine .inl ⟨by simp [hmatch], ?_⟩
      rintro _ ⟨⟩
      exact hmatch
    | true => exact .inr ⟨state, rfl, hmatch, by simp [hmatch]⟩

theorem updateState_certifies {matching : DayState → Bool} {change : DayState → DayState}
    (hcomplete : ∀ state, (change state).complete = true → state.complete = true)
    (hproof : ∀ state, boxPnlDayProofFromState (change state) = boxPnlDayProofFromState state)
    (h : (s.updateState matching change).2.Certifies proof) : s.Certifies proof := by
  rcases updateState_cases (s := s) matching change with ⟨hsame, -⟩ | ⟨state, hstate, -, hchanged⟩
  · rw [hsame] at h
    exact h
  · rw [hchanged] at h
    obtain ⟨_, ⟨⟩, hdone, hfrom⟩ := h
    exact ⟨state, hstate, hcomplete state hdone, (hproof state).symm.trans hfrom⟩

end PnlDay

/-! ## One statement -/

def DayStatement.quiet : DayStatement → Bool
  | .keepRetryProof _ | .upsertRow _ | .upsertSummary _ | .deleteRows _ => false
  | .publishComplete _ | .publishRepaired .. | .publishLegacy _ => false
  | _ => true

variable {c : DayStatement}

theorem quiet_own (hc : c.quiet = true) (g : DayOwn) (s : PnlDay) : (c.exec day digest g s).2.1 = g := by
  cases c <;> first | rfl | simp [DayStatement.quiet] at hc

theorem quiet_stale (hc : c.quiet = true) (g : DayOwn) (s : PnlDay) :
    (c.exec day digest g s).2.2.stale digest ⊆ s.stale digest := by
  cases c with
  | markIncomplete needsReproof =>
    intro proof hstale
    simp [DayStatement.exec, PnlDay.invalidated_stale] at hstale
  | markRetryIfProof proof =>
    apply PnlDay.stale_subset (PnlDay.updateState_rows _ _)
    intro proof' hcert
    refine PnlDay.updateState_certifies ?_ ?_ hcert
    · exact fun _ h => nomatch h
    · exact fun _ => rfl
  | finalizeLegacy proof | markLegacyRetry =>
    apply PnlDay.stale_subset (PnlDay.updateState_rows _ _)
    intro proof' hcert
    refine PnlDay.updateState_certifies ?_ ?_ hcert
    · exact fun _ h => h
    · exact fun _ => rfl
  | keepRetryProof _ | upsertRow _ | upsertSummary _ | deleteRows _ => simp [DayStatement.quiet] at hc
  | publishComplete _ | publishRepaired _ _ | publishLegacy _ => simp [DayStatement.quiet] at hc
  | _ => exact subset_rfl

section

variable {owed : Set BoxPnlDayProof} {g : DayOwn}
variable {c : DayStatement}

theorem ends_ask {post : Except PnlError c.Answer → DayOwn → Set BoxPnlDayProof → Prop}
    (h : ∀ s reply, AnsweredOrWithdrawn c g s reply → post (match (take (DayStatement.exec day digest) c g s reply).1 with | some answer => .ok answer | none => .error .statement) (take (DayStatement.exec day digest) c g s reply).2.1 (owedAfter (PnlDay.stale digest) owed s (take (DayStatement.exec day digest) c g s reply).2.2)) :
    DayEnds day digest post owed g (ask c) := by
  intro s reply hallowed
  have hpost := h s reply hallowed
  cases reply <;> exact hpost

theorem settles_ask (hc : c.quiet = true) : DaySettles day digest (ask c) := by
  apply Settles.call (quiet_own hc) (quiet_stale hc)
  rintro (_ | answer)
  · exact Settles.raise _
  · exact Settles.pure _

theorem ends_invalidate (needsReproof : Bool) : DayEnds day digest
    (fun r g' owed' => r = .ok () ∧ g' = g ∧ owed' = ∅) owed g (markBoxDailyPnlIncomplete needsReproof) := by
  apply ends_ask
  intro s reply hallowed
  cases hallowed.1 rfl
  exact ⟨rfl, rfl, owedAfter_eq_empty (PnlDay.invalidated_stale needsReproof)⟩

theorem ends_loadSnapshot : DayEnds day digest
    (fun r g' owed' => g' = g ∧ owed' ⊆ owed ∧ ∀ docs, r = .ok docs → ∀ proof ∈ owed', ¬Fits digest docs proof)
    owed g (ask .loadSnapshot) := by
  apply ends_ask
  intro s reply _
  have hle : owedAfter (PnlDay.stale digest) owed s s ⊆ owed := owedAfter_subset subset_rfl
  cases reply with
  | answered =>
    refine ⟨rfl, hle, ?_⟩
    rintro _ ⟨⟩ proof hproof
    exact hproof.1.2
  | refused | lost => exact ⟨rfl, hle, by simp [take]⟩

theorem ends_loadDayState : DayEnds day digest
    (fun r g' owed' => g' = g ∧ owed' ⊆ owed ∧ ∀ state, r = .ok state → ∀ proof ∈ owed',
      state.bind boxPnlDayProofFromState = some proof)
    owed g (ask .loadDayState) := by
  apply ends_ask
  intro s reply _
  have hle : owedAfter (PnlDay.stale digest) owed s s ⊆ owed := owedAfter_subset subset_rfl
  cases reply with
  | answered =>
    refine ⟨rfl, hle, ?_⟩
    rintro _ ⟨⟩ proof hproof
    obtain ⟨state, hstate, -, hfrom⟩ := hproof.1.1
    change s.state = some state at hstate
    change s.state.bind _ = _
    rw [hstate]
    exact hfrom
  | refused | lost => exact ⟨rfl, hle, by simp [take]⟩

variable (proof : BoxPnlDayProof)

theorem ends_keepRetryProof : DayEnds day digest
    (fun r g' owed' => r = .ok () ∧ g'.published = g.published ∧ owed' ⊆ owed) owed g (ask (.keepRetryProof proof)) := by
  apply ends_ask
  intro s reply hallowed
  cases hallowed.1 rfl
  exact ⟨rfl, rfl, owedAfter_subset subset_rfl⟩

theorem ends_readRetryProof : DayEnds day digest (fun r g' owed' => r = .ok g.retryProof ∧ g' = g ∧ owed' ⊆ owed) owed g
    (ask .readRetryProof) := by
  apply ends_ask
  intro s reply hallowed
  cases hallowed.1 rfl
  exact ⟨rfl, rfl, owedAfter_subset subset_rfl⟩

theorem ends_own (hown : ∀ s, (c.exec day digest g s).2.1 = g) :
    DayEnds day digest (fun _ g' _ => g' = g) owed g (ask c) := by
  apply ends_ask
  intro s reply _
  cases reply with
  | answered => exact hown s
  | refused => rfl
  | lost => exact hown s

/-! ## Publications and withdrawals -/

theorem stale_published {s s' : PnlDay} {proof : BoxPnlDayProof} (hrows : s'.rows = s.rows)
    (h : ∀ state, s'.state = some state → state.HasProof proof ∨ s.state = some state) {stale : BoxPnlDayProof}
    (hstale : stale ∈ owedAfter (PnlDay.stale digest) ∅ s s') : stale = proof := by
  obtain ⟨⟨⟨state, hstate, hcomplete, hfrom⟩, hfits⟩, hmem | hnew⟩ := hstale
  · cases hmem
  · rcases h state hstate with hproof | hold
    · exact (hasProof_of_fromState hfrom).unique hproof
    · refine absurd ⟨⟨state, hold, hcomplete, hfrom⟩, ?_⟩ hnew
      rw [← hrows]
      exact hfits

theorem ends_publishComplete : DayEnds day digest
    (fun _ _ owed' => ∀ p ∈ owed', p = proof) ∅ g (ask (.publishComplete proof)) := by
  have hdone : ∀ s, ∀ p ∈ owedAfter (PnlDay.stale digest) ∅ s
      (DayStatement.exec day digest (.publishComplete proof) g s).2.2, p = proof := by
    intro s p hp
    refine stale_published (by rfl) ?_ hp
    rintro _ ⟨⟩
    exact .inl ⟨rfl, rfl, rfl⟩
  apply ends_ask
  intro s reply _
  cases reply with
  | answered => exact hdone s
  | refused => exact fun p hp => absurd (owedAfter_subset subset_rfl hp) (Set.notMem_empty p)
  | lost => exact hdone s

theorem ends_publish {proof : BoxPnlDayProof} {matching : DayState → Bool} {change : DayState → DayState}
    (hchange : ∀ state, (change state).HasProof proof)
    (hexec : ∀ s, (c.exec day digest g s).2 = (g.publishing proof (s.updateState matching change).1,
      (s.updateState matching change).2)) :
    DayEnds day digest (fun _ g' owed' => ∀ p ∈ owed', p = proof ∧ p ∈ g'.published) ∅ g (ask c) := by
  have hdone : ∀ s, ∀ p ∈ owedAfter (PnlDay.stale digest) ∅ s (c.exec day digest g s).2.2,
      p = proof ∧ p ∈ (c.exec day digest g s).2.1.published := by
    intro s p hp
    rw [hexec s] at hp ⊢
    rcases PnlDay.updateState_cases (s := s) matching change with ⟨hsame, -⟩ | ⟨state, hstate, -, hchanged⟩
    · rw [hsame] at hp
      exact absurd (owedAfter_subset subset_rfl hp) (Set.notMem_empty p)
    · rw [hchanged] at hp ⊢
      have heq : p = proof := by
        refine stale_published (by rfl) ?_ hp
        rintro _ ⟨⟩
        exact .inl (hchange state)
      subst heq
      exact ⟨rfl, by simp [DayOwn.publishing]⟩
  apply ends_ask
  intro s reply _
  cases reply with
  | answered => exact hdone s
  | refused => exact fun p hp => absurd (owedAfter_subset subset_rfl hp) (Set.notMem_empty p)
  | lost => exact hdone s

theorem ends_publishRepaired (prior next : BoxPnlDayProof) : DayEnds day digest
    (fun _ g' owed' => ∀ p ∈ owed', p = next ∧ p ∈ g'.published) ∅ g (ask (.publishRepaired prior next)) :=
  ends_publish (fun _ => ⟨rfl, rfl, rfl⟩) fun _ => rfl

theorem ends_publishLegacy : DayEnds day digest
    (fun _ g' owed' => ∀ p ∈ owed', p = proof ∧ p ∈ g'.published) ∅ g (ask (.publishLegacy proof)) :=
  ends_publish (fun _ => ⟨rfl, rfl, rfl⟩) fun _ => rfl

theorem ends_markLegacyRetry (howed : ∀ p ∈ owed, p ∈ g.published) : DayEnds day digest
    (fun _ _ owed' => owed' = ∅) owed g (ask .markLegacyRetry) := by
  apply ends_ask
  intro s reply hallowed
  apply Set.eq_empty_iff_forall_notMem.mpr
  intro p hp
  have hstale : (take (DayStatement.exec day digest) .markLegacyRetry g s reply).2.2.stale digest ⊆
      s.stale digest := by
    cases reply with
    | answered => exact quiet_stale (by rfl) g s
    | refused => exact subset_rfl
    | lost => exact quiet_stale (by rfl) g s
  exact hallowed.2 p (howed p (owedAfter_subset hstale hp)) (hstale hp.1).1

theorem ends_markRetryIfProof (howed : ∀ p ∈ owed, p ∈ g.published) (proof : BoxPnlDayProof) : DayEnds day digest
    (fun _ _ owed' => owed' = ∅) owed g (ask (.markRetryIfProof proof)) := by
  apply ends_ask
  intro s reply hallowed
  cases hallowed.1 rfl
  apply Set.eq_empty_iff_forall_notMem.mpr
  intro p hp
  have hstale : (DayStatement.exec day digest (.markRetryIfProof proof) g s).2.2.stale digest ⊆ s.stale digest :=
    quiet_stale (by rfl) g s
  have heq : p = proof := hallowed.2 p (howed p (owedAfter_subset hstale hp)) (hstale hp.1).1
  -- the update met the certified state, and withdrew it
  obtain ⟨state, hstate, hcomplete, hproof⟩ := hp.1.1.hasProof
  change (s.updateState _ _).2.state = some state at hstate
  rcases PnlDay.updateState_cases (s := s) (fun state => state.HasProof proof)
    (fun state => { state with complete := false, needsReproof := true }) with ⟨hsame, hnone⟩ | ⟨old, -, -, hchanged⟩
  · rw [hsame] at hstate
    have hmatch := hnone state hstate
    simp [← heq, hproof] at hmatch
  · rw [hchanged] at hstate
    cases hstate
    cases hcomplete

end

variable {α : Type}

theorem settles_mutation {mutate : DayProgram α}
    (hmutate : ∀ g, DayEnds day digest (fun _ g' _ => g' = g) Set.univ g mutate) :
    DaySettles day digest (mutateDurablePnlDay mutate) := by
  intro owed g
  apply Ends.bind
  apply (ends_invalidate true).imp
  rintro _ g₁ owed₁ ⟨rfl, rfl, rfl⟩
  apply Ends.bind
  apply Ends.attempt
  -- whatever the mutation makes stale, the invalidation after it clears
  refine Ends.anti ?_ (Set.subset_univ _) ((hmutate g₁).imp ?_)
  · intro r g₂ owed₂ owed₃ hle hends
    exact Ends.anti (fun _ _ _ _ hsub hpost => ⟨hpost.1, hsub.trans hpost.2⟩) hle hends
  · rintro (mutationError | result) g₂ owed₂ rfl
    · apply Ends.bind
      apply Ends.recover
      apply (ends_invalidate true).imp
      rintro _ g₃ owed₃ ⟨rfl, rfl, rfl⟩
      exact ⟨rfl, Set.empty_subset _⟩
    · apply Ends.bind
      apply (ends_invalidate true).imp
      rintro _ g₃ owed₃ ⟨rfl, rfl, rfl⟩
      exact ⟨rfl, Set.empty_subset _⟩

theorem settles_mutation_ask (hown : ∀ g s, (c.exec day digest g s).2.1 = g) :
    DaySettles day digest (mutateDurablePnlDay (ask c)) :=
  settles_mutation fun g => ends_own (hown g)

/-! ## Reads of the sources and of the pages -/

theorem settles_existingSources (validIds : List String) : DaySettles day digest (existingSources validIds) := by
  unfold existingSources
  split
  · exact Settles.pure _
  · exact settles_ask rfl

theorem settles_invalidInBatches (batches : List (List String)) : DaySettles day digest (invalidInBatches batches) := by
  induction batches with
  | nil => exact Settles.pure _
  | cons batch rest ih =>
    apply Settles.bind (settles_existingSources _)
    intro sources
    apply Settles.bind (settles_ask rfl)
    intro completed
    exact Settles.bind ih fun later => Settles.pure _

theorem settles_invalidArchivedTradeIds (ids : List String) : DaySettles day digest (invalidArchivedTradeIds ids) :=
  settles_invalidInBatches _

theorem settles_requireValidSources (docs : List BoxPnlProofDocument) (message : String) :
    DaySettles day digest (requireValidSources docs message) := by
  apply Settles.bind (settles_invalidArchivedTradeIds _)
  intro invalid
  split
  · exact Settles.pure _
  · exact Settles.raise _

theorem settles_finishScan (builder : BoxPnlDayProofBuilder) (invalidTradeIds : List String) :
    DaySettles day digest (finishScan digest builder invalidTradeIds) :=
  Settles.bind (settles_ask rfl) fun _ => Settles.pure _

variable (pages : ℕ)

theorem settles_scanPages (builder : BoxPnlDayProofBuilder) (afterTradeId : String) (invalidTradeIds : List String) :
    DaySettles day digest (scanPages digest pages builder afterTradeId invalidTradeIds) := by
  induction pages generalizing builder afterTradeId invalidTradeIds with
  | zero => exact Settles.raise _
  | succ pages ih =>
    apply Settles.bind (settles_ask rfl)
    intro docs
    split
    · exact settles_finishScan _ _
    · apply Settles.bind (settles_invalidArchivedTradeIds _)
      intro invalid
      split
      · exact settles_finishScan _ _
      · exact ih _ _ _

theorem settles_rewriteAttempts (pages attempts : ℕ) :
    DaySettles day digest (rewriteAttempts day digest pages attempts) := by
  induction attempts with
  | zero => exact Settles.raise _
  | succ attempts ih =>
    apply Settles.bind (settles_scanPages pages _ _ _)
    intro before
    split
    · exact Settles.raise _
    · apply Settles.bind (settles_mutation_ask fun _ _ => rfl)
      intro _
      apply Settles.bind (settles_scanPages pages _ _ _)
      intro after
      split
      · exact Settles.pure _
      · exact ih

theorem settles_settleSummary : DaySettles day digest (settleSummary day digest pages) :=
  Settles.bind (settles_rewriteAttempts pages 5) fun _ => Settles.pure _

theorem settles_upsert (doc : BoxPnlProofDocument) :
    DaySettles day digest (upsertBoxDailyPnl day digest pages doc) := by
  have hallowed : DaySettles day digest (do
      let invalid ← invalidArchivedTradeIds [doc.tradeId]
      pure invalid.isEmpty) :=
    Settles.bind (settles_invalidArchivedTradeIds _) fun _ => Settles.pure _
  unfold upsertBoxDailyPnl runSourceSafePnlRowUpsert
  split
  · exact settles_settleSummary pages
  · apply Settles.bind _ fun _ => Settles.pure _
    apply Settles.bind hallowed
    intro first
    split
    · exact Settles.pure _
    · apply Settles.bind (settles_mutation_ask fun _ _ => rfl)
      intro _
      apply Settles.bind hallowed
      intro second
      split
      · exact Settles.pure _
      · apply Settles.bind
        · apply settles_mutation
          intro g
          apply Ends.bind
          apply (ends_own fun _ => rfl).imp
          rintro (e | deleted) g' owed' rfl <;> rfl
        · exact fun _ => Settles.bind (settles_settleSummary pages) fun _ => Settles.pure _

theorem settles_deleteInBatches (batches : List (List String)) : DaySettles day digest (deleteInBatches batches) := by
  induction batches with
  | nil => exact Settles.pure _
  | cons batch rest ih =>
    apply Settles.bind (settles_mutation_ask fun _ _ => rfl)
    exact fun deleted => Settles.bind ih fun later => Settles.pure _

/-! ## Publishers -/

abbrev DayClears (day : String) (digest : DayDigest) {α : Type} (program : DayProgram α) : Prop :=
  ∀ g : DayOwn, g.published = [] → DayEnds day digest (fun _ _ owed' => owed' = ∅) ∅ g program

theorem clears_of_settles {program : DayProgram α} (h : DaySettles day digest program) : DayClears day digest program :=
  fun g _ => (h ∅ g).imp fun _ _ _ hpost => Set.subset_eq_empty hpost.2 rfl

theorem clears_bind {α β : Type} {m : DayProgram α} {f : α → DayProgram β} (hm : DaySettles day digest m)
    (hf : ∀ a, DayClears day digest (f a)) : DayClears day digest (m >>= f) := by
  intro g hg
  apply Ends.bind
  apply (hm ∅ g).imp
  rintro (e | a) g' owed' ⟨rfl, hle⟩
  · exact Set.subset_eq_empty hle rfl
  · rw [Set.subset_eq_empty hle rfl]
    exact hf a g' hg

theorem clears_then_pure {α β : Type} {m : DayProgram α} (f : α → β) (hm : DayClears day digest m) :
    DayClears day digest (do
      let a ← m
      pure (f a)) := by
  intro g hg
  apply Ends.bind
  apply (hm g hg).imp
  rintro (e | a) g' owed' rfl <;> rfl

section

variable {settle : DayProgram Unit} (hsettle : DaySettles day digest settle)
include hsettle

section

variable {load : DayProgram (List BoxPnlProofDocument)} (hload : ∀ owed g, DayEnds day digest
  (fun r g' owed' => g' = g ∧ owed' ⊆ owed ∧ ∀ docs, r = .ok docs → ∀ proof ∈ owed', ¬Fits digest docs proof)
  owed g load)
include hload

theorem clears_commit (expected : List BoxPnlProofDocument) {publish : BoxPnlDayProof → DayProgram Unit}
    (hpublish : ∀ proof g, DayEnds day digest (fun _ _ owed' => ∀ p ∈ owed', p = proof) ∅ g (publish proof)) :
    DayClears day digest
      (runBoxPnlDayProofCommit digest expected settle load publish (markBoxDailyPnlIncomplete true)) := by
  intro g _
  apply Ends.recover
  -- what fails is invalidated, so only a success has to have cleared everything
  suffices hbody : DayEnds day digest (fun r _ owed' => ∀ proof, r = .ok proof → owed' = ∅) ∅ g _ by
    apply hbody.imp
    rintro (e | proof) g' owed' hok
    · apply Ends.bind
      apply (ends_invalidate true).imp
      rintro _ g₂ owed₂ ⟨rfl, rfl, rfl⟩
      rfl
    · exact hok proof rfl
  apply Ends.bind
  apply (hsettle ∅ g).imp
  rintro (e | _) g₁ owed₁ ⟨rfl, hle⟩
  · exact fun _ hr => nomatch hr
  rw [Set.subset_eq_empty hle rfl]
  apply Ends.bind
  apply (hload ∅ g₁).imp
  rintro (e | docs) g₂ owed₂ ⟨rfl, hle₂, -⟩
  · exact fun _ hr => nomatch hr
  rw [Set.subset_eq_empty hle₂ rfl]
  dsimp only
  split
  · exact fun _ hr => nomatch hr
  apply Ends.bind
  apply (hpublish _ g₂).imp
  rintro (e | _) g₃ owed₃ howed
  · exact fun _ hr => nomatch hr
  apply Ends.bind
  apply (hload owed₃ g₃).imp
  rintro (e | docs') g₄ owed₄ ⟨rfl, hle₄, hfits⟩
  · exact fun _ hr => nomatch hr
  dsimp only
  split
  · exact fun _ hr => nomatch hr
  · rename_i hagrees
    intro _ _
    apply Set.eq_empty_iff_forall_notMem.mpr
    intro p hp
    apply hfits docs' rfl p hp
    rw [howed p (hle₄ hp)]
    simpa [Fits, and_comm] using hagrees

end

section

variable {load : DayProgram (List BoxPnlProofDocument)} {validate : List BoxPnlProofDocument → DayProgram Unit}
  (hload : ∀ owed g, DayEnds day digest
    (fun r g' owed' => g' = g ∧ owed' ⊆ owed ∧ ∀ docs, r = .ok docs → ∀ proof ∈ owed', ¬Fits digest docs proof)
    owed g load)
  (hvalidate : ∀ docs, DaySettles day digest (validate docs))

omit hsettle in
include hload hvalidate in
theorem ends_loadValid (expectedRowCount : ℕ) (requireSummary : Bool) (owed : Set BoxPnlDayProof) (g : DayOwn) :
    DayEnds day digest (fun r g' owed' => g' = g ∧ owed' ⊆ owed ∧ (requireSummary = true →
      ∀ proof, r = .ok proof → ∀ p ∈ owed', ¬(boxPnlDayProofsEqual p proof = true))) owed g
      (loadValid digest expectedRowCount load validate requireSummary) := by
  apply Ends.bind
  apply (hload owed g).imp
  rintro (e | docs) g₁ owed₁ ⟨rfl, hle, hfits⟩
  · exact ⟨rfl, hle, fun _ _ hr => nomatch hr⟩
  apply Ends.bind
  apply (hvalidate docs owed₁ g₁).imp
  rintro (e | _) g₂ owed₂ ⟨rfl, hle₂⟩
  · exact ⟨rfl, hle₂.trans hle, fun _ _ hr => nomatch hr⟩
  dsimp only
  split
  · exact ⟨rfl, hle₂.trans hle, fun _ _ hr => nomatch hr⟩
  split
  · exact ⟨rfl, hle₂.trans hle, fun _ _ hr => nomatch hr⟩
  · rename_i hsummary
    refine ⟨rfl, hle₂.trans hle, ?_⟩
    rintro rfl _ ⟨⟩ p hp hequal
    refine hfits docs rfl p (hle₂ hp) ⟨hequal, ?_⟩
    simpa using hsummary

include hload hvalidate in
theorem clears_repair (lastExactProof : BoxPnlDayProof) (expectedRowCount : ℕ)
    {publish : BoxPnlDayProof → BoxPnlDayProof → DayProgram Unit} {markRetry : DayProgram Unit}
    (hpublish : ∀ prior next g, DayEnds day digest (fun _ g' owed' => ∀ p ∈ owed', p = next ∧ p ∈ g'.published) ∅ g
      (publish prior next))
    (hretry : ∀ (owed : Set BoxPnlDayProof) (g : DayOwn), (∀ p ∈ owed, p ∈ g.published) →
      DayEnds day digest (fun _ _ owed' => owed' = ∅) owed g markRetry) (g : DayOwn) :
    DayEnds day digest (fun _ _ owed' => owed' = ∅) ∅ g
      (runBoxPnlDayProofRepair digest lastExactProof expectedRowCount settle load validate publish markRetry) := by
  apply Ends.recover
  -- what fails gives up its own proof, so only a success has to have cleared everything
  suffices hbody : DayEnds day digest (fun r g' owed' => (∀ p ∈ owed', p ∈ g'.published) ∧
      ∀ proof, r = .ok proof → owed' = ∅) ∅ g _ by
    apply hbody.imp
    rintro (e | proof) g' owed' ⟨howed, hok⟩
    · apply Ends.bind
      apply (hretry owed' g' howed).imp
      rintro (_ | _) g₂ owed₂ rfl <;> rfl
    · exact hok proof rfl
  have hloadValid := ends_loadValid hload hvalidate expectedRowCount
  have hnothing : ∀ {owed' : Set BoxPnlDayProof} {g' : DayOwn}, owed' ⊆ ∅ → ∀ p ∈ owed', p ∈ g'.published :=
    fun hle p hp => absurd (hle hp) (Set.notMem_empty p)
  apply Ends.bind
  apply (hloadValid false ∅ g).imp
  rintro (e | _) g₁ owed₁ ⟨rfl, hle₁, -⟩
  · exact ⟨hnothing hle₁, fun _ hr => nomatch hr⟩
  rw [Set.subset_eq_empty hle₁ rfl]
  apply Ends.bind
  apply (hsettle ∅ g₁).imp
  rintro (e | _) g₂ owed₂ ⟨rfl, hle₂⟩
  · exact ⟨hnothing hle₂, fun _ hr => nomatch hr⟩
  rw [Set.subset_eq_empty hle₂ rfl]
  apply Ends.bind
  apply (hloadValid true ∅ g₂).imp
  rintro (e | before) g₃ owed₃ ⟨rfl, hle₃, -⟩
  · exact ⟨hnothing hle₃, fun _ hr => nomatch hr⟩
  rw [Set.subset_eq_empty hle₃ rfl]
  apply Ends.bind
  apply (hpublish lastExactProof before g₃).imp
  rintro (e | _) g₄ owed₄ howed
  · exact ⟨fun p hp => (howed p hp).2, fun _ hr => nomatch hr⟩
  apply Ends.bind
  apply (hloadValid true owed₄ g₄).imp
  rintro (e | after) g₅ owed₅ ⟨rfl, hle₅, hfits⟩
  · exact ⟨fun p hp => (howed p (hle₅ hp)).2, fun _ hr => nomatch hr⟩
  dsimp only
  split
  · exact ⟨fun p hp => (howed p (hle₅ hp)).2, fun _ hr => nomatch hr⟩
  · rename_i hequal
    have hempty : owed₅ = ∅ := by
      apply Set.eq_empty_iff_forall_notMem.mpr
      intro p hp
      apply hfits rfl after rfl p hp
      rw [(howed p (hle₅ hp)).1]
      simpa using hequal
    exact ⟨hnothing hempty.subset, fun _ _ => hempty⟩

end

end

variable (expectedTradeIds : Option ExpectedTradeIds)

theorem clears_migration {filterSourceValidExpectedIds : List String → DayProgram (List String)}
    {settleAndLoad : DayProgram (List BoxPnlProofDocument)} {publishV2 : List BoxPnlProofDocument → DayProgram Unit}
    {loadPublished : DayProgram (List BoxPnlProofDocument × Option DayState)}
    {finalizeV2 : BoxPnlDayProof → DayProgram Unit} {markRetry : DayProgram Unit}
    (hfilter : ∀ ids, DaySettles day digest (filterSourceValidExpectedIds ids))
    (hsettle : DaySettles day digest settleAndLoad)
    (hpublish : ∀ docs g, DayEnds day digest (fun _ g' owed' => ∀ p ∈ owed', p ∈ g'.published) ∅ g (publishV2 docs))
    (hload : ∀ owed g, DayEnds day digest (fun r g' owed' => g' = g ∧ owed' ⊆ owed ∧ ∀ published, r = .ok published →
      ∀ p ∈ owed', ¬Fits digest published.1 p ∧ published.2.bind boxPnlDayProofFromState = some p) owed g loadPublished)
    (hfinalize : ∀ proof, DaySettles day digest (finalizeV2 proof))
    (hretry : ∀ (owed : Set BoxPnlDayProof) (g : DayOwn), (∀ p ∈ owed, p ∈ g.published) →
      DayEnds day digest (fun _ _ owed' => owed' = ∅) owed g markRetry) :
    DayClears day digest (runLegacyBoxPnlDayMigration digest expectedTradeIds filterSourceValidExpectedIds settleAndLoad
      publishV2 loadPublished finalizeV2 markRetry) := by
  intro g _
  apply Ends.recover
  suffices hbody : DayEnds day digest (fun r g' owed' => (∀ p ∈ owed', p ∈ g'.published) ∧
      ∀ migrated, r = .ok migrated → owed' = ∅) ∅ g _ by
    apply hbody.imp
    rintro (e | migrated) g' owed' ⟨howed, hok⟩
    · apply Ends.bind
      apply (hretry owed' g' howed).imp
      rintro (_ | _) g₂ owed₂ rfl <;> rfl
    · exact hok migrated rfl
  have hnothing : ∀ {owed' : Set BoxPnlDayProof} {g' : DayOwn}, owed' ⊆ ∅ → ∀ p ∈ owed', p ∈ g'.published :=
    fun hle p hp => absurd (hle hp) (Set.notMem_empty p)
  split
  · exact ⟨hnothing subset_rfl, fun _ hr => nomatch hr⟩
  rename_i expectedIds _
  apply Ends.bind
  apply (hfilter expectedIds ∅ g).imp
  rintro (e | valid) g₁ owed₁ ⟨rfl, hle₁⟩
  · exact ⟨hnothing hle₁, fun _ hr => nomatch hr⟩
  rw [Set.subset_eq_empty hle₁ rfl]
  apply Ends.bind
  apply (hsettle ∅ g₁).imp
  rintro (e | settled) g₂ owed₂ ⟨rfl, hle₂⟩
  · exact ⟨hnothing hle₂, fun _ hr => nomatch hr⟩
  rw [Set.subset_eq_empty hle₂ rfl]
  dsimp only
  split
  · exact ⟨hnothing subset_rfl, fun _ hr => nomatch hr⟩
  apply Ends.bind
  apply (hpublish settled g₂).imp
  rintro (e | _) g₃ owed₃ howed
  · exact ⟨howed, fun _ hr => nomatch hr⟩
  apply Ends.bind
  apply (hload owed₃ g₃).imp
  rintro (e | ⟨docs, state⟩) g₄ owed₄ ⟨rfl, hle₄, hread⟩
  · exact ⟨fun p hp => howed p (hle₄ hp), fun _ hr => nomatch hr⟩
  dsimp only
  split
  · exact ⟨fun p hp => howed p (hle₄ hp), fun _ hr => nomatch hr⟩
  rename_i proof hproof
  split
  · exact ⟨fun p hp => howed p (hle₄ hp), fun _ hr => nomatch hr⟩
  rename_i hmatches
  have hempty : owed₄ = ∅ := by
    apply Set.eq_empty_iff_forall_notMem.mpr
    intro p hp
    obtain ⟨hfits, hstate⟩ := hread _ rfl p hp
    apply hfits
    cases hproof.symm.trans hstate
    simpa [Fits, and_comm] using hmatches
  rw [hempty]
  apply Ends.bind
  apply (hfinalize proof ∅ g₄).imp
  rintro (e | _) g₅ owed₅ ⟨rfl, hle₅⟩
  · exact ⟨hnothing hle₅, fun _ hr => nomatch hr⟩
  · exact ⟨hnothing hle₅, fun _ _ => Set.subset_eq_empty hle₅ rfl⟩

/-! ## The operations -/

theorem clears_markComplete (expectedDocs : List BoxPnlProofDocument) :
    DayClears day digest (markBoxDailyPnlComplete day digest pages expectedDocs) := by
  apply clears_bind (settles_invalidArchivedTradeIds _)
  intro invalid
  split
  · exact clears_of_settles (Settles.bind (settles_ask rfl) fun _ => Settles.raise _)
  · apply clears_then_pure
    refine clears_commit (settles_settleSummary pages) ?_ expectedDocs fun proof _ => ends_publishComplete proof
    intro owed g
    apply Ends.bind
    apply ends_loadSnapshot.imp
    rintro (e | docs) g₁ owed₁ ⟨rfl, hle, hfits⟩
    · exact ⟨rfl, hle, fun _ hr => nomatch hr⟩
    apply Ends.bind
    apply (settles_requireValidSources docs _ owed₁ g₁).imp
    rintro (e | _) g₂ owed₂ ⟨rfl, hle₂⟩
    · exact ⟨rfl, hle₂.trans hle, fun _ hr => nomatch hr⟩
    · refine ⟨rfl, hle₂.trans hle, ?_⟩
      rintro _ ⟨⟩ p hp
      exact hfits docs rfl p (hle₂ hp)

theorem clears_reprove (expectedRowCount : Option ℕ) :
    DayClears day digest (reproveBoxDailyPnlFromDurable day digest pages expectedRowCount) := by
  apply clears_bind (settles_ask rfl)
  intro state
  split
  · exact clears_of_settles (Settles.bind (settles_ask rfl) fun _ => Settles.raise _)
  rename_i lastExactProof _
  intro g _
  apply Ends.bind
  apply (ends_keepRetryProof lastExactProof).imp
  rintro _ g₁ owed₁ ⟨rfl, -, hle⟩
  rw [Set.subset_eq_empty hle rfl]
  dsimp only
  apply Ends.bind
  refine (clears_repair (settles_settleSummary pages) (fun _ _ => ends_loadSnapshot)
    (fun docs => settles_requireValidSources docs _) lastExactProof _ ?_ ?_ g₁).imp ?_
  · intro prior next g
    apply Ends.bind
    apply (ends_publishRepaired prior next).imp
    rintro (e | rowCount) g₂ owed₂ howed
    · exact howed
    dsimp only
    split
    · exact howed
    · apply (ends_keepRetryProof next).imp
      rintro _ g₃ owed₃ ⟨-, hkept, hle₃⟩ p hp
      rw [hkept]
      exact howed p (hle₃ hp)
  · intro owed g howed
    apply Ends.bind
    apply ends_readRetryProof.imp
    rintro _ g₂ owed₂ ⟨rfl, rfl, hle₂⟩
    exact ends_markRetryIfProof (fun p hp => howed p (hle₂ hp)) _
  · rintro (e | _) g₂ owed₂ rfl <;> rfl

theorem clears_migrate : DayClears day digest (migrateLegacyBoxDailyPnlState day digest pages expectedTradeIds) := by
  refine clears_migration expectedTradeIds ?_ ?_ ?_ ?_ ?_ fun _ _ howed => ends_markLegacyRetry howed
  · exact fun ids => Settles.bind (settles_invalidArchivedTradeIds ids) fun _ => Settles.pure _
  · exact Settles.bind (settles_settleSummary pages) fun _ => settles_ask rfl
  · intro docs g
    apply Ends.bind
    apply (settles_requireValidSources docs _ ∅ g).imp
    rintro (e | _) g₁ owed₁ ⟨rfl, hle⟩
    · exact fun p hp => absurd (hle hp) (Set.notMem_empty p)
    rw [Set.subset_eq_empty hle rfl]
    exact (ends_publishLegacy _).imp fun _ _ _ howed p hp => (howed p hp).2
  · intro owed g
    apply Ends.bind
    apply ends_loadSnapshot.imp
    rintro (e | docs) g₁ owed₁ ⟨rfl, hle, hfits⟩
    · exact ⟨rfl, hle, fun _ hr => nomatch hr⟩
    apply Ends.bind
    apply ends_loadDayState.imp
    rintro (e | state) g₂ owed₂ ⟨rfl, hle₂, hstate⟩
    · exact ⟨rfl, hle₂.trans hle, fun _ hr => nomatch hr⟩
    · refine ⟨rfl, hle₂.trans hle, ?_⟩
      rintro _ ⟨⟩ p hp
      exact ⟨hfits docs rfl p (hle₂ hp), hstate state rfl p hp⟩
  · intro proof
    apply Settles.bind (settles_ask rfl)
    intro rowCount
    split
    · exact Settles.raise _
    · exact Settles.pure _

theorem clears_isComplete (docs : List BoxPnlProofDocument) :
    DayClears day digest (isBoxDailyPnlSnapshotComplete day digest pages docs) := by
  apply clears_bind (settles_ask rfl)
  intro state
  split
  · exact clears_of_settles (Settles.pure _)
  split
  · exact clears_of_settles (Settles.pure _)
  split
  · split
    · exact clears_migrate pages _
    · exact clears_of_settles (Settles.bind (settles_ask rfl) fun _ => Settles.pure _)
  · split
    · exact clears_of_settles (Settles.pure _)
    · exact clears_of_settles (Settles.bind (settles_ask rfl) fun _ => Settles.pure _)

theorem clears_cleanDay (tradeId : String) : DayClears day digest (cleanDay day digest pages tradeId) := by
  apply clears_bind (settles_ask rfl)
  intro state
  apply clears_bind (settles_scanPages pages _ _ _)
  intro survivors
  apply clears_bind (settles_mutation_ask fun _ _ => rfl)
  intro deleted
  split
  · intro g hg
    apply Ends.bind
    apply (clears_migrate pages _ g hg).imp
    rintro (e | migrated) g' owed' rfl
    · rfl
    dsimp only
    split <;> rfl
  · split
    · exact clears_then_pure _ (clears_reprove pages _)
    · exact clears_then_pure _ (clears_of_settles (settles_settleSummary pages))

theorem clears_call (call : DayCall) : Clears (DayStatement.exec day digest) AnsweredOrWithdrawn (PnlDay.stale digest)
    ∅ (call.thread day digest) := by
  obtain ⟨operation, pages⟩ := call
  cases operation with
  | markIncomplete needsReproof => exact clears_of_settles (settles_ask rfl) .new rfl
  | rewriteSummary => exact clears_of_settles (settles_settleSummary pages) .new rfl
  | upsert doc => exact clears_of_settles (settles_upsert pages doc) .new rfl
  | deleteRows tradeIds => exact clears_then_pure _ (clears_of_settles (settles_deleteInBatches _)) .new rfl
  | cleanDay tradeId => exact clears_then_pure _ (clears_cleanDay pages tradeId) .new rfl
  | markComplete expectedDocs => exact clears_markComplete pages expectedDocs .new rfl
  | isComplete docs => exact clears_then_pure _ (clears_isComplete pages docs) .new rfl
  | reprove expectedRowCount => exact clears_reprove pages expectedRowCount .new rfl
  | migrate expectedTradeIds => exact clears_then_pure _ (clears_migrate pages expectedTradeIds) .new rfl

/-- A day that says complete with a version-2 proof has the rows of that proof, and their summary. -/
def PnlDay.Fresh (digest : DayDigest) (s : PnlDay) : Prop :=
  ∀ proof, s.Certifies proof →
    boxPnlDayProofsEqual proof (buildBoxPnlDayProof digest s.rows) = true ∧ boxPnlSummaryMatchesRows s.rows = true

theorem PnlDay.fresh_iff {s : PnlDay} : s.Fresh digest ↔ s.stale digest = ∅ := by
  rw [Set.eq_empty_iff_forall_notMem]
  constructor
  · rintro h proof ⟨hcert, hfits⟩
    exact hfits (h proof hcert)
  · intro h proof hcert
    by_contra hfits
    exact h proof ⟨hcert, hfits⟩

theorem PnlDay.changed_stale (change : SourceChange) (s : PnlDay) :
    (PnlDay.changed change s).stale digest ⊆ s.stale digest := subset_rfl

/-- Where who gives up withdraws what it published, no proof is stale at rest. -/
theorem proof_fresh_at_rest (day : String) (digest : DayDigest) (s : PnlDay) (hs : s.Fresh digest)
    {events : List DayEvent} (h : Run.Guarded (PnlDay.step day digest) (Allowed AnsweredOrWithdrawn) ⟨s, []⟩ events)
    (hrest : (Run.finish (PnlDay.step day digest) ⟨s, []⟩ events).AtRest) :
    (Run.finish (PnlDay.step day digest) ⟨s, []⟩ events).shared.Fresh digest := by
  rw [PnlDay.fresh_iff] at hs ⊢
  exact faultless_at_rest clears_call PnlDay.changed_stale hs h hrest

def closedDoc (id : String) (net : ℚ) : BoxPnlProofDocument :=
  ⟨"2024-01-01", id, some "NIFTY", some "LONG_BOX", some (.fin 100), some (.fin 200), some "2024-01-25", some .closed,
    some (.fin 10), some (.fin net), none, some (.fin net), some "09:20", some "10:20", some "15:40", none⟩

def firstId : String := "aaaaaaaaaaaaaaaaaaaaaaaa"

def secondId : String := "bbbbbbbbbbbbbbbbbbbbbbbb"

def eightsDigest : DayDigest where
  localeAtMost a b := decide (a ≤ b)
  collatedBefore a b := decide (a < b)
  ofTexts rows _ := String.ofList (List.replicate 64 (if rows.all fun row => row.netPnl = some (.fin 8) then 'a' else 'b'))

def dayWith (state : DayState) : PnlDay := ⟨[closedDoc firstId 8], some state, [firstId, secondId], [], "16:00"⟩

def legacyDay : PnlDay := dayWith ⟨true, false, none, none, none, some (.array [some firstId])⟩

def turns (i n : ℕ) : List DayEvent := List.replicate n (.run i .answered)

def committed : List DayEvent := .start ⟨.markComplete [closedDoc firstId 8], 1⟩ :: turns 0 20

theorem proof_fresh_committed :
    ((Run.finish (PnlDay.step "2024-01-01" eightsDigest) ⟨legacyDay, []⟩ committed).shared.state.map
      DayState.complete = some true) ∧
    (Run.finish (PnlDay.step "2024-01-01" eightsDigest) ⟨legacyDay, []⟩ committed).shared.Fresh eightsDigest := by
  have hs : legacyDay.Fresh eightsDigest := by
    rintro proof ⟨_, ⟨⟩, -, hfrom⟩
    cases hfrom
  exact ⟨by decide +kernel, proof_fresh_at_rest _ _ _ hs (by decide +kernel) (by decide +kernel)⟩

def migrated : List DayEvent :=
  .start ⟨.migrate (some (.array [some firstId])), 1⟩ :: turns 0 16 ++
    (.start ⟨.upsert (closedDoc secondId 8), 1⟩ :: turns 1 7) ++ turns 0 4

theorem stale_after_migration : ¬∀ (day : String) (digest : DayDigest) (s : PnlDay) (events : List DayEvent),
    s.Fresh digest → Run.Guarded (PnlDay.step day digest) (Allowed SureAnswered) ⟨s, []⟩ events →
      (Run.finish (PnlDay.step day digest) ⟨s, []⟩ events).AtRest →
        (Run.finish (PnlDay.step day digest) ⟨s, []⟩ events).shared.Fresh digest := by
  intro h
  have hs : legacyDay.Fresh eightsDigest := by
    rintro proof ⟨_, ⟨⟩, -, hfrom⟩
    cases hfrom
  have hfresh := h "2024-01-01" eightsDigest legacyDay migrated hs (by decide +kernel) (by decide +kernel)
  have hcert : (Run.finish (PnlDay.step "2024-01-01" eightsDigest) ⟨legacyDay, []⟩ migrated).shared.Certifies
      ⟨1, String.ofList (List.replicate 64 'a')⟩ := by decide +kernel
  exact absurd (hfresh _ hcert).2 (by decide +kernel)

end BoxEngine
