import BoxEngine.BookkeepingSound

/-!
# Entries that do not start

A refused or thrown entry leaves the books and its claim at every exit but four awaits that nothing guards.
-/

namespace BoxEngine

namespace Coordination

namespace ExecutionCoordinator

variable {cfg : CoordinatorConfig} {s : ExecutionCoordinator}

/-! ## Pipelines among the holders -/

def PipelineAt (s : ExecutionCoordinator) (id : MintedId) (key : String) : Prop :=
  ∃ claim ∈ s.positionClaims, claim.key = key ∧ Holder.pipeline id ∈ claim.holders

variable {s' : ExecutionCoordinator} {id : MintedId} {key : String}

theorem PipelineAt.of_claims (h : s'.PipelineAt id key) (hclaims : s'.positionClaims = s.positionClaims) :
    s.PipelineAt id key := by
  obtain ⟨claim, hclaim, hheld⟩ := h
  exact ⟨claim, hclaims ▸ hclaim, hheld⟩

theorem PipelineAt.of_map {f : PositionUnderlyingClaim → PositionUnderlyingClaim}
    (hkey : ∀ claim, (f claim).key = claim.key)
    (hholders : ∀ claim id, Holder.pipeline id ∈ (f claim).holders → Holder.pipeline id ∈ claim.holders)
    (hs' : s'.positionClaims = s.positionClaims.map f) (h : s'.PipelineAt id key) : s.PipelineAt id key := by
  obtain ⟨claim, hclaim, rfl, hheld⟩ := h
  rw [hs'] at hclaim
  obtain ⟨before, hbefore, rfl⟩ := List.mem_map.mp hclaim
  exact ⟨before, hbefore, (hkey before).symm, hholders before id hheld⟩

theorem PipelineAt.of_addHolder {key' : String} {dependant : Dependant}
    (h : (s.addHolder key' (.dependant dependant)).PipelineAt id key) : s.PipelineAt id key := by
  refine h.of_map ?_ ?_ rfl
  · intro claim
    split <;> rfl
  · intro claim id hheld
    split at hheld
    · dsimp only at hheld
      split at hheld
      · exact hheld
      · simpa using hheld
    · exact hheld

theorem PipelineAt.of_renewClaim {owner : MintedId} {outcome : RenewOutcome}
    (h : (s.renewClaim owner outcome).PipelineAt id key) : s.PipelineAt id key := by
  cases outcome
  all_goals
    refine h.of_map ?_ ?_ rfl
    · intro claim
      split <;> rfl
    · intro claim id hheld
      split at hheld <;> exact hheld

theorem PipelineAt.of_acquired {acquiring : Acquiring} {answer : Answer}
    (h : (s.underlyingAcquired acquiring answer).1.PipelineAt id key) :
    s.PipelineAt id key ∨ acquiring.key = key ∧ acquiring.holder = .pipeline id := by
  unfold underlyingAcquired at h
  split at h
  · obtain ⟨claim, hclaim, rfl, hheld⟩ := h
    rcases Keyed.mem_put hclaim with rfl | hclaim
    · exact .inr ⟨rfl, (List.mem_singleton.mp hheld).symm⟩
    · exact .inl ⟨claim, hclaim, rfl, hheld⟩
  · exact .inl h

theorem PipelineAt.of_drop {underlying : String} {holder : Holder}
    (h : (s.dropUnderlyingHolder cfg underlying holder).1.PipelineAt id key) :
    s.PipelineAt id key ∧ ¬ (key = s.positionClaimKey cfg underlying ∧ holder = .pipeline id) := by
  unfold dropUnderlyingHolder at h
  dsimp only at h
  split at h
  · rename_i hnone
    refine ⟨h, ?_⟩
    rintro ⟨rfl, _⟩
    obtain ⟨claim, hclaim, hkey, _⟩ := h
    exact absurd hkey (by simpa using List.find?_eq_none.mp hnone claim hclaim)
  · rename_i found hfound
    have hmem : found ∈ s.positionClaims := List.mem_of_find?_eq_some hfound
    have hkey : found.key = s.positionClaimKey cfg underlying := by simpa using List.find?_some hfound
    split at h
    · obtain ⟨claim, hclaim, rfl, hheld⟩ := h
      obtain ⟨before, hbefore, rfl⟩ := List.mem_map.mp hclaim
      by_cases hsame : before.key = s.positionClaimKey cfg underlying
      · rw [if_pos hsame] at hheld ⊢
        obtain ⟨hheld, hne⟩ := List.mem_filter.mp hheld
        refine ⟨⟨found, hmem, hkey.trans hsame.symm, hheld⟩, ?_⟩
        rintro ⟨_, rfl⟩
        simp at hne
      · rw [if_neg hsame] at hheld ⊢
        exact ⟨⟨before, hbefore, rfl, hheld⟩, fun hboth => hsame hboth.1⟩
    · obtain ⟨claim, hclaim, rfl, hheld⟩ := h
      obtain ⟨hclaim, hne⟩ := List.mem_filter.mp hclaim
      exact ⟨⟨claim, hclaim, rfl, hheld⟩, fun hboth => absurd hboth.1 (by simpa using hne)⟩

/-- Neither an execution nor a claim names the entry. -/
def Gone (s : ExecutionCoordinator) (id : MintedId) : Prop :=
  id ∉ s.active.map ActiveExecution.id ∧ ∀ key, ¬ s.PipelineAt id key

theorem Gone.of (h : s.Gone id)
    (hactive : id ∈ s'.active.map ActiveExecution.id → id ∈ s.active.map ActiveExecution.id)
    (hpipes : ∀ key, s'.PipelineAt id key → s.PipelineAt id key) : s'.Gone id :=
  ⟨fun hmem => h.1 (hactive hmem), fun key hat => h.2 key (hpipes key hat)⟩

theorem gone_abandonAndReleaseHold {exec : ActiveExecution} (hsound : s.books.Sound) (hexec : exec ∈ s.active)
    (hid : exec.id = id) (hname : exec.underlying ≠ "")
    (hheld : ∀ key, s.PipelineAt id key → key = s.positionClaimKey cfg exec.underlying ∧ cfg.oneActiveBoxPerUnderlying = true) :
    (s.abandonAndReleaseHold cfg id).Gone id := by
  refine ⟨?_, ?_⟩
  · rw [show (s.abandonAndReleaseHold cfg id).active = _ from
      congrArg Books.active (books_abandonAndReleaseHold cfg s id), books_abandon]
    intro hmem
    obtain ⟨other, hother, rfl⟩ := List.mem_map.mp hmem
    simpa using (List.mem_filter.mp hother).2
  · intro key hat
    unfold abandonAndReleaseHold at hat
    replace hat := hat.of_claims (positionClaims_abandon _ _)
    have hfound : s.execution? id = some exec := hid ▸ execution?_of_mem hsound hexec
    rw [hfound, Option.map_some] at hat
    unfold releasePipelineHold at hat
    by_cases hone : cfg.oneActiveBoxPerUnderlying = true
    · rw [Option.filter_some_pos (by simpa [hone] using hname)] at hat
      obtain ⟨hbefore, hnot⟩ := hat.of_drop
      exact hnot ⟨(hheld key hbefore).1, rfl⟩
    · rw [Option.filter_some_neg (by simp [hone])] at hat
      exact hone (hheld key hat).2

/-! ## The invariant -/

structure EntrySound (cfg : CoordinatorConfig) (s : ExecutionCoordinator) (call : EntryCall) (stage : EntryStage) : Prop where
  named : stage.claimed = true → call.candidate.underlying ≠ ""
  standing : stage.claimed = true →
    ∃ exec ∈ s.active, exec.id = call.id ∧ exec.underlying = call.candidate.underlying
  held : stage.claimed = true → ∀ key, s.PipelineAt call.id key →
    key = s.positionClaimKey cfg call.candidate.underlying ∧ cfg.oneActiveBoxPerUnderlying = true
  asked : ∀ acquiring, stage = .holding acquiring → acquiring.holder = .pipeline call.id ∧
    acquiring.key = s.positionClaimKey cfg call.candidate.underlying ∧ cfg.oneActiveBoxPerUnderlying = true
  promoting : ∀ acquiring outcome, stage = .promoting acquiring outcome →
    ∃ dependant, acquiring.holder = .dependant dependant
  refused : ∀ refusal, stage = .releasing refusal → s.Gone call.id

/-- Each entry under way has its execution, and an entry that never started left nothing. -/
structure Accounted (cfg : CoordinatorConfig) (s : ExecutionCoordinator) : Prop where
  kept : s.Bookkept
  distinct : (s.entries.map EntryCall.id).Nodup
  minted : ∀ call ∈ s.entries, call.id.kind = .entry ∧ call.id.seq ≤ s.seq
  ended : ∀ id ∈ s.unstarted, s.Gone id ∧ id ∉ s.entries.map EntryCall.id ∧ id.kind = .entry ∧ id.seq ≤ s.seq
  entries : ∀ call ∈ s.entries, s.EntrySound cfg call call.stage
  acquirings : ∀ acquiring ∈ s.acquirings, ∃ dependant, acquiring.holder = .dependant dependant
  pipelines : ∀ id key, s.PipelineAt id key → id.seq ≤ s.seq

theorem accounted_init (cfg : CoordinatorConfig) (context : Context) : (init context).Accounted cfg where
  kept := bookkept_init context
  distinct := .nil
  minted := by intro call hcall; cases hcall
  ended := by intro id hid; cases hid
  entries := by intro call hcall; cases hcall
  acquirings := by intro acquiring hacquiring; cases hacquiring
  pipelines := by rintro id key ⟨claim, hclaim, _⟩; cases hclaim

variable {call : EntryCall}

theorem EntrySound.of {stage : EntryStage} (h : s.EntrySound cfg call stage)
    (hkey : stage.claimed = true → s'.positionClaimKey cfg call.candidate.underlying =
      s.positionClaimKey cfg call.candidate.underlying)
    (hstanding : stage.claimed = true → ∀ exec ∈ s.active, exec.id = call.id →
      ∃ exec' ∈ s'.active, exec'.id = exec.id ∧ exec'.underlying = exec.underlying)
    (hactive : call.id ∈ s'.active.map ActiveExecution.id → call.id ∈ s.active.map ActiveExecution.id)
    (hpipes : ∀ key, s'.PipelineAt call.id key → s.PipelineAt call.id key) : s'.EntrySound cfg call stage where
  named := h.named
  standing := by
    intro hclaimed
    obtain ⟨exec, hexec, hid, hname⟩ := h.standing hclaimed
    obtain ⟨exec', hexec', hid', hname'⟩ := hstanding hclaimed exec hexec hid
    exact ⟨exec', hexec', hid'.trans hid, hname'.trans hname⟩
  held := by
    intro hclaimed key hat
    rw [hkey hclaimed]
    exact h.held hclaimed key (hpipes key hat)
  asked := by
    rintro acquiring rfl
    rw [hkey rfl]
    exact h.asked acquiring rfl
  promoting := h.promoting
  refused := fun refusal hstage => (h.refused refusal hstage).of hactive hpipes

theorem Accounted.beside (h : s.Accounted cfg) (hkept : s'.Bookkept) (hseq : s.seq ≤ s'.seq)
    (hentries : s'.entries = s.entries) (hunstarted : s'.unstarted = s.unstarted)
    (hacquirings : ∀ acquiring ∈ s'.acquirings, ∃ dependant, acquiring.holder = .dependant dependant)
    (hkey : ∀ call ∈ s.entries, call.stage.claimed = true → s'.positionClaimKey cfg call.candidate.underlying =
      s.positionClaimKey cfg call.candidate.underlying)
    (hstanding : ∀ call ∈ s.entries, call.stage.claimed = true → ∀ exec ∈ s.active, exec.id = call.id →
      ∃ exec' ∈ s'.active, exec'.id = exec.id ∧ exec'.underlying = exec.underlying)
    (hactive : ∀ id : MintedId, id.kind = .entry → id ∈ s'.active.map ActiveExecution.id → id ∈ s.active.map ActiveExecution.id)
    (hpipes : ∀ id key, s'.PipelineAt id key → s.PipelineAt id key) : s'.Accounted cfg where
  kept := hkept
  distinct := hentries ▸ h.distinct
  minted := by
    intro call hcall
    rw [hentries] at hcall
    exact ⟨(h.minted call hcall).1, (h.minted call hcall).2.trans hseq⟩
  ended := by
    intro id hid
    rw [hunstarted] at hid
    obtain ⟨hgone, hcalls, hkind, hle⟩ := h.ended id hid
    exact ⟨hgone.of (hactive id hkind) (hpipes id), hentries ▸ hcalls, hkind, hle.trans hseq⟩
  entries := by
    intro call hcall
    rw [hentries] at hcall
    exact (h.entries call hcall).of (hkey call hcall) (hstanding call hcall) (hactive _ (h.minted call hcall).1)
      (hpipes _)
  acquirings := hacquirings
  pipelines := fun id key hat => (h.pipelines id key (hpipes id key hat)).trans hseq

/-! ## The step of an entry -/

def EntryNext (cfg : CoordinatorConfig) (s : ExecutionCoordinator) (call : EntryCall) : Progress → Prop
  | .goesOn stage => s.EntrySound cfg call stage
  | .returned => True
  | _ => call.stage.started = false → s.Gone call.id

structure EntryStep (cfg : CoordinatorConfig) (s : ExecutionCoordinator) (call : EntryCall) (s' : ExecutionCoordinator) :
    Prop where
  active : ∀ id, id ∈ s'.active.map ActiveExecution.id → id ∈ s.active.map ActiveExecution.id
  others : ∀ exec ∈ s.active, exec.id ≠ call.id →
    ∃ exec' ∈ s'.active, exec'.id = exec.id ∧ exec'.underlying = exec.underlying
  pipes : ∀ id key, s'.PipelineAt id key → s.PipelineAt id key ∨ id = call.id

theorem conclude_frame (call : EntryCall) (progress : Progress) :
    (s.conclude call progress).active = s.active ∧ (s.conclude call progress).positionClaims = s.positionClaims ∧
      (s.conclude call progress).context = s.context ∧ (s.conclude call progress).seq = s.seq ∧
      (s.conclude call progress).acquirings = s.acquirings := by
  unfold ExecutionCoordinator.conclude
  split <;> exact ⟨rfl, rfl, rfl, rfl, rfl⟩

variable {progress : Progress}

theorem mem_entries_conclude {call other : EntryCall} (h : other ∈ (s.conclude call progress).entries) :
    (other ∈ s.entries ∧ other.id ≠ call.id) ∨ ∃ stage, progress = .goesOn stage ∧ other = { call with stage } := by
  unfold ExecutionCoordinator.conclude at h
  split at h
  · rename_i stage
    rcases Keyed.mem_replace h with rfl | hother
    · exact .inr ⟨stage, rfl, rfl⟩
    · exact .inl hother
  all_goals
    obtain ⟨hother, hne⟩ := List.mem_filter.mp h
    exact .inl ⟨hother, by simpa using hne⟩

theorem nodup_entries_conclude (call : EntryCall) (progress : Progress) (h : (s.entries.map EntryCall.id).Nodup) :
    ((s.conclude call progress).entries.map EntryCall.id).Nodup := by
  unfold ExecutionCoordinator.conclude
  split
  · rw [Keyed.map_replace]
    exact h
  all_goals exact h.sublist (List.filter_sublist.map _)

theorem mem_unstarted_conclude (h : id ∈ (s.conclude call progress).unstarted) :
    id ∈ s.unstarted ∨ (id = call.id ∧ call.stage.started = false ∧ (∀ stage, progress ≠ .goesOn stage) ∧
      progress ≠ .returned) := by
  unfold ExecutionCoordinator.conclude at h
  split at h
  · exact .inl h
  · exact .inl h
  · rename_i hgoes hreturned
    dsimp only at h
    split at h
    · exact .inl h
    · rename_i hstarted
      rcases List.mem_append.mp h with h | h
      · exact .inl h
      · exact .inr ⟨List.mem_singleton.mp h, by simpa using hstarted, hgoes, hreturned⟩

theorem Accounted.conclude (h : s.Accounted cfg) (hcall : call ∈ s.entries) (hkept : s'.Bookkept)
    (hdesk : s'.desk = s.desk ∨ s'.desk = { s.desk with seq := s.seq + 1 }) (hstep : s.EntryStep cfg call s')
    (hnext : s'.EntryNext cfg call progress) : (s'.conclude call progress).Accounted cfg := by
  have hseq : s.seq ≤ s'.seq := by
    rcases hdesk with heq | heq
    · exact le_of_eq (congrArg Desk.seq heq).symm
    · exact (Nat.le_succ _).trans (le_of_eq (congrArg Desk.seq heq).symm)
  have hcontext : s'.context = s.context := by
    rcases hdesk with heq | heq <;> exact congrArg Desk.context heq
  have hentries : s'.entries = s.entries := by
    rcases hdesk with heq | heq <;> exact congrArg Desk.entries heq
  have hunstarted : s'.unstarted = s.unstarted := by
    rcases hdesk with heq | heq <;> exact congrArg Desk.unstarted heq
  have hacquirings : s'.acquirings = s.acquirings := by
    rcases hdesk with heq | heq <;> exact congrArg Desk.acquirings heq
  have hkeys : ∀ underlying, s'.positionClaimKey cfg underlying = s.positionClaimKey cfg underlying := by
    intro underlying
    unfold positionClaimKey
    rw [hcontext]
  -- the calls beside this one
  have hothers : ∀ other ∈ s.entries, other.id ≠ call.id → s'.EntrySound cfg other other.stage := by
    intro other hother hne
    refine (h.entries other hother).of (fun _ => hkeys _) ?_ (hstep.active _) ?_
    · intro _ exec hexec hid
      exact hstep.others exec hexec (hid ▸ hne)
    · intro key hat
      exact (hstep.pipes _ _ hat).resolve_right hne
  have hgone : ∀ id ∈ s.unstarted, s'.Gone id := by
    intro id hid
    obtain ⟨hbefore, hcalls, _, _⟩ := h.ended id hid
    refine hbefore.of (hstep.active id) ?_
    intro key hat
    refine (hstep.pipes _ _ hat).resolve_right ?_
    rintro rfl
    exact hcalls (List.mem_map_of_mem hcall)
  have hpipelines : ∀ id key, s'.PipelineAt id key → id.seq ≤ s'.seq := by
    intro id key hat
    rcases hstep.pipes id key hat with hbefore | rfl
    · exact (h.pipelines id key hbefore).trans hseq
    · exact (h.minted call hcall).2.trans hseq
  obtain ⟨hactive', hclaims', hcontext', hseq', hacquirings'⟩ := s'.conclude_frame call progress
  have hmoved : ∀ other : EntryCall, ∀ stage, s'.EntrySound cfg other stage →
      (s'.conclude call progress).EntrySound cfg other stage := by
    intro other stage hsound
    refine hsound.of ?_ ?_ (fun hmem => hactive' ▸ hmem) fun key hat => hat.of_claims hclaims'
    · intro _
      unfold positionClaimKey
      rw [hcontext']
    · intro _ exec hexec _
      exact ⟨exec, hactive' ▸ hexec, rfl, rfl⟩
  have hgone' : ∀ id, s'.Gone id → (s'.conclude call progress).Gone id := fun id hid =>
    hid.of (fun hmem => hactive' ▸ hmem) fun key hat => hat.of_claims hclaims'
  refine ⟨hkept.conclude call progress, nodup_entries_conclude call progress (hentries ▸ h.distinct), ?_, ?_, ?_, ?_, ?_⟩
  · intro other hother
    rw [hseq']
    rcases mem_entries_conclude hother with ⟨hother, _⟩ | ⟨stage, _, rfl⟩
    · rw [hentries] at hother
      exact ⟨(h.minted other hother).1, (h.minted other hother).2.trans hseq⟩
    · exact ⟨(h.minted call hcall).1, (h.minted call hcall).2.trans hseq⟩
  · intro id hid
    rw [hseq']
    rcases mem_unstarted_conclude hid with hid | ⟨rfl, hstarted, hgoes, hreturned⟩
    · rw [hunstarted] at hid
      obtain ⟨_, hcalls, hkind, hle⟩ := h.ended id hid
      refine ⟨hgone' id (hgone id hid), ?_, hkind, hle.trans hseq⟩
      intro hmem
      obtain ⟨other, hother, rfl⟩ := List.mem_map.mp hmem
      rcases mem_entries_conclude hother with ⟨hother, _⟩ | ⟨stage, _, rfl⟩
      · exact hcalls (List.mem_map_of_mem (hentries ▸ hother))
      · exact hcalls (List.mem_map.mpr ⟨call, hcall, rfl⟩)
    · refine ⟨hgone' call.id ?_, ?_, (h.minted call hcall).1, (h.minted call hcall).2.trans hseq⟩
      · cases progress with
        | goesOn stage => exact absurd rfl (hgoes stage)
        | returned => exact absurd rfl hreturned
        | refused | threw => exact hnext hstarted
      · intro hmem
        obtain ⟨other, hother, hid⟩ := List.mem_map.mp hmem
        rcases mem_entries_conclude hother with ⟨_, hne⟩ | ⟨stage, hgo, _⟩
        · exact hne hid
        · exact hgoes stage hgo
  · intro other hother
    rcases mem_entries_conclude hother with ⟨hother, hne⟩ | ⟨stage, rfl, rfl⟩
    · exact hmoved other _ (hothers other (hentries ▸ hother) hne)
    · obtain ⟨hnamed, hstanding, hheld, hasked, hpromoting, hrefused⟩ := hmoved call stage hnext
      exact ⟨hnamed, hstanding, hheld, hasked, hpromoting, hrefused⟩
  · rw [hacquirings', hacquirings]
    exact h.acquirings
  · intro id key hat
    rw [hseq']
    exact hpipelines id key (hat.of_claims hclaims')

theorem entrySound_started {stage : EntryStage} (h : stage.started = true)
    (hpromoting : ∀ acquiring outcome, stage = .promoting acquiring outcome →
      ∃ dependant, acquiring.holder = .dependant dependant) :
    s.EntrySound cfg call stage := by
  have hclaimed : stage.claimed ≠ true := by
    cases stage <;> simp [EntryStage.started, EntryStage.claimed] at h ⊢
  refine ⟨fun hc => absurd hc hclaimed, fun hc => absurd hc hclaimed, fun hc => absurd hc hclaimed, ?_, hpromoting, ?_⟩
  · rintro acquiring rfl
    exact absurd rfl hclaimed
  · rintro refusal rfl
    cases h

theorem PipelineAt.of_abandonAndReleaseHold {id' id : MintedId}
    (h : (s.abandonAndReleaseHold cfg id').PipelineAt id key) : s.PipelineAt id key := by
  unfold abandonAndReleaseHold at h
  replace h := h.of_claims (positionClaims_abandon _ _)
  unfold releasePipelineHold at h
  split at h
  · exact h.of_drop.1
  · exact h

theorem PipelineAt.of_dropPipeline {outcome : Certainty} {now : ℚ}
    (h : (s.dropPipeline cfg call outcome now).1.PipelineAt id key) : s.PipelineAt id key :=
  (h.of_claims (positionClaims_dropPipeline _ _ _ _ _)).of_drop.1

theorem pipes_advance (h : s.EntrySound cfg call call.stage) (answer : Answer) (now : ℚ)
    (hat : (s.advance cfg call answer now).1.PipelineAt id key) : s.PipelineAt id key ∨ id = call.id := by
  rcases advance_cases cfg s call answer now with hout | hout | heq
  · generalize s.advance cfg call answer now = out at hout hat
    cases hout with
    | waits | asks | starts | leaks => exact .inl hat
    | takes acquiring lease revalidated now hholding =>
      refine hat.of_acquired.imp_right ?_
      rintro ⟨_, hholder⟩
      exact Holder.pipeline.inj (hholder.symm.trans (h.asked acquiring hholding).1)
    | refuses | throws => exact .inl hat.of_abandonAndReleaseHold
    | givesBack n refusal =>
      have hbefore : ({ s with waiting := n }.abandonAndReleaseHold cfg call.id).PipelineAt id key := hat
      exact .inl hbefore.of_abandonAndReleaseHold
  · generalize s.advance cfg call answer now = out at hout hat
    cases hout with
    | settles | dropped => exact .inl (hat.of_claims (positionClaims_settleEntry _ _ _ _))
    | drops => exact .inl hat.of_dropPipeline
    | promotes => exact .inl hat.of_dropPipeline.of_addHolder
    | asks | returns => exact .inl hat
    | takes acquiring outcome now hpromoting =>
      refine hat.of_dropPipeline.of_acquired.imp_right ?_
      rintro ⟨_, hholder⟩
      obtain ⟨dependant, hdependant⟩ := h.promoting acquiring outcome hpromoting
      rw [hdependant] at hholder
      cases hholder
    | dropThrows | throws => exact .inl (hat.of_claims (positionClaims_holdOnUncertainty _ _ _ _))
  · rw [heq] at hat
    exact .inl hat

theorem entryStep_advance (h : s.EntrySound cfg call call.stage) (answer : Answer) (now : ℚ) :
    s.EntryStep cfg call (s.advance cfg call answer now).1 := by
  have hpipes : ∀ id key, (s.advance cfg call answer now).1.PipelineAt id key → s.PipelineAt id key ∨ id = call.id :=
    fun id key hat => pipes_advance h answer now hat
  rcases s.books_advance cfg call answer now with heq | heq | ⟨keys, lease, heq⟩
  · have hactive : (s.advance cfg call answer now).1.active = s.active := congrArg Books.active heq
    refine ⟨?_, ?_, hpipes⟩
    · exact fun id hmem => hactive ▸ hmem
    · exact fun exec hexec _ => ⟨exec, hactive ▸ hexec, rfl, rfl⟩
  · have hactive : (s.advance cfg call answer now).1.active = s.active.filter fun exec => exec.id ≠ call.id :=
      congrArg Books.active (heq.trans (books_abandon _ _))
    refine ⟨?_, ?_, hpipes⟩
    · intro id hmem
      rw [hactive] at hmem
      exact (List.filter_sublist.map _).subset hmem
    · intro exec hexec hne
      exact ⟨exec, hactive ▸ List.mem_filter.mpr ⟨hexec, by simpa using hne⟩, rfl, rfl⟩
  · have hactive : (s.advance cfg call answer now).1.active = (s.grant call.id keys lease).active :=
      congrArg Books.active heq
    refine ⟨?_, ?_, hpipes⟩
    · intro id hmem
      rw [hactive] at hmem
      obtain ⟨exec, hexec, rfl⟩ := List.mem_map.mp hmem
      obtain ⟨before, hbefore, rfl⟩ := List.mem_map.mp hexec
      refine List.mem_map.mpr ⟨before, hbefore, ?_⟩
      split <;> rfl
    · intro exec hexec hne
      refine ⟨exec, ?_, rfl, rfl⟩
      rw [hactive]
      exact List.mem_map.mpr ⟨exec, hexec, if_neg hne⟩

theorem gone_refuse (hsound : s.books.Sound) (h : s.EntrySound cfg call call.stage)
    (hstage : call.stage.claimed = true) (n : ℕ) :
    ({ s with waiting := n }.abandonAndReleaseHold cfg call.id).Gone call.id := by
  obtain ⟨exec, hexec, hid, hname⟩ := h.standing hstage
  refine gone_abandonAndReleaseHold (s := { s with waiting := n }) hsound hexec hid ?_ ?_
  · rw [hname]
    exact h.named hstage
  · intro key hat
    rw [hname]
    exact h.held hstage key hat

theorem entryNext_claimed (hsound : s.books.Sound) (h : s.EntrySound cfg call call.stage)
    (hstage : call.stage.claimed = true) (answer : Answer) (now : ℚ)
    (hguarded : answer = .rejected → call.stage.guarded = true) :
    (s.advance cfg call answer now).1.EntryNext cfg call (s.advance cfg call answer now).2 := by
  -- an await that only moves on keeps what the entry stands for
  have hplain : ∀ (s' : ExecutionCoordinator) (stage : EntryStage), s'.active = s.active → s'.positionClaims = s.positionClaims →
      s'.context = s.context → stage.claimed = true → stage.running = true → s'.EntrySound cfg call stage := by
    intro s' stage hactive hclaims hcontext hclaimed hruns
    have hkey : s'.positionClaimKey cfg call.candidate.underlying = s.positionClaimKey cfg call.candidate.underlying := by
      unfold positionClaimKey
      rw [hcontext]
    refine ⟨fun _ => h.named hstage, fun _ => hactive ▸ h.standing hstage, ?_, ?_, ?_, ?_⟩
    · intro _ key hat
      rw [hkey]
      exact h.held hstage key (hat.of_claims hclaims)
    · rintro acquiring rfl
      cases hruns
    · rintro acquiring outcome rfl
      cases hclaimed
    · rintro refusal rfl
      cases hclaimed
  rcases advance_claimed hstage answer now with hout | heq
  · generalize s.advance cfg call answer now = out at hout
    cases hout with
    | waits n stage hnext hruns => exact hplain { s with waiting := n } stage rfl rfl rfl hnext hruns
    | asks _ hone hfree =>
      refine ⟨fun _ => h.named hstage, fun _ => h.standing hstage, fun _ => h.held hstage, ?_, ?_, ?_⟩
      · rintro acquiring ⟨⟩
        exact ⟨rfl, rfl, hone⟩
      · rintro acquiring outcome ⟨⟩
      · rintro refusal ⟨⟩
    | takes acquiring lease revalidated now hholding =>
      obtain ⟨_, hkey, hone⟩ := h.asked acquiring hholding
      refine ⟨fun _ => h.named hstage, fun _ => h.standing hstage, ?_, ?_, ?_, ?_⟩
      · intro _ key hat
        rcases hat.of_acquired with hbefore | ⟨hnew, _⟩
        · exact h.held hstage key hbefore
        · exact ⟨hnew.symm.trans hkey, hone⟩
      · rintro acquiring ⟨⟩
      · rintro acquiring outcome ⟨⟩
      · rintro refusal ⟨⟩
    | refuses n refusal => exact fun _ => gone_refuse hsound h hstage n
    | throws => exact fun _ => gone_refuse hsound h hstage s.waiting
    | givesBack n refusal =>
      refine ⟨?_, ?_, ?_, ?_, ?_, ?_⟩
      · rintro ⟨⟩
      · rintro ⟨⟩
      · rintro ⟨⟩
      · rintro acquiring ⟨⟩
      · rintro acquiring outcome ⟨⟩
      · exact fun _ _ => gone_refuse hsound h hstage n
    | starts n lease => exact entrySound_started rfl (by rintro acquiring outcome ⟨⟩)
    | leaks n hopen hrejected =>
      rw [hguarded hrejected] at hopen
      cases hopen
  · rw [heq]
    exact h

theorem entryNext_started (h : s.EntrySound cfg call call.stage) (hstage : call.stage.started = true)
    (answer : Answer) (now : ℚ) :
    (s.advance cfg call answer now).1.EntryNext cfg call (s.advance cfg call answer now).2 := by
  have hsettle : ∀ (s' : ExecutionCoordinator) (outcome : Certainty) (now : ℚ),
      (s'.settleEntry call outcome now).1.EntryNext cfg call (s'.settleEntry call outcome now).2 := by
    intro s' outcome now
    cases outcome with
    | clean => exact entrySound_started rfl (by rintro acquiring outcome ⟨⟩)
    | uncertain => trivial
  have hdrop : ∀ (s' : ExecutionCoordinator) (outcome : Certainty) (now : ℚ),
      (s'.dropPipeline cfg call outcome now).1.EntryNext cfg call (s'.dropPipeline cfg call outcome now).2 := by
    intro s' outcome now
    rcases s'.dropPipeline_cases cfg call outcome now with ⟨owner, _, heq⟩ | ⟨_, heq⟩
    · rw [heq]
      exact entrySound_started rfl (by rintro acquiring outcome ⟨⟩)
    · rw [heq]
      exact hsettle _ _ _
  have hended : ∀ s' : ExecutionCoordinator, s'.EntryNext cfg call .threw := by
    intro s' hnot
    rw [hstage] at hnot
    cases hnot
  rcases advance_started hstage answer now with hout | heq
  · generalize s.advance cfg call answer now = out at hout
    cases hout with
    | settles | dropped => exact hsettle _ _ _
    | drops | promotes | takes => exact hdrop _ _ _
    | asks =>
      refine entrySound_started rfl ?_
      rintro acquiring outcome ⟨⟩
      exact ⟨_, rfl⟩
    | dropThrows | throws => exact hended _
    | returns => trivial
  · rw [heq]
    exact h

theorem entryNext_advance (hsound : s.books.Sound) (h : s.EntrySound cfg call call.stage) (answer : Answer) (now : ℚ)
    (hguarded : answer = .rejected → call.stage.guarded = true) :
    (s.advance cfg call answer now).1.EntryNext cfg call (s.advance cfg call answer now).2 := by
  rcases stage_cases call.stage with hstage | hstage | ⟨refusal, hstage⟩
  · exact entryNext_claimed hsound h hstage answer now hguarded
  · exact entryNext_started h hstage answer now
  · obtain ⟨hsame, hprogress⟩ := advance_releasing cfg s hstage answer now
    rw [hsame]
    rcases hprogress with heq | heq | heq
    · rw [heq]
      exact fun _ => h.refused refusal hstage
    · rw [heq]
      exact fun _ => h.refused refusal hstage
    · rw [heq]
      exact h

/-! ## One step -/

def Undisturbed (s : ExecutionCoordinator) : CoordinatorEvent → Prop
  | .entered _ candidate _ _ => candidate.underlying ≠ ""
  | .entryAnswered id .rejected _ => ∀ call ∈ s.entries, call.id = id → call.stage.guarded = true
  | .switched context => context.broker = s.context.broker ∨ ∀ call ∈ s.entries, call.stage.claimed = false
  | .reset => ∀ call ∈ s.entries, call.stage.claimed = false
  | _ => True

theorem Accounted.advance (h : s.Accounted cfg) (hcall : call ∈ s.entries) (answer : Answer) (now : ℚ)
    (hguarded : answer = .rejected → call.stage.guarded = true) :
    ((s.advance cfg call answer now).1.conclude call (s.advance cfg call answer now).2).Accounted cfg :=
  h.conclude hcall (h.kept.advance call answer now) (s.desk_advance cfg call answer now)
    (entryStep_advance (h.entries call hcall) answer now)
    (entryNext_advance h.kept.sound (h.entries call hcall) answer now hguarded)

theorem Accounted.resumeEntry (h : s.Accounted cfg) {answer : Answer} {now : ℚ}
    (hok : s.Undisturbed (.entryAnswered id answer now)) : (s.resumeEntry cfg id answer now).Accounted cfg := by
  unfold ExecutionCoordinator.resumeEntry
  split
  · rename_i call hfind
    have hcall : call ∈ s.entries := List.mem_of_find?_eq_some hfind
    refine h.advance hcall answer now ?_
    rintro rfl
    exact hok call hcall (by simpa using List.find?_some hfind)
  · exact h

variable (s) in
def claimedEntry (atomic : Bool) (candidate : EntryCandidate) : EntryCall :=
  ⟨⟨.entry, s.seq + 1⟩, atomic, candidate, s.context, .consuming⟩

variable (cfg s) in
def claimedBy (atomic : Bool) (candidate : EntryCandidate) : ExecutionCoordinator :=
  { ({ s with seq := s.seq + 1 } : ExecutionCoordinator).claim cfg ⟨.entry, s.seq + 1⟩ candidate with
    entries := s.entries ++ [s.claimedEntry atomic candidate] }

theorem Accounted.unknown (h : s.Accounted cfg) :
    (∀ key, ¬ s.PipelineAt ⟨.entry, s.seq + 1⟩ key) ∧ ⟨.entry, s.seq + 1⟩ ∉ s.entries.map EntryCall.id := by
  refine ⟨?_, ?_⟩
  · intro key hat
    exact absurd (h.pipelines _ key hat) (Nat.not_succ_le_self _)
  · intro hmem
    obtain ⟨call, hcall, hid⟩ := List.mem_map.mp hmem
    have hle := (h.minted call hcall).2
    rw [hid] at hle
    exact absurd hle (Nat.not_succ_le_self _)

theorem Accounted.claimedBy (h : s.Accounted cfg) (atomic : Bool) {candidate : EntryCandidate} {gates : EntryGates}
    (hpro : s.prologue cfg candidate gates = none) (hname : candidate.underlying ≠ "") :
    (s.claimedBy cfg atomic candidate).Accounted cfg := by
  obtain ⟨hpipe, hcalls⟩ := h.unknown
  have hbooks : (s.claimedBy cfg atomic candidate).Bookkept := by
    refine ⟨sound_claim h.kept.sound rfl (h.kept.fresh .entry) (prologue_none hpro).1, ?_, ?_⟩
    · intro exec hexec
      rcases Keyed.mem_put hexec with rfl | hexec
      · exact le_rfl
      · exact (h.kept.minted exec hexec).trans (Nat.le_succ _)
    · exact fun exit hexit => ⟨(h.kept.exits exit hexit).1, (h.kept.exits exit hexit).2.trans (Nat.le_succ _)⟩
  have hmem : ∀ id ∈ (s.claimedBy cfg atomic candidate).active.map ActiveExecution.id, id ≠ ⟨.entry, s.seq + 1⟩ →
      id ∈ s.active.map ActiveExecution.id := by
    intro id hid hne
    obtain ⟨exec, hexec, rfl⟩ := List.mem_map.mp hid
    rcases Keyed.mem_put hexec with rfl | hexec
    · exact absurd rfl hne
    · exact List.mem_map_of_mem hexec
  refine ⟨hbooks, ?_, ?_, ?_, ?_, h.acquirings, ?_⟩
  · show ((s.entries ++ [s.claimedEntry atomic candidate]).map EntryCall.id).Nodup
    rw [List.map_append, List.nodup_append]
    refine ⟨h.distinct, List.nodup_singleton _, ?_⟩
    rintro id hid id' hid' rfl
    cases List.mem_singleton.mp hid'
    exact hcalls hid
  · intro other hother
    rcases List.mem_append.mp hother with hother | hother
    · exact ⟨(h.minted other hother).1, (h.minted other hother).2.trans (Nat.le_succ _)⟩
    · cases List.mem_singleton.mp hother
      exact ⟨rfl, le_rfl⟩
  · intro id hid
    obtain ⟨hgone, hcalls', hkind, hle⟩ := h.ended id hid
    have hne : id ≠ ⟨.entry, s.seq + 1⟩ := by
      rintro rfl
      exact absurd hle (Nat.not_succ_le_self _)
    refine ⟨⟨fun hin => hgone.1 (hmem id hin hne), hgone.2⟩, ?_, hkind, hle.trans (Nat.le_succ _)⟩
    show id ∉ (s.entries ++ [s.claimedEntry atomic candidate]).map EntryCall.id
    rw [List.map_append]
    intro hin
    rcases List.mem_append.mp hin with hin | hin
    · exact hcalls' hin
    · exact hne (List.mem_singleton.mp hin)
  · intro other hother
    rcases List.mem_append.mp hother with hother | hother
    · have hne : other.id ≠ ⟨.entry, s.seq + 1⟩ := fun heq => hcalls (heq ▸ List.mem_map_of_mem hother)
      refine (h.entries other hother).of (fun _ => rfl) ?_ (fun hin => hmem _ hin hne) fun key hat => hat
      intro _ exec hexec hid
      exact ⟨exec, Keyed.mem_put_of_ne hexec (hid.symm ▸ hne), rfl, rfl⟩
    · cases List.mem_singleton.mp hother
      refine ⟨fun _ => hname, fun _ => ⟨_, Keyed.self_mem_put _ _, rfl, rfl⟩, ?_, ?_, ?_, ?_⟩
      · exact fun _ key hat => absurd hat (hpipe key)
      · rintro acquiring ⟨⟩
      · rintro acquiring outcome ⟨⟩
      · rintro refusal ⟨⟩
  · exact fun id key hat => (h.pipelines id key hat).trans (Nat.le_succ _)

theorem Accounted.enter (h : s.Accounted cfg) (atomic : Bool) {candidate : EntryCandidate} {gates : EntryGates} (now : ℚ)
    (hname : candidate.underlying ≠ "") : (s.enter cfg atomic candidate gates now).Accounted cfg := by
  have hkept : (s.enter cfg atomic candidate gates now).Bookkept := h.kept.enter atomic candidate gates now
  obtain ⟨hpipe, hcalls⟩ := h.unknown
  unfold ExecutionCoordinator.enter at hkept ⊢
  dsimp only at hkept ⊢
  split
  · rename_i refusal hpro
    rw [hpro] at hkept
    refine ⟨hkept, h.distinct, ?_, ?_, ?_, h.acquirings, ?_⟩
    · exact fun call hcall => ⟨(h.minted call hcall).1, (h.minted call hcall).2.trans (Nat.le_succ _)⟩
    · intro id hid
      rcases List.mem_append.mp hid with hid | hid
      · obtain ⟨hgone, hcalls, hkind, hle⟩ := h.ended id hid
        exact ⟨hgone, hcalls, hkind, hle.trans (Nat.le_succ _)⟩
      · cases List.mem_singleton.mp hid
        exact ⟨⟨h.kept.fresh .entry, hpipe⟩, hcalls, rfl, le_rfl⟩
    · intro call hcall
      obtain ⟨hnamed, hstanding, hheld, hasked, hpromoting, hrefused⟩ := h.entries call hcall
      exact ⟨hnamed, hstanding, hheld, hasked, hpromoting, hrefused⟩
    · exact fun id key hat => (h.pipelines id key hat).trans (Nat.le_succ _)
  · rename_i hpro
    split
    · exact h.claimedBy atomic hpro hname
    · exact (h.claimedBy atomic hpro hname).advance (List.mem_append_right _ (List.mem_singleton_self _)) (.consumed true none)
        now (by rintro ⟨⟩)

theorem Accounted.of_books (h : s.Accounted cfg) (hkept : s'.Bookkept) (hbooks : s'.books = s.books)
    (hdesk : s'.desk = s.desk) (hpipes : ∀ id key, s'.PipelineAt id key → s.PipelineAt id key) : s'.Accounted cfg := by
  have hactive : s'.active = s.active := congrArg Books.active hbooks
  have hcontext : s'.context = s.context := congrArg Desk.context hdesk
  have hacquirings : s'.acquirings = s.acquirings := congrArg Desk.acquirings hdesk
  refine h.beside hkept (le_of_eq (congrArg Desk.seq hdesk).symm) (congrArg Desk.entries hdesk)
    (congrArg Desk.unstarted hdesk) (hacquirings ▸ h.acquirings) ?_ ?_ ?_ hpipes
  · intro call _ _
    unfold positionClaimKey
    rw [hcontext]
  · exact fun call _ _ exec hexec _ => ⟨exec, hactive ▸ hexec, rfl, rfl⟩
  · exact fun id _ hin => hactive ▸ hin

/-! ## Steps of exits -/

structure ExitStep (s : ExecutionCoordinator) (id : MintedId) (s' : ExecutionCoordinator) : Prop where
  claims : s'.positionClaims = s.positionClaims
  drops : s'.drops = s.drops
  desk : s'.desk = { s.desk with exits := s'.exits }
  stays : ∀ exec ∈ s.active, exec.id ≠ id → exec ∈ s'.active
  joins : ∀ exec ∈ s'.active, exec.id ≠ id → exec ∈ s.active

namespace ExitStep

variable {id : MintedId}

theorem refl : s.ExitStep id s := ⟨rfl, rfl, rfl, fun _ h _ => h, fun _ h _ => h⟩

variable {s' : ExecutionCoordinator}

theorem moveExit (h : s.ExitStep id s') (call : ExitCall) (stage : ExitStage) :
    s.ExitStep id (s'.moveExit call stage) :=
  ⟨h.claims, h.drops, congrArg (fun desk : Desk => { desk with exits := (s'.moveExit call stage).exits }) h.desk, h.stays,
    h.joins⟩

theorem endExit (h : s.ExitStep id s') (call : ExitCall) : s.ExitStep id (s'.endExit call) :=
  ⟨h.claims, h.drops, congrArg (fun desk : Desk => { desk with exits := (s'.endExit call).exits }) h.desk, h.stays, h.joins⟩

theorem registerActive (keys : List String) (underlying : String) (lease : Lease) :
    s.ExitStep id (s.registerActive id keys underlying lease) where
  claims := rfl
  drops := rfl
  desk := rfl
  stays := fun exec hexec hne => Keyed.mem_put_of_ne hexec hne
  joins := by
    intro exec hexec hne
    rcases Keyed.mem_put hexec with rfl | hexec
    · exact absurd rfl hne
    · exact hexec

theorem settled (hbooks : s'.books = (s.abandon id).books) (hclaims : s'.positionClaims = s.positionClaims)
    (hdrops : s'.drops = s.drops) (hdesk : s'.desk = s.desk) : s.ExitStep id s' := by
  have hactive : s'.active = s.active.filter fun exec => exec.id ≠ id :=
    congrArg Books.active (hbooks.trans (books_abandon _ _))
  have hexits : s'.exits = s.exits := congrArg Desk.exits hdesk
  refine ⟨hclaims, hdrops, hexits ▸ hdesk, ?_, ?_⟩
  · exact fun exec hexec hne => hactive ▸ List.mem_filter.mpr ⟨hexec, by simpa using hne⟩
  · exact fun exec hexec _ => (List.mem_filter.mp (hactive ▸ hexec)).1

variable (call : ExitCall)

theorem exitAcquired (result : AcquireResult) : s.ExitStep call.id (s.exitAcquired cfg call result) := by
  unfold ExecutionCoordinator.exitAcquired
  split
  · exact (registerActive _ _ _).moveExit call _
  · exact refl.endExit call
  · split
    · exact refl.moveExit call _
    · exact refl.endExit call

theorem exitExecuted (result : ExecutionResult) (now : ℚ) : s.ExitStep call.id (s.exitExecuted call result now) := by
  unfold ExecutionCoordinator.exitExecuted
  split
  · exact (settled (books_settle _ _ _ _) (positionClaims_settle _ _ _ _) (drops_settle _ _ _ _)
      (desk_settle _ _ _ _)).moveExit call _
  · exact (settled (books_settle _ _ _ _) (positionClaims_settle _ _ _ _) (drops_settle _ _ _ _)
      (desk_settle _ _ _ _)).endExit call

theorem advanceExit (answer : Answer) (now : ℚ) : s.ExitStep call.id (s.advanceExit cfg call answer now) := by
  have hthrew : s.ExitStep call.id (s.holdOnUncertainty call.id "exit threw" now) :=
    settled (books_holdOnUncertainty _ _ _ _) (positionClaims_holdOnUncertainty _ _ _ _) (drops_holdOnUncertainty _ _ _ _)
      (desk_holdOnUncertainty _ _ _ _)
  unfold ExecutionCoordinator.advanceExit
  split
  · exact exitAcquired call _
  · exact exitAcquired call _
  · exact refl.endExit call
  · exact refl.endExit call
  · exact exitExecuted call _ now
  · exact hthrew.endExit call
  · exact refl.endExit call
  · exact hthrew.endExit call
  · exact refl

end ExitStep

theorem Accounted.of_exit (h : s.Accounted cfg) (hid : id.kind = .exit) (hkept : s'.Bookkept)
    (hstep : s.ExitStep id s') : s'.Accounted cfg := by
  have hcontext : s'.context = s.context := congrArg Desk.context hstep.desk
  have hacquirings : s'.acquirings = s.acquirings := congrArg Desk.acquirings hstep.desk
  refine h.beside hkept (le_of_eq (congrArg Desk.seq hstep.desk).symm) (congrArg Desk.entries hstep.desk)
    (congrArg Desk.unstarted hstep.desk) (hacquirings ▸ h.acquirings) ?_ ?_ ?_ ?_
  · intro call _ _
    unfold positionClaimKey
    rw [hcontext]
  · intro call hcall _ exec hexec hexecId
    refine ⟨exec, hstep.stays exec hexec ?_, rfl, rfl⟩
    rintro rfl
    rw [hexecId, (h.minted call hcall).1] at hid
    cases hid
  · intro other hkind hin
    obtain ⟨exec, hexec, rfl⟩ := List.mem_map.mp hin
    refine List.mem_map_of_mem (hstep.joins exec hexec ?_)
    rintro rfl
    rw [hkind] at hid
    cases hid
  · exact fun other key hat => hat.of_claims hstep.claims

theorem Accounted.resumeExit (h : s.Accounted cfg) (id : MintedId) (answer : Answer) (now : ℚ) :
    (s.resumeExit cfg id answer now).Accounted cfg := by
  have hkept : (s.resumeExit cfg id answer now).Bookkept := h.kept.resumeExit id answer now
  unfold ExecutionCoordinator.resumeExit at hkept ⊢
  cases hfind : s.exit? id with
  | some call =>
    rw [hfind] at hkept
    exact h.of_exit (h.kept.exits call (List.mem_of_find?_eq_some hfind)).1 hkept (.advanceExit call answer now)
  | none => exact h

/-! ## The other steps -/

theorem Accounted.claimUnderlying (h : s.Accounted cfg) (underlying : String) (dependant : Dependant) :
    (s.claimUnderlying cfg underlying dependant).Accounted cfg := by
  have hkept : (s.claimUnderlying cfg underlying dependant).Bookkept := h.kept.claimUnderlying underlying dependant
  unfold ExecutionCoordinator.claimUnderlying holdUnderlying at hkept ⊢
  by_cases hone : cfg.oneActiveBoxPerUnderlying = true
  · cases hclaim : s.positionClaim? (s.positionClaimKey cfg underlying) with
    | some claim =>
      simp only [hone, hclaim, Bool.not_true, Bool.false_eq_true, if_false] at hkept ⊢
      exact h.of_books hkept (books_addHolder _ _ _) rfl fun id key hat => hat.of_addHolder
    | none =>
      simp only [hone, hclaim, Bool.not_true, Bool.false_eq_true, if_false] at hkept ⊢
      refine h.beside hkept (Nat.le_succ _) rfl rfl ?_ (fun _ _ _ => rfl)
        (fun _ _ _ exec hexec _ => ⟨exec, hexec, rfl, rfl⟩) (fun _ _ hin => hin) fun _ _ hat => hat
      intro acquiring hacquiring
      rcases List.mem_append.mp hacquiring with hacquiring | hacquiring
      · exact h.acquirings acquiring hacquiring
      · cases List.mem_singleton.mp hacquiring
        exact ⟨dependant, rfl⟩
  · simpa [hone] using h

theorem Accounted.claimAcquired (h : s.Accounted cfg) (owner : MintedId) (answer : Answer)
    (hkept : (s.claimAcquired owner answer).Bookkept) : (s.claimAcquired owner answer).Accounted cfg := by
  unfold ExecutionCoordinator.claimAcquired at hkept ⊢
  split
  · rename_i acquiring hfind
    rw [hfind] at hkept
    have hleft : { s with acquirings := s.acquirings.filter fun other => other.owner ≠ owner }.Accounted cfg := by
      refine h.beside (h.kept.of_books rfl le_rfl fun call hcall => List.mem_map_of_mem hcall) le_rfl rfl rfl ?_
        (fun _ _ _ => rfl) (fun _ _ _ exec hexec _ => ⟨exec, hexec, rfl, rfl⟩) (fun _ _ hin => hin) fun _ _ hat => hat
      exact fun other hother => h.acquirings other (List.mem_filter.mp hother).1
    refine hleft.of_books hkept (books_underlyingAcquired _ _ _) (desk_underlyingAcquired _ _ _) ?_
    intro id key hat
    refine hat.of_acquired.resolve_right ?_
    rintro ⟨_, hholder⟩
    obtain ⟨dependant, hdependant⟩ := h.acquirings acquiring (List.mem_of_find?_eq_some hfind)
    rw [hdependant] at hholder
    cases hholder
  · exact h

theorem renewExecution_map (s : ExecutionCoordinator) (id : MintedId) (outcome : Option RenewOutcome) :
    ∃ f : ActiveExecution → ActiveExecution, (∀ exec, (f exec).id = exec.id ∧ (f exec).underlying = exec.underlying) ∧
      (s.renewExecution id outcome).1.active = s.active.map f := by
  cases outcome with
  | none => exact ⟨fun exec => exec, fun _ => ⟨rfl, rfl⟩, (List.map_id _).symm⟩
  | some outcome =>
    cases outcome
    all_goals
      refine ⟨_, ?_, rfl⟩
      intro exec
      split <;> exact ⟨rfl, rfl⟩

theorem Accounted.step (h : s.Accounted cfg) {event : CoordinatorEvent} (hok : s.Undisturbed event) :
    (s.step cfg event).1.Accounted cfg := by
  have hkept : (s.step cfg event).1.Bookkept := h.kept.step event
  cases event with
  | entered atomic candidate gates now => exact h.enter atomic now hok
  | entryAnswered id answer now => exact h.resumeEntry hok
  | exited atomic keys underlying =>
    exact h.beside hkept (Nat.le_succ _) rfl rfl h.acquirings (fun _ _ _ => rfl)
      (fun _ _ _ exec hexec _ => ⟨exec, hexec, rfl, rfl⟩) (fun _ _ hin => hin) fun _ _ hat => hat
  | exitAnswered id answer now => exact h.resumeExit id answer now
  | claimed underlying dependant => exact h.claimUnderlying underlying dependant
  | claimAnswered owner answer => exact h.claimAcquired owner answer hkept
  | unclaimed underlying dependant =>
    exact h.of_books hkept (books_dropUnderlyingHolder _ _ _ _) (desk_dropUnderlyingHolder _ _ _ _)
      fun id key hat => hat.of_drop.1
  | dropped owner => exact h.of_books hkept rfl rfl fun _ _ hat => hat
  | ticked now =>
    obtain ⟨holds, renewTick, heq⟩ := s.beginTick_frame cfg now
    show (s.beginTick cfg now).Accounted cfg
    replace hkept : (s.beginTick cfg now).Bookkept := hkept
    rw [heq] at hkept ⊢
    exact h.of_books hkept rfl rfl fun _ _ hat => hat
  | renewed id outcome =>
    obtain ⟨active, positionClaims, holds, renewTick, heq, hactive, hclaims⟩ := s.renewed_frame cfg id outcome
    obtain ⟨f, hf, hmap⟩ := s.renewExecution_map id outcome
    show (s.renewed cfg id outcome).1.Accounted cfg
    replace hkept : (s.renewed cfg id outcome).1.Bookkept := hkept
    rw [heq] at hkept ⊢
    refine h.beside hkept le_rfl rfl rfl h.acquirings (fun _ _ _ => rfl) ?_ ?_ ?_
    · intro call _ _ exec hexec _
      rcases hactive with rfl | rfl
      · exact ⟨exec, hexec, rfl, rfl⟩
      · exact ⟨f exec, hmap ▸ List.mem_map_of_mem hexec, (hf exec).1, (hf exec).2⟩
    · intro other _ hin
      rcases hactive with rfl | rfl
      · exact hin
      · obtain ⟨exec, hexec, rfl⟩ := List.mem_map.mp hin
        exact (within_renewExecution id outcome).mem hexec
    · intro other key hat
      rcases hclaims with rfl | ⟨outcome', rfl⟩
      · exact hat
      · have hrenewed : (s.renewClaim id outcome').PipelineAt other key := hat.of_claims rfl
        exact hrenewed.of_renewClaim
  | switched context =>
    refine h.beside hkept le_rfl rfl rfl h.acquirings ?_ (fun _ _ _ exec hexec _ => ⟨exec, hexec, rfl, rfl⟩)
      (fun _ _ hin => hin) fun _ _ hat => hat
    intro call hcall hclaimed
    -- a switch keeps the claims' keys, or finds no entry that claimed one
    rcases hok with hsame | hnone
    · show cfg.toUpperCase (Js.trim context.broker) ++ ":" ++ _ = _
      rw [hsame]
      rfl
    · rw [hnone call hcall] at hclaimed
      cases hclaimed
  | reset =>
    refine h.beside hkept le_rfl rfl rfl h.acquirings (fun _ _ _ => rfl) ?_ ?_ ?_
    · intro call hcall hclaimed
      rw [hok call hcall] at hclaimed
      cases hclaimed
    · rintro id _ hin
      cases hin
    · rintro id key ⟨claim, hclaim, _⟩
      cases hclaim

def Mentions (s : ExecutionCoordinator) (id : MintedId) : Prop :=
  id ∈ s.active.map ActiveExecution.id ∨ id ∈ s.activeOpportunities.map Prod.snd ∨
    ∃ claim ∈ s.positionClaims, Holder.pipeline id ∈ claim.holders

instance decidableMentions (s : ExecutionCoordinator) (id : MintedId) : Decidable (s.Mentions id) :=
  inferInstanceAs (Decidable (_ ∨ _ ∨ _))

theorem Gone.not_mentions (h : s.Gone id) (hsound : s.books.Sound) : ¬ s.Mentions id := by
  rintro (hactive | hmapped | ⟨claim, hclaim, hheld⟩)
  · exact h.1 hactive
  · obtain ⟨entry, hentry, rfl⟩ := List.mem_map.mp hmapped
    obtain ⟨exec, hexec, hid, _⟩ := hsound.standing entry hentry
    exact h.1 (hid ▸ List.mem_map_of_mem hexec)
  · exact h.2 claim.key ⟨claim, hclaim, rfl, hheld⟩

/-- **An entry that does not start leaves nothing behind**, where no unguarded await rejects and no broker changes
under it. -/
theorem unstarted_gone (cfg : CoordinatorConfig) (context : Context) (events : List CoordinatorEvent)
    (h : Run.Guarded (step cfg) Undisturbed (init context) events) :
    ∀ id ∈ (Run.finish (step cfg) (init context) events).unstarted,
      ¬ (Run.finish (step cfg) (init context) events).Mentions id := by
  have haccounted : (Run.finish (step cfg) (init context) events).Accounted cfg :=
    Run.Guarded.invariant (Accounted cfg) (fun s event hs hok => hs.step hok) (accounted_init cfg context) h
  intro id hid
  exact (haccounted.ended id hid).1.not_mentions haccounted.kept.sound

instance decidableUndisturbed (s : ExecutionCoordinator) (event : CoordinatorEvent) : Decidable (s.Undisturbed event) :=
  match event with
  | .entered _ candidate _ _ => inferInstanceAs (Decidable (candidate.underlying ≠ ""))
  | .entryAnswered id answer _ =>
    match answer with
    | .rejected => inferInstanceAs (Decidable (∀ call ∈ s.entries, call.id = id → call.stage.guarded = true))
    | .consumed .. | .acquire .. | .woken | .verified _ | .executed _ | .released => instDecidableTrue
  | .switched context =>
    inferInstanceAs (Decidable (context.broker = s.context.broker ∨ ∀ call ∈ s.entries, call.stage.claimed = false))
  | .reset => inferInstanceAs (Decidable (∀ call ∈ s.entries, call.stage.claimed = false))
  | .exited .. | .exitAnswered .. | .claimed .. | .claimAnswered .. | .unclaimed .. | .dropped _ | .ticked _
  | .renewed .. => instDecidableTrue

def leased : Answer := .acquire (.acquired ⟨["NIFTY"], 30000, 1, true⟩) (.ok ())

def askedFor (answer : Answer) : List CoordinatorEvent :=
  [.entered false niftyCandidate openGates 0, .entryAnswered ⟨.entry, 1⟩ leased 1, .entryAnswered ⟨.entry, 1⟩ answer 2]

theorem unstarted_gone_rejected :
    (Run.finish (step oneBox) (init zerodha) (askedFor .rejected)).unstarted = [⟨.entry, 1⟩] ∧
      ∀ id ∈ (Run.finish (step oneBox) (init zerodha) (askedFor .rejected)).unstarted,
        ¬ (Run.finish (step oneBox) (init zerodha) (askedFor .rejected)).Mentions id :=
  ⟨by decide +kernel, unstarted_gone oneBox zerodha (askedFor .rejected) (by decide +kernel)⟩

theorem unstarted_left :
    let s := Run.finish (step oneBox) (init zerodha)
      (askedFor (.acquire .conflict (.ok ())) ++ [.entryAnswered ⟨.entry, 1⟩ .rejected 3])
    ¬ ∀ id ∈ s.unstarted, ¬ s.Mentions id := by
  decide +kernel

end ExecutionCoordinator

end Coordination

end BoxEngine
