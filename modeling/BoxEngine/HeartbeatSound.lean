import BoxEngine.UnstartedSound

/-!
# Faults of the heartbeat

A released lease belongs to an execution off the books, so a failed renewal trips the breaker rightly exactly when its
execution is active.
-/

namespace BoxEngine

namespace Coordination

namespace ExecutionCoordinator

variable {cfg : CoordinatorConfig} {s : ExecutionCoordinator}

/-! ## Who releases a lease -/

variable (id : MintedId)

theorem released_abandon : (s.abandon id).released = s.released := by
  unfold abandon
  split <;> rfl

theorem released_holdOnUncertainty (why : String) (now : ℚ) :
    (s.holdOnUncertainty id why now).released = s.released := by
  unfold holdOnUncertainty retain
  split <;> exact released_abandon id

theorem released_underlyingAcquired (acquiring : Acquiring) (answer : Answer) :
    (s.underlyingAcquired acquiring answer).1.released = s.released := by
  unfold underlyingAcquired
  split <;> rfl

theorem released_dropUnderlyingHolder (underlying : String) (holder : Holder) :
    (s.dropUnderlyingHolder cfg underlying holder).1.released = s.released := by
  unfold dropUnderlyingHolder
  dsimp only
  split
  · rfl
  · split <;> rfl

theorem released_abandonAndReleaseHold : (s.abandonAndReleaseHold cfg id).released = s.released := by
  unfold abandonAndReleaseHold releasePipelineHold
  rw [released_abandon]
  split
  · exact released_dropUnderlyingHolder _ _
  · rfl

/-- A step releases nothing, or the lease of an execution that it takes off the books. -/
def ReleasesOwn (s : ExecutionCoordinator) (id : MintedId) (s' : ExecutionCoordinator) : Prop :=
  s'.released = s.released ∨ (s'.released = s.released ++ [id] ∧ s'.books = (s.abandon id).books)

theorem ReleasesOwn.of {s' s'' : ExecutionCoordinator} {id : MintedId} (h : s'.ReleasesOwn id s'')
    (hreleased : s'.released = s.released) (hbooks : s'.books = s.books) : s.ReleasesOwn id s'' := by
  unfold ReleasesOwn at h ⊢
  rwa [hreleased, abandon_congr hbooks] at h

theorem releasesOwn_settle (outcome : Certainty) (now : ℚ) : s.ReleasesOwn id (s.settle id outcome now) := by
  cases outcome with
  | clean => exact .inr ⟨congrArg (· ++ [id]) (released_abandon id), rfl⟩
  | uncertain => exact .inl (released_holdOnUncertainty _ _ _)

theorem releasesOwn_dropPipeline (call : EntryCall) (outcome : Certainty) (now : ℚ) :
    s.ReleasesOwn call.id (s.dropPipeline cfg call outcome now).1 := by
  rcases s.dropPipeline_cases cfg call outcome now with ⟨owner, _, heq⟩ | ⟨_, heq⟩
  · rw [heq]
    exact .inl (released_dropUnderlyingHolder _ _)
  · rw [heq]
    exact (releasesOwn_settle call.id outcome now).of (released_dropUnderlyingHolder _ _) (books_dropUnderlyingHolder _ _ _ _)

theorem releasesOwn_advance (call : EntryCall) (answer : Answer) (now : ℚ) :
    s.ReleasesOwn call.id (s.advance cfg call answer now).1 := by
  rcases advance_cases cfg s call answer now with hout | hout | heq
  · generalize s.advance cfg call answer now = out at hout
    cases hout with
    | waits | asks | starts | leaks => exact .inl rfl
    | takes => exact .inl (released_underlyingAcquired _ _)
    | refuses | throws => exact .inl (released_abandonAndReleaseHold _)
    | givesBack n refusal =>
      refine .inr ⟨congrArg (· ++ [call.id]) (released_abandonAndReleaseHold _), ?_⟩
      exact (books_abandonAndReleaseHold cfg { s with waiting := n } call.id).trans (abandon_congr (by rfl) _)
  · generalize s.advance cfg call answer now = out at hout
    cases hout with
    | settles => exact releasesOwn_settle _ _ _
    | drops => exact releasesOwn_dropPipeline _ _ _
    | promotes => exact (releasesOwn_dropPipeline _ _ _).of rfl rfl
    | asks | returns => exact .inl rfl
    | takes =>
      exact (releasesOwn_dropPipeline _ _ _).of (released_underlyingAcquired _ _) (books_underlyingAcquired _ _ _)
    | dropped => exact (releasesOwn_settle _ _ _).of (by rfl) (by rfl)
    | dropThrows | throws => exact .inl (released_holdOnUncertainty _ _ _)
  · rw [heq]
    exact .inl rfl

/-! ## The invariant -/

structure Finished (s : ExecutionCoordinator) : Prop where
  kept : s.Bookkept
  entries : ∀ call ∈ s.entries, call.id.kind = .entry ∧ call.id.seq ≤ s.seq
  distinct : (s.exits.map ExitCall.id).Nodup
  released : ∀ id ∈ s.released, id ∉ s.active.map ActiveExecution.id ∧ id.seq ≤ s.seq
  exits : ∀ call ∈ s.exits, call.id ∈ s.released → call.stage = .settling

theorem finished_init (context : Context) : (init context).Finished where
  kept := bookkept_init context
  entries := by intro call hcall; cases hcall
  distinct := .nil
  released := by intro id hid; cases hid
  exits := by intro call hcall; cases hcall

namespace Finished

variable {s' : ExecutionCoordinator}

section

variable (h : s.Finished)
include h

theorem beside (hkept : s'.Bookkept) (hseq : s.seq ≤ s'.seq)
    (hentries : ∀ call ∈ s'.entries, call.id.kind = .entry ∧ call.id.seq ≤ s'.seq) (hexits : s'.exits = s.exits)
    (hreleased : s'.released = s.released)
    (hactive : ∀ id ∈ s'.active.map ActiveExecution.id, id.seq ≤ s.seq → id ∈ s.active.map ActiveExecution.id) :
    s'.Finished where
  kept := hkept
  entries := hentries
  distinct := hexits ▸ h.distinct
  released := by
    intro id hid
    rw [hreleased] at hid
    obtain ⟨hnot, hle⟩ := h.released id hid
    exact ⟨fun hmem => hnot (hactive id hmem hle), hle.trans hseq⟩
  exits := by
    rw [hexits, hreleased]
    exact h.exits

theorem of_frames (hbooks : s'.books = s.books) (hdesk : s'.desk = s.desk) (hreleased : s'.released = s.released) :
    s'.Finished := by
  have hactive : s'.active = s.active := congrArg Books.active hbooks
  have hseq : s'.seq = s.seq := congrArg Desk.seq hdesk
  have hentries : s'.entries = s.entries := congrArg Desk.entries hdesk
  refine h.beside (h.kept.of_desk hbooks hdesk) hseq.ge ?_ (congrArg Desk.exits hdesk) hreleased fun id hid _ => hactive ▸ hid
  rw [hentries, hseq]
  exact h.entries

theorem of_releasesOwn {call : EntryCall} (hcall : call ∈ s.entries) (hkept : s'.Bookkept) (hseq : s.seq ≤ s'.seq)
    (hentries : s'.entries = s.entries) (hexits : s'.exits = s.exits)
    (hactive : ∀ id ∈ s'.active.map ActiveExecution.id, id ∈ s.active.map ActiveExecution.id)
    (hown : s.ReleasesOwn call.id s') : s'.Finished := by
  have hminted : ∀ call ∈ s'.entries, call.id.kind = .entry ∧ call.id.seq ≤ s'.seq := by
    rw [hentries]
    exact fun other hother => ⟨(h.entries other hother).1, (h.entries other hother).2.trans hseq⟩
  rcases hown with hsame | ⟨hreleased, hbooks⟩
  · exact h.beside hkept hseq hminted hexits hsame fun id hid _ => hactive id hid
  · have hgone : call.id ∉ s'.active.map ActiveExecution.id := by
      rw [show s'.active = _ from congrArg Books.active (hbooks.trans (books_abandon _ _))]
      intro hmem
      obtain ⟨exec, hexec, hid⟩ := List.mem_map.mp hmem
      simp [hid] at hexec
    refine ⟨hkept, hminted, hexits ▸ h.distinct, ?_, ?_⟩
    · intro id hid
      rw [hreleased] at hid
      rcases List.mem_append.mp hid with hid | hid
      · exact ⟨fun hmem => (h.released id hid).1 (hactive id hmem), (h.released id hid).2.trans hseq⟩
      · cases List.mem_singleton.mp hid
        exact ⟨hgone, (h.entries call hcall).2.trans hseq⟩
    · intro exit hexit hid
      rw [hexits] at hexit
      rw [hreleased] at hid
      rcases List.mem_append.mp hid with hid | hid
      · exact h.exits exit hexit hid
      · -- an exit has an identity of its own kind
        have hkind := (h.kept.exits exit hexit).1
        rw [List.mem_singleton.mp hid, (h.entries call hcall).1] at hkind
        cases hkind

theorem conclude {call : EntryCall} (hcall : call ∈ s.entries) (progress : Progress) :
    (s.conclude call progress).Finished := by
  obtain ⟨hactive, _, _, hseq, _⟩ := s.conclude_frame call progress
  have hframe : (s.conclude call progress).exits = s.exits ∧ (s.conclude call progress).released = s.released := by
    unfold ExecutionCoordinator.conclude
    split <;> exact ⟨rfl, rfl⟩
  refine h.beside (h.kept.conclude call progress) hseq.ge ?_ hframe.1 hframe.2 fun id hid _ => hactive ▸ hid
  intro other hother
  rw [hseq]
  rcases mem_entries_conclude hother with ⟨hother, _⟩ | ⟨stage, _, rfl⟩
  · exact h.entries other hother
  · exact h.entries call hcall

theorem advance {call : EntryCall} (hcall : call ∈ s.entries) (answer : Answer) (now : ℚ) :
    ((s.advance cfg call answer now).1.conclude call (s.advance cfg call answer now).2).Finished := by
  have hdesk := s.desk_advance cfg call answer now
  have hentries : (s.advance cfg call answer now).1.entries = s.entries := by
    rcases hdesk with heq | heq <;> exact congrArg Desk.entries heq
  have hexits : (s.advance cfg call answer now).1.exits = s.exits := by
    rcases hdesk with heq | heq <;> exact congrArg Desk.exits heq
  have hseq : s.seq ≤ (s.advance cfg call answer now).1.seq := by
    rcases hdesk with heq | heq
    · exact le_of_eq (congrArg Desk.seq heq).symm
    · exact (Nat.le_succ _).trans (le_of_eq (congrArg Desk.seq heq).symm)
  have hactive : ∀ id ∈ (s.advance cfg call answer now).1.active.map ActiveExecution.id,
      id ∈ s.active.map ActiveExecution.id := by
    intro id hid
    rcases s.books_advance cfg call answer now with heq | heq | ⟨keys, lease, heq⟩
    · rwa [show (s.advance cfg call answer now).1.active = s.active from congrArg Books.active heq] at hid
    · rw [show (s.advance cfg call answer now).1.active = _ from
        congrArg Books.active (heq.trans (books_abandon _ _))] at hid
      exact (List.filter_sublist.map _).subset hid
    · rw [show (s.advance cfg call answer now).1.active = (s.grant call.id keys lease).active from
        congrArg Books.active heq] at hid
      obtain ⟨exec, hexec, rfl⟩ := List.mem_map.mp hid
      obtain ⟨before, hbefore, rfl⟩ := List.mem_map.mp hexec
      refine List.mem_map.mpr ⟨before, hbefore, ?_⟩
      split <;> rfl
  exact (h.of_releasesOwn hcall (h.kept.advance call answer now) hseq hentries hexits hactive
    (releasesOwn_advance call answer now)).conclude (hentries ▸ hcall) _

theorem enter (atomic : Bool) (candidate : EntryCandidate) (gates : EntryGates) (now : ℚ) :
    (s.enter cfg atomic candidate gates now).Finished := by
  have hkept : (s.enter cfg atomic candidate gates now).Bookkept := h.kept.enter atomic candidate gates now
  have hminted : ∀ call ∈ s.entries, call.id.kind = .entry ∧ call.id.seq ≤ s.seq + 1 := fun call hcall =>
    ⟨(h.entries call hcall).1, (h.entries call hcall).2.trans (Nat.le_succ _)⟩
  unfold ExecutionCoordinator.enter at hkept ⊢
  dsimp only at hkept ⊢
  split
  · rename_i refusal hpro
    rw [hpro] at hkept
    exact h.beside hkept (Nat.le_succ _) hminted rfl rfl fun id hid _ => hid
  · rename_i hpro
    have hclaimed : (s.claimedBy cfg atomic candidate).Finished := by
      refine h.beside ?_ (Nat.le_succ _) ?_ rfl rfl ?_
      · refine ⟨sound_claim h.kept.sound rfl (h.kept.fresh .entry) (prologue_none hpro).1, ?_, ?_⟩
        · intro exec hexec
          rcases Keyed.mem_put hexec with rfl | hexec
          · exact le_rfl
          · exact (h.kept.minted exec hexec).trans (Nat.le_succ _)
        · exact fun exit hexit => ⟨(h.kept.exits exit hexit).1, (h.kept.exits exit hexit).2.trans (Nat.le_succ _)⟩
      · intro call hcall
        rcases List.mem_append.mp hcall with hcall | hcall
        · exact hminted call hcall
        · cases List.mem_singleton.mp hcall
          exact ⟨rfl, le_rfl⟩
      · intro id hid hle
        obtain ⟨exec, hexec, rfl⟩ := List.mem_map.mp hid
        rcases Keyed.mem_put hexec with rfl | hexec
        · exact absurd hle (Nat.not_succ_le_self _)
        · exact List.mem_map_of_mem hexec
    split
    · exact hclaimed
    · exact hclaimed.advance (List.mem_append_right _ (List.mem_singleton_self _)) (.consumed true none) now

theorem resumeEntry (id : MintedId) (answer : Answer) (now : ℚ) : (s.resumeEntry cfg id answer now).Finished := by
  unfold ExecutionCoordinator.resumeEntry
  cases hfind : s.entry? id with
  | none => exact h
  | some call => exact h.advance (List.mem_of_find?_eq_some hfind) answer now

/-! ### Exits -/

theorem exit {atomic : Bool} {keys : List String} {underlying : String}
    (hkept : (s.exit atomic keys underlying).Bookkept) : (s.exit atomic keys underlying).Finished := by
  have hnew : ⟨.exit, s.seq + 1⟩ ∉ s.released := fun hmem =>
    absurd (h.released _ hmem).2 (Nat.not_succ_le_self _)
  refine ⟨hkept, ?_, ?_, ?_, ?_⟩
  · exact fun call hcall => ⟨(h.entries call hcall).1, (h.entries call hcall).2.trans (Nat.le_succ _)⟩
  · show ((s.exits ++ [_]).map ExitCall.id).Nodup
    rw [List.map_append, List.nodup_append]
    refine ⟨h.distinct, List.nodup_singleton _, ?_⟩
    rintro id hid id' hid' rfl
    cases List.mem_singleton.mp hid'
    obtain ⟨call, hcall, hsame⟩ := List.mem_map.mp hid
    have hle := (h.kept.exits call hcall).2
    rw [hsame] at hle
    exact absurd hle (Nat.not_succ_le_self _)
  · exact fun id hid => ⟨(h.released id hid).1, (h.released id hid).2.trans (Nat.le_succ _)⟩
  · intro call hcall hreleased
    rcases List.mem_append.mp hcall with hcall | hcall
    · exact h.exits call hcall hreleased
    · cases List.mem_singleton.mp hcall
      exact absurd hreleased hnew

end

variable {call : ExitCall}

theorem of_exit (h : s.Finished) (hcall : call ∈ s.exits) (hkept : s'.Bookkept)
    (hdesk : s'.desk = { s.desk with exits := s'.exits }) (hdistinct : (s'.exits.map ExitCall.id).Nodup)
    (hothers : ∀ other ∈ s'.exits, (other ∈ s.exits ∧ other.id ≠ call.id) ∨
      (other.id = call.id ∧ (call.id ∈ s'.released → other.stage = .settling)))
    (hreleased : ∀ id ∈ s'.released, id ∈ s.released ∨ (id = call.id ∧ id ∉ s'.active.map ActiveExecution.id))
    (hactive : ∀ id ∈ s'.active.map ActiveExecution.id, id ∈ s.active.map ActiveExecution.id ∨ (id = call.id ∧ id ∉ s.released)) :
    s'.Finished := by
  have hseq : s'.seq = s.seq := congrArg Desk.seq hdesk
  have hentries : s'.entries = s.entries := congrArg Desk.entries hdesk
  refine ⟨hkept, ?_, hdistinct, ?_, ?_⟩
  · rw [hentries, hseq]
    exact h.entries
  · intro id hid
    rw [hseq]
    rcases hreleased id hid with hid | ⟨rfl, hgone⟩
    · obtain ⟨hnot, hle⟩ := h.released id hid
      refine ⟨fun hmem => ?_, hle⟩
      rcases hactive id hmem with hmem | ⟨_, hfree⟩
      · exact hnot hmem
      · exact hfree hid
    · exact ⟨hgone, (h.kept.exits call hcall).2⟩
  · intro other hother hid
    rcases hothers other hother with ⟨hother, hne⟩ | ⟨hsame, hstage⟩
    · rcases hreleased other.id hid with hid | ⟨hsame, _⟩
      · exact h.exits other hother hid
      · exact absurd hsame hne
    · exact hstage (hsame ▸ hid)

theorem moveExit (h : s.Finished) (hcall : call ∈ s.exits) {stage : ExitStage}
    (hkept : (s'.moveExit call stage).Bookkept) (hdesk : s'.desk = s.desk)
    (hstage : call.id ∈ s'.released → stage = .settling)
    (hreleased : ∀ id ∈ s'.released, id ∈ s.released ∨ (id = call.id ∧ id ∉ s'.active.map ActiveExecution.id))
    (hactive : ∀ id ∈ s'.active.map ActiveExecution.id, id ∈ s.active.map ActiveExecution.id ∨ (id = call.id ∧ id ∉ s.released)) :
    (s'.moveExit call stage).Finished := by
  have hexits : s'.exits = s.exits := congrArg Desk.exits hdesk
  refine h.of_exit hcall hkept ?_ ?_ ?_ hreleased hactive
  · exact congrArg (fun desk : Desk => { desk with exits := (s'.moveExit call stage).exits }) hdesk
  · show ((Keyed.replace ExitCall.id s'.exits { call with stage }).map ExitCall.id).Nodup
    rw [Keyed.map_replace, hexits]
    exact h.distinct
  · intro other hother
    rcases Keyed.mem_replace hother with rfl | hother
    · exact .inr ⟨rfl, hstage⟩
    · exact .inl ⟨hexits ▸ hother.1, hother.2⟩

theorem endExit (h : s.Finished) (hcall : call ∈ s.exits) (hkept : (s'.endExit call).Bookkept)
    (hdesk : s'.desk = s.desk) (hreleased : s'.released = s.released)
    (hactive : ∀ id ∈ s'.active.map ActiveExecution.id, id ∈ s.active.map ActiveExecution.id) :
    (s'.endExit call).Finished := by
  have hexits : s'.exits = s.exits := congrArg Desk.exits hdesk
  refine h.of_exit hcall hkept ?_ ?_ ?_ (fun id hid => .inl (hreleased ▸ hid)) fun id hid => .inl (hactive id hid)
  · exact congrArg (fun desk : Desk => { desk with exits := (s'.endExit call).exits }) hdesk
  · show ((s'.exits.filter _).map ExitCall.id).Nodup
    rw [hexits]
    exact h.distinct.sublist (List.filter_sublist.map _)
  · intro other hother
    obtain ⟨hother, hne⟩ := List.mem_filter.mp hother
    exact .inl ⟨hexits ▸ hother, by simpa using hne⟩

theorem active_settled {id : MintedId} (hbooks : s'.books = (s.abandon id).books) :
    (∀ other ∈ s'.active.map ActiveExecution.id, other ∈ s.active.map ActiveExecution.id) ∧
      id ∉ s'.active.map ActiveExecution.id := by
  rw [show s'.active = _ from congrArg Books.active (hbooks.trans (books_abandon _ _))]
  refine ⟨fun other hother => (List.filter_sublist.map _).subset hother, ?_⟩
  intro hmem
  obtain ⟨exec, hexec, hid⟩ := List.mem_map.mp hmem
  simp [hid] at hexec

theorem exitAcquired (h : s.Finished) (hcall : call ∈ s.exits) (hstage : call.stage ≠ .settling)
    (result : AcquireResult) : (s.exitAcquired cfg call result).Finished := by
  have hkept : (s.exitAcquired cfg call result).Bookkept := h.kept.exitAcquired hcall result
  have hfree : call.id ∉ s.released := fun hmem => hstage (h.exits call hcall hmem)
  unfold ExecutionCoordinator.exitAcquired at hkept ⊢
  split
  · rename_i lease
    refine h.moveExit hcall hkept rfl (fun hmem => absurd hmem hfree) (fun id hid => .inl hid) ?_
    intro id hid
    obtain ⟨exec, hexec, rfl⟩ := List.mem_map.mp hid
    rcases Keyed.mem_put hexec with rfl | hexec
    · exact .inr ⟨rfl, hfree⟩
    · exact .inl (List.mem_map_of_mem hexec)
  · exact h.endExit hcall hkept rfl rfl fun id hid => hid
  · dsimp only at hkept
    split
    · rename_i hlocal
      rw [if_pos hlocal] at hkept
      exact h.moveExit hcall hkept rfl (fun hmem => absurd hmem hfree) (fun id hid => .inl hid) fun id hid => .inl hid
    · rename_i hlocal
      rw [if_neg hlocal] at hkept
      exact h.endExit hcall hkept rfl rfl fun id hid => hid

theorem exitExecuted (h : s.Finished) (hcall : call ∈ s.exits) (result : ExecutionResult) (now : ℚ) :
    (s.exitExecuted call result now).Finished := by
  have hkept : (s.exitExecuted call result now).Bookkept := h.kept.exitExecuted call result now
  unfold ExecutionCoordinator.exitExecuted at hkept ⊢
  split
  · rename_i hclean
    rw [hclean] at hkept
    obtain ⟨hactive, hgone⟩ := active_settled (s.books_settle call.id .clean now)
    refine h.moveExit hcall hkept (s.desk_settle call.id .clean now) (fun _ => rfl) ?_ fun id hid => .inl (hactive id hid)
    intro id hid
    rw [show (s.settle call.id .clean now).released = s.released ++ [call.id] from
      congrArg (· ++ [call.id]) (released_abandon _)] at hid
    exact (List.mem_append.mp hid).imp_right fun hid => by
      cases List.mem_singleton.mp hid
      exact ⟨rfl, hgone⟩
  · rename_i huncertain
    rw [huncertain] at hkept
    exact h.endExit hcall hkept (s.desk_settle call.id .uncertain now) (released_holdOnUncertainty _ _ _)
      (active_settled (s.books_settle call.id .uncertain now)).1

theorem resumeExit (h : s.Finished) (id : MintedId) (answer : Answer) (now : ℚ) :
    (s.resumeExit cfg id answer now).Finished := by
  have hkept : (s.resumeExit cfg id answer now).Bookkept := h.kept.resumeExit id answer now
  unfold ExecutionCoordinator.resumeExit at hkept ⊢
  cases hfind : s.exit? id with
  | none => exact h
  | some call =>
    rw [hfind] at hkept
    have hcall : call ∈ s.exits := List.mem_of_find?_eq_some hfind
    dsimp only at hkept ⊢
    have hthrew : (s.advanceExit cfg call answer now) = (s.holdOnUncertainty call.id "exit threw" now).endExit call →
        (s.advanceExit cfg call answer now).Finished := by
      intro heq
      rw [heq] at hkept ⊢
      exact h.endExit hcall hkept (desk_holdOnUncertainty _ _ _ _) (released_holdOnUncertainty _ _ _)
        (active_settled (books_holdOnUncertainty _ _ _ _)).1
    unfold advanceExit at hkept hthrew ⊢
    split at hkept
    all_goals rename_i hstage
    · exact h.exitAcquired hcall (by simp [hstage]) _
    · exact h.exitAcquired hcall (by simp [hstage]) _
    · exact h.endExit hcall hkept rfl rfl fun id hid => hid
    · exact h.endExit hcall hkept rfl rfl fun id hid => hid
    · exact h.exitExecuted hcall _ now
    · rw [hstage] at hthrew
      exact hthrew rfl
    · exact h.endExit hcall hkept rfl rfl fun id hid => hid
    · rw [hstage] at hthrew
      exact hthrew rfl
    · exact h

/-! ### The other steps -/

theorem step (h : s.Finished) (event : CoordinatorEvent) : (s.step cfg event).1.Finished := by
  have hkept : (s.step cfg event).1.Bookkept := h.kept.step event
  have hminted : ∀ call ∈ s.entries, call.id.kind = .entry ∧ call.id.seq ≤ s.seq + 1 := fun call hcall =>
    ⟨(h.entries call hcall).1, (h.entries call hcall).2.trans (Nat.le_succ _)⟩
  cases event with
  | entered atomic candidate gates now => exact h.enter atomic candidate gates now
  | entryAnswered id answer now => exact h.resumeEntry id answer now
  | exited atomic keys underlying => exact h.exit hkept
  | exitAnswered id answer now => exact h.resumeExit id answer now
  | claimed underlying dependant =>
    replace hkept : (s.claimUnderlying cfg underlying dependant).Bookkept := hkept
    show (s.claimUnderlying cfg underlying dependant).Finished
    unfold ExecutionCoordinator.claimUnderlying holdUnderlying at hkept ⊢
    by_cases hone : cfg.oneActiveBoxPerUnderlying = true
    · cases hclaim : s.positionClaim? (s.positionClaimKey cfg underlying) with
      | some claim =>
        simp only [hone, hclaim, Bool.not_true, Bool.false_eq_true, if_false] at hkept ⊢
        exact h.beside hkept le_rfl h.entries rfl rfl fun id hid _ => hid
      | none =>
        simp only [hone, hclaim, Bool.not_true, Bool.false_eq_true, if_false] at hkept ⊢
        exact h.beside hkept (Nat.le_succ _) hminted rfl rfl fun id hid _ => hid
    · simpa [hone] using h
  | claimAnswered owner answer =>
    show (s.claimAcquired owner answer).Finished
    unfold ExecutionCoordinator.claimAcquired
    split
    · have hleft : { s with acquirings := s.acquirings.filter fun other => other.owner ≠ owner }.Finished :=
        h.beside (h.kept.of_books rfl le_rfl fun call hcall => List.mem_map_of_mem hcall) le_rfl h.entries rfl rfl
          fun id hid _ => hid
      exact hleft.of_frames (books_underlyingAcquired _ _ _) (desk_underlyingAcquired _ _ _) (released_underlyingAcquired _ _)
    · exact h
  | unclaimed underlying dependant =>
    exact h.of_frames (books_dropUnderlyingHolder _ _ _ _) (desk_dropUnderlyingHolder _ _ _ _)
      (released_dropUnderlyingHolder _ _)
  | dropped owner => exact h.of_frames rfl rfl rfl
  | ticked now =>
    obtain ⟨holds, renewTick, heq⟩ := s.beginTick_frame cfg now
    show (s.beginTick cfg now).Finished
    rw [heq]
    exact h.of_frames rfl rfl rfl
  | renewed id outcome =>
    replace hkept : (s.renewed cfg id outcome).1.Bookkept := hkept
    obtain ⟨active, positionClaims, holds, renewTick, heq, hactive, _⟩ := s.renewed_frame cfg id outcome
    show (s.renewed cfg id outcome).1.Finished
    rw [heq] at hkept ⊢
    refine h.beside hkept le_rfl h.entries rfl rfl ?_
    intro other hother _
    rcases hactive with rfl | rfl
    · exact hother
    · obtain ⟨exec, hexec, rfl⟩ := List.mem_map.mp hother
      exact (within_renewExecution id outcome).mem hexec
  | switched context => exact h.beside hkept le_rfl h.entries rfl rfl fun id hid _ => hid
  | reset => exact h.beside hkept le_rfl h.entries rfl rfl fun id hid _ => by cases hid

end Finished

def pendingRenewals (s : ExecutionCoordinator) : List MintedId :=
  match s.renewTick with
  | some ⟨_, _, .executions pending⟩ => pending
  | _ => []

theorem violation_renewed (outcome : Option RenewOutcome) :
    (s.renewed cfg id outcome).2 = if id ∈ s.pendingRenewals then (s.renewExecution id outcome).2 else none := by
  unfold renewed pendingRenewals
  rcases s.renewTick with _ | ⟨now, context, stage⟩
  · rfl
  cases stage with
  | executions pending =>
    dsimp only
    split <;> rfl
  | holds rest | claims rest =>
    cases rest with
    | nil => cases outcome <;> rfl
    | cons current rest => cases outcome <;> dsimp only <;> split <;> rfl

end ExecutionCoordinator

/-! ## The coordinator over a store of leases -/

structure HeartbeatWorld where
  coordinator : ExecutionCoordinator
  gone : List MintedId

inductive HeartbeatEvent where
  | moved (event : CoordinatorEvent)
  | lapsed (id : MintedId)

namespace HeartbeatWorld

variable {cfg : CoordinatorConfig} {w : HeartbeatWorld}

def init (context : Context) : HeartbeatWorld := ⟨.init context, []⟩

def step (cfg : CoordinatorConfig) (w : HeartbeatWorld) : HeartbeatEvent → HeartbeatWorld × Option Violation
  | .moved event => ({ w with coordinator := (w.coordinator.step cfg event).1 }, (w.coordinator.step cfg event).2)
  | .lapsed id => ({ w with gone := id :: w.gone }, none)

/-- The store reports a lease lost or expired only when it was released or has really gone. -/
def Honest (w : HeartbeatWorld) : HeartbeatEvent → Prop
  | .moved (.renewed id (some (.lost _))) | .moved (.renewed id (some (.expired _))) =>
    id ∈ w.coordinator.pendingRenewals → id ∈ w.coordinator.released ∨ id ∈ w.gone
  | _ => True

def Rightly (cfg : CoordinatorConfig) (w : HeartbeatWorld) (event : HeartbeatEvent) : Prop :=
  ∀ violation, (w.step cfg event).2 = some violation →
    violation.execution ∈ w.coordinator.active.map ActiveExecution.id ∧
      violation.execution ∉ w.coordinator.released ∧
      (violation.execution ∈ w.gone ∨ ∃ detail, event = .moved (.renewed violation.execution (some (.unavailable detail))))

/-- A renewal that an execution's tick awaits finds the execution active, unless it brings a lease. -/
def Timely (w : HeartbeatWorld) : HeartbeatEvent → Prop
  | .moved (.renewed id (some (.lost _))) | .moved (.renewed id (some (.expired _)))
  | .moved (.renewed id (some (.unavailable _))) =>
    id ∈ w.coordinator.pendingRenewals → id ∈ w.coordinator.active.map ActiveExecution.id
  | _ => True

theorem step_violation (event : HeartbeatEvent) {violation : Violation} (h : (w.step cfg event).2 = some violation) :
    ∃ id outcome, event = .moved (.renewed id (some outcome)) ∧ violation.execution = id ∧
      id ∈ w.coordinator.pendingRenewals ∧ ∀ expiresAt fence, outcome ≠ .ok expiresAt fence := by
  cases event with
  | lapsed id => cases h
  | moved event =>
    cases event with
    | renewed id outcome =>
      replace h : (w.coordinator.renewed cfg id outcome).2 = some violation := h
      rw [ExecutionCoordinator.violation_renewed] at h
      split at h
      · rename_i hpending
        cases outcome with
        | none => cases h
        | some outcome =>
          cases outcome with
          | ok => cases h
          | lost detail | expired detail | unavailable detail =>
            cases h
            exact ⟨id, _, rfl, rfl, hpending, by simp⟩
      · cases h
    | entered | entryAnswered | exited | exitAnswered | claimed | claimAnswered | unclaimed | dropped | ticked | switched
    | reset => cases h

variable {id : MintedId}

variable (cfg) in
theorem step_fault {outcome : RenewOutcome} (hpending : id ∈ w.coordinator.pendingRenewals)
    (hfails : ∀ expiresAt fence, outcome ≠ .ok expiresAt fence) :
    ∃ violation, (w.step cfg (.moved (.renewed id (some outcome)))).2 = some violation ∧ violation.execution = id := by
  show ∃ violation, (w.coordinator.renewed cfg id (some outcome)).2 = some violation ∧ _
  rw [ExecutionCoordinator.violation_renewed, if_pos hpending]
  cases outcome with
  | ok expiresAt fence => exact absurd rfl (hfails expiresAt fence)
  | lost | expired | unavailable => exact ⟨_, rfl, rfl⟩

theorem rightly_iff_timely (h : w.coordinator.Finished) {event : HeartbeatEvent} (hhonest : w.Honest event) :
    w.Rightly cfg event ↔ w.Timely event := by
  constructor
  · intro hrightly
    have hraised : ∀ id outcome, event = .moved (.renewed id (some outcome)) →
        (∀ expiresAt fence, outcome ≠ .ok expiresAt fence) → id ∈ w.coordinator.pendingRenewals →
        id ∈ w.coordinator.active.map ActiveExecution.id := by
      rintro id outcome rfl hfails hpending
      obtain ⟨violation, hviolation, rfl⟩ := step_fault cfg hpending hfails
      exact (hrightly violation hviolation).1
    unfold Timely
    split
    · exact hraised _ _ rfl (by simp)
    · exact hraised _ _ rfl (by simp)
    · exact hraised _ _ rfl (by simp)
    · trivial
  · intro htimely violation hviolation
    obtain ⟨id, outcome, rfl, rfl, hpending, hfails⟩ := step_violation event hviolation
    have hactive : violation.execution ∈ w.coordinator.active.map ActiveExecution.id := by
      cases outcome with
      | ok expiresAt fence => exact absurd rfl (hfails expiresAt fence)
      | lost | expired | unavailable => exact htimely hpending
    have hkept : violation.execution ∉ w.coordinator.released := fun hreleased => (h.released _ hreleased).1 hactive
    refine ⟨hactive, hkept, ?_⟩
    cases outcome with
    | ok expiresAt fence => exact absurd rfl (hfails expiresAt fence)
    | lost | expired => exact .inl ((hhonest hpending).resolve_left hkept)
    | unavailable detail => exact .inr ⟨detail, rfl⟩

/-! ## Runs -/

variable (cfg) in
theorem finished_step (h : w.coordinator.Finished) (event : HeartbeatEvent) : (w.step cfg event).1.coordinator.Finished := by
  cases event with
  | moved event => exact h.step event
  | lapsed id => exact h

variable (cfg) in
theorem finished_run (h : w.coordinator.Finished) (events : List HeartbeatEvent) :
    (Run.finish (step cfg) w events).coordinator.Finished := by
  induction events generalizing w with
  | nil => exact h
  | cons event events ih => exact ih (finished_step cfg h event)

/-- **A fault is right** exactly when the execution whose renewal fails is active. -/
theorem faults_iff (cfg : CoordinatorConfig) (context : Context) (events : List HeartbeatEvent)
    (event : HeartbeatEvent) (hhonest : (Run.finish (step cfg) (init context) events).Honest event) :
    (Run.finish (step cfg) (init context) events).Rightly cfg event ↔
      (Run.finish (step cfg) (init context) events).Timely event :=
  rightly_iff_timely (finished_run cfg (ExecutionCoordinator.finished_init context) events) hhonest

def renewalAsked : List HeartbeatEvent :=
  [.moved (.entered false ExecutionCoordinator.niftyCandidate ExecutionCoordinator.openGates 0),
    .moved (.entryAnswered ⟨.entry, 1⟩ ExecutionCoordinator.leased 1),
    .moved (.entryAnswered ⟨.entry, 1⟩ ExecutionCoordinator.leased 2), .moved (.ticked 10000)]

theorem honest_of_gone {detail : String} (h : id ∈ w.gone) :
    w.Honest (.moved (.renewed id (some (.lost detail)))) := fun _ => .inr h

theorem honest_of_released {detail : String} (h : id ∈ w.coordinator.released) :
    w.Honest (.moved (.renewed id (some (.lost detail)))) := fun _ => .inl h

def takenOver : List HeartbeatEvent := renewalAsked ++ [.lapsed ⟨.entry, 1⟩]

theorem faults_iff_taken_over :
    (Run.finish (step ExecutionCoordinator.oneBox) (init ExecutionCoordinator.zerodha) takenOver).Rightly
        ExecutionCoordinator.oneBox (.moved (.renewed ⟨.entry, 1⟩ (some (.lost "taken over")))) ↔
      (Run.finish (step ExecutionCoordinator.oneBox) (init ExecutionCoordinator.zerodha) takenOver).Timely
        (.moved (.renewed ⟨.entry, 1⟩ (some (.lost "taken over")))) :=
  faults_iff ExecutionCoordinator.oneBox ExecutionCoordinator.zerodha takenOver
    (.moved (.renewed ⟨.entry, 1⟩ (some (.lost "taken over")))) (honest_of_gone (by decide +kernel))

def settledMeanwhile : List HeartbeatEvent :=
  renewalAsked ++ [.moved (.entryAnswered ⟨.entry, 1⟩ (.executed ⟨true, "filled", some "T1", []⟩) 10001)]

/-- The store has lost what it was told to release, and the breaker trips. -/
theorem not_rightly_settled :
    (Run.finish (step ExecutionCoordinator.oneBox) (init ExecutionCoordinator.zerodha) settledMeanwhile).Honest
        (.moved (.renewed ⟨.entry, 1⟩ (some (.lost "released")))) ∧
      ¬ (Run.finish (step ExecutionCoordinator.oneBox) (init ExecutionCoordinator.zerodha) settledMeanwhile).Rightly
        ExecutionCoordinator.oneBox (.moved (.renewed ⟨.entry, 1⟩ (some (.lost "released")))) := by
  refine ⟨honest_of_released (by decide +kernel), fun hrightly => ?_⟩
  have hraised := hrightly ⟨⟨.entry, 1⟩, "box reservation ownership lost mid-execution (released)"⟩ (by decide +kernel)
  exact absurd hraised.1 (by decide +kernel)

end HeartbeatWorld

end Coordination

end BoxEngine
