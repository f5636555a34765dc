import BoxEngine.CoordinatorFrames
import BoxEngine.Lib.Run

/-!
# The books of the coordinator

An identity maps to an execution exactly while that execution is active under it, so no identity is
entered twice, and an entry is claimed only below both ceilings.
-/

namespace BoxEngine

namespace Coordination

namespace Books

structure Sound (b : Books) : Prop where
  distinct : (b.active.map ActiveExecution.id).Nodup
  keyed : (b.activeOpportunities.map Prod.fst).Nodup
  mapped : ∀ exec ∈ b.active, ∀ opportunityId, exec.opportunityId = some opportunityId →
    (opportunityId, exec.id) ∈ b.activeOpportunities
  standing : ∀ entry ∈ b.activeOpportunities, ∃ exec ∈ b.active, exec.id = entry.2 ∧ exec.opportunityId = some entry.1
  named : ∀ exec ∈ b.active, exec.opportunityId.isSome = decide (exec.id.kind = .entry)

theorem sound_nil : Sound ⟨[], []⟩ where
  distinct := .nil
  keyed := .nil
  mapped := by intro exec hexec; cases hexec
  standing := by intro entry hentry; cases hentry
  named := by intro exec hexec; cases hexec

variable {b : Books}

theorem Sound.unique (h : b.Sound) {exec exec' : ActiveExecution} (hexec : exec ∈ b.active) (hexec' : exec' ∈ b.active)
    {opportunityId : String} (ho : exec.opportunityId = some opportunityId)
    (ho' : exec'.opportunityId = some opportunityId) : exec = exec' := by
  have hid := List.inj_on_of_nodup_map h.keyed (h.mapped exec hexec _ ho) (h.mapped exec' hexec' _ ho') rfl
  exact List.inj_on_of_nodup_map h.distinct hexec hexec' (Prod.mk.inj hid).2

theorem Sound.map (h : b.Sound) {f : ActiveExecution → ActiveExecution} (hid : ∀ exec, (f exec).id = exec.id)
    (ho : ∀ exec, (f exec).opportunityId = exec.opportunityId) : Sound ⟨b.active.map f, b.activeOpportunities⟩ where
  distinct := by
    rw [List.map_map, show ActiveExecution.id ∘ f = ActiveExecution.id from funext hid]
    exact h.distinct
  keyed := h.keyed
  mapped := by
    intro exec hexec opportunityId hopp
    obtain ⟨exec, hbefore, rfl⟩ := List.mem_map.mp hexec
    rw [hid]
    exact h.mapped exec hbefore _ (by rw [← ho, hopp])
  standing := by
    intro entry hentry
    obtain ⟨exec, hexec, hid', ho'⟩ := h.standing entry hentry
    exact ⟨f exec, List.mem_map_of_mem hexec, by rw [hid, hid'], by rw [ho, ho']⟩
  named := by
    intro exec hexec
    obtain ⟨exec, hbefore, rfl⟩ := List.mem_map.mp hexec
    rw [hid, ho]
    exact h.named exec hbefore

end Books

namespace ExecutionCoordinator

variable {cfg : CoordinatorConfig} {s : ExecutionCoordinator}
variable {exec : ActiveExecution}

theorem execution?_of_mem (h : s.books.Sound) (hexec : exec ∈ s.active) :
    s.execution? exec.id = some exec := Keyed.find?_of_mem h.distinct hexec

variable {id : MintedId}

section

variable (h : s.books.Sound)
include h

theorem mem_remaining {entry : String × MintedId} :
    entry ∈ s.remaining id ↔ entry ∈ s.activeOpportunities ∧ entry.2 ≠ id := by
  unfold remaining
  rw [List.mem_filter, decide_eq_true_eq]
  refine and_congr_right ?_
  intro hentry
  obtain ⟨exec, hexec, hid, ho⟩ := h.standing entry hentry
  refine ⟨?_, fun hne hboth => hne hboth.2⟩
  rintro hkept rfl
  refine hkept ⟨?_, rfl⟩
  rw [← hid, execution?_of_mem h hexec]
  exact ho

variable (id : MintedId)

theorem sound_abandon : (s.abandon id).books.Sound := by
  rw [books_abandon]
  refine ⟨?_, ?_, ?_, ?_, ?_⟩
  · exact h.distinct.sublist (List.filter_sublist.map _)
  · exact h.keyed.sublist (List.filter_sublist.map _)
  · intro exec hexec opportunityId ho
    obtain ⟨hexec, hne⟩ := List.mem_filter.mp hexec
    exact (mem_remaining h).mpr ⟨h.mapped exec hexec _ ho, by simpa using hne⟩
  · intro entry hentry
    obtain ⟨hentry, hne⟩ := (mem_remaining h).mp hentry
    obtain ⟨exec, hexec, hid, ho⟩ := h.standing entry hentry
    exact ⟨exec, List.mem_filter.mpr ⟨hexec, by simpa [hid] using hne⟩, hid, ho⟩
  · exact fun exec hexec => h.named exec (List.mem_filter.mp hexec).1

theorem sound_grant (keys : List String) (lease : Lease) : (s.grant id keys lease).books.Sound := by
  refine h.map ?_ ?_
  · intro exec
    split <;> rfl
  · intro exec
    split <;> rfl

theorem sound_renewExecution (outcome : Option RenewOutcome) : (s.renewExecution id outcome).1.books.Sound := by
  have hmap : ∀ f : ActiveExecution → ActiveExecution, (∀ exec, (f exec).id = exec.id) →
      (∀ exec, (f exec).opportunityId = exec.opportunityId) →
      Books.Sound ⟨s.active.map f, s.activeOpportunities⟩ := fun f hid ho => h.map hid ho
  cases outcome with
  | none => exact h
  | some outcome =>
    cases outcome
    all_goals
      refine hmap _ ?_ ?_
      · intro exec
        split <;> rfl
      · intro exec
        split <;> rfl

end

theorem books_renewExecution (id : MintedId) (outcome : Option RenewOutcome) :
    (s.renewExecution id outcome).1.books = ⟨(s.renewExecution id outcome).1.active, s.activeOpportunities⟩ := by
  cases outcome with
  | none => rfl
  | some outcome => cases outcome <;> rfl

/-- Nothing is active after a step under an identity and an underlying that was not so before it. -/
def Within (s' s : ExecutionCoordinator) : Prop :=
  ∀ exec ∈ s'.active, ∃ before ∈ s.active, before.id = exec.id ∧ before.underlying = exec.underlying

theorem Within.mem {s' : ExecutionCoordinator} (h : Within s' s) (hexec : exec ∈ s'.active) :
    exec.id ∈ s.active.map ActiveExecution.id := by
  obtain ⟨before, hbefore, hid, -⟩ := h exec hexec
  exact List.mem_map.mpr ⟨before, hbefore, hid⟩

theorem within_of_books {s' : ExecutionCoordinator} (h : s'.books = s.books) : Within s' s := by
  intro exec hexec
  have hactive : s'.active = s.active := congrArg Books.active h
  exact ⟨exec, hactive ▸ hexec, rfl, rfl⟩

theorem within_of_abandon {s' : ExecutionCoordinator} (h : s'.books = (s.abandon id).books) : Within s' s := by
  intro exec hexec
  have hactive : s'.active = s.active.filter fun exec => exec.id ≠ id := by
    rw [books_abandon] at h
    exact congrArg Books.active h
  exact ⟨exec, (List.mem_filter.mp (hactive ▸ hexec)).1, rfl, rfl⟩

theorem within_of_map {s' : ExecutionCoordinator} {f : ActiveExecution → ActiveExecution} (h : s'.active = s.active.map f)
    (hid : ∀ exec, (f exec).id = exec.id) (hunderlying : ∀ exec, (f exec).underlying = exec.underlying) : Within s' s := by
  intro exec hexec
  rw [h] at hexec
  obtain ⟨before, hbefore, rfl⟩ := List.mem_map.mp hexec
  exact ⟨before, hbefore, (hid before).symm, (hunderlying before).symm⟩

theorem within_renewExecution (id : MintedId) (outcome : Option RenewOutcome) : Within (s.renewExecution id outcome).1 s := by
  cases outcome with
  | none => exact within_of_books rfl
  | some outcome =>
    cases outcome
    all_goals
      refine within_of_map rfl ?_ ?_
      · intro exec
        split <;> rfl
      · intro exec
        split <;> rfl

theorem sound_registerActive (h : s.books.Sound) (hid : id.kind = .exit) (keys : List String) (underlying : String)
    (lease : Lease) : (s.registerActive id keys underlying lease).books.Sound where
  distinct := Keyed.nodup_put h.distinct _
  keyed := h.keyed
  mapped := by
    intro exec hexec opportunityId ho
    rcases Keyed.mem_put hexec with rfl | hexec
    · cases ho
    · exact h.mapped exec hexec _ ho
  standing := by
    intro entry hentry
    obtain ⟨exec, hexec, hexecId, ho⟩ := h.standing entry hentry
    refine ⟨exec, Keyed.mem_put_of_ne hexec ?_, hexecId, ho⟩
    intro heq
    have hnamed := h.named exec hexec
    rw [ho, heq] at hnamed
    simp [hid] at hnamed
  named := by
    intro exec hexec
    rcases Keyed.mem_put hexec with rfl | hexec
    · simp [hid]
    · exact h.named exec hexec

theorem unmapped_of_duplicate (h : s.books.Sound) {opportunityId : String}
    (hdup : s.duplicate cfg opportunityId = none) : opportunityId ∉ s.activeOpportunities.map Prod.fst := by
  intro hmem
  obtain ⟨entry, hentry, rfl⟩ := List.mem_map.mp hmem
  obtain ⟨exec, hexec, hid, _⟩ := h.standing entry hentry
  have hfind : s.activeOpportunities.find? (fun other => other.1 = entry.1) = some entry :=
    Keyed.find?_of_mem h.keyed hentry
  unfold duplicate incumbent? at hdup
  rw [hfind, Option.map_eq_none_iff, Option.map_some, Option.filter_some_eq_none] at hdup
  exact hdup (by simpa using ⟨exec, hexec, hid⟩)

theorem sound_claim (h : s.books.Sound) {candidate : EntryCandidate} (hid : id.kind = .entry)
    (hnew : id ∉ s.active.map ActiveExecution.id) (hdup : s.duplicate cfg (s.opportunityId cfg candidate) = none) :
    (s.claim cfg id candidate).books.Sound where
  distinct := Keyed.nodup_put h.distinct _
  keyed := Keyed.nodup_put h.keyed _
  mapped := by
    intro exec hexec opportunityId ho
    rcases Keyed.mem_put_ne hexec with rfl | ⟨hexec, hne⟩
    · cases ho
      exact Keyed.self_mem_put _ _
    · refine Keyed.mem_put_of_ne (h.mapped exec hexec _ ho) ?_
      rintro rfl
      exact unmapped_of_duplicate h hdup (List.mem_map.mpr ⟨_, h.mapped exec hexec _ ho, rfl⟩)
  standing := by
    intro entry hentry
    rcases Keyed.mem_put hentry with rfl | hentry
    · exact ⟨_, Keyed.self_mem_put _ _, rfl, rfl⟩
    · obtain ⟨exec, hexec, hexecId, ho⟩ := h.standing entry hentry
      refine ⟨exec, Keyed.mem_put_of_ne hexec ?_, hexecId, ho⟩
      intro heq
      exact hnew (List.mem_map.mpr ⟨exec, hexec, heq⟩)
  named := by
    intro exec hexec
    rcases Keyed.mem_put hexec with rfl | hexec
    · simp [hid]
    · exact h.named exec hexec

/-! ## One step -/

theorem stage_cases (stage : EntryStage) :
    stage.claimed = true ∨ stage.started = true ∨ ∃ refusal, stage = .releasing refusal := by
  cases stage
  case releasing refusal => exact .inr (.inr ⟨refusal, rfl⟩)
  all_goals first
    | exact .inl rfl
    | exact .inr (.inl rfl)

variable (call : EntryCall)

variable (cfg s) in
/-- An await of an entry leads to an outcome of its stage or changes nothing. -/
theorem advance_cases (answer : Answer) (now : ℚ) : ClaimedOutcome cfg s call answer (s.advance cfg call answer now) ∨
      StartedOutcome cfg s call answer (s.advance cfg call answer now) ∨ (s.advance cfg call answer now).1 = s := by
  rcases stage_cases call.stage with hstage | hstage | ⟨refusal, hstage⟩
  · exact (advance_claimed hstage answer now).imp_right fun heq => .inr (congrArg Prod.fst heq)
  · exact .inr ((advance_started hstage answer now).imp_right (congrArg Prod.fst))
  · exact .inr (.inr (advance_releasing cfg s hstage answer now).1)

variable (cfg s) in
theorem books_advance (answer : Answer) (now : ℚ) : (s.advance cfg call answer now).1.books = s.books ∨
      (s.advance cfg call answer now).1.books = (s.abandon call.id).books ∨
      ∃ keys lease, (s.advance cfg call answer now).1.books = (s.grant call.id keys lease).books := by
  rcases advance_cases cfg s call answer now with hout | hout | heq
  · generalize s.advance cfg call answer now = out at hout
    cases hout with
    | waits | asks | leaks => exact .inl rfl
    | takes => exact .inl (books_underlyingAcquired _ _ _)
    | refuses | throws | givesBack =>
      refine .inr (.inl ((books_abandonAndReleaseHold _ _ _).trans ?_))
      exact abandon_congr (by rfl) _
    | starts n lease => exact .inr (.inr ⟨_, lease, rfl⟩)
  · generalize s.advance cfg call answer now = out at hout
    cases hout with
    | settles => exact .inr (.inl (books_settleEntry _ _ _ _))
    | drops result now hstage hanswer hnone hclean => exact (s.books_dropPipeline cfg call _ now).imp_right .inl
    | promotes result tradeId claim now =>
      rcases (s.addHolder (s.positionClaimKey cfg call.candidate.underlying)
        (.dependant (.trade tradeId))).books_dropPipeline cfg call (certainty call result) now with heq | heq
      · exact .inl heq
      · exact .inr (.inl (heq.trans (abandon_congr (books_addHolder _ _ _) _)))
    | asks | returns => exact .inl rfl
    | takes acquiring outcome now =>
      rcases (s.underlyingAcquired acquiring answer).1.books_dropPipeline cfg call outcome now with heq | heq
      · exact .inl (heq.trans (books_underlyingAcquired _ _ _))
      · exact .inr (.inl (heq.trans (abandon_congr (books_underlyingAcquired _ _ _) _)))
    | dropped =>
      refine .inr (.inl ((books_settleEntry _ _ _ _).trans ?_))
      exact abandon_congr (by rfl) _
    | dropThrows =>
      refine .inr (.inl ((books_throwEntry _ _ _).trans ?_))
      exact abandon_congr (by rfl) _
    | throws => exact .inr (.inl (books_throwEntry _ _ _))
  · rw [heq]
    exact .inl rfl

variable (cfg s) in
theorem desk_advance (answer : Answer) (now : ℚ) : (s.advance cfg call answer now).1.desk = s.desk ∨
      (s.advance cfg call answer now).1.desk = { s.desk with seq := s.seq + 1 } := by
  rcases advance_cases cfg s call answer now with hout | hout | heq
  · generalize s.advance cfg call answer now = out at hout
    cases hout with
    | waits | leaks | starts => exact .inl rfl
    | asks => exact .inr rfl
    | takes => exact .inl (desk_underlyingAcquired _ _ _)
    | refuses | throws | givesBack => exact .inl (desk_abandonAndReleaseHold _ _ _)
  · generalize s.advance cfg call answer now = out at hout
    cases hout with
    | settles | dropped => exact .inl (desk_settleEntry _ _ _ _)
    | drops | promotes => exact .inl (desk_dropPipeline _ _ _ _ _)
    | asks => exact .inr rfl
    | takes => exact .inl ((desk_dropPipeline _ _ _ _ _).trans (desk_underlyingAcquired _ _ _))
    | dropThrows | throws => exact .inl (desk_holdOnUncertainty _ _ _ _)
    | returns => exact .inl rfl
  · rw [heq]
    exact .inl rfl

variable (cfg s) in
theorem within_advance (answer : Answer) (now : ℚ) : Within (s.advance cfg call answer now).1 s := by
  rcases s.books_advance cfg call answer now with heq | heq | ⟨keys, lease, heq⟩
  · exact within_of_books heq
  · exact within_of_abandon heq
  · refine within_of_map (congrArg Books.active heq) ?_ ?_
    · intro exec
      split <;> rfl
    · intro exec
      split <;> rfl

structure Bookkept (s : ExecutionCoordinator) : Prop where
  sound : s.books.Sound
  minted : ∀ exec ∈ s.active, exec.id.seq ≤ s.seq
  exits : ∀ call ∈ s.exits, call.id.kind = .exit ∧ call.id.seq ≤ s.seq

theorem bookkept_init (context : Context) : (init context).Bookkept where
  sound := Books.sound_nil
  minted := by intro exec hexec; cases hexec
  exits := by intro call hcall; cases hcall

variable {s' : ExecutionCoordinator}

section

variable (h : s.Bookkept)
include h

theorem Bookkept.of (hsound : s'.books.Sound) (hseq : s.seq ≤ s'.seq) (hactive : Within s' s)
    (hexits : ∀ call ∈ s'.exits, call.id ∈ s.exits.map ExitCall.id) : s'.Bookkept where
  sound := hsound
  minted := by
    intro exec hexec
    obtain ⟨before, hbefore, hid, -⟩ := hactive exec hexec
    rw [← hid]
    exact (h.minted before hbefore).trans hseq
  exits := by
    intro call hcall
    obtain ⟨before, hbefore, hid⟩ := List.mem_map.mp (hexits call hcall)
    rw [← hid]
    exact ⟨(h.exits before hbefore).1, (h.exits before hbefore).2.trans hseq⟩

theorem Bookkept.of_books (hbooks : s'.books = s.books) (hseq : s.seq ≤ s'.seq)
    (hexits : ∀ call ∈ s'.exits, call.id ∈ s.exits.map ExitCall.id) : s'.Bookkept :=
  h.of (hbooks ▸ h.sound) hseq (within_of_books hbooks) hexits

theorem Bookkept.of_desk (hbooks : s'.books = s.books) (hdesk : s'.desk = s.desk) : s'.Bookkept := by
  have hexits : s'.exits = s.exits := congrArg Desk.exits hdesk
  refine h.of_books hbooks (le_of_eq (congrArg Desk.seq hdesk).symm) ?_
  rw [hexits]
  exact fun call hcall => List.mem_map_of_mem hcall

theorem Bookkept.conclude (call : EntryCall) (progress : Progress) : (s.conclude call progress).Bookkept := by
  refine h.of_books (books_conclude _ _ _) ?_ ?_
  · unfold ExecutionCoordinator.conclude
    split <;> exact le_rfl
  · intro exit hexit
    have hsame : (s.conclude call progress).exits = s.exits := by
      unfold ExecutionCoordinator.conclude
      split <;> rfl
    exact List.mem_map_of_mem (hsame ▸ hexit)

theorem Bookkept.advance (call : EntryCall) (answer : Answer) (now : ℚ) :
    (s.advance cfg call answer now).1.Bookkept := by
  have hseq : s.seq ≤ (s.advance cfg call answer now).1.seq := by
    rcases s.desk_advance cfg call answer now with heq | heq
    · exact le_of_eq (congrArg Desk.seq heq).symm
    · exact (Nat.le_succ _).trans (le_of_eq (congrArg Desk.seq heq).symm)
  have hexits : (s.advance cfg call answer now).1.exits = s.exits := by
    rcases s.desk_advance cfg call answer now with heq | heq
    · exact congrArg Desk.exits heq
    · exact congrArg Desk.exits heq
  have hkept : ∀ exit ∈ (s.advance cfg call answer now).1.exits, exit.id ∈ s.exits.map ExitCall.id := by
    intro exit hexit
    exact List.mem_map_of_mem (hexits ▸ hexit)
  refine h.of ?_ hseq (s.within_advance cfg call answer now) hkept
  rcases s.books_advance cfg call answer now with heq | heq | ⟨keys, lease, heq⟩
  · exact heq ▸ h.sound
  · exact heq ▸ sound_abandon h.sound call.id
  · exact heq ▸ sound_grant h.sound call.id keys lease

theorem Bookkept.resumeEntry (id : MintedId) (answer : Answer) (now : ℚ) :
    (s.resumeEntry cfg id answer now).Bookkept := by
  unfold ExecutionCoordinator.resumeEntry
  split
  · exact (h.advance _ _ _).conclude _ _
  · exact h

end

theorem prologue_none {candidate : EntryCandidate} {gates : EntryGates} (h : s.prologue cfg candidate gates = none) :
    s.duplicate cfg (s.opportunityId cfg candidate) = none ∧ s.inventoryLimit cfg gates = none ∧
      s.underlyingBudget cfg candidate.underlying = none := by
  unfold prologue at h
  simp only [Option.or_eq_none_iff] at h
  exact ⟨h.2.1, h.2.2.2.2.2.2.2.2.1, h.2.2.2.2.2.2.2.2.2⟩

section

variable (h : s.Bookkept)
include h

theorem Bookkept.fresh (kind : MintKind) : ⟨kind, s.seq + 1⟩ ∉ s.active.map ActiveExecution.id := by
  intro hmem
  obtain ⟨exec, hexec, hid⟩ := List.mem_map.mp hmem
  have hle := h.minted exec hexec
  rw [hid] at hle
  exact absurd hle (Nat.not_succ_le_self _)

theorem Bookkept.enter (atomic : Bool) (candidate : EntryCandidate) (gates : EntryGates) (now : ℚ) :
    (s.enter cfg atomic candidate gates now).Bookkept := by
  have hkeep : ∀ call ∈ s.exits, call.id ∈ s.exits.map ExitCall.id := fun call hcall => List.mem_map_of_mem hcall
  unfold ExecutionCoordinator.enter
  dsimp only
  split
  · exact h.of_books rfl (Nat.le_succ _) hkeep
  · rename_i hpro
    let minted : ExecutionCoordinator := { s with seq := s.seq + 1 }
    have hminted : minted.Bookkept := h.of_books rfl (Nat.le_succ _) hkeep
    have hsound : (minted.claim cfg ⟨.entry, s.seq + 1⟩ candidate).books.Sound :=
      sound_claim hminted.sound rfl (h.fresh .entry) (prologue_none hpro).1
    have hclaimed : { minted.claim cfg ⟨.entry, s.seq + 1⟩ candidate with
        entries := s.entries ++ [EntryCall.mk ⟨.entry, s.seq + 1⟩ atomic candidate s.context .consuming] }.Bookkept := by
      refine ⟨hsound, ?_, hminted.exits⟩
      intro exec hexec
      rcases Keyed.mem_put hexec with rfl | hexec
      · exact le_rfl
      · exact hminted.minted exec hexec
    split
    · exact hclaimed
    · exact (hclaimed.advance ⟨⟨.entry, s.seq + 1⟩, atomic, candidate, s.context, .consuming⟩
        (.consumed true none) now).conclude _ _

variable (call : ExitCall)

theorem Bookkept.moveExit (stage : ExitStage) : (s.moveExit call stage).Bookkept := by
  refine h.of_books rfl le_rfl ?_
  intro exit hexit
  rw [← Keyed.map_replace s.exits { call with stage }]
  exact List.mem_map_of_mem hexit

theorem Bookkept.endExit : (s.endExit call).Bookkept := by
  refine h.of_books rfl le_rfl ?_
  intro exit hexit
  exact List.mem_map_of_mem (List.mem_filter.mp hexit).1

theorem Bookkept.settled (id : MintedId) (hbooks : s'.books = (s.abandon id).books) (hdesk : s'.desk = s.desk) :
    s'.Bookkept := by
  have hseq : s'.seq = s.seq := congrArg Desk.seq hdesk
  have hexits : s'.exits = s.exits := congrArg Desk.exits hdesk
  refine h.of (hbooks ▸ sound_abandon h.sound id) hseq.ge (within_of_abandon hbooks) ?_
  intro exit hexit
  exact List.mem_map_of_mem (hexits ▸ hexit)

theorem Bookkept.exitAcquired {call : ExitCall} (hcall : call ∈ s.exits) (result : AcquireResult) :
    (s.exitAcquired cfg call result).Bookkept := by
  unfold ExecutionCoordinator.exitAcquired
  split
  · rename_i lease
    have hregistered : (s.registerActive call.id call.keys call.underlying lease).Bookkept := by
      refine ⟨sound_registerActive h.sound (h.exits call hcall).1 _ _ lease, ?_, h.exits⟩
      intro exec hexec
      rcases Keyed.mem_put hexec with rfl | hexec
      · exact (h.exits call hcall).2
      · exact h.minted exec hexec
    exact hregistered.moveExit call _
  · exact h.endExit call
  · split
    · exact h.moveExit call _
    · exact h.endExit call

theorem Bookkept.exitExecuted (result : ExecutionResult) (now : ℚ) : (s.exitExecuted call result now).Bookkept := by
  unfold ExecutionCoordinator.exitExecuted
  split
  · exact (h.settled call.id (books_settle _ _ _ _) (desk_settle _ _ _ _)).moveExit call _
  · exact (h.settled call.id (books_settle _ _ _ _) (desk_settle _ _ _ _)).endExit call

theorem Bookkept.resumeExit (id : MintedId) (answer : Answer) (now : ℚ) :
    (s.resumeExit cfg id answer now).Bookkept := by
  unfold ExecutionCoordinator.resumeExit
  split
  · rename_i call hfind
    have hcall : call ∈ s.exits := List.mem_of_find?_eq_some hfind
    have hthrew : (s.holdOnUncertainty call.id "exit threw" now).Bookkept :=
      h.settled call.id (books_holdOnUncertainty _ _ _ _) (desk_holdOnUncertainty _ _ _ _)
    unfold advanceExit
    split
    · exact h.exitAcquired hcall _
    · exact h.exitAcquired hcall _
    · exact h.endExit call
    · exact h.endExit call
    · exact h.exitExecuted call _ now
    · exact hthrew.endExit call
    · exact h.endExit call
    · exact hthrew.endExit call
    · exact h
  · exact h

theorem Bookkept.claimUnderlying (underlying : String) (dependant : Dependant) :
    (s.claimUnderlying cfg underlying dependant).Bookkept := by
  have hkeep : ∀ call ∈ s.exits, call.id ∈ s.exits.map ExitCall.id := fun call hcall => List.mem_map_of_mem hcall
  unfold ExecutionCoordinator.claimUnderlying holdUnderlying
  by_cases hone : cfg.oneActiveBoxPerUnderlying = true
  · cases hclaim : s.positionClaim? (s.positionClaimKey cfg underlying) with
    | some claim => simpa [hone, hclaim] using h.of_books (books_addHolder _ _ _) le_rfl hkeep
    | none =>
      simp only [hone, hclaim, Bool.not_true, Bool.false_eq_true, if_false]
      exact h.of_books rfl (Nat.le_succ _) hkeep
  · simpa [hone] using h

theorem Bookkept.step (event : CoordinatorEvent) : (s.step cfg event).1.Bookkept := by
  have hkeep : ∀ call ∈ s.exits, call.id ∈ s.exits.map ExitCall.id := fun call hcall => List.mem_map_of_mem hcall
  cases event with
  | entered atomic candidate gates now => exact h.enter atomic candidate gates now
  | entryAnswered id answer now => exact h.resumeEntry id answer now
  | exited atomic keys underlying =>
    refine ⟨h.sound, fun exec hexec => (h.minted exec hexec).trans (Nat.le_succ _), ?_⟩
    intro call hcall
    rcases List.mem_append.mp hcall with hcall | hcall
    · exact ⟨(h.exits call hcall).1, (h.exits call hcall).2.trans (Nat.le_succ _)⟩
    · cases List.mem_singleton.mp hcall
      exact ⟨rfl, le_rfl⟩
  | exitAnswered id answer now => exact h.resumeExit id answer now
  | claimed underlying dependant => exact h.claimUnderlying underlying dependant
  | claimAnswered owner answer =>
    show (s.claimAcquired owner answer).Bookkept
    unfold claimAcquired
    split
    · have hleft : { s with acquirings := s.acquirings.filter fun other => other.owner ≠ owner }.Bookkept :=
        h.of_books rfl le_rfl hkeep
      exact hleft.of_desk (books_underlyingAcquired _ _ _) (desk_underlyingAcquired _ _ _)
    · exact h
  | unclaimed underlying dependant =>
    exact h.of_desk (books_dropUnderlyingHolder _ _ _ _) (desk_dropUnderlyingHolder _ _ _ _)
  | dropped owner => exact h.of_books rfl le_rfl hkeep
  | ticked now =>
    obtain ⟨holds, renewTick, heq⟩ := s.beginTick_frame cfg now
    show (s.beginTick cfg now).Bookkept
    rw [heq]
    exact h.of_books rfl le_rfl hkeep
  | renewed id outcome =>
    obtain ⟨active, positionClaims, holds, renewTick, heq, hactive, _⟩ := s.renewed_frame cfg id outcome
    show (s.renewed cfg id outcome).1.Bookkept
    rw [heq]
    rcases hactive with rfl | rfl
    · exact h.of_books rfl le_rfl hkeep
    · refine h.of ?_ le_rfl ?_ hkeep
      · show Books.Sound ⟨(s.renewExecution id outcome).1.active, s.activeOpportunities⟩
        rw [← books_renewExecution]
        exact sound_renewExecution h.sound id outcome
      · exact within_renewExecution id outcome
  | switched context => exact h.of_books rfl le_rfl hkeep
  | reset => exact h.of Books.sound_nil le_rfl (by intro exec hexec; cases hexec) hkeep

end

theorem bookkept_run (context : Context) (events : List CoordinatorEvent) :
    (Run.finish (step cfg) (init context) events).Bookkept := by
  have hrun : ∀ s : ExecutionCoordinator, s.Bookkept → (Run.finish (step cfg) s events).Bookkept := by
    induction events with
    | nil => exact fun s h => h
    | cons event events ih => exact fun s h => ih _ (h.step event)
  exact hrun _ (bookkept_init context)

theorem lt_of_underlyingBudget {underlying : String} (h : s.underlyingBudget cfg underlying = none)
    (hpos : 0 < cfg.maxConcurrentPerUnderlying) : s.sameUnderlying underlying < cfg.maxConcurrentPerUnderlying := by
  unfold underlyingBudget at h
  split at h
  · cases h
  · rename_i hnot
    exact Nat.lt_of_not_le fun hle => hnot ⟨hpos, hle⟩

theorem lt_of_inventoryLimit {gates : EntryGates} (h : s.inventoryLimit cfg gates = none) (hpos : 0 < cfg.maxOpenBoxes) :
    gates.boxInventory + s.entriesInFlight + s.holds.length < cfg.maxOpenBoxes := by
  unfold inventoryLimit at h
  dsimp only at h
  split at h
  · cases h
  · rename_i hnot
    exact Nat.lt_of_not_le fun hle => hnot ⟨hpos, hle⟩

/-! ## What a step makes active -/

variable (cfg s) in
theorem books_claimUnderlying (underlying : String) (dependant : Dependant) :
    (s.claimUnderlying cfg underlying dependant).books = s.books := by
  unfold ExecutionCoordinator.claimUnderlying holdUnderlying
  by_cases hone : cfg.oneActiveBoxPerUnderlying = true
  · cases hclaim : s.positionClaim? (s.positionClaimKey cfg underlying) with
    | some claim => simp [hone, hclaim]
    | none =>
      simp only [hone, hclaim, Bool.not_true, Bool.false_eq_true, if_false]
      rfl
  · simp [hone]

theorem active_resumeExit (h : s.Bookkept) (id : MintedId) (answer : Answer) (now : ℚ)
    (hexec : exec ∈ (s.resumeExit cfg id answer now).active) : exec.id.kind = .exit ∨
      exec.id ∈ s.active.map ActiveExecution.id := by
  unfold ExecutionCoordinator.resumeExit at hexec
  split at hexec
  · rename_i call hfind
    have hcall : call ∈ s.exits := List.mem_of_find?_eq_some hfind
    have hacquired : ∀ result, exec ∈ (s.exitAcquired cfg call result).active →
        exec.id.kind = .exit ∨ exec.id ∈ s.active.map ActiveExecution.id := by
      intro result hexec
      unfold exitAcquired at hexec
      split at hexec
      · rcases Keyed.mem_put hexec with rfl | hexec
        · exact .inl (h.exits call hcall).1
        · exact .inr (List.mem_map_of_mem hexec)
      · exact .inr (List.mem_map_of_mem hexec)
      · split at hexec <;> exact .inr (List.mem_map_of_mem hexec)
    have hsettled : ∀ s' : ExecutionCoordinator, s'.books = (s.abandon call.id).books → exec ∈ s'.active →
        exec.id.kind = .exit ∨ exec.id ∈ s.active.map ActiveExecution.id :=
      fun s' hbooks hexec => .inr ((within_of_abandon hbooks).mem hexec)
    unfold advanceExit at hexec
    split at hexec
    · exact hacquired _ hexec
    · exact hacquired _ hexec
    · exact .inr (List.mem_map_of_mem hexec)
    · exact .inr (List.mem_map_of_mem hexec)
    · unfold exitExecuted at hexec
      split at hexec <;> exact hsettled _ (books_settle _ _ _ _) hexec
    · exact hsettled _ (books_holdOnUncertainty _ _ _ _) hexec
    · exact .inr (List.mem_map_of_mem hexec)
    · exact hsettled _ (books_holdOnUncertainty _ _ _ _) hexec
    · exact .inr (List.mem_map_of_mem hexec)
  · exact .inr (List.mem_map_of_mem hexec)

theorem active_enter (atomic : Bool) (candidate : EntryCandidate) (gates : EntryGates) (now : ℚ)
    (hexec : exec ∈ (s.enter cfg atomic candidate gates now).active) :
    exec.id ∈ s.active.map ActiveExecution.id ∨
      s.prologue cfg candidate gates = none ∧ exec.underlying = candidate.underlying := by
  unfold ExecutionCoordinator.enter at hexec
  dsimp only at hexec
  split at hexec
  · exact .inl (List.mem_map_of_mem hexec)
  · rename_i hpro
    have hclaimed : ∀ other : ActiveExecution, (∃ before ∈ ({ s with seq := s.seq + 1 }.claim cfg ⟨.entry, s.seq + 1⟩
        candidate).active, before.id = other.id ∧ before.underlying = other.underlying) →
        other.id ∈ s.active.map ActiveExecution.id ∨
          s.prologue cfg candidate gates = none ∧ other.underlying = candidate.underlying := by
      rintro other ⟨before, hbefore, hid, hunderlying⟩
      rcases Keyed.mem_put hbefore with rfl | hbefore
      · exact .inr ⟨hpro, hunderlying.symm⟩
      · exact .inl (List.mem_map.mpr ⟨before, hbefore, hid⟩)
    split at hexec
    · exact hclaimed exec ⟨exec, hexec, rfl, rfl⟩
    · obtain ⟨held, hheld, hid, hunderlying⟩ := within_of_books (books_conclude _ _ _) exec hexec
      obtain ⟨first, hfirst, hid', hunderlying'⟩ := within_advance cfg _
        ⟨⟨.entry, s.seq + 1⟩, atomic, candidate, s.context, .consuming⟩ (.consumed true none) now held hheld
      exact hclaimed exec ⟨first, hfirst, hid'.trans hid, hunderlying'.trans hunderlying⟩

/-- An entry becomes active in the step that enters it, past its prologue, and in no other. -/
theorem entry_claimed (h : s.Bookkept) (event : CoordinatorEvent)
    (hexec : exec ∈ (s.step cfg event).1.active) (hkind : exec.id.kind = .entry)
    (hnew : exec.id ∉ s.active.map ActiveExecution.id) :
    ∃ atomic candidate gates now, event = .entered atomic candidate gates now ∧
      s.prologue cfg candidate gates = none ∧ exec.underlying = candidate.underlying := by
  have hkept : Within (s.step cfg event).1 s → ∃ atomic candidate gates now, event = .entered atomic candidate gates now ∧
      s.prologue cfg candidate gates = none ∧ exec.underlying = candidate.underlying :=
    fun hwithin => absurd (hwithin.mem hexec) hnew
  cases event with
  | entered atomic candidate gates now =>
    exact ⟨atomic, candidate, gates, now, rfl, (active_enter atomic candidate gates now hexec).resolve_left hnew⟩
  | exitAnswered id answer now =>
    exact absurd ((active_resumeExit h id answer now hexec).resolve_left (by simp [hkind])) hnew
  | entryAnswered id answer now =>
    apply hkept
    show Within (s.resumeEntry cfg id answer now) s
    unfold resumeEntry
    split
    · intro exec hexec
      obtain ⟨held, hheld, hid, hunderlying⟩ := within_of_books (books_conclude _ _ _) exec hexec
      obtain ⟨before, hbefore, hid', hunderlying'⟩ := within_advance cfg s _ answer now held hheld
      exact ⟨before, hbefore, hid'.trans hid, hunderlying'.trans hunderlying⟩
    · exact within_of_books rfl
  | exited => exact hkept (within_of_books rfl)
  | claimed underlying dependant => exact hkept (within_of_books (books_claimUnderlying cfg s _ _))
  | claimAnswered owner answer =>
    apply hkept
    show Within (s.claimAcquired owner answer) s
    unfold claimAcquired
    split
    · exact within_of_books (books_underlyingAcquired _ _ _)
    · exact within_of_books rfl
  | unclaimed => exact hkept (within_of_books (books_dropUnderlyingHolder _ _ _ _))
  | dropped => exact hkept (within_of_books rfl)
  | ticked now =>
    obtain ⟨holds, renewTick, heq⟩ := s.beginTick_frame cfg now
    apply hkept
    show Within (s.beginTick cfg now) s
    rw [heq]
    exact within_of_books rfl
  | renewed id outcome =>
    obtain ⟨active, positionClaims, holds, renewTick, heq, hactive, _⟩ := s.renewed_frame cfg id outcome
    apply hkept
    show Within (s.renewed cfg id outcome).1 s
    rw [heq]
    rcases hactive with rfl | rfl
    · exact within_of_books rfl
    · exact within_renewExecution id outcome
  | switched => exact hkept (within_of_books rfl)
  | reset => cases hexec

/-- **The books of the coordinator.** Active executions and identities match, and a step that makes an entry active
finds room below both ceilings. -/
theorem books_kept (cfg : CoordinatorConfig) (context : Context) (events : List CoordinatorEvent) :
    let s := Run.finish (step cfg) (init context) events
    (∀ exec ∈ s.active, ∀ exec' ∈ s.active, ∀ opportunityId, exec.opportunityId = some opportunityId →
      exec'.opportunityId = some opportunityId → exec = exec') ∧
    (s.activeOpportunities.map Prod.fst).Nodup ∧
    (∀ opportunityId id, (opportunityId, id) ∈ s.activeOpportunities →
      ∃ exec ∈ s.active, exec.id = id ∧ exec.opportunityId = some opportunityId) ∧
    (∀ exec ∈ s.active, exec.id.kind = .entry →
      ∃ opportunityId, exec.opportunityId = some opportunityId ∧ (opportunityId, exec.id) ∈ s.activeOpportunities) ∧
    (∀ event, ∀ exec ∈ (s.step cfg event).1.active, exec.id.kind = .entry → exec.id ∉ s.active.map ActiveExecution.id →
      ∃ atomic candidate gates now, event = .entered atomic candidate gates now ∧ exec.underlying = candidate.underlying ∧
      (0 < cfg.maxConcurrentPerUnderlying → s.sameUnderlying exec.underlying < cfg.maxConcurrentPerUnderlying) ∧
      (0 < cfg.maxOpenBoxes → gates.boxInventory + s.entriesInFlight + s.holds.length < cfg.maxOpenBoxes)) := by
  intro s
  have h : s.Bookkept := bookkept_run context events
  refine ⟨?_, h.sound.keyed, ?_, ?_, ?_⟩
  · intro exec hexec exec' hexec' opportunityId ho ho'
    exact h.sound.unique hexec hexec' ho ho'
  · intro opportunityId id hentry
    exact h.sound.standing _ hentry
  · intro exec hexec hkind
    have hsome : exec.opportunityId.isSome = true := (h.sound.named exec hexec).trans (by simpa using hkind)
    obtain ⟨opportunityId, ho⟩ := Option.isSome_iff_exists.mp hsome
    exact ⟨opportunityId, ho, h.sound.mapped exec hexec _ ho⟩
  · intro event exec hexec hkind hnew
    obtain ⟨atomic, candidate, gates, now, hevent, hpro, hunderlying⟩ := entry_claimed h event hexec hkind hnew
    obtain ⟨_, hlimit, hbudget⟩ := prologue_none hpro
    exact ⟨atomic, candidate, gates, now, hevent, hunderlying, hunderlying ▸ lt_of_underlyingBudget hbudget,
      lt_of_inventoryLimit hlimit⟩

def oneBox : CoordinatorConfig where
  mode := .live
  reservationRequireDurable := true
  oneActiveBoxPerUnderlying := true
  maxOpenBoxes := 4
  maxConcurrentPerUnderlying := 1
  liveMaxOpenLegQuantity := 75
  liveMaxGrossOpenLegQuantity := 300
  liveMaxLotsPerLeg := 0
  conflictWaitMaxMs := 1000
  reservationUncertainHoldMaxMs := 60000
  store := "chained"
  durable := true
  hasLocalTier := true
  sessionConsumeAttempt := false
  toUpperCase := fun text => text
  mintOwnerId := fun _ => "entry"

def zerodha : Context := ⟨"zerodha", 1⟩

def niftyCandidate : EntryCandidate := ⟨"NIFTY:24000:24500", "NIFTY", 75, ["NIFTY24000CE", "NIFTY24500PE"]⟩

def openGates : EntryGates := ⟨none, none, none, none, none, 0⟩

def bankniftyEntered : List CoordinatorEvent :=
  [.entered false ⟨"BANKNIFTY:51000:51500", "BANKNIFTY", 35, ["BANKNIFTY51000CE", "BANKNIFTY51500PE"]⟩ openGates 0]

/-- NIFTY is entered beside BANKNIFTY, as the second of at most four boxes. -/
theorem books_kept_beside :
    let s := Run.finish (step oneBox) (init zerodha) bankniftyEntered
    s.entriesInFlight = 1 ∧ ∃ exec ∈ (s.step oneBox (.entered false niftyCandidate openGates 1)).1.active,
      exec.id = ⟨.entry, 3⟩ ∧ s.sameUnderlying exec.underlying < 1 := by
  intro s
  let exec : ActiveExecution :=
    ⟨⟨.entry, 3⟩, niftyCandidate.legKeys, "NIFTY", none, zerodha, false, none, some "zerodha:NIFTY:24000:24500"⟩
  have hexec : exec ∈ (s.step oneBox (.entered false niftyCandidate openGates 1)).1.active := by decide +kernel
  obtain ⟨_, _, _, _, hclaims⟩ := books_kept oneBox zerodha bankniftyEntered
  obtain ⟨_, _, _, _, _, _, hbudget, _⟩ :=
    hclaims (.entered false niftyCandidate openGates 1) exec hexec rfl (by decide +kernel)
  exact ⟨by decide +kernel, exec, hexec, rfl, hbudget (by decide)⟩

end ExecutionCoordinator

end Coordination

end BoxEngine
