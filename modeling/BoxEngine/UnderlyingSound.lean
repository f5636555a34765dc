import BoxEngine.UnderlyingEffects

/-!
# Underlyings and what depends on them

A pipeline holds its underlying while it runs and after an uncertain end. So an underlying is claimed exactly while
something depends on it, as long as no dependant is turned away.
-/

namespace BoxEngine

namespace Coordination

namespace ExecutionCoordinator

variable {cfg : CoordinatorConfig} {s : ExecutionCoordinator} {call : EntryCall}
variable {store : String → Option KeyOwner} {decided : List (MintedId × Bool)}

/-! ## The invariant -/

structure Underlain (cfg : CoordinatorConfig) (store : String → Option KeyOwner) (decided : List (MintedId × Bool))
    (dependants : List (Dependant × String)) (kept : List (MintedId × String)) (s : ExecutionCoordinator) : Prop where
  accounted : s.Accounted cfg
  placed : s.registry.Placed store decided
  asked : ∀ call ∈ s.entries, ∀ acquiring, call.stage.acquiring? = some acquiring → acquiring.holder = .pipeline call.id
  matched : s.Matched cfg dependants kept

variable {dependants : List (Dependant × String)} {kept : List (MintedId × String)}

theorem underlain_init (cfg : CoordinatorConfig) (context : Context) :
    (init context).Underlain cfg (fun _ => none) [] [] [] where
  accounted := accounted_init cfg context
  placed := by
    refine ⟨.nil, ?_, .nil, ?_, ?_, ?_, ?_, ?_⟩
    · intro claim hclaim; cases hclaim
    · intro owner howner; cases howner
    · intro owner howner; cases howner
    · intro claim hclaim; cases hclaim
    · intro acquiring hacquiring; cases hacquiring
    · intro acquiring hacquiring; cases hacquiring
  asked := by intro call hcall; cases hcall
  matched := by
    refine ⟨fun dependant key => ⟨fun hmem => (by cases hmem), ?_⟩, fun id key => ⟨?_, ?_⟩, ?_⟩
    · rintro (⟨claim, hclaim, _⟩ | ⟨acquiring, hacquiring, _⟩)
      · cases hclaim
      · cases hacquiring
    · rintro (⟨call, hcall, _⟩ | hkept)
      · cases hcall
      · cases hkept
    · rintro ⟨claim, hclaim, _⟩
      cases hclaim
    · intro hold hhold; cases hhold

namespace Underlain

section

variable (h : s.Underlain cfg store decided dependants kept)
include h

theorem holding (hcall : call ∈ s.entries) {acquiring : Acquiring}
    (hacquiring : call.stage.acquiring? = some acquiring) :
    call.stage = .holding acquiring ∧ acquiring.holder = .pipeline call.id ∧ acquiring.key = s.underlyingKey cfg call := by
  have hholder := h.asked call hcall acquiring hacquiring
  have hentry := h.accounted.entries call hcall
  cases hstage : call.stage
  case holding asked =>
    rw [hstage] at hacquiring
    cases hacquiring
    exact ⟨rfl, hholder, (hentry.asked acquiring hstage).2.1⟩
  case promoting asked outcome =>
    rw [hstage] at hacquiring
    cases hacquiring
    obtain ⟨dependant, hdependant⟩ := hentry.promoting acquiring outcome hstage
    rw [hdependant] at hholder
    cases hholder
  all_goals
    rw [hstage] at hacquiring
    cases hacquiring

theorem advance (hone : cfg.oneActiveBoxPerUnderlying = true) (hcall : call ∈ s.entries) (answer : Answer) (now : ℚ)
    (hgranted : ∀ acquiring lease revalidated, call.stage = .holding acquiring →
      answer = .acquire (.acquired lease) revalidated → (acquiring.owner, true) ∈ decided)
    (hguarded : answer = .rejected → call.stage.guarded = true) :
    ((s.advance cfg call answer now).1.conclude call (s.advance cfg call answer now).2).Underlain cfg store decided
      (s.joined cfg call answer ++ dependants) (s.leftBy cfg call answer ++ kept) := by
  have heff : EntryEffect cfg s call decided (s.advance cfg call answer now) (s.joined cfg call answer)
      (s.leftBy cfg call answer) := by
    rcases stage_cases call.stage with hstage | hstage | ⟨refusal, hstage⟩
    · exact effect_claimed hone h.accounted.kept.sound (h.accounted.entries call hcall) hstage now hgranted hguarded
    · by_cases hexecuting : call.stage = .executing
      · cases answer with
        | executed result =>
          have hruns : s.Runs cfg call.id (s.underlyingKey cfg call) :=
            ⟨call, hcall, rfl, by rw [hexecuting]; rfl, rfl⟩
          obtain ⟨claim, hclaim, hkey, _⟩ := (h.matched.pipelines _ _).mp (.inl hruns)
          have hfind : s.positionClaim? (s.underlyingKey cfg call) = some claim :=
            hkey ▸ Keyed.find?_of_mem h.placed.keyed hclaim
          exact effect_executed hone hexecuting hfind result now
        | rejected => exact effect_threw hexecuting now
        | consumed | acquire | woken | verified | released =>
          refine effect_started hstage now ?_ fun _ => ⟨by simp, by simp⟩
          intro acquiring outcome hpromoting
          rw [hexecuting] at hpromoting
          cases hpromoting
      · refine effect_started hstage now ?_ fun hyes => absurd hyes hexecuting
        intro acquiring outcome hpromoting
        have hasks : call.stage.acquiring? = some acquiring := hpromoting ▸ rfl
        exact absurd (hpromoting.symm.trans (h.holding hcall hasks).1) (by simp)
    · obtain ⟨hnobody, hnothing⟩ := joined_and_leftBy cfg s call answer fun hexecuting => by simp [hstage] at hexecuting
      obtain ⟨hsame, hprogress⟩ := advance_releasing cfg s hstage answer now
      rw [hnobody, hnothing, ← Prod.mk.eta (p := s.advance cfg call answer now), hsame]
      have hout : (s.advance cfg call answer now).2.acquiring? = call.stage.acquiring? ∧
          (s.advance cfg call answer now).2.running = call.stage.running := by
        rcases hprogress with heq | heq | heq <;> rw [heq, hstage] <;> exact ⟨rfl, rfl⟩
      exact .stays rfl (List.Sublist.refl _) rfl hout.1 hout.2
  have hdesk := s.desk_advance cfg call answer now
  have hentries : (s.advance cfg call answer now).1.entries = s.entries := by
    rcases hdesk with heq | heq <;> exact congrArg Desk.entries heq
  have hacquirings : (s.advance cfg call answer now).1.acquirings = s.acquirings := by
    rcases hdesk with heq | heq <;> exact congrArg Desk.acquirings heq
  have hcontext : (s.advance cfg call answer now).1.context = s.context := by
    rcases hdesk with heq | heq <;> exact congrArg Desk.context heq
  have hseq : s.seq ≤ (s.advance cfg call answer now).1.seq := by
    rcases hdesk with heq | heq
    · exact le_of_eq (congrArg Desk.seq heq).symm
    · exact (Nat.le_succ _).trans (le_of_eq (congrArg Desk.seq heq).symm)
  refine ⟨h.accounted.advance hcall answer now hguarded,
    heff.placed h.accounted.distinct hcall hentries hacquirings h.placed, ?_,
    heff.matched h.accounted.distinct hcall hentries hacquirings hcontext
      (fun acquiring hacquiring => (h.holding hcall hacquiring).2) (h.accounted.minted call hcall).2 hseq h.placed h.matched⟩
  intro other hother acquiring hacquiring
  rcases mem_entries_conclude hother with ⟨hother, _⟩ | ⟨stage, hstage, rfl⟩
  · exact h.asked other (hentries ▸ hother) acquiring hacquiring
  · exact heff.asks_pipeline (h.asked call hcall) acquiring (by rw [hstage]; exact hacquiring)

theorem beside {s' : ExecutionCoordinator} {dependants' : List (Dependant × String)} (haccounted : s'.Accounted cfg)
    (hplaced : s'.registry.Placed store decided) (hentries : s'.entries = s.entries)
    (hcontext : s'.context = s.context) (hseq : s.seq ≤ s'.seq)
    (hdependants : ∀ dependant key, (dependant, key) ∈ dependants' ↔ s'.Held key (.dependant dependant) ∨ s'.Asks dependant key)
    (hpipelines : ∀ id key, s'.Held key (.pipeline id) ↔ s.Held key (.pipeline id)) :
    s'.Underlain cfg store decided dependants' kept where
  accounted := haccounted
  placed := hplaced
  asked := hentries ▸ h.asked
  matched := by
    refine ⟨hdependants, fun id key => ?_, ?_⟩
    · rw [hpipelines, ← h.matched.pipelines]
      unfold Runs positionClaimKey
      rw [hentries, hcontext]
    · exact fun hold hhold => ⟨hentries ▸ (h.matched.ended hold hhold).1, (h.matched.ended hold hhold).2.trans hseq⟩

theorem aside {s' : ExecutionCoordinator} (haccounted : s'.Accounted cfg) (hplaced : s'.registry.Placed store decided)
    (hclaims : s'.positionClaims = s.positionClaims) (hentries : s'.entries = s.entries)
    (hacquirings : s'.acquirings = s.acquirings) (hcontext : s'.context = s.context) (hseq : s.seq ≤ s'.seq) :
    s'.Underlain cfg store decided dependants kept := by
  refine h.beside haccounted hplaced hentries hcontext hseq ?_ fun id key => held_congr hclaims _ _
  intro dependant key
  rw [held_congr hclaims, h.matched.dependants]
  unfold Asks flying
  rw [hentries, hacquirings]

/-! ## The other steps -/

theorem enter (hone : cfg.oneActiveBoxPerUnderlying = true) (atomic : Bool) {candidate : EntryCandidate}
    (gates : EntryGates) (now : ℚ) (hname : candidate.underlying ≠ "") :
    (s.enter cfg atomic candidate gates now).Underlain cfg store decided dependants kept := by
  have haccounted : (s.enter cfg atomic candidate gates now).Accounted cfg := h.accounted.enter atomic now hname
  unfold ExecutionCoordinator.enter at haccounted ⊢
  dsimp only at haccounted ⊢
  split
  · rename_i refusal hpro
    rw [hpro] at haccounted
    exact h.aside haccounted (h.placed.of_le (Nat.le_succ _)) rfl rfl rfl rfl (Nat.le_succ _)
  · rename_i hpro
    have hclaimed : (s.claimedBy cfg atomic candidate).Underlain cfg store decided dependants kept := by
      have hflying : (s.claimedBy cfg atomic candidate).flying = s.flying := by
        show s.acquirings ++ (s.entries ++ [s.claimedEntry atomic candidate]).filterMap _ = _
        rw [List.filterMap_append]
        exact congrArg (s.acquirings ++ ·) (List.append_nil _)
      refine ⟨h.accounted.claimedBy atomic hpro hname, ?_, ?_, ?_, ?_, ?_⟩
      · show Registry.Placed store decided ⟨s.positionClaims, (s.claimedBy cfg atomic candidate).flying, s.drops, s.seq + 1⟩
        rw [hflying]
        exact h.placed.of_le (Nat.le_succ _)
      · intro other hother acquiring hacquiring
        rcases List.mem_append.mp hother with hother | hother
        · exact h.asked other hother acquiring hacquiring
        · cases List.mem_singleton.mp hother
          cases hacquiring
      · intro dependant key
        refine (h.matched.dependants dependant key).trans (or_congr Iff.rfl ?_)
        unfold Asks
        rw [hflying]
      · intro id key
        refine Iff.trans (or_congr_left ?_) (h.matched.pipelines id key)
        constructor
        · rintro ⟨other, hother, hid, hruns, hkey⟩
          rcases List.mem_append.mp hother with hother | hother
          · exact ⟨other, hother, hid, hruns, hkey⟩
          · cases List.mem_singleton.mp hother
            cases hruns
        · rintro ⟨other, hother, hid, hruns, hkey⟩
          exact ⟨other, List.mem_append_left _ hother, hid, hruns, hkey⟩
      · intro hold hhold
        obtain ⟨hnot, hle⟩ := h.matched.ended hold hhold
        refine ⟨?_, hle.trans (Nat.le_succ _)⟩
        intro hmem
        obtain ⟨other, hother, hid⟩ := List.mem_map.mp hmem
        rcases List.mem_append.mp hother with hother | hother
        · exact hnot (hid ▸ List.mem_map_of_mem hother)
        · rw [← hid, List.mem_singleton.mp hother] at hle
          exact absurd hle (Nat.not_succ_le_self _)
    split
    · exact hclaimed
    · exact hclaimed.advance hone (List.mem_append_right _ (List.mem_singleton_self _)) (.consumed true none) now
        (fun acquiring lease revalidated hstage => by cases hstage) (fun hrejected => by cases hrejected)

end

variable (cfg dependants kept) in
theorem recorded {id : MintedId} (hfind : s.entry? id = some call) (answer : Answer) (now : ℚ) :
    s.dependantsAfter cfg dependants (.entryAnswered id answer now) = s.joined cfg call answer ++ dependants ∧
      s.keptAfter cfg kept (.entryAnswered id answer now) = s.leftBy cfg call answer ++ kept := by
  obtain rfl : call.id = id := by simpa using List.find?_some hfind
  by_cases hexecuting : call.stage = .executing
  · have hfound : (s.entry? call.id).filter (fun call => call.stage = .executing) = some call := by
      rw [hfind, Option.filter_some_pos (by simpa using hexecuting)]
    unfold dependantsAfter keptAfter joined leftBy
    cases answer <;> dsimp only <;> rw [hfound, hexecuting] <;> dsimp only
    case executed result =>
      refine ⟨?_, ?_⟩
      · cases promoted call result <;> rfl
      · split <;> rfl
    all_goals exact ⟨rfl, rfl⟩
  · have hfound : (s.entry? call.id).filter (fun call => call.stage = .executing) = none := by
      rw [hfind, Option.filter_some_neg (by simpa using hexecuting)]
    obtain ⟨hnobody, hnothing⟩ := joined_and_leftBy cfg s call answer fun hyes => absurd hyes hexecuting
    rw [hnobody, hnothing]
    unfold dependantsAfter keptAfter
    cases answer <;> dsimp only <;> rw [hfound] <;> exact ⟨rfl, rfl⟩

theorem resumeEntry (h : s.Underlain cfg store decided dependants kept) (hone : cfg.oneActiveBoxPerUnderlying = true)
    {id : MintedId} {answer : Answer} (now : ℚ)
    (hgranted : ∀ call ∈ s.entries, call.id = id → ∀ acquiring lease revalidated, call.stage = .holding acquiring →
      answer = .acquire (.acquired lease) revalidated → (acquiring.owner, true) ∈ decided)
    (hguarded : ∀ call ∈ s.entries, call.id = id → answer = .rejected → call.stage.guarded = true) :
    (s.resumeEntry cfg id answer now).Underlain cfg store decided
      (s.dependantsAfter cfg dependants (.entryAnswered id answer now))
      (s.keptAfter cfg kept (.entryAnswered id answer now)) := by
  unfold ExecutionCoordinator.resumeEntry
  cases hfind : s.entry? id with
  | some call =>
    have hcall : call ∈ s.entries := List.mem_of_find?_eq_some hfind
    have hid : call.id = id := by simpa using List.find?_some hfind
    obtain ⟨hdependants, hkept⟩ := recorded cfg dependants kept hfind answer now
    rw [hdependants, hkept]
    exact h.advance hone hcall answer now (hgranted call hcall hid) (hguarded call hcall hid)
  | none =>
    have hsame : s.dependantsAfter cfg dependants (.entryAnswered id answer now) = dependants ∧
        s.keptAfter cfg kept (.entryAnswered id answer now) = kept := by
      unfold dependantsAfter keptAfter
      cases answer <;> dsimp only <;> rw [hfind] <;> exact ⟨rfl, rfl⟩
    rw [hsame.1, hsame.2]
    exact h

theorem claimUnderlying (h : s.Underlain cfg store decided dependants kept) (hone : cfg.oneActiveBoxPerUnderlying = true)
    (underlying : String) (dependant : Dependant) :
    (s.claimUnderlying cfg underlying dependant).Underlain cfg store decided
      ((dependant, s.positionClaimKey cfg underlying) :: dependants) kept := by
  have haccounted : (s.claimUnderlying cfg underlying dependant).Accounted cfg :=
    h.accounted.claimUnderlying underlying dependant
  unfold ExecutionCoordinator.claimUnderlying holdUnderlying at haccounted ⊢
  cases hclaim : s.positionClaim? (s.positionClaimKey cfg underlying) with
  | some claim =>
    simp only [hone, hclaim, Bool.not_true, Bool.false_eq_true, if_false] at haccounted ⊢
    refine h.beside haccounted (placed_addHolder h.placed _ _) rfl rfl le_rfl ?_ ?_
    · intro other key
      rw [held_addHolder hclaim, List.mem_cons, h.matched.dependants, Prod.mk.injEq]
      have hasks : (s.addHolder (s.positionClaimKey cfg underlying) (.dependant dependant)).Asks other key ↔
          s.Asks other key := Iff.rfl
      rw [hasks, Holder.dependant.injEq]
      tauto
    · intro id key
      rw [held_addHolder hclaim]
      simp
  | none =>
    simp only [hone, hclaim, Bool.not_true, Bool.false_eq_true, if_false] at haccounted ⊢
    refine h.beside haccounted ?_ rfl rfl (Nat.le_succ _) ?_ fun id key => held_congr (by rfl) _ _
    · let acquiring : Acquiring := ⟨⟨.underlying, s.seq + 1⟩, s.positionClaimKey cfg underlying, .dependant dependant,
        s.context, cfg.toUpperCase (Js.trim underlying)⟩
      have hminted : Registry.Placed store decided ⟨s.positionClaims, acquiring :: s.flying, s.drops, s.seq + 1⟩ :=
        h.placed.mint rfl
      refine hminted.of_perm ?_
      unfold flying
      rw [List.append_assoc]
      exact List.perm_middle
    · intro other key
      show _ ↔ s.Held key (.dependant other) ∨ _
      rw [List.mem_cons, h.matched.dependants, Prod.mk.injEq]
      unfold Asks flying
      simp only [List.mem_append, List.mem_singleton, or_and_right, exists_or, exists_eq_left, Holder.dependant.injEq,
        @eq_comm _ dependant other, @eq_comm _ (s.positionClaimKey cfg underlying) key]
      refine (or_congr_left and_comm).trans (or_left_comm.trans (or_congr_right ?_))
      rw [← or_assoc]
      exact or_congr_left or_comm

theorem acquirings_perm (h : s.registry.Placed store decided) {acquiring : Acquiring} (hmem : acquiring ∈ s.acquirings) :
    s.flying.Perm (acquiring :: { s with acquirings := s.acquirings.filter fun other =>
      other.owner ≠ acquiring.owner }.flying) := by
  have hdistinct : (s.acquirings.map Acquiring.owner).Nodup := by
    have hflying := (List.nodup_append.mp (List.nodup_append.mp h.apart).2.1).1
    exact hflying.sublist ((List.sublist_append_left _ _).map _)
  have hperm := List.filter_append_perm (fun other : Acquiring => decide (other.owner = acquiring.owner)) s.acquirings
  rw [Keyed.filter_of_mem hdistinct hmem] at hperm
  unfold flying
  simpa using (hperm.symm.append_right _)

theorem claimAcquired (h : s.Underlain cfg store decided dependants kept) (owner : MintedId) {answer : Answer}
    (hanswer : (∃ lease revalidated, answer = .acquire (.acquired lease) revalidated ∧ (owner, true) ∈ decided) ∨
      (owner, false) ∈ decided) :
    (s.claimAcquired owner answer).Underlain cfg store decided dependants kept := by
  have haccounted : (s.step cfg (.claimAnswered owner answer)).1.Accounted cfg := h.accounted.step trivial
  replace haccounted : (s.claimAcquired owner answer).Accounted cfg := haccounted
  unfold ExecutionCoordinator.claimAcquired at haccounted ⊢
  cases hfind : s.acquirings.find? (fun acquiring => acquiring.owner = owner) with
  | none => exact h
  | some acquiring =>
    have hmem : acquiring ∈ s.acquirings := List.mem_of_find?_eq_some hfind
    obtain rfl : acquiring.owner = owner := by simpa using List.find?_some hfind
    obtain ⟨dependant, hholder⟩ := h.accounted.acquirings acquiring hmem
    have hperm := acquirings_perm h.placed hmem
    rw [hfind] at haccounted
    dsimp only at haccounted ⊢
    -- the state without the acquisition
    obtain ⟨left, hleft⟩ : ∃ left, left = { s with acquirings := s.acquirings.filter fun other =>
      other.owner ≠ acquiring.owner } := ⟨_, rfl⟩
    have hclaims : left.positionClaims = s.positionClaims := by rw [hleft]
    have hdrops : left.drops = s.drops := by rw [hleft]
    rw [← hleft] at haccounted hperm ⊢
    rcases hanswer with ⟨lease, revalidated, rfl, hgranted⟩ | hrefused
    · have hplaced : Registry.Placed store decided ⟨left.positionClaims, acquiring :: left.flying, left.drops, left.seq⟩ := by
        rw [hclaims, hdrops, hleft]
        exact h.placed.of_perm (hleft ▸ hperm.symm)
      have hfree := hplaced.unclaimed List.mem_cons_self hgranted
      have hdesk := left.desk_underlyingAcquired acquiring (.acquire (.acquired lease) revalidated)
      refine h.beside haccounted ?_ ((congrArg Desk.entries hdesk).trans (hleft ▸ rfl))
        ((congrArg Desk.context hdesk).trans (hleft ▸ rfl)) (le_of_eq ((congrArg Desk.seq hdesk).trans (hleft ▸ rfl)).symm) ?_ ?_
      · rw [registry_of_desk hdesk, positionClaims_underlyingAcquired hfree]
        exact hplaced.deliver hgranted rfl rfl (List.cons_ne_nil _ _)
      · intro other key
        have hasks : s.Asks other key ↔ (key = acquiring.key ∧ Holder.dependant other = acquiring.holder) ∨
            (left.underlyingAcquired acquiring (.acquire (.acquired lease) revalidated)).1.Asks other key := by
          unfold Asks
          rw [show (left.underlyingAcquired acquiring (.acquire (.acquired lease) revalidated)).1.flying = left.flying from
            congrArg Registry.flying (registry_of_desk hdesk)]
          simp only [hperm.mem_iff, List.mem_cons, or_and_right, exists_or, exists_eq_left]
          exact or_congr_left (and_congr eq_comm eq_comm)
        rw [h.matched.dependants, hasks, held_underlyingAcquired hfree, held_congr hclaims]
        tauto
      · intro id key
        rw [held_underlyingAcquired hfree, held_congr hclaims]
        simp [hholder]
    · exact absurd hrefused (h.placed.welcome acquiring (List.mem_append_left _ hmem) dependant hholder)

theorem unclaim (h : s.Underlain cfg store decided dependants kept) (underlying : String) (dependant : Dependant)
    (hlanded : ∀ acquiring ∈ s.flying, acquiring.holder = .dependant dependant →
      acquiring.key ≠ s.positionClaimKey cfg underlying) :
    (s.dropUnderlyingHolder cfg underlying (.dependant dependant)).1.Underlain cfg store decided
      (dependants.filter fun claimed => claimed ≠ (dependant, s.positionClaimKey cfg underlying)) kept := by
  have hdesk := s.desk_dropUnderlyingHolder cfg underlying (.dependant dependant)
  have haccounted : (s.step cfg (.unclaimed underlying dependant)).1.Accounted cfg := h.accounted.step trivial
  refine h.beside haccounted (placed_dropUnderlyingHolder cfg h.placed _ _) (congrArg Desk.entries hdesk)
    (congrArg Desk.context hdesk) (le_of_eq (congrArg Desk.seq hdesk).symm) ?_ ?_
  · intro other key
    rw [held_dropUnderlyingHolder h.placed.keyed, List.mem_filter, h.matched.dependants]
    have hasks : (s.dropUnderlyingHolder cfg underlying (.dependant dependant)).1.Asks other key ↔ s.Asks other key := by
      unfold Asks flying
      rw [show (s.dropUnderlyingHolder cfg underlying (.dependant dependant)).1.entries = s.entries from
        congrArg Desk.entries hdesk, show (s.dropUnderlyingHolder cfg underlying (.dependant dependant)).1.acquirings =
        s.acquirings from congrArg Desk.acquirings hdesk]
    have hnot : s.Asks other key → ¬ (key = s.positionClaimKey cfg underlying ∧ other = dependant) := by
      rintro ⟨acquiring, hmem, rfl, hholder⟩ ⟨hkey, rfl⟩
      exact hlanded acquiring hmem hholder hkey
    rw [hasks]
    simp only [decide_eq_true_eq, ne_eq, Prod.mk.injEq, Holder.dependant.injEq]
    tauto
  · intro id key
    rw [held_dropUnderlyingHolder h.placed.keyed]
    simp

end Underlain

end ExecutionCoordinator

namespace UnderlyingWorld

open ExecutionCoordinator

variable {cfg : CoordinatorConfig} {w : UnderlyingWorld}

def Underlain (cfg : CoordinatorConfig) (w : UnderlyingWorld) : Prop :=
  w.coordinator.Underlain cfg w.owners w.decided w.dependants w.kept

/-! ## One step -/

section

variable (h : w.Underlain cfg)
include h

theorem Underlain.of_store {owners : String → Option KeyOwner}
    (hsame : ∀ key owner, owner ∉ w.coordinator.drops → w.owners key = some (.here owner) → owners key = some (.here owner)) :
    Underlain cfg { w with owners } where
  accounted := h.accounted
  placed := h.placed.of_store hsame
  asked := h.asked
  matched := h.matched

theorem Underlain.ask {owner : MintedId} (hok : w.Orderly cfg (.asked owner)) : (w.ask owner).Underlain cfg := by
  unfold UnderlyingWorld.ask
  cases hfind : w.coordinator.flying.find? (fun acquiring => acquiring.owner = owner) with
  | none => exact h
  | some acquiring =>
    have hmem : acquiring ∈ w.coordinator.flying := List.mem_of_find?_eq_some hfind
    obtain rfl : acquiring.owner = owner := by simpa using List.find?_some hfind
    dsimp only
    split
    · exact h
    · rename_i hundecided
      split
      · rename_i hfree
        exact ⟨h.accounted, h.placed.grant hmem hfree, h.asked, h.matched⟩
      · rename_i taken htaken
        refine ⟨h.accounted, h.placed.deny hmem ?_, h.asked, h.matched⟩
        intro dependant hholder
        rw [hok acquiring hmem rfl (by rw [hholder]; rfl) hundecided] at htaken
        cases htaken

theorem Underlain.free (owner : MintedId) : (w.free owner).Underlain cfg := by
  unfold UnderlyingWorld.free
  split
  · rename_i hdrop
    refine h.of_store ?_
    intro key other hother hstore
    rw [if_neg, hstore]
    rw [hstore]
    rintro ⟨⟩
    exact hother hdrop
  · exact h

theorem Underlain.move (hone : cfg.oneActiveBoxPerUnderlying = true) {event : CoordinatorEvent}
    (hhonest : w.Honest (.moved event)) (hok : w.Orderly cfg (.moved event)) :
    (w.coordinator.step cfg event).1.Underlain cfg w.owners w.decided
      (w.coordinator.dependantsAfter cfg w.dependants event) (w.coordinator.keptAfter cfg w.kept event) := by
  -- entries and claims have lemmas of their own; what is left touches no claim's holder
  cases event with
  | entered atomic candidate gates now => exact h.enter hone atomic gates now hok
  | entryAnswered id answer now =>
    refine h.resumeEntry hone now ?_ ?_
    · rintro call hcall hid acquiring lease revalidated hstage rfl
      exact hhonest call hcall hid acquiring (by rw [hstage]; exact List.mem_singleton_self _)
    · rintro call hcall hid rfl
      exact hok call hcall hid
  | exited atomic keys underlying =>
    have haccounted : (w.coordinator.step cfg (.exited atomic keys underlying)).1.Accounted cfg := h.accounted.step trivial
    exact h.aside haccounted (h.placed.of_le (Nat.le_succ _)) rfl rfl rfl rfl (Nat.le_succ _)
  | exitAnswered id answer now =>
    have haccounted : (w.coordinator.resumeExit cfg id answer now).Accounted cfg := h.accounted.resumeExit id answer now
    show (w.coordinator.resumeExit cfg id answer now).Underlain cfg w.owners w.decided w.dependants w.kept
    unfold ExecutionCoordinator.resumeExit at haccounted ⊢
    cases hfind : w.coordinator.exit? id with
    | none => exact h
    | some call =>
      rw [hfind] at haccounted
      have hstep : w.coordinator.ExitStep call.id (w.coordinator.advanceExit cfg call answer now) := .advanceExit call answer now
      have hentries := congrArg Desk.entries hstep.desk
      have hacquirings := congrArg Desk.acquirings hstep.desk
      have hregistry := registry_congr hstep.claims hentries hacquirings hstep.drops (congrArg Desk.seq hstep.desk)
      exact h.aside haccounted (hregistry ▸ h.placed) hstep.claims hentries hacquirings (congrArg Desk.context hstep.desk)
        (le_of_eq (congrArg Desk.seq hstep.desk).symm)
  | claimed underlying dependant => exact h.claimUnderlying hone underlying dependant
  | claimAnswered owner answer =>
    refine ExecutionCoordinator.Underlain.claimAcquired h owner ?_
    cases answer with
    | acquire result revalidated =>
      cases result with
      | acquired lease => exact .inl ⟨lease, revalidated, rfl, hhonest⟩
      | conflict => exact .inr hhonest
      | unavailable => exact hhonest.elim
    | consumed | woken | verified | executed | released | rejected => exact hhonest.elim
  | unclaimed underlying dependant => exact h.unclaim underlying dependant hok
  | dropped owner =>
    have haccounted : (w.coordinator.step cfg (.dropped owner)).1.Accounted cfg := h.accounted.step trivial
    exact h.aside haccounted (h.placed.of_sublist (List.Sublist.refl _) List.filter_sublist) rfl rfl rfl rfl le_rfl
  | ticked now =>
    have haccounted : (w.coordinator.step cfg (.ticked now)).1.Accounted cfg := h.accounted.step trivial
    replace haccounted : (w.coordinator.beginTick cfg now).Accounted cfg := haccounted
    obtain ⟨holds, renewTick, heq⟩ := w.coordinator.beginTick_frame cfg now
    show (w.coordinator.beginTick cfg now).Underlain cfg w.owners w.decided w.dependants w.kept
    rw [heq] at haccounted ⊢
    exact h.aside haccounted h.placed rfl rfl rfl rfl le_rfl
  | renewed id outcome =>
    have haccounted : (w.coordinator.step cfg (.renewed id outcome)).1.Accounted cfg := h.accounted.step trivial
    replace haccounted : (w.coordinator.renewed cfg id outcome).1.Accounted cfg := haccounted
    obtain ⟨active, positionClaims, holds, renewTick, heq, _, hclaims⟩ := w.coordinator.renewed_frame cfg id outcome
    show (w.coordinator.renewed cfg id outcome).1.Underlain cfg w.owners w.decided w.dependants w.kept
    rw [heq] at haccounted ⊢
    rcases hclaims with rfl | ⟨outcome', rfl⟩
    · exact h.aside haccounted h.placed rfl rfl rfl rfl le_rfl
    · have hplaced := placed_renewClaim h.placed id outcome'
      refine h.beside haccounted ?_ rfl rfl le_rfl ?_ ?_
      · cases outcome' <;> exact hplaced
      · exact fun dependant key => (h.matched.dependants dependant key).trans
          (or_congr_left (held_renewClaim id outcome' key _).symm)
      · exact fun other key => held_renewClaim id outcome' key _
  | switched context => exact hhonest.elim
  | reset => exact hhonest.elim

theorem Underlain.step (hone : cfg.oneActiveBoxPerUnderlying = true) {event : UnderlyingEvent}
    (hhonest : w.Honest event) (hok : w.Orderly cfg event) : (w.step cfg event).1.Underlain cfg := by
  cases event with
  | moved event => exact h.move hone hhonest hok
  | asked owner => exact h.ask hok
  | freed owner => exact h.free owner
  | taken key =>
    show Underlain cfg (if w.owners key = none then _ else w)
    split
    · rename_i hfree
      refine h.of_store ?_
      intro other owner _ hstore
      rw [Function.update_of_ne, hstore]
      rintro rfl
      rw [hfree] at hstore
      cases hstore
    · exact h
  | returned key =>
    show Underlain cfg (if w.owners key = some .elsewhere then _ else w)
    split
    · rename_i helsewhere
      refine h.of_store ?_
      intro other owner _ hstore
      rw [Function.update_of_ne, hstore]
      rintro rfl
      rw [helsewhere] at hstore
      cases hstore
    · exact h

end

/-! ## Runs -/

theorem Quiet.flying (h : w.Quiet) : w.coordinator.flying = [] := by
  unfold ExecutionCoordinator.flying
  rw [h.1, List.filterMap_eq_nil_iff.mpr h.2.2]
  rfl

theorem Underlain.claimed (h : w.Underlain cfg) (hquiet : w.Quiet) : w.ClaimedOrKept cfg := by
  have hdependants : ∀ dependant key, (dependant, key) ∈ w.dependants ↔ w.coordinator.Held key (.dependant dependant) := by
    intro dependant key
    rw [h.matched.dependants]
    refine or_iff_left ?_
    rintro ⟨acquiring, hmem, _⟩
    rw [hquiet.flying] at hmem
    cases hmem
  refine fun key => ⟨⟨?_, ?_⟩, fun dependant => (hdependants dependant key).mp⟩
  · rintro ⟨claim, hclaim, rfl⟩
    obtain ⟨holder, hholder⟩ := List.exists_mem_of_ne_nil _ (h.placed.holders claim hclaim)
    cases holder with
    | pipeline id =>
      exact .inr (((h.matched.pipelines id claim.key).mpr ⟨claim, hclaim, rfl, hholder⟩).imp (⟨id, ·⟩) (⟨id, ·⟩))
    | dependant dependant => exact .inl ⟨dependant, (hdependants dependant claim.key).mpr ⟨claim, hclaim, rfl, hholder⟩⟩
  · have hclaim : ∀ holder, w.coordinator.Held key holder → ∃ claim ∈ w.coordinator.positionClaims, claim.key = key := by
      rintro holder ⟨claim, hclaim, hkey, _⟩
      exact ⟨claim, hclaim, hkey⟩
    rintro (⟨dependant, hdependant⟩ | ⟨id, hruns⟩ | ⟨id, hkept⟩)
    · exact hclaim _ ((hdependants dependant key).mp hdependant)
    · exact hclaim _ ((h.matched.pipelines id key).mp (.inl hruns))
    · exact hclaim _ ((h.matched.pipelines id key).mp (.inr hkept))

/-- **An underlying is claimed exactly while something depends on it**, or ended with its hold, where no dependant is
turned away. -/
theorem claimed_or_kept (cfg : CoordinatorConfig) (hone : cfg.oneActiveBoxPerUnderlying = true) (context : Context)
    (events : List UnderlyingEvent)
    (h : Run.Guarded (step cfg) (fun w event => w.Honest event ∧ w.Orderly cfg event) (init context) events)
    (hquiet : (Run.finish (step cfg) (init context) events).Quiet) :
    (Run.finish (step cfg) (init context) events).ClaimedOrKept cfg := by
  have hunderlain : (Run.finish (step cfg) (init context) events).Underlain cfg :=
    h.invariant (Underlain cfg) (fun w event hw hok => hw.step hone hok.1 hok.2) (underlain_init cfg context)
  exact hunderlain.claimed hquiet

instance decidableAsDecided (w : UnderlyingWorld) (owner : MintedId) (answer : Answer) : Decidable (w.AsDecided owner answer) :=
  match answer with
  | .acquire (.acquired _) _ => inferInstanceAs (Decidable ((owner, true) ∈ w.decided))
  | .acquire .conflict _ => inferInstanceAs (Decidable ((owner, false) ∈ w.decided))
  | .acquire (.unavailable ..) _ | .consumed .. | .woken | .verified _ | .executed _ | .released | .rejected =>
    instDecidableFalse

instance decidableHonest (w : UnderlyingWorld) (event : UnderlyingEvent) : Decidable (w.Honest event) :=
  match event with
  | .moved (.claimAnswered owner answer) => inferInstanceAs (Decidable (w.AsDecided owner answer))
  | .moved (.entryAnswered id answer _) =>
    inferInstanceAs (Decidable (∀ call ∈ w.coordinator.entries, call.id = id → ∀ acquiring ∈ call.stage.acquiring?.toList,
      w.AsDecided acquiring.owner answer))
  | .moved (.switched _) | .moved .reset => instDecidableFalse
  | .moved (.entered ..) | .moved (.exited ..) | .moved (.exitAnswered ..) | .moved (.claimed ..) | .moved (.unclaimed ..)
  | .moved (.dropped _) | .moved (.ticked _) | .moved (.renewed ..) | .asked _ | .freed _ | .taken _ | .returned _ =>
    instDecidableTrue

instance decidableOrderly (cfg : CoordinatorConfig) (w : UnderlyingWorld) (event : UnderlyingEvent) :
    Decidable (w.Orderly cfg event) :=
  match event with
  | .asked owner =>
    inferInstanceAs (Decidable (∀ acquiring ∈ w.coordinator.flying, acquiring.owner = owner →
      acquiring.holder.depends = true → owner ∉ w.decided.map Prod.fst → w.owners acquiring.key = none))
  | .moved (.unclaimed underlying dependant) =>
    inferInstanceAs (Decidable (∀ acquiring ∈ w.coordinator.flying, acquiring.holder = .dependant dependant →
      acquiring.key ≠ w.coordinator.positionClaimKey cfg underlying))
  | .moved (.entered atomic candidate gates now) =>
    decidableUndisturbed w.coordinator (.entered atomic candidate gates now)
  | .moved (.entryAnswered id answer now) => decidableUndisturbed w.coordinator (.entryAnswered id answer now)
  | .moved (.switched context) => decidableUndisturbed w.coordinator (.switched context)
  | .moved .reset => decidableUndisturbed w.coordinator .reset
  | .moved (.exited ..) | .moved (.exitAnswered ..) | .moved (.claimed ..) | .moved (.claimAnswered ..)
  | .moved (.dropped _) | .moved (.ticked _) | .moved (.renewed ..) | .freed _ | .taken _ | .returned _ =>
    instDecidableTrue

instance decidableQuiet (w : UnderlyingWorld) : Decidable w.Quiet := inferInstanceAs (Decidable (_ ∧ _ ∧ _))

def boxOpened : List UnderlyingEvent :=
  [.moved (.entered false niftyCandidate openGates 0), .asked ⟨.underlying, 2⟩, .moved (.entryAnswered ⟨.entry, 1⟩ leased 1),
    .moved (.entryAnswered ⟨.entry, 1⟩ leased 2),
    .moved (.entryAnswered ⟨.entry, 1⟩ (.executed ⟨true, "filled", some "T1", []⟩) 3),
    .moved (.entryAnswered ⟨.entry, 1⟩ .released 4)]

theorem claimed_or_kept_opened :
    (Run.finish (step oneBox) (init zerodha) boxOpened).dependants = [(.trade "T1", "zerodha:NIFTY")] ∧
      (Run.finish (step oneBox) (init zerodha) boxOpened).ClaimedOrKept oneBox :=
  ⟨by decide +kernel, claimed_or_kept oneBox rfl zerodha boxOpened (by decide +kernel) (by decide +kernel)⟩

def endedUncertain : List UnderlyingEvent :=
  [.moved (.entered false niftyCandidate openGates 0), .asked ⟨.underlying, 2⟩, .moved (.entryAnswered ⟨.entry, 1⟩ leased 1),
    .moved (.entryAnswered ⟨.entry, 1⟩ leased 2),
    .moved (.entryAnswered ⟨.entry, 1⟩ (.executed ⟨false, "legging_incomplete", none, []⟩) 3)]

def claimedTwice : List UnderlyingEvent :=
  [.moved (.claimed "NIFTY" (.residual "A1")), .moved (.claimed "NIFTY" (.residual "A2")), .asked ⟨.underlying, 1⟩,
    .asked ⟨.underlying, 2⟩, .moved (.claimAnswered ⟨.underlying, 1⟩ leased),
    .moved (.claimAnswered ⟨.underlying, 2⟩ (.acquire .conflict (.ok ())))]

theorem not_claimed_exactly :
    (Run.Guarded (step oneBox) Honest (init zerodha) endedUncertain ∧
      (Run.finish (step oneBox) (init zerodha) endedUncertain).Quiet ∧
      ¬ (Run.finish (step oneBox) (init zerodha) endedUncertain).Claimed oneBox) ∧
    Run.Guarded (step oneBox) Honest (init zerodha) claimedTwice ∧
      (Run.finish (step oneBox) (init zerodha) claimedTwice).Quiet ∧
      ¬ (Run.finish (step oneBox) (init zerodha) claimedTwice).Claimed oneBox := by
  refine ⟨⟨by decide +kernel, by decide +kernel, fun hclaimed => ?_⟩, by decide +kernel, by decide +kernel, fun hclaimed => ?_⟩
  · rcases (hclaimed "zerodha:NIFTY").1.mp (by decide +kernel) with ⟨dependant, hdependant⟩ | ⟨id, call, hcall, _⟩ | hnone
    · cases hdependant
    · cases hcall
    · exact hnone
  · have hheld := (hclaimed "zerodha:NIFTY").2 (.residual "A2") (by decide +kernel)
    revert hheld
    unfold ExecutionCoordinator.Held
    decide +kernel

end UnderlyingWorld

end Coordination

end BoxEngine
