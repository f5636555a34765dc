import BoxEngine.UnderlyingRegistry

/-!
# What an entry does to the claims on underlyings

A step of an entry leaves the claims, asks for its own, takes it, drops it, hands it to its trade, or ends with it.
-/

namespace BoxEngine

namespace Coordination

def Progress.acquiring? : Progress → Option Acquiring
  | .goesOn stage => stage.acquiring?
  | _ => none

def Progress.running : Progress → Bool
  | .goesOn stage => stage.running
  | _ => false

theorem EntryStage.acquiring?_of_running {stage : EntryStage} (h : stage.running = true) : stage.acquiring? = none := by
  cases stage <;> first
    | rfl
    | cases h

theorem Progress.acquiring?_of_ends {progress : Progress} (h : ∀ stage, progress ≠ .goesOn stage) :
    progress.acquiring? = none := by
  cases progress with
  | goesOn stage => exact absurd rfl (h stage)
  | refused | threw | returned => rfl

theorem Progress.running_of_ends {progress : Progress} (h : ∀ stage, progress ≠ .goesOn stage) :
    progress.running = false := by
  cases progress with
  | goesOn stage => exact absurd rfl (h stage)
  | refused | threw | returned => rfl

namespace ExecutionCoordinator

variable {cfg : CoordinatorConfig} {s : ExecutionCoordinator} {call : EntryCall}
variable {store : String → Option KeyOwner} {decided : List (MintedId × Bool)}

def Asks (s : ExecutionCoordinator) (dependant : Dependant) (key : String) : Prop :=
  ∃ acquiring ∈ s.flying, acquiring.key = key ∧ acquiring.holder = .dependant dependant

/-- Who depends on an underlying holds it or asks for it, and a pipeline its own while it runs or keeps it. -/
structure Matched (cfg : CoordinatorConfig) (s : ExecutionCoordinator) (dependants : List (Dependant × String))
    (kept : List (MintedId × String)) : Prop where
  dependants : ∀ dependant key,
    (dependant, key) ∈ dependants ↔ s.Held key (.dependant dependant) ∨ s.Asks dependant key
  pipelines : ∀ id key, s.Runs cfg id key ∨ (id, key) ∈ kept ↔ s.Held key (.pipeline id)
  ended : ∀ hold ∈ kept, hold.1 ∉ s.entries.map EntryCall.id ∧ hold.1.seq ≤ s.seq

/-! ## A call that moves or ends -/

theorem entries_conclude (hdistinct : (s.entries.map EntryCall.id).Nodup) (hcall : call ∈ s.entries) :
    ∃ before after, s.entries = before ++ call :: after ∧
      ∀ {s' : ExecutionCoordinator}, s'.entries = s.entries → ∀ progress, (s'.conclude call progress).entries =
        before ++ ((match progress with | .goesOn stage => [{ call with stage }] | _ => []) ++ after) := by
  obtain ⟨before, after, heq⟩ := List.append_of_mem hcall
  refine ⟨before, after, heq, ?_⟩
  rw [heq, List.map_append, List.map_cons] at hdistinct
  have hnot := (List.nodup_cons.mp (List.perm_middle.nodup_iff.mp hdistinct)).1
  have hbefore : ∀ other ∈ before, other.id ≠ call.id := fun other hother hid =>
    hnot (List.mem_append_left _ (hid ▸ List.mem_map_of_mem hother))
  have hafter : ∀ other ∈ after, other.id ≠ call.id := fun other hother hid =>
    hnot (List.mem_append_right _ (hid ▸ List.mem_map_of_mem hother))
  have hfilter : s.entries.filter (fun other => other.id ≠ call.id) = before ++ after := by
    rw [heq, List.filter_append, List.filter_cons_of_neg (by simp),
      List.filter_eq_self.mpr fun other hother => by simpa using hbefore other hother,
      List.filter_eq_self.mpr fun other hother => by simpa using hafter other hother]
  intro s' hentries progress
  cases progress with
  | goesOn stage =>
    show Keyed.replace EntryCall.id s'.entries { call with stage } = _
    have hsame : ∀ {l : List EntryCall}, (∀ other ∈ l, other.id ≠ call.id) →
        l.map (fun other => if other.id = call.id then { call with stage } else other) = l := fun hl =>
      (List.map_congr_left fun other hother => if_neg (hl other hother)).trans (List.map_id' _)
    rw [hentries, heq, Keyed.replace, List.map_append, List.map_cons, if_pos rfl, hsame hbefore, hsame hafter]
    rfl
  | refused | threw | returned =>
    show s'.entries.filter (fun other => other.id ≠ call.id) = _
    rw [hentries, hfilter]
    rfl

theorem flying_conclude (hdistinct : (s.entries.map EntryCall.id).Nodup) (hcall : call ∈ s.entries) :
    ∃ rest, s.flying.Perm (call.stage.acquiring?.toList ++ rest) ∧
      ∀ {s' : ExecutionCoordinator}, s'.entries = s.entries → s'.acquirings = s.acquirings → ∀ progress,
        (s'.conclude call progress).flying.Perm (progress.acquiring?.toList ++ rest) := by
  obtain ⟨before, after, heq, hconclude⟩ := entries_conclude hdistinct hcall
  let asked : EntryCall → Option Acquiring := fun other => other.stage.acquiring?
  have hperm : ∀ found : Option Acquiring,
      (s.acquirings ++ (before.filterMap asked ++ (found.toList ++ after.filterMap asked))).Perm
        (found.toList ++ (s.acquirings ++ (before.filterMap asked ++ after.filterMap asked))) := fun found =>
    ((List.perm_append_comm_assoc _ _ _).append_left _).trans (List.perm_append_comm_assoc _ _ _)
  have hone : ∀ other : EntryCall, [other].filterMap asked = (asked other).toList := by
    intro other
    cases hother : asked other <;> simp [hother]
  refine ⟨s.acquirings ++ (before.filterMap asked ++ after.filterMap asked), ?_, ?_⟩
  · unfold flying
    rw [heq, List.filterMap_append, ← List.singleton_append, List.filterMap_append, hone]
    exact hperm (asked call)
  · intro s' hentries hacquirings progress
    have hframe := (s'.conclude_frame call progress).2.2.2.2
    unfold flying
    rw [hframe, hacquirings, hconclude hentries, List.filterMap_append, List.filterMap_append]
    cases progress with
    | goesOn stage =>
      rw [hone]
      exact hperm stage.acquiring?
    | refused | threw | returned => exact hperm none

variable (cfg) in
theorem runs_conclude (hdistinct : (s.entries.map EntryCall.id).Nodup) (hcall : call ∈ s.entries) :
    (∀ key, s.Runs cfg call.id key ↔ call.stage.running = true ∧ s.positionClaimKey cfg call.candidate.underlying = key) ∧
      ∀ {s' : ExecutionCoordinator}, s'.entries = s.entries → s'.context = s.context → ∀ progress id key,
        (s'.conclude call progress).Runs cfg id key ↔ (s.Runs cfg id key ∧ id ≠ call.id) ∨
          (id = call.id ∧ progress.running = true ∧ s.positionClaimKey cfg call.candidate.underlying = key) := by
  obtain ⟨before, after, heq, hconclude⟩ := entries_conclude hdistinct hcall
  refine ⟨?_, ?_⟩
  · intro key
    constructor
    · rintro ⟨other, hother, hid, hruns, hkey⟩
      cases List.inj_on_of_nodup_map hdistinct hother hcall hid
      exact ⟨hruns, hkey⟩
    · rintro ⟨hruns, hkey⟩
      exact ⟨call, hcall, rfl, hruns, hkey⟩
  · intro s' hentries hcontext progress id key
    have hkeys : ∀ underlying, (s'.conclude call progress).positionClaimKey cfg underlying =
        s.positionClaimKey cfg underlying := by
      intro underlying
      unfold positionClaimKey
      rw [(s'.conclude_frame call progress).2.2.1, hcontext]
    unfold Runs
    simp only [hkeys]
    constructor
    · rintro ⟨other, hother, rfl, hruns, hkey⟩
      rcases mem_entries_conclude hother with ⟨hother, hne⟩ | ⟨stage, rfl, rfl⟩
      · exact .inl ⟨⟨other, hentries ▸ hother, rfl, hruns, hkey⟩, hne⟩
      · exact .inr ⟨rfl, hruns, hkey⟩
    · rintro (⟨⟨other, hother, rfl, hruns, hkey⟩, hne⟩ | ⟨rfl, hruns, hkey⟩)
      · refine ⟨other, ?_, rfl, hruns, hkey⟩
        rw [heq] at hother
        rw [hconclude hentries]
        rcases List.mem_append.mp hother with hother | hother
        · exact List.mem_append_left _ hother
        · refine List.mem_append_right _ (List.mem_append_right _ ?_)
          exact (List.mem_cons.mp hother).resolve_left fun hsame => hne (hsame ▸ rfl)
      · cases progress with
        | goesOn stage =>
          refine ⟨{ call with stage }, ?_, rfl, hruns, hkey⟩
          rw [hconclude hentries]
          exact List.mem_append_right _ (List.mem_append_left _ (List.mem_singleton_self _))
        | refused | threw | returned => cases hruns

/-! ## What a step of an entry does to the claims -/

def underlyingKey (cfg : CoordinatorConfig) (s : ExecutionCoordinator) (call : EntryCall) : String :=
  s.positionClaimKey cfg call.candidate.underlying

/-- What becomes of the claims, who comes to depend on them, and which hold the entry ends with. -/
inductive EntryEffect (cfg : CoordinatorConfig) (s : ExecutionCoordinator) (call : EntryCall)
    (decided : List (MintedId × Bool)) :
    ExecutionCoordinator × Progress → List (Dependant × String) → List (MintedId × String) → Prop
  | stays {s' : ExecutionCoordinator} {progress : Progress} (hclaims : s'.positionClaims = s.positionClaims)
      (hdrops : s'.drops.Sublist s.drops) (hseq : s'.seq = s.seq) (hasks : progress.acquiring? = call.stage.acquiring?)
      (hruns : progress.running = call.stage.running) : EntryEffect cfg s call decided (s', progress) [] []
  | asks (hstage : call.stage = .consuming) :
      EntryEffect cfg s call decided ({ s with seq := s.seq + 1 }, .goesOn (.holding (s.pipelineAcquiring cfg call))) [] []
  | takes (acquiring : Acquiring) (lease : Lease) (revalidated : Except String Unit) (now : ℚ)
      (hstage : call.stage = .holding acquiring) (hgranted : (acquiring.owner, true) ∈ decided) :
      EntryEffect cfg s call decided
        ((s.underlyingAcquired acquiring (.acquire (.acquired lease) revalidated)).1, .goesOn (.acquiring now)) [] []
  | leaves {s' : ExecutionCoordinator} {progress : Progress}
      (hclaims : s'.positionClaims =
        (s.dropUnderlyingHolder cfg call.candidate.underlying (.pipeline call.id)).1.positionClaims)
      (hdrops : s'.drops = (s.dropUnderlyingHolder cfg call.candidate.underlying (.pipeline call.id)).1.drops)
      (hseq : s'.seq = s.seq) (hasks : progress.acquiring? = none) (hruns : progress.running = false) :
      EntryEffect cfg s call decided (s', progress) [] []
  | promotes {s' : ExecutionCoordinator} {progress : Progress} (tradeId : String) (claim : PositionUnderlyingClaim)
      (hclaim : s.positionClaim? (s.underlyingKey cfg call) = some claim)
      (hclaims : s'.positionClaims = ((s.addHolder (s.underlyingKey cfg call) (.dependant (.trade tradeId))).dropUnderlyingHolder
        cfg call.candidate.underlying (.pipeline call.id)).1.positionClaims)
      (hdrops : s'.drops = ((s.addHolder (s.underlyingKey cfg call) (.dependant (.trade tradeId))).dropUnderlyingHolder
        cfg call.candidate.underlying (.pipeline call.id)).1.drops)
      (hseq : s'.seq = s.seq) (hasks : progress.acquiring? = none) (hruns : progress.running = false) :
      EntryEffect cfg s call decided (s', progress) [(.trade tradeId, s.underlyingKey cfg call)] []
  | keeps {s' : ExecutionCoordinator} {progress : Progress} (hstage : call.stage.running = true)
      (hends : ∀ stage, progress ≠ .goesOn stage) (hclaims : s'.positionClaims = s.positionClaims)
      (hdrops : s'.drops = s.drops) (hseq : s'.seq = s.seq) :
      EntryEffect cfg s call decided (s', progress) [] [(call.id, s.underlyingKey cfg call)]

namespace EntryEffect

variable {out : ExecutionCoordinator × Progress} {added dependants : List (Dependant × String)}
variable {leftBehind kept : List (MintedId × String)}

section

variable (heff : EntryEffect cfg s call decided out added leftBehind)
include heff

theorem placed (hdistinct : (s.entries.map EntryCall.id).Nodup) (hcall : call ∈ s.entries)
    (hentries : out.1.entries = s.entries) (hacquirings : out.1.acquirings = s.acquirings)
    (h : s.registry.Placed store decided) : (out.1.conclude call out.2).registry.Placed store decided := by
  obtain ⟨rest, hbefore, hconclude⟩ := flying_conclude hdistinct hcall
  have hafter := hconclude hentries hacquirings out.2
  -- the calls of a step that only takes holders
  have hdone : ∀ {claims drops seq}, Registry.Placed store decided ⟨claims, s.flying, drops, seq⟩ →
      out.2.acquiring? = none → Registry.Placed store decided ⟨claims, (out.1.conclude call out.2).flying, drops, seq⟩ := by
    intro claims drops seq hplaced hnone
    rw [hnone] at hafter
    exact ((hplaced.of_perm hbefore.symm).of_sublist (List.sublist_append_right _ _) (List.Sublist.refl _)).of_perm hafter
  obtain ⟨hactive', hclaims', hcontext', hseq', hacquirings'⟩ := out.1.conclude_frame call out.2
  have hregistry : (out.1.conclude call out.2).registry =
      ⟨out.1.positionClaims, (out.1.conclude call out.2).flying, out.1.drops, out.1.seq⟩ := by
    unfold registry
    rw [hclaims', hseq', drops_conclude]
  rw [hregistry]
  cases heff with
  | stays hclaims hdrops hseq hasks hruns =>
    dsimp only at *
    rw [hclaims, hseq]
    rw [hasks] at hafter
    exact (h.of_sublist (List.Sublist.refl _) hdrops).of_perm (hafter.trans hbefore.symm)
  | asks hstage =>
    rw [hstage] at hbefore
    exact ((h.of_perm hbefore.symm).mint rfl).of_perm hafter
  | takes acquiring lease revalidated now hstage hgranted =>
    rw [hstage] at hbefore
    have hplaced : Registry.Placed store decided ⟨s.positionClaims, acquiring :: rest, s.drops, s.seq⟩ :=
      h.of_perm hbefore.symm
    dsimp only
    rw [positionClaims_underlyingAcquired (hplaced.unclaimed List.mem_cons_self hgranted)]
    exact (hplaced.deliver hgranted rfl rfl (List.cons_ne_nil _ _)).of_perm hafter
  | leaves hclaims hdrops hseq hasks hruns =>
    dsimp only at *
    rw [hclaims, hdrops, hseq]
    have hplaced := placed_dropUnderlyingHolder cfg h call.candidate.underlying (.pipeline call.id)
    rw [registry_of_desk (desk_dropUnderlyingHolder cfg s _ _)] at hplaced
    exact hdone hplaced hasks
  | promotes tradeId claim hclaim hclaims hdrops hseq hasks hruns =>
    dsimp only at *
    rw [hclaims, hdrops, hseq]
    have hplaced := placed_dropUnderlyingHolder cfg
      (placed_addHolder h (s.underlyingKey cfg call) (.dependant (.trade tradeId))) call.candidate.underlying
      (.pipeline call.id)
    rw [registry_of_desk (desk_dropUnderlyingHolder cfg _ _ _)] at hplaced
    exact hdone hplaced hasks
  | keeps hstage hends hclaims hdrops hseq =>
    dsimp only at *
    rw [hclaims, hdrops, hseq]
    exact hdone h (Progress.acquiring?_of_ends hends)

theorem asks_pipeline
    (hasked : ∀ acquiring, call.stage.acquiring? = some acquiring → acquiring.holder = .pipeline call.id) :
    ∀ acquiring, out.2.acquiring? = some acquiring → acquiring.holder = .pipeline call.id := by
  intro acquiring hsome
  cases heff with
  | stays _ _ _ hsame _ => exact hasked acquiring (hsame ▸ hsome)
  | asks _ =>
    cases hsome
    rfl
  | takes => cases hsome
  | leaves _ _ _ hnone _ | promotes _ _ _ _ _ _ hnone _ =>
    rw [hnone] at hsome
    cases hsome
  | keeps _ hends _ _ _ =>
    rw [Progress.acquiring?_of_ends hends] at hsome
    cases hsome

theorem leaves_own {hold : MintedId × String} (hhold : hold ∈ leftBehind) :
    hold.1 = call.id ∧ ∀ stage, out.2 ≠ .goesOn stage := by
  cases heff with
  | keeps _ hends _ _ _ => exact ⟨congrArg Prod.fst (List.mem_singleton.mp hhold), hends⟩
  | stays | asks | takes | leaves | promotes => cases hhold

theorem matched (hdistinct : (s.entries.map EntryCall.id).Nodup) (hcall : call ∈ s.entries)
    (hentries : out.1.entries = s.entries) (hacquirings : out.1.acquirings = s.acquirings)
    (hcontext : out.1.context = s.context)
    (hasked : ∀ acquiring, call.stage.acquiring? = some acquiring → acquiring.holder = .pipeline call.id ∧
      acquiring.key = s.underlyingKey cfg call)
    (hminted : call.id.seq ≤ s.seq) (hseq : s.seq ≤ out.1.seq) (hplaced : s.registry.Placed store decided)
    (h : s.Matched cfg dependants kept) :
    (out.1.conclude call out.2).Matched cfg (added ++ dependants) (leftBehind ++ kept) := by
  obtain ⟨rest, hbefore, hconclude⟩ := flying_conclude hdistinct hcall
  have hafter := hconclude hentries hacquirings out.2
  obtain ⟨hself, hruns⟩ := runs_conclude cfg hdistinct hcall
  -- only pipelines ask in their calls
  have hasks : ∀ dependant key, (out.1.conclude call out.2).Asks dependant key ↔ s.Asks dependant key := by
    have hrest : ∀ {l : List Acquiring} {own : Option Acquiring}, l.Perm (own.toList ++ rest) →
        (∀ acquiring, own = some acquiring → acquiring.holder = .pipeline call.id) → ∀ dependant key,
        ((∃ acquiring ∈ l, acquiring.key = key ∧ acquiring.holder = .dependant dependant) ↔
          ∃ acquiring ∈ rest, acquiring.key = key ∧ acquiring.holder = .dependant dependant) := by
      intro l own hperm hown dependant key
      constructor
      · rintro ⟨acquiring, hmem, hkey, hholder⟩
        rcases List.mem_append.mp (hperm.subset hmem) with hin | hin
        · rw [hown acquiring (by simpa using hin)] at hholder
          cases hholder
        · exact ⟨acquiring, hin, hkey, hholder⟩
      · rintro ⟨acquiring, hmem, hboth⟩
        exact ⟨acquiring, hperm.symm.subset (List.mem_append_right _ hmem), hboth⟩
    intro dependant key
    exact (hrest hafter (heff.asks_pipeline fun acquiring hsome => (hasked acquiring hsome).1) dependant key).trans
      (hrest hbefore (fun acquiring hsome => (hasked acquiring hsome).1) dependant key).symm
  -- who holds a claim before the step, and after
  have hstands : ∀ key, (call.id, key) ∉ kept := fun key hkept =>
    (h.ended _ hkept).1 (List.mem_map_of_mem hcall)
  have hpipeline : ∀ key, s.Held key (.pipeline call.id) ↔ call.stage.running = true ∧ s.underlyingKey cfg call = key := by
    intro key
    rw [← h.pipelines, or_iff_left (hstands key)]
    exact hself key
  have hsplit : ∀ key holder, s.Held key holder ↔ (s.Held key holder ∧ holder ≠ .pipeline call.id) ∨
      (holder = .pipeline call.id ∧ call.stage.running = true ∧ s.underlyingKey cfg call = key) := by
    intro key holder
    by_cases hholder : holder = .pipeline call.id
    · simp [hholder, hpipeline]
    · simp [hholder]
  have hleft : ∀ key holder, (s.Held key holder ∧ ¬ (key = s.underlyingKey cfg call ∧ holder = .pipeline call.id)) ↔
      s.Held key holder ∧ holder ≠ .pipeline call.id := by
    intro key holder
    refine and_congr_right fun hheld => not_congr ⟨And.right, ?_⟩
    rintro rfl
    exact ⟨((hpipeline key).mp hheld).2.symm, rfl⟩
  have hheld : ∀ key holder, (out.1.conclude call out.2).Held key holder ↔
      (s.Held key holder ∧ holder ≠ .pipeline call.id) ∨
        (holder = .pipeline call.id ∧ out.2.running = true ∧ s.underlyingKey cfg call = key) ∨
        (holder = .pipeline call.id ∧ (call.id, key) ∈ leftBehind) ∨
        ∃ dependant, holder = .dependant dependant ∧ (dependant, key) ∈ added := by
    intro key holder
    refine (held_congr (positionClaims_conclude out.1 call out.2) key holder).trans ?_
    cases heff with
    | stays hclaims _ _ _ hsame =>
      refine (held_congr hclaims key holder).trans ((hsplit key holder).trans ?_)
      simp [hsame]
    | asks hstage =>
      refine (held_congr (by rfl) key holder).trans ((hsplit key holder).trans ?_)
      simp [hstage, Progress.running, EntryStage.running]
    | takes acquiring lease revalidated now hstage hgranted =>
      obtain ⟨hholder, hkey⟩ := hasked acquiring (hstage ▸ rfl)
      have hfree := hplaced.unclaimed (hbefore.symm.subset (hstage ▸ List.mem_cons_self)) hgranted
      refine (held_underlyingAcquired hfree lease revalidated key holder).trans ((or_congr_left (hsplit key holder)).trans ?_)
      simp [hholder, hkey, hstage, Progress.running, EntryStage.running, and_comm, eq_comm]
    | leaves hclaims _ _ _ hnone =>
      refine (held_congr hclaims key holder).trans ((held_dropUnderlyingHolder hplaced.keyed _ _ key holder).trans
        ((hleft key holder).trans ?_))
      simp [hnone]
    | promotes tradeId claim hclaim hclaims _ _ _ hnone =>
      refine (held_congr hclaims key holder).trans
        ((held_dropUnderlyingHolder (placed_addHolder hplaced _ _).keyed _ _ key holder).trans ?_)
      refine (and_congr_left' (held_addHolder hclaim key holder)).trans ?_
      have htrade : (key = s.underlyingKey cfg call ∧ holder = .dependant (.trade tradeId)) ∧
          ¬ (key = s.underlyingKey cfg call ∧ holder = .pipeline call.id) ↔
            ∃ dependant, holder = .dependant dependant ∧ (dependant, key) ∈ [(.trade tradeId, s.underlyingKey cfg call)] := by
        simp only [List.mem_singleton, Prod.mk.injEq]
        constructor
        · rintro ⟨⟨hkey, rfl⟩, _⟩
          exact ⟨_, rfl, rfl, hkey⟩
        · rintro ⟨dependant, rfl, rfl, hkey⟩
          exact ⟨⟨hkey, rfl⟩, by simp⟩
      rw [or_and_right]
      refine or_congr (hleft key holder) (htrade.trans ?_)
      simp [hnone]
    | keeps hruns hends hclaims hdrops hseq =>
      refine (held_congr hclaims key holder).trans ((hsplit key holder).trans ?_)
      simp [hruns, Progress.running_of_ends hends, eq_comm]
  refine ⟨?_, ?_, ?_⟩
  · intro dependant key
    rw [hheld, hasks, List.mem_append, h.dependants dependant key]
    simp
    tauto
  · intro id key
    rw [hheld, hruns hentries hcontext, List.mem_append, ← h.pipelines id key]
    by_cases hid : id = call.id
    · subst hid
      simp [hstands key, underlyingKey]
    · have hnot : (id, key) ∉ leftBehind := fun hhold => hid (heff.leaves_own hhold).1
      simp [hid, hnot]
  · intro hold hhold
    have hseq' := (out.1.conclude_frame call out.2).2.2.2.1
    have hids : ∀ other ∈ (out.1.conclude call out.2).entries, other.id ∈ s.entries.map EntryCall.id := by
      intro other hother
      rcases mem_entries_conclude hother with ⟨hother, _⟩ | ⟨stage, _, rfl⟩
      · exact List.mem_map_of_mem (hentries ▸ hother)
      · exact List.mem_map.mpr ⟨call, hcall, rfl⟩
    rw [hseq']
    rcases List.mem_append.mp hhold with hhold | hhold
    · obtain ⟨hid, hends⟩ := heff.leaves_own hhold
      refine ⟨?_, hid ▸ hminted.trans hseq⟩
      intro hmem
      obtain ⟨other, hother, hsame⟩ := List.mem_map.mp hmem
      rcases mem_entries_conclude hother with ⟨_, hne⟩ | ⟨stage, hgoes, _⟩
      · exact hne (hsame.trans hid)
      · exact hends stage hgoes
    · obtain ⟨hnot, hle⟩ := h.ended hold hhold
      refine ⟨?_, hle.trans hseq⟩
      intro hmem
      obtain ⟨other, hother, hsame⟩ := List.mem_map.mp hmem
      exact hnot (hsame ▸ hids other hother)

end

end EntryEffect

/-! ## Every step of an entry has its effect -/

def joined (cfg : CoordinatorConfig) (s : ExecutionCoordinator) (call : EntryCall) (answer : Answer) :
    List (Dependant × String) :=
  match call.stage, answer with
  | .executing, .executed result =>
    ((promoted call result).map fun tradeId => (.trade tradeId, s.underlyingKey cfg call)).toList
  | _, _ => []

def leftBy (cfg : CoordinatorConfig) (s : ExecutionCoordinator) (call : EntryCall) (answer : Answer) :
    List (MintedId × String) :=
  match call.stage, answer with
  | .executing, .rejected => [(call.id, s.underlyingKey cfg call)]
  | .executing, .executed result =>
    if promoted call result = none ∧ certainty call result = .uncertain then [(call.id, s.underlyingKey cfg call)] else []
  | _, _ => []

theorem joined_executed (h : call.stage = .executing) (result : ExecutionResult) :
    s.joined cfg call (.executed result) =
      ((promoted call result).map fun tradeId => (.trade tradeId, s.underlyingKey cfg call)).toList := by
  unfold joined
  rw [h]

theorem leftBy_executed (h : call.stage = .executing) (result : ExecutionResult) :
    s.leftBy cfg call (.executed result) = if promoted call result = none ∧ certainty call result = .uncertain then
      [(call.id, s.underlyingKey cfg call)] else [] := by
  unfold leftBy
  rw [h]

variable (cfg s call) in
theorem joined_and_leftBy (answer : Answer)
    (h : call.stage = .executing → answer ≠ .rejected ∧ ∀ result, answer ≠ .executed result) :
    s.joined cfg call answer = [] ∧ s.leftBy cfg call answer = [] := by
  unfold joined leftBy
  refine ⟨?_, ?_⟩
  · split
    · rename_i result hstage
      exact absurd rfl ((h hstage).2 result)
    · rfl
  · split
    · rename_i hstage
      exact absurd rfl (h hstage).1
    · rename_i result hstage
      exact absurd rfl ((h hstage).2 result)
    · rfl

variable (cfg s) in
theorem joined_and_leftBy_of_claimed (h : call.stage.claimed = true) (answer : Answer) :
    s.joined cfg call answer = [] ∧ s.leftBy cfg call answer = [] := by
  refine joined_and_leftBy cfg s call answer fun hstage => ?_
  rw [hstage] at h
  cases h

theorem abandonAndReleaseHold_drops (hone : cfg.oneActiveBoxPerUnderlying = true) (hsound : s.books.Sound)
    (hentry : s.EntrySound cfg call call.stage) (hstage : call.stage.claimed = true) (n : ℕ) :
    ({ s with waiting := n }.abandonAndReleaseHold cfg call.id).positionClaims =
        (s.dropUnderlyingHolder cfg call.candidate.underlying (.pipeline call.id)).1.positionClaims ∧
      ({ s with waiting := n }.abandonAndReleaseHold cfg call.id).drops =
        (s.dropUnderlyingHolder cfg call.candidate.underlying (.pipeline call.id)).1.drops ∧
      ({ s with waiting := n }.abandonAndReleaseHold cfg call.id).seq = s.seq := by
  obtain ⟨exec, hexec, hid, hname⟩ := hentry.standing hstage
  have hfound : { s with waiting := n }.execution? call.id = some exec := hid ▸ execution?_of_mem hsound hexec
  have hdrop : { s with waiting := n }.releasePipelineHold cfg call.id (some exec.underlying) =
      ({ s with waiting := n }.dropUnderlyingHolder cfg call.candidate.underlying (.pipeline call.id)).1 := by
    unfold releasePipelineHold
    rw [hname, Option.filter_some_pos (by simpa [hone] using hentry.named hstage)]
  have hseq := congrArg Desk.seq (desk_abandonAndReleaseHold cfg { s with waiting := n } call.id)
  refine ⟨?_, ?_, hseq⟩
  · unfold abandonAndReleaseHold
    rw [hfound, Option.map_some, hdrop, positionClaims_abandon]
    unfold dropUnderlyingHolder
    dsimp only [positionClaimKey, positionClaim?]
    split
    · rfl
    · split <;> rfl
  · unfold abandonAndReleaseHold
    rw [hfound, Option.map_some, hdrop, drops_abandon]
    unfold dropUnderlyingHolder
    dsimp only [positionClaimKey, positionClaim?]
    split
    · rfl
    · split <;> rfl

variable (s call) in
theorem settleEntry_progress (outcome : Certainty) (now : ℚ) :
    (s.settleEntry call outcome now).2.acquiring? = none ∧ (s.settleEntry call outcome now).2.running = false := by
  cases outcome <;> exact ⟨rfl, rfl⟩

variable (cfg s call) in
theorem dropPipeline_progress (outcome : Certainty) (now : ℚ) :
    (s.dropPipeline cfg call outcome now).2.acquiring? = none ∧ (s.dropPipeline cfg call outcome now).2.running = false := by
  rcases s.dropPipeline_cases cfg call outcome now with ⟨owner, _, heq⟩ | ⟨_, heq⟩
  · rw [heq]
    exact ⟨rfl, rfl⟩
  · rw [heq]
    exact settleEntry_progress _ call outcome now

theorem effect_claimed (hone : cfg.oneActiveBoxPerUnderlying = true) (hsound : s.books.Sound)
    (hentry : s.EntrySound cfg call call.stage) (hstage : call.stage.claimed = true) {answer : Answer} (now : ℚ)
    (hgranted : ∀ acquiring lease revalidated, call.stage = .holding acquiring →
      answer = .acquire (.acquired lease) revalidated → (acquiring.owner, true) ∈ decided)
    (hguarded : answer = .rejected → call.stage.guarded = true) :
    EntryEffect cfg s call decided (s.advance cfg call answer now) (s.joined cfg call answer)
      (s.leftBy cfg call answer) := by
  obtain ⟨hnobody, hnothing⟩ := joined_and_leftBy_of_claimed cfg s hstage answer
  rw [hnobody, hnothing]
  rcases advance_claimed hstage answer now with hout | heq
  · generalize s.advance cfg call answer now = out at hout
    cases hout with
    | waits n stage hnext hruns hheld =>
      have hbefore : call.stage.running = true := hheld.resolve_right (by simp [hone])
      exact .stays rfl (List.Sublist.refl _) rfl
        ((EntryStage.acquiring?_of_running hruns).trans (EntryStage.acquiring?_of_running hbefore).symm)
        (hruns.trans hbefore.symm)
    | asks hconsuming => exact .asks hconsuming
    | takes acquiring lease revalidated now hholding hanswer =>
      exact .takes acquiring lease revalidated now hholding (hgranted acquiring lease revalidated hholding hanswer)
    | refuses n refusal =>
      obtain ⟨hclaims, hdrops, hseq⟩ := abandonAndReleaseHold_drops hone hsound hentry hstage n
      exact .leaves hclaims hdrops hseq rfl rfl
    | throws =>
      obtain ⟨hclaims, hdrops, hseq⟩ := abandonAndReleaseHold_drops hone hsound hentry hstage s.waiting
      exact .leaves hclaims hdrops hseq rfl rfl
    | givesBack n refusal =>
      obtain ⟨hclaims, hdrops, hseq⟩ := abandonAndReleaseHold_drops hone hsound hentry hstage n
      exact .leaves hclaims hdrops hseq rfl rfl
    | starts n lease hheld =>
      exact .stays rfl (List.Sublist.refl _) rfl (EntryStage.acquiring?_of_running hheld).symm hheld.symm
    | leaks n hopen hrejected =>
      rw [hguarded hrejected] at hopen
      cases hopen
  · rw [heq]
    exact .stays rfl (List.Sublist.refl _) rfl rfl rfl

theorem effect_executed (hone : cfg.oneActiveBoxPerUnderlying = true) (hstage : call.stage = .executing)
    {claim : PositionUnderlyingClaim} (hclaim : s.positionClaim? (s.underlyingKey cfg call) = some claim)
    (result : ExecutionResult) (now : ℚ) :
    EntryEffect cfg s call decided (s.advance cfg call (.executed result) now) (s.joined cfg call (.executed result))
      (s.leftBy cfg call (.executed result)) := by
  have hadvance : s.advance cfg call (.executed result) now = s.settleUnderlyingHold cfg call result now := by
    unfold advance
    rw [hstage]
  rw [hadvance, joined_executed hstage, leftBy_executed hstage]
  unfold settleUnderlyingHold
  rw [if_neg (by simp [hone])]
  cases htrade : promoted call result with
  | some tradeId =>
    have hclaim' : s.positionClaim? (s.positionClaimKey cfg call.candidate.underlying) = some claim := hclaim
    dsimp only
    rw [hclaim', if_neg (by simp)]
    obtain ⟨hasks, hruns⟩ := dropPipeline_progress cfg
      (s.addHolder (s.positionClaimKey cfg call.candidate.underlying) (.dependant (.trade tradeId))) call
      (certainty call result) now
    exact .promotes tradeId claim hclaim (positionClaims_dropPipeline _ _ _ _ _) (drops_dropPipeline _ _ _ _ _)
      (congrArg Desk.seq (desk_dropPipeline _ _ _ _ _)) hasks hruns
  | none =>
    dsimp only
    cases hcertain : certainty call result with
    | clean =>
      rw [if_neg (by simp), if_neg (by simp)]
      obtain ⟨hasks, hruns⟩ := dropPipeline_progress cfg s call .clean now
      exact .leaves (positionClaims_dropPipeline _ _ _ _ _) (drops_dropPipeline _ _ _ _ _)
        (congrArg Desk.seq (desk_dropPipeline _ _ _ _ _)) hasks hruns
    | uncertain =>
      rw [if_pos rfl, if_pos ⟨rfl, rfl⟩]
      exact .keeps (by rw [hstage]; rfl) (by rintro stage ⟨⟩) (positionClaims_settleEntry _ _ _ _)
        (drops_settleEntry _ _ _ _) (congrArg Desk.seq (desk_settleEntry _ _ _ _))

theorem effect_threw (hstage : call.stage = .executing) (now : ℚ) :
    EntryEffect cfg s call decided (s.advance cfg call .rejected now) (s.joined cfg call .rejected)
      (s.leftBy cfg call .rejected) := by
  have hadvance : s.advance cfg call .rejected now = s.throwEntry call now := by
    unfold advance
    rw [hstage]
  have hnobody : s.joined cfg call .rejected = [] := by
    unfold joined
    rw [hstage]
  have hleft : s.leftBy cfg call .rejected = [(call.id, s.underlyingKey cfg call)] := by
    unfold leftBy
    rw [hstage]
  rw [hadvance, hnobody, hleft]
  exact .keeps (by rw [hstage]; rfl) (by rintro stage ⟨⟩) (positionClaims_holdOnUncertainty _ _ _ _)
    (drops_holdOnUncertainty _ _ _ _) (congrArg Desk.seq (desk_holdOnUncertainty _ _ _ _))

theorem effect_started (hstage : call.stage.started = true) {answer : Answer} (now : ℚ)
    (hpromoting : ∀ acquiring outcome, call.stage ≠ .promoting acquiring outcome)
    (hother : call.stage = .executing → answer ≠ .rejected ∧ ∀ result, answer ≠ .executed result) :
    EntryEffect cfg s call decided (s.advance cfg call answer now) (s.joined cfg call answer)
      (s.leftBy cfg call answer) := by
  obtain ⟨hnobody, hnothing⟩ := joined_and_leftBy cfg s call answer hother
  rw [hnobody, hnothing]
  rcases advance_started hstage answer now with hout | heq
  · generalize s.advance cfg call answer now = out at hout
    cases hout with
    | settles result now hexecuting hanswer | drops result now hexecuting hanswer
    | promotes result tradeId claim now hexecuting hanswer | asks result tradeId hexecuting hanswer =>
      exact absurd hanswer ((hother hexecuting).2 result)
    | takes acquiring outcome now hstage => exact absurd hstage (hpromoting acquiring outcome)
    | dropped owner outcome now hdropping =>
      obtain ⟨hasks, hruns⟩ := settleEntry_progress { s with drops := s.drops.filter fun drop => drop ≠ owner } call
        outcome now
      have hdrops : ({ s with drops := s.drops.filter fun drop => drop ≠ owner }.settleEntry call outcome now).1.drops.Sublist
          s.drops := by
        rw [drops_settleEntry]
        exact List.filter_sublist
      exact .stays (positionClaims_settleEntry _ _ _ _) hdrops (congrArg Desk.seq (desk_settleEntry _ _ _ _))
        (hasks.trans (hdropping ▸ rfl)) (hruns.trans (hdropping ▸ rfl))
    | dropThrows owner outcome now hdropping =>
      refine .stays (positionClaims_holdOnUncertainty _ _ _ _) ?_
        (congrArg Desk.seq (desk_holdOnUncertainty _ _ _ _)) ?_ ?_
      · exact (drops_holdOnUncertainty _ _ _ _).symm ▸ List.filter_sublist
      · rw [hdropping]
        rfl
      · rw [hdropping]
        rfl
    | throws now hcase =>
      have hsettling : call.stage = .settling := hcase.resolve_left fun hboth => (hother hboth.1).1 hboth.2
      refine .stays (positionClaims_holdOnUncertainty _ _ _ _) ?_
        (congrArg Desk.seq (desk_holdOnUncertainty _ _ _ _)) ?_ ?_
      · exact (drops_holdOnUncertainty _ _ _ _).symm ▸ List.Sublist.refl _
      · rw [hsettling]
        rfl
      · rw [hsettling]
        rfl
    | returns hsettling =>
      refine .stays rfl (List.Sublist.refl _) rfl ?_ ?_
      · rw [hsettling]
        rfl
      · rw [hsettling]
        rfl
  · rw [heq]
    exact .stays rfl (List.Sublist.refl _) rfl rfl rfl

end ExecutionCoordinator

end Coordination

end BoxEngine
