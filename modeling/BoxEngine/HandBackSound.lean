import BoxEngine.BoxScanner

/-!
# A confirmed fill is not handed back

Once all four legs filled, the attempt ends with a position opened or with the pair reserved and the attempt handed
over, unless a call in between throws.
-/

namespace BoxEngine

open Js Fallible BoxScanner

variable {π : Type}

def Retained (legged : Bool) (acts : List EntryAct) : Prop :=
  (∃ reason, .violated reason ∈ acts) ∧ (legged = true → ∃ residual, residual ≠ [] ∧ .attempted residual ∈ acts)

structure FillOwned (cand : BoxCandidate) (s : AttemptState π) : Prop where
  owned : ∀ legged, .filled legged ∈ s.acts →
    (∃ id, .opened id ∈ s.acts) ∨ (cand.key ∈ s.positions.reserved ∧ Retained legged s.acts)
  released : ∀ key legged, .released key ∈ s.acts → .filled legged ∉ s.acts

structure FillKept (cand : BoxCandidate) (s : AttemptState π) : Prop where
  fill : FillOwned cand s
  idle : cand.key ∉ s.entryInFlight
  unclaimed : s.entryInFlightUnderlyings cand.underlying ≠ some cand.key

structure AttemptState.Fresh (cand : BoxCandidate) (s : AttemptState π) : Prop where
  acts : s.acts = []
  idle : cand.key ∉ s.entryInFlight
  unclaimed : s.entryInFlightUnderlyings cand.underlying ≠ some cand.key

structure ConfirmedFill where
  evaluation : BoxEvaluation
  legging : Option PaperLeggingExecutionRecord

variable (deps : BoxScannerDeps)

def confirmedFill (detection : BoxEvaluation) : Option ConfirmedFill :=
  match deps.localDecisionFor detection with
  | .error _ => none
  | .ok _ =>
    if deps.legged then
      match deps.simulateLeggingEntry with
      | .ok (.filled evaluation legging) => some ⟨evaluation, some legging⟩
      | _ => none
    else
      match deps.simulateEntry with
      | .ok (.filled evaluation) => some ⟨evaluation, none⟩
      | _ => none

def openingOf (fill : ConfirmedFill) : Except Thrown (Option String) :=
  match buildEntryChargeLegs fill.evaluation.candidate fill.evaluation.legs with
  | none => .ok none
  | some legs => do
    deps.chargeRoundTrip legs
    deps.openPaperTrade legs

def whyUnrecorded (fill : ConfirmedFill) : String :=
  if (buildEntryChargeLegs fill.evaluation.candidate fill.evaluation.legs).isSome then notPersisted
  else chargeLegsMissing

@[mk_iff] structure Retains (deps : BoxScannerDeps) (now : Number) (cand : BoxCandidate) (evaluation : BoxEvaluation)
    (legging : Option PaperLeggingExecutionRecord) (why : String) : Prop where
  announced : announceLostFill deps cand (lostFillDetail cand.key why (retainedLegs evaluation legging now)) true = .ok ()
  handed : ∀ record ∈ legging, ∃ onExecutionAttempt ∈ deps.onExecutionAttempt,
    onExecutionAttempt (lostFillAttempt cand evaluation record (retainedLegs evaluation legging now)
        (lostFillDetail cand.key why (retainedLegs evaluation legging now))) = .ok () ∧
      (record.residualExposure ≠ [] ∨ retainedLegs evaluation legging now ≠ [])
  blocked : deps.invariantViolation
    (lostFillViolation cand (lostFillDetail cand.key why (retainedLegs evaluation legging now))) = .ok ()

def FinishStands (cand : BoxCandidate) (detection : BoxEvaluation) (positions : PositionBook π)
    (opened : Bool) : Prop :=
  ∀ error, deps.finish .pipeline (attemptId cand detection) (if opened then .success else .partialUnresolved)
      (if opened then none else some "persistence_unavailable") = .error error →
    ∃ fault, reportFault deps cand detection error .tradePersistence positions = .error fault

def KeepsFill (now : Number) (cand : BoxCandidate) (detection : BoxEvaluation) (positions : PositionBook π) : Prop :=
  ∀ reserved ∈ positions.reserve cand.key,
    deps.begin (attemptId cand detection) = .ok () ∧
    ∀ fill ∈ confirmedFill deps detection, ∃ id, openingOf deps fill = .ok id ∧
      (truthyId id = none → Retains deps now cand fill.evaluation fill.legging (whyUnrecorded fill)) ∧
      FinishStands deps cand detection reserved id.isSome

/-! ## What each part does to the fill -/

def EntryAct.handsOver : EntryAct → Bool
  | .opened _ | .attempted _ | .violated _ => true
  | _ => false

def AttemptState.noteAll (news : List EntryAct) (s : AttemptState π) : AttemptState π :=
  { s with acts := s.acts ++ news }

theorem noteAll_nil (s : AttemptState π) : s.noteAll [] = s := by
  simp [AttemptState.noteAll]

theorem unrecorded_residual_ne (legging : PaperLeggingExecutionRecord) (retained : List EntryResidual) :
    (legging.unrecorded retained).residualExposure ≠ [] ↔ legging.residualExposure ≠ [] ∨ retained ≠ [] := by
  by_cases h : legging.residualExposure = [] <;> simp [PaperLeggingExecutionRecord.unrecorded, h]

variable (deps : BoxScannerDeps) (cand : BoxCandidate) (now : Number) (evaluation detection : BoxEvaluation)
  (fill : ConfirmedFill)

theorem lostFillAttempt_residual (record : PaperLeggingExecutionRecord) (retained : List EntryResidual)
    (detail : String) :
    (lostFillAttempt cand evaluation record retained detail).legging.residualExposure ≠ [] ↔
      record.residualExposure ≠ [] ∨ retained ≠ [] := unrecorded_residual_ne record retained

theorem handing_ends (legging : Option PaperLeggingExecutionRecord) (retained : List EntryResidual) (detail : String)
    (s : AttemptState π) :
    ∃ answer news, ends (handLostFill deps cand evaluation legging retained detail) s = (answer, s.noteAll news) ∧
      (∀ act ∈ news, ∃ residual, act = .attempted residual) ∧
      (answer = .ok () ∧ (legging.isSome = true → ∃ residual, residual ≠ [] ∧ .attempted residual ∈ news) ↔
        ∀ record ∈ legging, ∃ onExecutionAttempt ∈ deps.onExecutionAttempt,
          onExecutionAttempt (lostFillAttempt cand evaluation record retained detail) = .ok () ∧
            (record.residualExposure ≠ [] ∨ retained ≠ [])) := by
  cases legging with
  | none => exact ⟨.ok (), [], by simp [handLostFill, noteAll_nil], by simp, by simp⟩
  | some record =>
    have hresidual := lostFillAttempt_residual cand evaluation record retained detail
    cases hhook : deps.onExecutionAttempt with
    | none => exact ⟨.ok (), [], by simp [handLostFill, handAttempt, hhook, noteAll_nil], by simp, by simp⟩
    | some hook =>
      cases hhand : hook (lostFillAttempt cand evaluation record retained detail) with
      | error e =>
        exact ⟨.error e, [], by simp [handLostFill, handAttempt, hhook, ends_bind, hhand, noteAll_nil], by simp, by simp [hhand]⟩
      | ok _ =>
        refine ⟨.ok (), [.attempted (lostFillAttempt cand evaluation record retained detail).legging.residualExposure],
          ?_, by simp, ?_⟩
        · simp [handLostFill, handAttempt, hhook, ends_bind, hhand, AttemptState.note, AttemptState.noteAll]
        · simp [hhand, ← hresidual]

variable {s : AttemptState π}

theorem retain_ends (cand : BoxCandidate) (evaluation : BoxEvaluation) (legging : Option PaperLeggingExecutionRecord)
    (why : String) (hs : s.positions.isTaken cand.key = true) :
    ∃ answer news, ends (retainUnrecordedFill deps now cand evaluation legging why) s = (answer, s.noteAll news) ∧
      (∀ act ∈ news, act.handsOver = true) ∧ (∀ id, .opened id ∉ news) ∧
      (Retained legging.isSome news ↔ Retains deps now cand evaluation legging why) ∧
      (Retained legging.isSome news → answer = .ok ()) := by
  cases hannounce : announceLostFill deps cand (lostFillDetail cand.key why (retainedLegs evaluation legging now)) true with
  | error e =>
    refine ⟨.error e, [], ?_, by simp, by simp, ?_, by simp [Retained]⟩
    · simp [retainUnrecordedFill, ends_bind, hs, hannounce, noteAll_nil]
    · simp [Retained, retains_iff, hannounce]
  | ok _ =>
    obtain ⟨answer, news, hend, hnews, hhanded⟩ := handing_ends deps cand evaluation legging
      (retainedLegs evaluation legging now) (lostFillDetail cand.key why (retainedLegs evaluation legging now)) s
    have hquiet : ∀ act ∈ news, act.handsOver = true := by
      intro act hact
      obtain ⟨residual, rfl⟩ := hnews act hact
      rfl
    have hnot : ∀ act, (∀ residual, act ≠ .attempted residual) → act ∉ news := by
      intro act hne hact
      obtain ⟨residual, heq⟩ := hnews act hact
      exact hne residual heq
    have hnotRetained : ¬ Retained legging.isSome news := fun h => hnot _ (by simp) h.1.choose_spec
    cases answer with
    | error e =>
      refine ⟨.error e, news, ?_, hquiet, fun id => hnot _ (by simp), ?_, fun h => absurd h hnotRetained⟩
      · simp [retainUnrecordedFill, ends_bind, hs, hannounce, hend]
      · constructor
        · exact fun h => absurd h hnotRetained
        · intro h
          simpa using (hhanded.mpr h.handed).1
    | ok _ =>
      cases hblock : deps.invariantViolation
          (lostFillViolation cand (lostFillDetail cand.key why (retainedLegs evaluation legging now))) with
      | error e =>
        refine ⟨.error e, news, ?_, hquiet, fun id => hnot _ (by simp), ?_, fun h => absurd h hnotRetained⟩
        · simp [retainUnrecordedFill, ends_bind, hs, hannounce, hend, hblock]
        · simp [hnotRetained, retains_iff, hblock]
      | ok _ =>
        refine ⟨.ok (), news ++ [.violated
          (lostFillViolation cand (lostFillDetail cand.key why (retainedLegs evaluation legging now)))], ?_, ?_, ?_, ?_,
          fun _ => rfl⟩
        · simp [retainUnrecordedFill, ends_bind, hs, hannounce, hend, hblock, AttemptState.note, AttemptState.noteAll]
        · intro act hact
          rcases List.mem_append.mp hact with hact | hact
          · exact hquiet act hact
          · rw [List.mem_singleton.mp hact, EntryAct.handsOver]
        · intro id
          simpa using hnot (.opened id) (by simp)
        · rw [retains_iff, ← hhanded]
          simp [Retained, hannounce, hblock]

def Recorded (legged : Bool) (acts : List EntryAct) : Prop := (∃ id, .opened id ∈ acts) ∨ Retained legged acts

def Opens (deps : BoxScannerDeps) (now : Number) (cand : BoxCandidate) (fill : ConfirmedFill) (id : Option String) :
    Prop :=
  openingOf deps fill = .ok id ∧
    (truthyId id = none → Retains deps now cand fill.evaluation fill.legging (whyUnrecorded fill))

theorem finalize_ends (cand : BoxCandidate) (fill : ConfirmedFill) (hs : s.positions.isTaken cand.key = true) :
    ∃ answer news, ends (finalizeOpen deps now cand fill.evaluation fill.legging) s = (answer, s.noteAll news) ∧
      (∀ act ∈ news, act.handsOver = true) ∧
      (Recorded fill.legging.isSome news ↔ ∃ id, Opens deps now cand fill id) ∧
      (Recorded fill.legging.isSome news → ∀ id, openingOf deps fill = .ok id → answer = .ok id.isSome) := by
  -- along the hand-over's own calls: the legs, the charges, the trade, its id
  cases hlegs : buildEntryChargeLegs fill.evaluation.candidate fill.evaluation.legs with
  | none =>
    have hwhy : whyUnrecorded fill = chargeLegsMissing := by simp [whyUnrecorded, hlegs]
    have hopening : openingOf deps fill = .ok none := by simp [openingOf, hlegs]
    obtain ⟨answer, news, hend, hnews, hopened, hretained, hok⟩ :=
      retain_ends deps now cand fill.evaluation fill.legging chargeLegsMissing hs
    refine ⟨answer.map fun _ => false, news, ?_, hnews, ?_, ?_⟩
    · simp [finalizeOpen, hlegs, ends_map, hend]
    · simp [Recorded, hopened, hretained, Opens, hopening, hwhy, truthyId]
    · intro hrecorded id hid
      rw [hopening] at hid
      cases hid
      rcases hrecorded with ⟨id, hmem⟩ | hretained
      · exact absurd hmem (hopened id)
      · rw [hok hretained]
        rfl
  | some legs =>
    have hwhy : whyUnrecorded fill = notPersisted := by simp [whyUnrecorded, hlegs]
    cases hround : deps.chargeRoundTrip legs with
    | error e =>
      have hopening : openingOf deps fill = .error e := by simp [openingOf, hlegs, hround, bind, Except.bind]
      refine ⟨.error e, [], ?_, by simp, ?_, by simp [hopening]⟩
      · simp [finalizeOpen, hlegs, ends_bind, hround, noteAll_nil]
      · simp [Recorded, Retained, Opens, hopening]
    | ok _ =>
      have hopening : openingOf deps fill = deps.openPaperTrade legs := by simp [openingOf, hlegs, hround, bind, Except.bind]
      cases hopen : deps.openPaperTrade legs with
      | error e =>
        refine ⟨.error e, [], ?_, by simp, ?_, by simp [hopening, hopen]⟩
        · simp [finalizeOpen, hlegs, ends_bind, hround, hopen, noteAll_nil]
        · simp [Recorded, Retained, Opens, hopening, hopen]
      | ok id =>
        cases hid : truthyId id with
        | some opened =>
          refine ⟨.ok id.isSome, [.opened opened], ?_, by simp [EntryAct.handsOver], ?_, by simp [hopening, hopen]⟩
          · simp [finalizeOpen, hlegs, ends_bind, ends_map, hround, hopen, hid, AttemptState.note, AttemptState.noteAll,
              Except.map]
          · simp [Recorded, Opens, hopening, hopen, hid]
        | none =>
          obtain ⟨answer, news, hend, hnews, hopened, hretained, hok⟩ :=
            retain_ends deps now cand fill.evaluation fill.legging notPersisted hs
          refine ⟨answer.map fun _ => id.isSome, news, ?_, hnews, ?_, ?_⟩
          · simp [finalizeOpen, hlegs, ends_bind, ends_map, hround, hopen, hid, hend]
          · simp [Recorded, hopened, hretained, Opens, hopening, hopen, hid, hwhy]
          · intro hrecorded id' hid'
            rw [hopening, hopen] at hid'
            cases hid'
            rcases hrecorded with ⟨opened, hmem⟩ | hretained
            · exact absurd hmem (hopened opened)
            · rw [hok hretained]
              rfl

theorem handle_ends (error : Thrown) (s : AttemptState π) :
    ends (handleFault deps cand detection error) s =
      match reportFault deps cand detection error s.stage s.positions with
      | .ok _ => (.ok (), s.release cand.key)
      | .error fault => (.error fault, s) := by
  cases h : reportFault deps cand detection error s.stage s.positions <;> simp [handleFault, ends_bind, h]

/-! ## A confirmed fill, to the end of the attempt -/

def fillActs (fill : ConfirmedFill) (news : List EntryAct) : List EntryAct := .filled fill.legging.isSome :: news

theorem recorded_fillActs (news : List EntryAct) :
    Recorded fill.legging.isSome (fillActs fill news) ↔ Recorded fill.legging.isSome news := by
  simp [Recorded, Retained, fillActs]

variable {fill : ConfirmedFill}

theorem owned_of_recorded {cand : BoxCandidate} {news : List EntryAct}
    (hacts : s.acts = fillActs fill news) (hnews : ∀ act ∈ news, act.handsOver = true)
    (hkey : cand.key ∈ s.positions.reserved) : FillOwned cand s ↔ Recorded fill.legging.isSome news := by
  have hquiet : ∀ act, act.handsOver = false → act ∉ news := fun act hact hmem => by simp [hnews act hmem] at hact
  constructor
  · intro h
    have howned := h.owned fill.legging.isSome (by rw [hacts]; exact .head _)
    rw [hacts] at howned
    exact (recorded_fillActs fill news).mp (howned.imp_right And.right)
  · intro h
    have hrecorded := (recorded_fillActs fill news).mpr h
    refine ⟨fun legged hmem => ?_, fun key legged hmem => ?_⟩
    · rw [hacts, fillActs, List.mem_cons] at hmem
      rcases hmem with heq | hmem
      · rw [hacts, EntryAct.filled.inj heq]
        exact hrecorded.imp_right fun h => ⟨hkey, h⟩
      · exact absurd hmem (hquiet _ rfl)
    · rw [hacts, fillActs, List.mem_cons] at hmem
      rcases hmem with heq | hmem
      · cases heq
      · exact absurd hmem (hquiet _ rfl)

theorem not_owned_of_released {cand : BoxCandidate} {news : List EntryAct}
    (hacts : s.acts = fillActs fill news ++ [.released cand.key]) : ¬ FillOwned cand s := by
  intro h
  exact h.released cand.key fill.legging.isSome (by simp [hacts]) (by simp [hacts, fillActs])

theorem settle_owned (cand : BoxCandidate) (detection : BoxEvaluation) (fill : ConfirmedFill) (hacts : s.acts = [])
    (hkey : cand.key ∈ s.positions.reserved) :
    FillOwned cand (ends (recovering (settleFill deps now cand detection fill.evaluation fill.legging)
        (handleFault deps cand detection)) s).2 ↔
      ∃ id, Opens deps now cand fill id ∧ FinishStands deps cand detection s.positions id.isSome := by
  let t : AttemptState π := (s.note (.filled fill.legging.isSome)).enter .tradePersistence
  have htaken : t.positions.isTaken cand.key = true := by
    simp [t, AttemptState.note, AttemptState.enter, PositionBook.isTaken, hkey]
  obtain ⟨answer, news, hend, hnews, hrecorded, hanswer⟩ := finalize_ends deps now cand fill htaken
  have hfill : (t.noteAll news).acts = fillActs fill news := by
    simp [t, AttemptState.noteAll, AttemptState.note, AttemptState.enter, hacts, fillActs]
  have howned : FillOwned cand (t.noteAll news) ↔ Recorded fill.legging.isSome news := owned_of_recorded hfill hnews hkey
  have hlost : ¬ FillOwned cand ((t.noteAll news).release cand.key) :=
    not_owned_of_released (by rw [AttemptState.release, hfill])
  have hsame : ∀ id, Opens deps now cand fill id → answer = .ok id.isSome :=
    fun id hid => hanswer (hrecorded.mpr ⟨id, hid⟩) id hid.1
  rw [ends_recovering]
  -- the hand-over throws, or it returns and the scanner finishes the attempt
  cases answer with
  | error e =>
    have hfalse : ¬ ∃ id, Opens deps now cand fill id := by
      rintro ⟨id, hid⟩
      cases hsame id hid
    have hthrown : ends (settleFill deps now cand detection fill.evaluation fill.legging) s =
        (.error e, t.noteAll news) := by simp [settleFill, ends_bind, t, hend]
    rw [hthrown]
    simp only [handle_ends]
    constructor
    · intro h
      cases hreport : reportFault deps cand detection e (t.noteAll news).stage (t.noteAll news).positions with
      | ok _ =>
        rw [hreport] at h
        exact absurd h hlost
      | error fault =>
        rw [hreport] at h
        exact absurd (hrecorded.mp (howned.mp h)) hfalse
    · rintro ⟨id, hid, -⟩
      exact absurd ⟨id, hid⟩ hfalse
  | ok opened =>
    have hopened : ∀ id, Opens deps now cand fill id → id.isSome = opened :=
      fun id hid => (Except.ok.inj (hsame id hid)).symm
    cases hfinish : deps.finish .pipeline (attemptId cand detection) (if opened then .success else .partialUnresolved)
        (if opened then none else some "persistence_unavailable") with
    | ok _ =>
      have hdone : ends (settleFill deps now cand detection fill.evaluation fill.legging) s =
          (.ok (), t.noteAll news) := by simp [settleFill, ends_bind, t, hend, hfinish]
      rw [hdone]
      change FillOwned cand (t.noteAll news) ↔ _
      rw [howned, hrecorded]
      constructor
      · rintro ⟨id, hid⟩
        refine ⟨id, hid, fun error herror => ?_⟩
        rw [hopened id hid, hfinish] at herror
        cases herror
      · rintro ⟨id, hid, -⟩
        exact ⟨id, hid⟩
    | error e =>
      have hthrown : ends (settleFill deps now cand detection fill.evaluation fill.legging) s =
          (.error e, t.noteAll news) := by simp [settleFill, ends_bind, t, hend, hfinish]
      rw [hthrown]
      simp only [handle_ends]
      cases hreport : reportFault deps cand detection e (t.noteAll news).stage (t.noteAll news).positions with
      | ok _ =>
        constructor
        · exact fun h => absurd h hlost
        · rintro ⟨id, hid, hstands⟩
          rw [← hopened id hid] at hfinish
          obtain ⟨fault, hfault⟩ := hstands e hfinish
          exact absurd (hreport.symm.trans hfault) (by simp)
      | error fault =>
        constructor
        · intro h
          obtain ⟨id, hid⟩ := hrecorded.mp (howned.mp h)
          refine ⟨id, hid, fun error herror => ⟨fault, ?_⟩⟩
          rw [hopened id hid, hfinish] at herror
          rw [← Except.error.inj herror]
          exact hreport
        · rintro ⟨id, hid, -⟩
          exact howned.mpr (hrecorded.mpr ⟨id, hid⟩)

/-! ## An attempt without a fill -/

def NoFill (s : AttemptState π) : Prop := ∀ legged, .filled legged ∉ s.acts

theorem NoFill.owned {cand : BoxCandidate} (h : NoFill s) : FillOwned cand s :=
  ⟨fun legged hmem => absurd hmem (h legged), fun _ legged _ => h legged⟩

theorem NoFill.note (h : NoFill s) {act : EntryAct} (hact : ∀ legged, .filled legged ≠ act) : NoFill (s.note act) := by
  intro legged hmem
  rcases List.mem_append.mp hmem with hmem | hmem
  · exact h legged hmem
  · exact hact legged (List.mem_singleton.mp hmem)

theorem NoFill.release (h : NoFill s) (key : String) : NoFill (s.release key) := by
  have hnote : NoFill (s.note (.released key)) := h.note fun _ => nofun
  exact hnote

theorem handAttempt_noFill (attempt : ExecutionAttempt) : Keeps NoFill (handAttempt deps attempt : Attempt π Unit) := by
  unfold handAttempt
  split
  · exact keeps_pure ()
  · exact keeps_bind (keeps_outside _) fun _ => keeps_update fun s h => h.note fun _ => nofun

theorem refusal_noFill (legging : PaperLeggingExecutionRecord) (reason detail : String) :
    Keeps NoFill (settleRefusal deps cand detection legging reason detail : Attempt π Unit) := by
  have hrest : Keeps NoFill (do
      outside (deps.recordExecutionFailure cand detection reason detail)
      outside (deps.reject .pipeline cand reason (some detail))
      outside (deps.finish .pipeline (attemptId cand detection) (leggingOutcome legging) (some reason))
      update (.release cand.key) : Attempt π Unit) :=
    keeps_bind (keeps_outside _) fun _ => keeps_bind (keeps_outside _) fun _ =>
      keeps_bind (keeps_outside _) fun _ => keeps_update fun _ h => h.release cand.key
  unfold settleRefusal
  split
  · exact keeps_bind (handAttempt_noFill deps _) fun _ => hrest
  · exact hrest

theorem handle_noFill (error : Thrown) : Keeps NoFill (handleFault deps cand detection error : Attempt π Unit) :=
  keeps_bind keeps_look fun _ => keeps_bind (keeps_outside _) fun _ => keeps_update fun _ h => h.release cand.key

theorem pipeline_noFill {deps : BoxScannerDeps} {detection : BoxEvaluation} (h : confirmedFill deps detection = none)
    (now : Number) (cand : BoxCandidate) : Keeps NoFill (pipeline deps now cand detection : Attempt π Unit) := by
  intro s hs
  unfold confirmedFill at h
  cases hlocal : deps.localDecisionFor detection with
  | error e =>
    simp only [pipeline, ends_bind, ends_outside, hlocal]
    exact hs
  | ok _ =>
    rw [hlocal] at h
    by_cases hlegged : deps.legged = true
    · cases hanswer : deps.simulateLeggingEntry with
      | error e =>
        simp only [pipeline, ends_bind, ends_outside, ends_update, hlocal, hlegged, hanswer, if_true]
        exact hs
      | ok result =>
        cases result with
        | refused legging reason detail =>
          simp only [pipeline, ends_bind, ends_outside, ends_update, hlocal, hlegged, hanswer, if_true]
          exact refusal_noFill deps cand detection legging reason detail (s.enter .execution) hs
        | filled evaluation legging => simp [hlegged, hanswer] at h
    · rw [Bool.not_eq_true] at hlegged
      cases hanswer : deps.simulateEntry with
      | error e =>
        simp only [pipeline, ends_bind, ends_outside, ends_update, hlocal, hlegged, hanswer]
        exact hs
      | ok result =>
        cases result with
        | refused reason detail =>
          simp only [pipeline, ends_bind, ends_outside, ends_update, hlocal, hlegged, hanswer]
          exact keeps_bind (keeps_outside _) (fun _ => keeps_bind (keeps_outside _) fun _ =>
            keeps_update fun _ h => h.release cand.key) (s.enter .execution) hs
        | filled evaluation => simp [hlegged, hanswer] at h

theorem pipeline_filled {deps : BoxScannerDeps} {detection : BoxEvaluation}
    (h : confirmedFill deps detection = some fill) (now : Number) (cand : BoxCandidate) (s : AttemptState π) :
    ends (pipeline deps now cand detection) s =
      ends (settleFill deps now cand detection fill.evaluation fill.legging) (s.enter .execution) := by
  unfold confirmedFill at h
  cases hlocal : deps.localDecisionFor detection with
  | error e => simp [hlocal] at h
  | ok _ =>
    rw [hlocal] at h
    by_cases hlegged : deps.legged = true
    · cases hanswer : deps.simulateLeggingEntry with
      | error e => simp [hlegged, hanswer] at h
      | ok result =>
        cases result with
        | refused legging reason detail => simp [hlegged, hanswer] at h
        | filled evaluation legging =>
          simp only [hlegged, hanswer, if_true, Option.some.injEq] at h
          subst h
          simp [pipeline, ends_bind, hlocal, hlegged, hanswer]
    · rw [Bool.not_eq_true] at hlegged
      cases hanswer : deps.simulateEntry with
      | error e => simp [hlegged, hanswer] at h
      | ok result =>
        cases result with
        | refused reason detail => simp [hlegged, hanswer] at h
        | filled evaluation =>
          simp only [hlegged, hanswer, Bool.false_eq_true, if_false, Option.some.injEq] at h
          subst h
          simp [pipeline, ends_bind, hlocal, hlegged, hanswer]

/-! ## The attempt -/

theorem unclaim_idle (s : AttemptState π) : cand.key ∉ (s.unclaim cand).entryInFlight := by
  simp [AttemptState.unclaim]

theorem unclaim_unclaimed (s : AttemptState π) :
    (s.unclaim cand).entryInFlightUnderlyings cand.underlying ≠ some cand.key := by
  by_cases h : s.entryInFlightUnderlyings cand.underlying = some cand.key
  · simp [AttemptState.unclaim, h]
  · simp [AttemptState.unclaim, h]

theorem unclaim_owned {cand : BoxCandidate} : FillOwned cand (s.unclaim cand) ↔ FillOwned cand s :=
  ⟨fun h => ⟨h.owned, h.released⟩, fun h => ⟨h.owned, h.released⟩⟩

theorem mem_reserved_of_reserve {book reserved : PositionBook π} {key : String} (h : book.reserve key = some reserved) :
    key ∈ reserved.reserved := by
  unfold PositionBook.reserve at h
  split at h
  · cases h
  · cases h
    exact Finset.mem_insert_self ..

/-- **A confirmed fill is kept** exactly when the start is recorded and then every call returns. -/
theorem fill_kept_iff (deps : BoxScannerDeps) (now : Number) (cand : BoxCandidate) (detection : BoxEvaluation)
    (s : AttemptState π) (hs : s.Fresh cand) :
    FillKept cand (ends (attemptEntry deps now cand detection) s).2 ↔ KeepsFill deps now cand detection s.positions := by
  -- what stops the attempt before the fill leaves nothing to keep
  cases hreserve : s.positions.reserve cand.key with
  | none =>
    have hend : (ends (attemptEntry deps now cand detection) s).2 = s := by simp [attemptEntry, ends_bind, hreserve]
    have hfill : NoFill s := by
      intro legged
      simp [hs.acts]
    rw [hend]
    constructor
    · exact fun _ reserved hreserved => by simp [hreserve] at hreserved
    · exact fun _ => ⟨hfill.owned, hs.idle, hs.unclaimed⟩
  | some reserved =>
    let t : AttemptState π := ({ s with positions := reserved } : AttemptState π).claim cand
    have htacts : t.acts = [] := hs.acts
    have hkey : cand.key ∈ t.positions.reserved := mem_reserved_of_reserve hreserve
    cases hbegin : deps.begin (attemptId cand detection) with
    | error e =>
      have hend : (ends (attemptEntry deps now cand detection) s).2 = t := by
        simp [attemptEntry, ends_bind, hreserve, hbegin, t]
      rw [hend]
      constructor
      · exact fun h => absurd (Finset.mem_insert_self ..) h.idle
      · exact fun h => by cases hbegin.symm.trans (h reserved hreserve).1
    | ok _ =>
      have hend : (ends (attemptEntry deps now cand detection) s).2 =
          (ends (recovering (pipeline deps now cand detection) (handleFault deps cand detection))
            (t.enter .preDecision)).2.unclaim cand := by
        simp [attemptEntry, ends_bind, hreserve, hbegin, t]
      have hkept : FillKept cand (ends (attemptEntry deps now cand detection) s).2 ↔
          FillOwned cand (ends (recovering (pipeline deps now cand detection) (handleFault deps cand detection))
            (t.enter .preDecision)).2 := by
        rw [hend]
        exact ⟨fun h => unclaim_owned.mp h.fill,
          fun h => ⟨unclaim_owned.mpr h, unclaim_idle cand _, unclaim_unclaimed cand _⟩⟩
      rw [hkept]
      cases hfill : confirmedFill deps detection with
      | none =>
        have hkeeps : NoFill (ends (recovering (pipeline deps now cand detection) (handleFault deps cand detection))
            (t.enter .preDecision)).2 :=
          keeps_recovering (pipeline_noFill hfill now cand) (handle_noFill deps cand detection) _ fun legged => by
            simp [AttemptState.enter, htacts]
        constructor
        · intro _ reserved' _
          exact ⟨hbegin, by simp [hfill]⟩
        · exact fun _ => hkeeps.owned
      | some fill =>
        rw [ends_recovering, pipeline_filled hfill, ← ends_recovering,
          settle_owned deps now cand detection fill (s := (t.enter .preDecision).enter .execution) htacts hkey]
        constructor
        · rintro ⟨id, hopens, hstands⟩ reserved' hreserved
          rw [hreserve, Option.mem_some_iff] at hreserved
          subst hreserved
          refine ⟨hbegin, fun fill' hfill' => ?_⟩
          rw [hfill, Option.mem_some_iff] at hfill'
          subst hfill'
          exact ⟨id, hopens.1, hopens.2, hstands⟩
        · intro h
          obtain ⟨id, hid, hretains, hstands⟩ := (h reserved hreserve).2 fill hfill
          exact ⟨id, ⟨hid, hretains⟩, hstands⟩

/-! ## A fill handed back -/

def paperCandidate : BoxCandidate where
  key := "NIFTY|2026-08-27|24000|24100|LONG_BOX"
  underlying := "NIFTY"
  lotSize := .fin 75
  legs role := ⟨.fin 1, role.label, "NFO"⟩
  legLotSize _ := .fin 75

def paperEvaluation : BoxEvaluation where
  candidate := paperCandidate
  «at» := .fin 0
  legs := boxLegRoles.map fun role => ⟨role, entrySideFor role .longBox, .fin 1, role.label, some (.fin 100)⟩
  grossEdge := none

def paperLegging : PaperLeggingExecutionRecord where
  tradeId := none
  filledLegCount := .fin 4
  fillsByRole _ := some (.fin 75)
  legs := boxLegRoles.map fun role =>
    ⟨role, entrySideFor role .longBox, .fin 1, role.label, .fin 75, some (.fin 100), none⟩
  emergencyUnwind := false
  abortAfterFill := false
  outcomeClass := none
  residualExposure := []

def paperDeps (chargeRoundTrip : Except Thrown Unit) (id : Option String) : BoxScannerDeps where
  executionMode := .paperLegging
  prefilterGrossThreshold _ := .fin 0
  rejectionCooled _ _ := true
  chargeTotals _ := .ok ()
  chargeRoundTrip _ := chargeRoundTrip
  simulateLeggingEntry := .ok (.filled paperEvaluation paperLegging)
  simulateEntry := .ok (.refused "" "")
  invariantViolation _ := .ok ()
  openPaperTrade _ := .ok id
  onEvent _ _ _ := .ok ()
  metrics := none
  faults := none
  activeBroker := none
  reachedBroker := none
  onExecutionAttempt := some fun _ => .ok ()
  onEntryRejected := none

def idleScanner : AttemptState Unit := ⟨⟨[], fun _ => none, ∅⟩, ∅, fun _ => none, .reservation, []⟩

theorem idleScanner_fresh : idleScanner.Fresh paperCandidate := ⟨rfl, by simp [idleScanner], by simp [idleScanner]⟩

/-- The store refuses the position, and the fill is retained. -/
theorem fill_kept_retained : FillKept paperCandidate
    (ends (attemptEntry (paperDeps (.ok ()) none) (.fin 0) paperCandidate paperEvaluation) idleScanner).2 := by
  refine (fill_kept_iff _ _ _ _ _ idleScanner_fresh).mpr fun reserved _ => ⟨rfl, fun fill hfill => ?_⟩
  have hfill : fill = ⟨paperEvaluation, some paperLegging⟩ := (Option.mem_some_iff.mp hfill).symm
  subst hfill
  refine ⟨none, rfl, fun _ => ⟨rfl, fun record hrecord => ⟨fun _ => .ok (), rfl, rfl, .inr ?_⟩, rfl⟩,
    fun error herror => by cases herror⟩
  intro hnone
  cases hnone

/-- The contract note throws after the fill, and the pair is released. -/
theorem confirmed_fill_released : idleScanner.Fresh paperCandidate ∧ ¬ FillKept paperCandidate
    (ends (attemptEntry (paperDeps (.error ⟨"Error", "rate card missing"⟩) none) (.fin 0) paperCandidate paperEvaluation)
      idleScanner).2 := by
  have hacts : (ends (attemptEntry (paperDeps (.error ⟨"Error", "rate card missing"⟩) none) (.fin 0) paperCandidate
      paperEvaluation) idleScanner).2.acts = [.filled true, .released paperCandidate.key] := rfl
  refine ⟨idleScanner_fresh, fun h => ?_⟩
  exact h.fill.released paperCandidate.key true (by simp [hacts]) (by simp [hacts])

end BoxEngine
