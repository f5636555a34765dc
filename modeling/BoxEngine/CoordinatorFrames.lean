import BoxEngine.CoordinatorSteps

/-!
# What an operation of the coordinator leaves alone

The books, the claims on underlyings, and the desk with the calls under way: each operation changes few of them.
-/

namespace BoxEngine

namespace Coordination

/-- What admission reads: the executions in `active` and the opportunities mapped to them. -/
structure Books where
  active : List ActiveExecution
  activeOpportunities : List (String × MintedId)

/-- The counter of ids, the context and the calls under way. -/
structure Desk where
  seq : ℕ
  context : Context
  entries : List EntryCall
  exits : List ExitCall
  acquirings : List Acquiring
  unstarted : List MintedId

namespace ExecutionCoordinator

def books (s : ExecutionCoordinator) : Books := ⟨s.active, s.activeOpportunities⟩

def desk (s : ExecutionCoordinator) : Desk := ⟨s.seq, s.context, s.entries, s.exits, s.acquirings, s.unstarted⟩

variable (cfg : CoordinatorConfig) (s : ExecutionCoordinator)

/-! ## The books -/

/-- The opportunities that are left when the execution's own entry goes. -/
def remaining (id : MintedId) : List (String × MintedId) :=
  s.activeOpportunities.filter fun entry =>
    ¬ ((s.execution? id).bind ActiveExecution.opportunityId = some entry.1 ∧ entry.2 = id)

variable (call : EntryCall) (id : MintedId) (tick : RenewTick) (exec : Option ActiveExecution) (outcome : Certainty)
  (progress : Progress) (why : String) (now : ℚ)

/-- Abandoning takes the execution and its opportunity and nothing else. -/
theorem books_abandon : (s.abandon id).books = ⟨s.active.filter fun exec => exec.id ≠ id, s.remaining id⟩ := by
  unfold abandon
  cases hexec : s.execution? id with
  | none =>
    have hother : ∀ exec ∈ s.active, exec.id ≠ id := by
      intro exec hexec' hid
      exact absurd hid (by simpa using List.find?_eq_none.mp hexec exec hexec')
    simp only [books, remaining, hexec]
    congr 1
    · rw [List.filter_eq_self.mpr fun exec hexec' => by simpa using hother exec hexec']
    · simp
  | some exec => simp [books, remaining, hexec]

@[simp] theorem books_retain : (s.retain id exec why now).books = s.books := by
  unfold retain
  split <;> rfl

@[simp] theorem books_holdOnUncertainty :
    (s.holdOnUncertainty id why now).books = (s.abandon id).books := books_retain _ _ _ _ _

@[simp] theorem books_settle : (s.settle id outcome now).books = (s.abandon id).books := by
  cases outcome with
  | clean => rfl
  | uncertain => exact books_holdOnUncertainty _ _ _ _

@[simp] theorem books_addHolder (key : String) (holder : Holder) : (s.addHolder key holder).books = s.books := rfl

@[simp] theorem books_underlyingAcquired (acquiring : Acquiring) (answer : Answer) :
    (s.underlyingAcquired acquiring answer).1.books = s.books := by
  unfold underlyingAcquired
  split <;> rfl

@[simp] theorem books_dropUnderlyingHolder (underlying : String) (holder : Holder) :
    (s.dropUnderlyingHolder cfg underlying holder).1.books = s.books := by
  unfold dropUnderlyingHolder
  dsimp only
  split
  · rfl
  · split <;> rfl

@[simp] theorem books_releasePipelineHold (underlying : Option String) :
    (s.releasePipelineHold cfg id underlying).books = s.books := by
  unfold releasePipelineHold
  split
  · exact books_dropUnderlyingHolder _ _ _ _
  · rfl

theorem execution?_congr {s s' : ExecutionCoordinator} (h : s'.books = s.books) (id : MintedId) :
    s'.execution? id = s.execution? id := by
  have hactive : s'.active = s.active := congrArg Books.active h
  unfold execution?
  rw [hactive]

theorem abandon_congr {s s' : ExecutionCoordinator} (h : s'.books = s.books) (id : MintedId) :
    (s'.abandon id).books = (s.abandon id).books := by
  have hactive : s'.active = s.active := congrArg Books.active h
  have hopps : s'.activeOpportunities = s.activeOpportunities := congrArg Books.activeOpportunities h
  rw [books_abandon, books_abandon]
  unfold remaining
  rw [execution?_congr h, hactive, hopps]

@[simp] theorem books_abandonAndReleaseHold : (s.abandonAndReleaseHold cfg id).books = (s.abandon id).books :=
  abandon_congr (books_releasePipelineHold _ _ _ _) id

theorem books_settleEntry : (s.settleEntry call outcome now).1.books = (s.abandon call.id).books := books_settle _ _ _ _

theorem books_throwEntry :
    (s.throwEntry call now).1.books = (s.abandon call.id).books := books_holdOnUncertainty _ _ _ _

/-- A drop either waits for the store or settles the execution at once. -/
theorem dropPipeline_cases :
    (∃ owner, (s.dropUnderlyingHolder cfg call.candidate.underlying (.pipeline call.id)).2 = some owner ∧
      s.dropPipeline cfg call outcome now =
        ((s.dropUnderlyingHolder cfg call.candidate.underlying (.pipeline call.id)).1,
          .goesOn (.dropping owner outcome))) ∨
    ((s.dropUnderlyingHolder cfg call.candidate.underlying (.pipeline call.id)).2 = none ∧
      s.dropPipeline cfg call outcome now =
        (s.dropUnderlyingHolder cfg call.candidate.underlying (.pipeline call.id)).1.settleEntry call outcome now) := by
  unfold dropPipeline
  rcases hdrop : s.dropUnderlyingHolder cfg call.candidate.underlying (.pipeline call.id) with ⟨s', _ | owner⟩
  · exact .inr ⟨rfl, rfl⟩
  · exact .inl ⟨owner, rfl, rfl⟩

theorem books_dropPipeline :
    (s.dropPipeline cfg call outcome now).1.books = s.books ∨
      (s.dropPipeline cfg call outcome now).1.books = (s.abandon call.id).books := by
  rcases s.dropPipeline_cases cfg call outcome now with ⟨owner, _, heq⟩ | ⟨_, heq⟩
  · rw [heq]
    exact .inl (books_dropUnderlyingHolder _ _ _ _)
  · rw [heq, books_settleEntry]
    exact .inr (abandon_congr (books_dropUnderlyingHolder _ _ _ _) _)

@[simp] theorem books_conclude : (s.conclude call progress).books = s.books := by
  unfold conclude
  split <;> rfl

/-! ## The desk and the claims -/

@[simp] theorem desk_abandon : (s.abandon id).desk = s.desk := by
  unfold abandon
  split <;> rfl

@[simp] theorem desk_retain : (s.retain id exec why now).desk = s.desk := by
  unfold retain
  split <;> rfl

@[simp] theorem desk_holdOnUncertainty :
    (s.holdOnUncertainty id why now).desk = s.desk := (desk_retain _ _ _ _ _).trans (desk_abandon _ _)

@[simp] theorem desk_settle : (s.settle id outcome now).desk = s.desk := by
  cases outcome with
  | clean => exact desk_abandon _ _
  | uncertain => exact desk_holdOnUncertainty _ _ _ _

@[simp] theorem desk_underlyingAcquired (acquiring : Acquiring) (answer : Answer) :
    (s.underlyingAcquired acquiring answer).1.desk = s.desk := by
  unfold underlyingAcquired
  split <;> rfl

@[simp] theorem desk_dropUnderlyingHolder (underlying : String) (holder : Holder) :
    (s.dropUnderlyingHolder cfg underlying holder).1.desk = s.desk := by
  unfold dropUnderlyingHolder
  dsimp only
  split
  · rfl
  · split <;> rfl

@[simp] theorem desk_abandonAndReleaseHold : (s.abandonAndReleaseHold cfg id).desk = s.desk := by
  unfold abandonAndReleaseHold releasePipelineHold
  rw [desk_abandon]
  split
  · exact desk_dropUnderlyingHolder _ _ _ _
  · rfl

@[simp] theorem desk_settleEntry : (s.settleEntry call outcome now).1.desk = s.desk := desk_settle _ _ _ _

@[simp] theorem desk_dropPipeline : (s.dropPipeline cfg call outcome now).1.desk = s.desk := by
  rcases s.dropPipeline_cases cfg call outcome now with ⟨owner, _, heq⟩ | ⟨_, heq⟩
  · rw [heq]
    exact desk_dropUnderlyingHolder _ _ _ _
  · rw [heq]
    exact (desk_settleEntry _ _ _ _).trans (desk_dropUnderlyingHolder _ _ _ _)

@[simp] theorem positionClaims_abandon : (s.abandon id).positionClaims = s.positionClaims := by
  unfold abandon
  split <;> rfl

@[simp] theorem positionClaims_retain : (s.retain id exec why now).positionClaims = s.positionClaims := by
  unfold retain
  split <;> rfl

@[simp] theorem positionClaims_holdOnUncertainty : (s.holdOnUncertainty id why now).positionClaims = s.positionClaims :=
  (positionClaims_retain _ _ _ _ _).trans (positionClaims_abandon _ _)

@[simp] theorem positionClaims_settle : (s.settle id outcome now).positionClaims = s.positionClaims := by
  cases outcome with
  | clean => exact positionClaims_abandon _ _
  | uncertain => exact positionClaims_holdOnUncertainty _ _ _ _

@[simp] theorem positionClaims_settleEntry :
    (s.settleEntry call outcome now).1.positionClaims = s.positionClaims := positionClaims_settle _ _ _ _

@[simp] theorem positionClaims_conclude : (s.conclude call progress).positionClaims = s.positionClaims := by
  unfold conclude
  split <;> rfl

theorem positionClaims_dropPipeline :
    (s.dropPipeline cfg call outcome now).1.positionClaims =
      (s.dropUnderlyingHolder cfg call.candidate.underlying (.pipeline call.id)).1.positionClaims := by
  rcases s.dropPipeline_cases cfg call outcome now with ⟨owner, _, heq⟩ | ⟨_, heq⟩
  · rw [heq]
  · rw [heq, positionClaims_settleEntry]

@[simp] theorem drops_abandon : (s.abandon id).drops = s.drops := by
  unfold abandon
  split <;> rfl

@[simp] theorem drops_retain : (s.retain id exec why now).drops = s.drops := by
  unfold retain
  split <;> rfl

@[simp] theorem drops_holdOnUncertainty :
    (s.holdOnUncertainty id why now).drops = s.drops := (drops_retain _ _ _ _ _).trans (drops_abandon _ _)

@[simp] theorem drops_settle : (s.settle id outcome now).drops = s.drops := by
  cases outcome with
  | clean => exact drops_abandon _ _
  | uncertain => exact drops_holdOnUncertainty _ _ _ _

@[simp] theorem drops_settleEntry : (s.settleEntry call outcome now).1.drops = s.drops := drops_settle _ _ _ _

@[simp] theorem drops_conclude : (s.conclude call progress).drops = s.drops := by
  unfold conclude
  split <;> rfl

theorem drops_dropPipeline :
    (s.dropPipeline cfg call outcome now).1.drops =
      (s.dropUnderlyingHolder cfg call.candidate.underlying (.pipeline call.id)).1.drops := by
  rcases s.dropPipeline_cases cfg call outcome now with ⟨owner, _, heq⟩ | ⟨_, heq⟩
  · rw [heq]
  · rw [heq, drops_settleEntry]

/-! ## The heartbeat -/

theorem tickClaims_frame (rest : List MintedId) : ∃ renewTick, s.tickClaims tick rest = { s with renewTick } := by
  cases rest with
  | nil => exact ⟨_, rfl⟩
  | cons owner rest => exact ⟨_, rfl⟩

theorem tickHolds_frame (s : ExecutionCoordinator) (ids : List MintedId) :
    ∃ holds renewTick, tickHolds cfg tick s ids = { s with holds, renewTick } := by
  induction ids generalizing s with
  | nil =>
    obtain ⟨renewTick, heq⟩ := s.tickClaims_frame tick (s.positionClaims.map PositionUnderlyingClaim.owner)
    exact ⟨s.holds, renewTick, heq⟩
  | cons id rest ih =>
    rw [tickHolds]
    split
    · exact ih s
    · split
      · obtain ⟨holds, renewTick, heq⟩ := ih { s with holds := s.holds.filter fun other => other.id ≠ id }
        exact ⟨holds, renewTick, heq⟩
      · exact ⟨s.holds, _, rfl⟩

theorem tickExecutions_frame (pending : List MintedId) :
    ∃ holds renewTick, s.tickExecutions cfg tick pending = { s with holds, renewTick } := by
  cases pending with
  | nil => exact tickHolds_frame cfg tick s _
  | cons id pending => exact ⟨s.holds, _, rfl⟩

theorem beginTick_frame : ∃ holds renewTick, s.beginTick cfg now = { s with holds, renewTick } := by
  unfold beginTick
  split
  · exact ⟨s.holds, s.renewTick, rfl⟩
  · exact s.tickExecutions_frame cfg _ _

theorem renewed_frame (outcome : Option RenewOutcome) :
    ∃ active positionClaims holds renewTick,
      (s.renewed cfg id outcome).1 = { s with active, positionClaims, holds, renewTick } ∧
      (active = s.active ∨ active = (s.renewExecution id outcome).1.active) ∧
      (positionClaims = s.positionClaims ∨ ∃ outcome', positionClaims = (s.renewClaim id outcome').positionClaims) := by
  have hsame : ∃ active positionClaims holds renewTick, s = { s with active, positionClaims, holds, renewTick } ∧
      (active = s.active ∨ active = (s.renewExecution id outcome).1.active) ∧
      (positionClaims = s.positionClaims ∨ ∃ outcome', positionClaims = (s.renewClaim id outcome').positionClaims) :=
    ⟨s.active, s.positionClaims, s.holds, s.renewTick, rfl, .inl rfl, .inl rfl⟩
  unfold renewed
  split
  · exact hsame
  rename_i tick _
  split
  · rename_i outcome _ _ pending _
    split
    · obtain ⟨holds, renewTick, heq⟩ := (s.renewExecution id outcome).1.tickExecutions_frame cfg tick _
      refine ⟨(s.renewExecution id outcome).1.active, s.positionClaims, holds, renewTick, ?_, .inr rfl, .inl rfl⟩
      rw [heq]
      cases outcome with
      | none => rfl
      | some outcome => cases outcome <;> rfl
    · exact hsame
  · rename_i outcome' _
    split
    · obtain ⟨holds, renewTick, heq⟩ := tickHolds_frame cfg tick (s.renewHold id outcome') _
      refine ⟨s.active, s.positionClaims, holds, renewTick, ?_, .inl rfl, .inl rfl⟩
      rw [heq]
      cases outcome' <;> rfl
    · exact hsame
  · rename_i outcome' _
    split
    · obtain ⟨renewTick, heq⟩ := (s.renewClaim id outcome').tickClaims_frame tick _
      refine ⟨s.active, (s.renewClaim id outcome').positionClaims, s.holds, renewTick, ?_, .inl rfl, .inr ⟨_, rfl⟩⟩
      rw [heq]
      cases outcome' <;> rfl
    · exact hsame
  · split
    · exact ⟨s.active, s.positionClaims, s.holds, none, rfl, .inl rfl, .inl rfl⟩
    · exact hsame
  · split
    · exact ⟨s.active, s.positionClaims, s.holds, none, rfl, .inl rfl, .inl rfl⟩
    · exact hsame
  · exact hsame

end ExecutionCoordinator

end Coordination

end BoxEngine
