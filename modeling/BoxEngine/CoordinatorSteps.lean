import BoxEngine.CoordinatorCalls

/-!
# What a step of an entry can do

A claimed entry waits, asks for the underlying, starts, gives everything back, or throws out of an await that nothing
guards. The proofs read the coordinator's steps through these cases alone.
-/

namespace BoxEngine

namespace Coordination

def EntryStage.claimed : EntryStage → Bool
  | .consuming | .holding _ | .acquiring _ | .fallingBack .. | .waiting _ | .retrying _ | .verifying _ => true
  | _ => false

def EntryStage.guarded : EntryStage → Bool
  | .fallingBack .. | .waiting _ | .retrying _ | .verifying _ => false
  | _ => true

def EntryStage.running : EntryStage → Bool
  | .acquiring _ | .fallingBack .. | .waiting _ | .retrying _ | .verifying _ | .executing => true
  | _ => false

namespace ExecutionCoordinator

variable (cfg : CoordinatorConfig) (s : ExecutionCoordinator) (call : EntryCall)

def pipelineAcquiring : Acquiring :=
  ⟨⟨.underlying, s.seq + 1⟩, s.positionClaimKey cfg call.candidate.underlying, .pipeline call.id, s.context,
    cfg.toUpperCase (Js.trim call.candidate.underlying)⟩

/-- What an await can lead to before the execution is started. -/
inductive ClaimedOutcome (answer : Answer) : ExecutionCoordinator × Progress → Prop
  | waits (n : ℕ) (stage : EntryStage) (hstage : stage.claimed = true) (hruns : stage.running = true)
      (hheld : call.stage.running = true ∨ cfg.oneActiveBoxPerUnderlying = false) :
      ClaimedOutcome answer ({ s with waiting := n }, .goesOn stage)
  | asks (hstage : call.stage = .consuming) (hone : cfg.oneActiveBoxPerUnderlying = true)
      (hfree : s.positionClaim? (s.positionClaimKey cfg call.candidate.underlying) = none) :
      ClaimedOutcome answer ({ s with seq := s.seq + 1 }, .goesOn (.holding (s.pipelineAcquiring cfg call)))
  | takes (acquiring : Acquiring) (lease : Lease) (revalidated : Except String Unit) (now : ℚ)
      (hstage : call.stage = .holding acquiring) (hanswer : answer = .acquire (.acquired lease) revalidated) :
      ClaimedOutcome answer
        ((s.underlyingAcquired acquiring (.acquire (.acquired lease) revalidated)).1, .goesOn (.acquiring now))
  | refuses (n : ℕ) (refusal : Refusal) :
      ClaimedOutcome answer ({ s with waiting := n }.abandonAndReleaseHold cfg call.id, .refused refusal)
  | throws : ClaimedOutcome answer (s.abandonAndReleaseHold cfg call.id, .threw)
  | givesBack (n : ℕ) (refusal : Refusal) :
      ClaimedOutcome answer (({ s with waiting := n }.abandonAndReleaseHold cfg call.id).releaseLease call.id,
        .goesOn (.releasing refusal))
  | starts (n : ℕ) (lease : Lease) (hheld : call.stage.running = true) :
      ClaimedOutcome answer ({ s with waiting := n }.grant call.id call.candidate.legKeys lease, .goesOn .executing)
  | leaks (n : ℕ) (hstage : call.stage.guarded = false) (hanswer : answer = .rejected) :
      ClaimedOutcome answer ({ s with waiting := n }, .threw)

variable {cfg s call}

namespace ClaimedOutcome

variable {answer : Answer}

theorem refuses_here (refusal : Refusal) : ClaimedOutcome cfg s call answer (s.refuse cfg call refusal) :=
  .refuses s.waiting refusal

theorem takeHold (hstage : call.stage = .consuming) (now : ℚ) :
    ClaimedOutcome cfg s call answer (s.takeHold cfg call now) := by
  unfold ExecutionCoordinator.takeHold
  split
  · rename_i hone
    cases hclaim : s.positionClaim? (s.positionClaimKey cfg call.candidate.underlying) with
    | some claim => simpa [holdUnderlying, hone, hclaim] using refuses_here _
    | none => simpa [holdUnderlying, hone, hclaim, pipelineAcquiring] using asks hstage hone hclaim
  · rename_i hone
    exact .waits s.waiting _ rfl rfl (.inr (by simpa using hone))

/-! ### From a pipeline that has its hold -/

section

variable (hheld : call.stage.running = true)
include hheld

variable (n : ℕ) (result : AcquireResult)

theorem confirmBeforeSubmit (lease : Lease) (waited : Bool) :
    ClaimedOutcome cfg s call answer ({ s with waiting := n }.confirmBeforeSubmit cfg call lease waited) := by
  unfold ExecutionCoordinator.confirmBeforeSubmit
  split
  · exact givesBack n _
  · split
    · exact starts n lease hheld
    · exact waits n _ rfl rfl (.inl hheld)

theorem handleUnavailable (tier detail : String) (waitStarted : ℚ) (waited : Bool) :
    ClaimedOutcome cfg s call answer
      ({ s with waiting := n }.handleUnavailable cfg call tier detail waitStarted waited) := by
  unfold ExecutionCoordinator.handleUnavailable
  split
  · exact refuses n _
  · split
    · exact refuses n _
    · exact waits n _ rfl rfl (.inl hheld)

theorem afterWait (revalidated : Except String Unit) (waitStarted now : ℚ) :
    ClaimedOutcome cfg s call answer
      ({ s with waiting := n }.afterWait cfg call result revalidated waitStarted now) := by
  unfold ExecutionCoordinator.afterWait
  split
  · exact confirmBeforeSubmit hheld n _ _
  · exact givesBack n _
  · exact refuses n _

theorem waitForKeys (waitStarted now : ℚ) :
    ClaimedOutcome cfg s call answer ({ s with waiting := n }.waitForKeys cfg call waitStarted now) := by
  unfold ExecutionCoordinator.waitForKeys
  split
  · exact waits n _ rfl rfl (.inl hheld)
  · exact afterWait hheld (n - 1) _ _ _ _

theorem afterAcquire (waitStarted now : ℚ) (localTier : Bool) :
    ClaimedOutcome cfg s call answer (s.afterAcquire cfg call result waitStarted now localTier) := by
  unfold ExecutionCoordinator.afterAcquire
  split
  · exact confirmBeforeSubmit hheld s.waiting _ _
  · exact waitForKeys hheld (s.waiting + 1) _ _
  · split
    · exact refuses_here _
    · exact handleUnavailable hheld s.waiting _ _ _ _

theorem afterRetry (revalidated : Except String Unit) (waitStarted now : ℚ) :
    ClaimedOutcome cfg s call answer (s.afterRetry cfg call result revalidated waitStarted now) := by
  unfold ExecutionCoordinator.afterRetry
  split
  · exact afterWait hheld (s.waiting - 1) _ _ _ _
  · exact waitForKeys hheld s.waiting _ _
  · exact handleUnavailable hheld (s.waiting - 1) _ _ _ _

theorem afterVerify (lease : Lease) (verdict : OwnershipVerdict) :
    ClaimedOutcome cfg s call answer (s.afterVerify cfg call lease verdict) := by
  unfold ExecutionCoordinator.afterVerify
  split
  · exact starts s.waiting lease hheld
  all_goals exact givesBack s.waiting _

end

end ClaimedOutcome

theorem advance_claimed (h : call.stage.claimed = true) (answer : Answer) (now : ℚ) :
    ClaimedOutcome cfg s call answer (s.advance cfg call answer now) ∨
      s.advance cfg call answer now = (s, .goesOn call.stage) := by
  unfold advance
  split
  · rename_i hstage
    exact .inl (.takeHold hstage now)
  · exact .inl (.refuses_here _)
  · exact .inl .throws
  · rename_i acquiring lease revalidated hstage
    exact .inl (.takes acquiring lease revalidated now hstage rfl)
  · exact .inl (.refuses_here _)
  · exact .inl (.refuses_here _)
  · rename_i hstage
    exact .inl (.afterAcquire (by rw [hstage]; rfl) _ _ _ _)
  · exact .inl .throws
  · rename_i hstage
    exact .inl (.afterAcquire (by rw [hstage]; rfl) _ _ _ _)
  · rename_i hstage
    exact .inl (.afterWait (by rw [hstage]; rfl) s.waiting _ _ _ _)
  · rename_i hstage
    exact .inl (.leaks s.waiting (by rw [hstage]; rfl) rfl)
  · rename_i hstage
    exact .inl (.waits s.waiting _ rfl rfl (.inl (by rw [hstage]; rfl)))
  · rename_i hstage
    exact .inl (.leaks _ (by rw [hstage]; rfl) rfl)
  · rename_i hstage
    exact .inl (.afterRetry (by rw [hstage]; rfl) _ _ _ _)
  · rename_i hstage
    exact .inl (.leaks _ (by rw [hstage]; rfl) rfl)
  · rename_i hstage
    exact .inl (.afterVerify (by rw [hstage]; rfl) _ _)
  · rename_i hstage
    exact .inl (.leaks s.waiting (by rw [hstage]; rfl) rfl)
  iterate 10
    · rename_i hstage
      rw [hstage] at h
      cases h
  · exact .inr rfl

variable (cfg s) in
theorem advance_releasing {refusal : Refusal} (h : call.stage = .releasing refusal) (answer : Answer) (now : ℚ) :
    (s.advance cfg call answer now).1 = s ∧ ((s.advance cfg call answer now).2 = .refused refusal ∨
      (s.advance cfg call answer now).2 = .threw ∨ (s.advance cfg call answer now).2 = .goesOn call.stage) := by
  unfold advance
  rw [h]
  cases answer
  case released => exact ⟨rfl, .inl rfl⟩
  case rejected => exact ⟨rfl, .inr (.inl rfl)⟩
  all_goals exact ⟨rfl, .inr (.inr rfl)⟩

variable (cfg s call) in
def tradeAcquiring (tradeId : String) : Acquiring :=
  ⟨⟨.underlying, s.seq + 1⟩, s.positionClaimKey cfg call.candidate.underlying, .dependant (.trade tradeId), s.context,
    cfg.toUpperCase (Js.trim call.candidate.underlying)⟩

variable (cfg s call) in
/-- What an await can lead to once the execution runs. -/
inductive StartedOutcome (answer : Answer) : ExecutionCoordinator × Progress → Prop
  | settles (result : ExecutionResult) (now : ℚ) (hstage : call.stage = .executing) (hanswer : answer = .executed result)
      (hkeeps : cfg.oneActiveBoxPerUnderlying = false ∨
        promoted call result = none ∧ certainty call result = .uncertain) :
      StartedOutcome answer (s.settleEntry call (certainty call result) now)
  | drops (result : ExecutionResult) (now : ℚ) (hstage : call.stage = .executing) (hanswer : answer = .executed result)
      (hnone : promoted call result = none) (hclean : certainty call result = .clean) :
      StartedOutcome answer (s.dropPipeline cfg call .clean now)
  | promotes (result : ExecutionResult) (tradeId : String) (claim : PositionUnderlyingClaim) (now : ℚ)
      (hstage : call.stage = .executing) (hanswer : answer = .executed result)
      (htrade : promoted call result = some tradeId)
      (hclaim : s.positionClaim? (s.positionClaimKey cfg call.candidate.underlying) = some claim) :
      StartedOutcome answer ((s.addHolder (s.positionClaimKey cfg call.candidate.underlying)
        (.dependant (.trade tradeId))).dropPipeline cfg call (certainty call result) now)
  | asks (result : ExecutionResult) (tradeId : String) (hstage : call.stage = .executing)
      (hanswer : answer = .executed result) (htrade : promoted call result = some tradeId)
      (hfree : s.positionClaim? (s.positionClaimKey cfg call.candidate.underlying) = none) :
      StartedOutcome answer
        ({ s with seq := s.seq + 1 }, .goesOn (.promoting (s.tradeAcquiring cfg call tradeId) (certainty call result)))
  | takes (acquiring : Acquiring) (outcome : Certainty) (now : ℚ) (hstage : call.stage = .promoting acquiring outcome) :
      StartedOutcome answer ((s.underlyingAcquired acquiring answer).1.dropPipeline cfg call outcome now)
  | dropped (owner : MintedId) (outcome : Certainty) (now : ℚ) (hstage : call.stage = .dropping owner outcome) :
      StartedOutcome answer ({ s with drops := s.drops.filter fun drop => drop ≠ owner }.settleEntry call outcome now)
  | dropThrows (owner : MintedId) (outcome : Certainty) (now : ℚ) (hstage : call.stage = .dropping owner outcome) :
      StartedOutcome answer ({ s with drops := s.drops.filter fun drop => drop ≠ owner }.throwEntry call now)
  | throws (now : ℚ) (hstage : call.stage = .executing ∧ answer = .rejected ∨ call.stage = .settling) :
      StartedOutcome answer (s.throwEntry call now)
  | returns (hstage : call.stage = .settling) : StartedOutcome answer (s, .returned)

theorem StartedOutcome.settleUnderlyingHold {result : ExecutionResult} (hstage : call.stage = .executing) (now : ℚ) :
    StartedOutcome cfg s call (.executed result) (s.settleUnderlyingHold cfg call result now) := by
  unfold ExecutionCoordinator.settleUnderlyingHold
  by_cases hone : cfg.oneActiveBoxPerUnderlying = true
  · rw [if_neg (by simp [hone])]
    cases htrade : promoted call result with
    | some tradeId =>
      dsimp only
      cases hclaim : s.positionClaim? (s.positionClaimKey cfg call.candidate.underlying) with
      | some claim => exact .promotes result tradeId claim now hstage rfl htrade hclaim
      | none => simpa [holdUnderlying, hone, hclaim, tradeAcquiring] using asks result tradeId hstage rfl htrade hclaim
    | none =>
      dsimp only
      split
      · rename_i hunc
        exact .settles result now hstage rfl (.inr ⟨htrade, hunc⟩)
      · rename_i hunc
        cases hcert : certainty call result with
        | uncertain => exact absurd hcert hunc
        | clean => exact .drops result now hstage rfl htrade hcert
  · rw [Bool.not_eq_true] at hone
    rw [if_pos (by simp [hone])]
    exact .settles result now hstage rfl (.inl hone)

theorem advance_started (h : call.stage.started = true) (answer : Answer) (now : ℚ) :
    StartedOutcome cfg s call answer (s.advance cfg call answer now) ∨
      s.advance cfg call answer now = (s, .goesOn call.stage) := by
  unfold advance
  split
  iterate 19
    · rename_i hstage
      rw [hstage] at h
      cases h
  · rename_i hstage
    exact .inl (.settleUnderlyingHold hstage now)
  · rename_i hstage
    exact .inl (.throws now (.inl ⟨hstage, rfl⟩))
  · rename_i hstage
    exact .inl (.takes _ _ now hstage)
  · rename_i hstage
    exact .inl (.takes _ _ now hstage)
  · rename_i hstage
    exact .inl (.dropped _ _ now hstage)
  · rename_i hstage
    exact .inl (.dropThrows _ _ now hstage)
  · rename_i hstage
    exact .inl (.returns hstage)
  · rename_i hstage
    exact .inl (.throws now (.inr hstage))
  · exact .inr rfl

end ExecutionCoordinator

end Coordination

end BoxEngine
