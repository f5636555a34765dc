import BoxEngine.Lib.Number

/-!
# Evidence timing

A figure is stamped on both clocks, aged on the monotonic one with the lag of a cache added, and usable only within
its bound and for its own identity.
-/

namespace BoxEngine

open Js

structure EvidenceInstant where
  mono : Number
  wall : Number

structure EvidenceIdentity where
  broker : String
  accountRef : Option String
  sessionId : Option String

/-- Two texts differ only where both are known. -/
def knownDifference : Option String → Option String → Option (String × String)
  | some observed, some current => if observed = current then none else some (observed, current)
  | _, _ => none

/-- The first part of the identity in which the two are known to differ. -/
def identityMismatch : Option EvidenceIdentity → Option EvidenceIdentity → Option String
  | some observed, some current =>
    if observed.broker ≠ current.broker then
      some s!"broker changed {observed.broker} → {current.broker} during the evidence read"
    else
      match knownDifference observed.accountRef current.accountRef with
      | some (before, after) => some s!"account changed {before} → {after} during the evidence read"
      | none =>
        match knownDifference observed.sessionId current.sessionId with
        | some (before, after) => some s!"session changed {before} → {after} during the evidence read"
        | none => none
  | _, _ => none

inductive EvidenceFailure where
  | absent | timeout | threw | nullValue
  deriving DecidableEq

structure TimedObservation (α : Type) where
  value : Option α
  at_ : Option EvidenceInstant
  sourceObservedAtWall : Option Number
  failure : Option EvidenceFailure
  detail : Option String
  identity : Option EvidenceIdentity
  identityAtResolution : Option EvidenceIdentity
  elapsedMs : Option ℚ

/-- Time by the monotonic clock; a clock that ran backwards measures nothing. -/
def monoElapsed : Number → Number → Option ℚ
  | .fin start, .fin finish => if 0 ≤ finish - start then some (finish - start) else none
  | _, _ => none

inductive EvidenceStatus where
  | usable | stale | invalid | unavailable
  deriving DecidableEq

def EvidenceStatus.label : EvidenceStatus → String
  | .usable => "usable"
  | .stale => "stale"
  | .invalid => "invalid"
  | .unavailable => "unavailable"

structure AgedEvidence where
  status : EvidenceStatus
  ageMs : Option Number
  ageIsMonotonic : Bool
  note : String

def invalidEvidence (note : String) : AgedEvidence := ⟨.invalid, none, false, note⟩

/-- How old the source's own stamp made the evidence when it came in. -/
def sourceLag (received : EvidenceInstant) (sourceWall : Option Number) : Number :=
  match sourceWall with
  | some wall => (Number.fin 0).max (received.wall.sub wall)
  | none => .fin 0

def judgeAge (label : String) (maxAgeMs age : Number) (usedSourceLag : Bool) : AgedEvidence :=
  if maxAgeMs < age then
    ⟨.stale, some age, !usedSourceLag,
      s!"{label} figure is {age.toText}ms old, over the {maxAgeMs.toText}ms freshness bound; " ++
        "treated as STALE and not usable for admission" ++
        (if usedSourceLag then " (age includes the source's own cache lag)" else "")⟩
  else
    ⟨.usable, some age, !usedSourceLag,
      s!"observed {age.toText}ms ago, within the {maxAgeMs.toText}ms freshness bound"⟩

/-- Evidence is judged by its identity, then by its clocks, then by its age. -/
def ageEvidence {α : Type} (observation : TimedObservation α) (evaluatedAt : EvidenceInstant)
    (maxAgeMs futureSkewGraceMs : Number) (currentIdentity : Option EvidenceIdentity) (label : String) :
    AgedEvidence :=
  match observation.failure, observation.at_ with
  | none, some received =>
    match identityMismatch observation.identity currentIdentity with
    | some mismatch =>
      ⟨.invalid, (monoElapsed received.mono evaluatedAt.mono).map .fin, true,
        s!"{label} figure is not evidence about the account about to be traded: {mismatch}"⟩
    | none =>
      if received.mono.isFinite = false ∨ evaluatedAt.mono.isFinite = false then
        invalidEvidence s!"{label} figure carries a non-finite observation time; cannot be aged, so not usable"
      else if observation.sourceObservedAtWall.any fun wall => wall.isFinite = false then
        invalidEvidence s!"{label} figure carries a non-finite source timestamp; not usable"
      else if observation.sourceObservedAtWall.any fun wall => futureSkewGraceMs < wall.sub received.wall then
        let ahead := (observation.sourceObservedAtWall.getD .nan).sub received.wall
        invalidEvidence
          (s!"{label} figure is stamped {ahead.toText}ms in the FUTURE relative to this host " ++
            s!"(grace {futureSkewGraceMs.toText}ms); a clock this far out cannot be aged, so the figure is " ++
            "treated as INVALID rather than fresh")
      else
        let lag := sourceLag received observation.sourceObservedAtWall
        let usedSourceLag := decide (futureSkewGraceMs < lag)
        match monoElapsed received.mono evaluatedAt.mono with
        | none =>
          invalidEvidence
            (s!"{label} figure could not be aged (inverted monotonic readings — a clock fault); " ++
              "treated as INVALID rather than assumed fresh")
        | some monoAge =>
          judgeAge label maxAgeMs ((Number.fin monoAge).add (if usedSourceLag then lag else .fin 0)) usedSourceLag
  | _, _ =>
    ⟨.unavailable, none, false,
      observation.detail.getD s!"no {label} figure obtained; treated as UNKNOWN, never as ₹0"⟩

/-! ## What usable evidence is -/

structure NotKnownToDiffer (observed current : EvidenceIdentity) : Prop where
  broker : observed.broker = current.broker
  account : ∀ a b, observed.accountRef = some a → current.accountRef = some b → a = b
  session : ∀ a b, observed.sessionId = some a → current.sessionId = some b → a = b

/-- Received within its bound, under an identity not known to differ. -/
structure Fresh {α : Type} (observation : TimedObservation α) (evaluatedAt : EvidenceInstant) (maxAgeMs : Number)
    (currentIdentity : Option EvidenceIdentity) : Prop where
  noFailure : observation.failure = none
  received : ∃ (stamp : EvidenceInstant) (age : ℚ), observation.at_ = some stamp ∧ 0 ≤ age ∧
    evaluatedAt.mono.sub stamp.mono = .fin age ∧ ¬ maxAgeMs < .fin age
  identity : ∀ observed current, observation.identity = some observed → currentIdentity = some current →
    NotKnownToDiffer observed current

theorem eq_of_knownDifference {observed current : Option String} (h : knownDifference observed current = none) :
    ∀ a b, observed = some a → current = some b → a = b := by
  rintro a b rfl rfl
  by_cases hab : a = b
  · exact hab
  · simp [knownDifference, hab] at h

theorem notKnownToDiffer_of_identityMismatch {observed current : EvidenceIdentity}
    (h : identityMismatch (some observed) (some current) = none) : NotKnownToDiffer observed current := by
  simp only [identityMismatch] at h
  by_cases hbroker : observed.broker = current.broker
  · simp only [hbroker, ne_eq, not_true_eq_false, if_false] at h
    cases haccount : knownDifference observed.accountRef current.accountRef with
    | some pair => simp [haccount] at h
    | none =>
      cases hsession : knownDifference observed.sessionId current.sessionId with
      | some pair => simp [haccount, hsession] at h
      | none => exact ⟨hbroker, eq_of_knownDifference haccount, eq_of_knownDifference hsession⟩
  · simp [hbroker] at h

theorem sub_of_monoElapsed {start finish : Number} {age : ℚ} (h : monoElapsed start finish = some age) :
    finish.sub start = .fin age ∧ 0 ≤ age := by
  unfold monoElapsed at h
  split at h
  · rename_i a b
    by_cases hle : 0 ≤ b - a
    · simp only [hle, if_true, Option.some.injEq] at h
      exact ⟨by rw [Number.sub_fin, h], h ▸ hle⟩
    · simp [hle] at h
  · simp at h

theorem sourceLag_nonneg {grace : Number} {received : EvidenceInstant} {sourceWall : Option Number}
    (h : grace < sourceLag received sourceWall) : .fin 0 ≤ sourceLag received sourceWall := by
  cases sourceWall with
  | none => simp [sourceLag]
  | some wall =>
    simp only [sourceLag] at h ⊢
    obtain ⟨hnan, -⟩ | ⟨hlag, hlt⟩ | ⟨hzero, -⟩ := Number.max_cases (.fin 0) (received.wall.sub wall)
    · exact absurd (hnan ▸ h) (Number.not_lt_nan grace)
    · rw [hlag]
      exact Number.le_of_lt hlt
    · simp [hzero]

theorem not_lt_of_not_lt_add {bound added : Number} {age : ℚ} (hadded : .fin 0 ≤ added)
    (h : ¬ bound < (Number.fin age).add added) : ¬ bound < .fin age := by
  intro hlt
  cases added with
  | fin q =>
    have hq : 0 ≤ q := by simpa using hadded
    rw [Number.add_fin] at h
    cases bound with
    | fin b =>
      have hb : b < age := by simpa using hlt
      exact h (by simpa using lt_of_lt_of_le hb (le_add_of_nonneg_right hq))
    | negInf => exact h rfl
    | nan => exact Number.not_nan_lt _ hlt
    | posInf => exact Number.ne_posInf_of_lt hlt rfl
  | posInf =>
    cases bound with
    | nan => exact Number.not_nan_lt _ hlt
    | posInf => exact Number.ne_posInf_of_lt hlt rfl
    | _ => exact h rfl
  | _ => exact absurd hadded (by decide)

theorem not_lt_of_judgeAge {label : String} {maxAgeMs age : Number} {usedSourceLag : Bool}
    (h : (judgeAge label maxAgeMs age usedSourceLag).status = .usable) : ¬ maxAgeMs < age := by
  intro hlt
  simp [judgeAge, hlt] at h

/-- **Usable evidence is fresh.** -/
theorem fresh_of_usable {α : Type} {observation : TimedObservation α} {evaluatedAt : EvidenceInstant}
    {maxAgeMs grace : Number} {currentIdentity : Option EvidenceIdentity} {label : String}
    (h : (ageEvidence observation evaluatedAt maxAgeMs grace currentIdentity label).status = .usable) :
    Fresh observation evaluatedAt maxAgeMs currentIdentity := by
  unfold ageEvidence at h
  split at h
  · rename_i received hfailure hreceived
    split at h
    · simp at h
    · rename_i hidentity
      split at h
      · simp [invalidEvidence] at h
      split at h
      · simp [invalidEvidence] at h
      split at h
      · simp [invalidEvidence] at h
      dsimp only at h
      split at h
      · simp [invalidEvidence] at h
      · rename_i age hage
        obtain ⟨hsub, hnonneg⟩ := sub_of_monoElapsed hage
        refine ⟨hfailure, ⟨received, age, hreceived, hnonneg, hsub, ?_⟩, ?_⟩
        · refine not_lt_of_not_lt_add ?_ (not_lt_of_judgeAge h)
          by_cases hused : grace < sourceLag received observation.sourceObservedAtWall
          · simpa [hused] using sourceLag_nonneg hused
          · simp [hused]
        · rintro observed current hobserved rfl
          rw [hobserved] at hidentity
          exact notKnownToDiffer_of_identityMismatch hidentity
  · simp at h

end BoxEngine
