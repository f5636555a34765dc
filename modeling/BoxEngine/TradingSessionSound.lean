import BoxEngine.Lib.Run
import BoxEngine.TradingSession

/-!
# The budget of a trading session

A session's arming reaches the row once, and the row never comes back once another is armed while no save meets a
foreign row; so all attempts were counted in one counter.
-/

namespace BoxEngine

namespace BoxSessionRecord

def Consistent (record : BoxSessionRecord) : Prop := record.completedTradeIds ⊆ record.establishedTradeIds

def KeptBy (row row' : BoxSessionRecord) : Prop :=
  (row'.sessionId = row.sessionId →
    row.entryAttempts ≤ row'.entryAttempts ∧ row.establishedTradeIds ⊆ row'.establishedTradeIds) ∧
  (row'.sessionId ≠ row.sessionId → row.armCount < row'.armCount)

theorem keptBy_refl (row : BoxSessionRecord) : row.KeptBy row :=
  ⟨fun _ => ⟨le_rfl, List.Subset.refl _⟩, fun h => absurd rfl h⟩

structure SameArming (record record' : BoxSessionRecord) : Prop where
  sessionId : record'.sessionId = record.sessionId
  armCount : record'.armCount = record.armCount
  maxEntryAttempts : record'.maxEntryAttempts = record.maxEntryAttempts

variable (record : BoxSessionRecord)

theorem SameArming.refl : record.SameArming record := ⟨rfl, rfl, rfl⟩

theorem sameArming_established (tradeId : String) (now : ℚ) :
    record.SameArming (record.recordEstablishedBox tradeId now) := by
  unfold recordEstablishedBox
  split <;> exact ⟨rfl, rfl, rfl⟩

theorem sameArming_completed (tradeId : String) (now : ℚ) :
    record.SameArming (record.recordCompletedBox tradeId now) := by
  unfold recordCompletedBox
  split <;> exact ⟨rfl, rfl, rfl⟩

theorem Consistent.established {record : BoxSessionRecord} (h : record.Consistent) (tradeId : String) (now : ℚ) :
    (record.recordEstablishedBox tradeId now).Consistent := by
  unfold recordEstablishedBox
  split
  · exact fun id hid => List.mem_append_left _ (h hid)
  · exact h

theorem Consistent.completed {record : BoxSessionRecord} (h : record.Consistent) (tradeId : String) (now : ℚ) :
    (record.recordCompletedBox tradeId now).Consistent := by
  unfold recordCompletedBox
  split
  next hcompletes =>
    simp only [completes, Bool.and_eq_true, decide_eq_true_eq] at hcompletes
    exact List.append_subset.mpr ⟨h, by simpa using hcompletes.1.2⟩
  next => exact h

theorem sameArming_reconcile (flatTradeIds : List String) (now : ℚ) :
    record.SameArming (record.reconcileCompletions flatTradeIds now) := by
  unfold reconcileCompletions
  induction flatTradeIds generalizing record with
  | nil => exact .refl record
  | cons tradeId flatTradeIds ih =>
    have hfirst := sameArming_completed record tradeId now
    have hrest := ih (record.recordCompletedBox tradeId now)
    exact ⟨hrest.sessionId.trans hfirst.sessionId, hrest.armCount.trans hfirst.armCount,
      hrest.maxEntryAttempts.trans hfirst.maxEntryAttempts⟩

theorem Consistent.reconcile {record : BoxSessionRecord} (h : record.Consistent) (flatTradeIds : List String) (now : ℚ) :
    (record.reconcileCompletions flatTradeIds now).Consistent := by
  unfold reconcileCompletions
  induction flatTradeIds generalizing record with
  | nil => exact h
  | cons tradeId flatTradeIds ih => exact ih (h.completed tradeId now)

end BoxSessionRecord

namespace TradingSession

/-! ## What a mutation sends -/

structure Commits (m : Manager) (mutation : Mutation) (next : BoxSessionRecord) (rollbackOnFailure claims : Bool) : Prop where
  consistent : m.record.Consistent → next.Consistent
  arming : claims = true → rollbackOnFailure = true ∧ (∃ args, mutation = .arm args next.sessionId) ∧
    next.armCount = m.record.armCount + 1 ∧ next.entryAttempts = 0
  same : claims = false → m.record.SameArming next

variable {configured : Configured} {m : Manager} {now : ℚ} {mutation : Mutation}
variable {rollbackOnFailure claims : Bool}

theorem Mutation.sends_commit {next : BoxSessionRecord}
    (h : mutation.sends configured m now = .commit next rollbackOnFailure claims) :
    Commits m mutation next rollbackOnFailure claims := by
  -- a mutation commits in one branch only; the others contradict `h`
  cases mutation with
  | arm args sessionId =>
    simp only [Mutation.sends] at h
    split at h
    · cases h
    · split at h
      · cases h
      · cases h
        exact ⟨fun _ => List.Subset.refl _, fun _ => ⟨rfl, ⟨args, rfl⟩, rfl, rfl⟩, fun hfalse => by cases hfalse⟩
  | disarm =>
    simp only [Mutation.sends] at h
    split at h
    · cases h
      exact ⟨fun hold => hold, fun htrue => (by cases htrue), fun _ => ⟨rfl, rfl, rfl⟩⟩
    · cases h
  | established tradeId =>
    simp only [Mutation.sends] at h
    split at h
    · cases h
    · split at h
      · cases h
      · cases h
        exact ⟨fun hold => hold.established tradeId now, fun htrue => (by cases htrue),
          fun _ => BoxSessionRecord.sameArming_established _ tradeId now⟩
  | completed tradeId =>
    simp only [Mutation.sends] at h
    split at h
    · cases h
    · cases h
      exact ⟨fun hold => hold.completed tradeId now, fun htrue => (by cases htrue),
        fun _ => BoxSessionRecord.sameArming_completed _ tradeId now⟩
  | reconciled flatTradeIds =>
    simp only [Mutation.sends] at h
    split at h
    · cases h
    · cases h
      exact ⟨fun hold => hold.reconcile flatTradeIds now, fun htrue => (by cases htrue),
        fun _ => BoxSessionRecord.sameArming_reconcile _ flatTradeIds now⟩
  | retried =>
    simp only [Mutation.sends] at h
    split at h
    · cases h
      exact ⟨id, fun htrue => (by cases htrue), fun _ => .refl _⟩
    · cases h
  | aborted =>
    simp only [Mutation.sends] at h
    split at h
    · cases h
    · cases h
      exact ⟨fun hold => hold, fun htrue => (by cases htrue), fun _ => ⟨rfl, rfl, rfl⟩⟩
  | attempt =>
    simp only [Mutation.sends] at h
    split at h
    · cases h
    · split at h <;> cases h

def Sent.consumedIn (sessionId : String) : Sent → Bool
  | ⟨.consume sessionId' _, .done (.consumed _ _)⟩ => sessionId' = sessionId
  | ⟨.consume sessionId' _, .answered (.consumed _ _)⟩ => sessionId' = sessionId
  | _ => false

def Sent.admittedIn (sessionId : String) : Sent → Bool
  | ⟨.consume sessionId' _, .answered (.consumed _ _)⟩ => sessionId' = sessionId
  | _ => false

theorem Mutation.sends_loaded {next : BoxSessionRecord}
    (h : mutation.sends configured m now = .commit next rollbackOnFailure claims) :
    m.loaded = true ∨ m.writeFailed = true := by
  by_contra hneither
  rw [not_or, Bool.not_eq_true, Bool.not_eq_true] at hneither
  cases mutation <;> simp [Mutation.sends, hneither] at h

theorem Mutation.sends_consume (h : mutation.sends configured m now = .consume) :
    m.loaded = true ∧ m.record.isArmed = true := by
  cases mutation with
  | attempt =>
    simp only [Mutation.sends] at h
    split at h
    · cases h
    next hready => simpa using hready
  | arm args sessionId | established tradeId =>
    simp only [Mutation.sends] at h
    split at h
    · cases h
    · split at h <;> cases h
  | disarm | completed tradeId | reconciled flatTradeIds | retried
  | aborted => simp only [Mutation.sends] at h; split at h <;> cases h

/-- A save meets a row of the session it was computed from, without cycles it does not know. -/
def SessionSave.Current (save : SessionSave) (row : BoxSessionRecord) : Prop :=
  save.previous.sessionId = row.sessionId ∧
    (save.claimsAttemptBudget = false → row.establishedTradeIds ⊆ save.next.establishedTradeIds)

def Sent.Current (x : Sent) (row : BoxSessionRecord) : Prop :=
  match x with
  | ⟨.save save, .waiting⟩ => save.Current row
  | ⟨.consume sessionId _, .explaining⟩ => row.sessionId = sessionId ∨ 0 < row.maxEntryAttempts
  | _ => True

def Outcome.ceiling : Outcome → Option ℕ
  | .saved => none
  | .consumed _ maxEntryAttempts => some maxEntryAttempts
  | .refused durable => durable.map Prod.snd

def Outcome.Fits : Outcome → Statement → Prop
  | .saved, .save _ => True
  | .consumed _ _, .consume _ _ => True
  | .refused _, .consume _ _ => True
  | _, _ => False

namespace Sessions

variable {ι : Type} [DecidableEq ι] {configured : ι → Configured} {s s' : Sessions ι}

/-- The statement at `k` armed the session. -/
def Arming (s : Sessions ι) (k : ℕ) (arm : BoxSessionRecord) (progress : Progress) : Prop :=
  ∃ previous, s.sent[k]? = some ⟨.save ⟨previous, arm, true⟩, progress⟩

structure OfArming (arm record : BoxSessionRecord) : Prop where
  sessionId : arm.sessionId = record.sessionId
  armCount : arm.armCount = record.armCount
  bounded : 0 < arm.maxEntryAttempts → 0 < record.maxEntryAttempts

/-- The record is the idle one or that of an arming the store has seen. -/
def Known (s : Sessions ι) (record : BoxSessionRecord) : Prop :=
  (record.sessionId = "" ∧ record.armCount = 0 ∧ record.maxEntryAttempts = 0) ∨
    ∃ k arm progress, s.Arming k arm progress ∧ progress ≠ .waiting ∧ OfArming arm record

def spent (s : Sessions ι) (sessionId : String) : ℕ := s.sent.countP (Sent.consumedIn sessionId)

structure Bounded (s : Sessions ι) : Prop where
  admitted : ∀ k arm progress, s.Arming k arm progress → 0 < arm.maxEntryAttempts →
    s.admitted.count arm.sessionId ≤ arm.maxEntryAttempts
  row : ∀ row ∈ s.row, row.Consistent
  managers : ∀ i, (s.managers i).record.Consistent

def Keeps (s s' : Sessions ι) : Prop := ∀ row ∈ s.row, ∃ row' ∈ s'.row, row.KeptBy row'

def Minted (s : Sessions ι) : SessionStep ι → Prop
  | .mutate _ (.arm _ sessionId) _ =>
    sessionId ≠ "" ∧ ∀ (k : ℕ) (save : SessionSave) (progress : Progress), s.sent[k]? = some ⟨.save save, progress⟩ →
      save.next.sessionId ≠ sessionId
  | _ => True

def Orderly (s : Sessions ι) : SessionStep ι → Prop
  | .reach k => ∀ x row, s.sent[k]? = some x → s.row = some row → x.Current row
  | _ => True

structure SaveSound (s : Sessions ι) (save : SessionSave) : Prop where
  known : s.Known save.previous
  previous : save.previous.Consistent
  next : save.next.Consistent
  same : save.claimsAttemptBudget = false → save.previous.SameArming save.next
  arming : save.claimsAttemptBudget = true → save.next.sessionId ≠ "" ∧
    save.next.armCount = save.previous.armCount + 1 ∧ save.next.entryAttempts = 0

structure RowSound (s : Sessions ι) (row : BoxSessionRecord) : Prop where
  consistent : row.Consistent
  arming : (row.sessionId = "" ∧ row.armCount = 0 ∧ row.maxEntryAttempts = 0) ∨
    ∃ k arm progress, s.Arming k arm progress ∧ progress ≠ .waiting ∧
      arm.sessionId = row.sessionId ∧ arm.armCount = row.armCount ∧ row.maxEntryAttempts = arm.maxEntryAttempts
  spent : row.sessionId ≠ "" → s.spent row.sessionId ≤ row.entryAttempts
  bound : 0 < row.maxEntryAttempts → row.entryAttempts ≤ row.maxEntryAttempts

def Awaits (s : Sessions ι) (m : Manager) : Prop :=
  match m.awaiting with
  | none => s.Known m.record
  | some (.commit k previous rollbackOnFailure) => s.Known previous ∧ previous.Consistent ∧ ∃ claims progress,
    s.sent[k]? = some ⟨.save ⟨previous, m.record, claims⟩, progress⟩ ∧ (claims = false → s.Known m.record) ∧
      (claims = true → rollbackOnFailure = true)
  | some (.consume k) => s.Known m.record ∧ ∃ now progress, s.sent[k]? = some ⟨.consume m.record.sessionId now, progress⟩

structure ManagerSound (s : Sessions ι) (m : Manager) : Prop where
  consistent : m.record.Consistent
  loaded : m.loaded = true ∨ (m.awaiting = none ∧ m.writeFailed = false)
  awaits : s.Awaits m

/-- What the statements sent, the row and the managers agree on. -/
structure Sound (s : Sessions ι) : Prop where
  unique : ∀ k k' arm arm' progress progress', s.Arming k arm progress → s.Arming k' arm' progress' →
    arm.sessionId = arm'.sessionId → k = k'
  saves : ∀ (k : ℕ) (save : SessionSave) (progress : Progress), s.sent[k]? = some ⟨.save save, progress⟩ → s.SaveSound save
  row : ∀ row, s.row = some row → s.RowSound row
  started : s.row = none → ∀ (k : ℕ) (save : SessionSave) (progress : Progress),
    s.sent[k]? = some ⟨.save save, progress⟩ → progress = .waiting
  consumes : ∀ (k : ℕ) (sessionId : String) (now : ℚ) (progress : Progress),
    s.sent[k]? = some ⟨.consume sessionId now, progress⟩ → ∃ k' arm progress', s.Arming k' arm progress' ∧
      arm.sessionId = sessionId
  outcomes : ∀ (k : ℕ) (sessionId : String) (now : ℚ) (outcome : Outcome),
    s.sent[k]? = some ⟨.consume sessionId now, .done outcome⟩ → ∀ ceiling ∈ outcome.ceiling,
      ∀ k' arm progress, s.Arming k' arm progress → arm.sessionId = sessionId → 0 < arm.maxEntryAttempts → 0 < ceiling
  fits : ∀ (k : ℕ) (statement : Statement) (outcome : Outcome), s.sent[k]? = some ⟨statement, .done outcome⟩ →
    outcome.Fits statement
  listed : ∀ sessionId ∈ s.admitted, ∃ k arm progress, s.Arming k arm progress ∧ arm.sessionId = sessionId
  unspent : ∀ k arm, s.Arming k arm .waiting → s.spent arm.sessionId = 0
  spent : ∀ k arm progress, s.Arming k arm progress → 0 < arm.maxEntryAttempts →
    s.spent arm.sessionId ≤ arm.maxEntryAttempts
  admitted : ∀ k arm progress, s.Arming k arm progress → 0 < arm.maxEntryAttempts →
    s.admitted.count arm.sessionId ≤ s.sent.countP (Sent.admittedIn arm.sessionId)
  managers : ∀ i, s.ManagerSound (s.managers i)

def Later (s s' : Sessions ι) : Prop := ∀ (k : ℕ) (statement : Statement) (progress : Progress),
  s.sent[k]? = some ⟨statement, progress⟩ →
    ∃ progress', s'.sent[k]? = some ⟨statement, progress'⟩ ∧ (progress ≠ .waiting → progress' ≠ .waiting)

section

variable (hlater : Later s s')
include hlater

omit [DecidableEq ι]

theorem Arming.later {k : ℕ} {arm : BoxSessionRecord} {progress : Progress} (h : s.Arming k arm progress) :
    ∃ progress', s'.Arming k arm progress' ∧ (progress ≠ .waiting → progress' ≠ .waiting) := by
  obtain ⟨previous, hk⟩ := h
  obtain ⟨progress', hk', hreached⟩ := hlater k _ _ hk
  exact ⟨progress', ⟨previous, hk'⟩, hreached⟩

theorem Known.later {record : BoxSessionRecord} (h : s.Known record) : s'.Known record := by
  rcases h with hidle | ⟨k, arm, progress, harming, hreached, hof⟩
  · exact .inl hidle
  · obtain ⟨progress', harming', hreached'⟩ := harming.later hlater
    exact .inr ⟨k, arm, progress', harming', hreached' hreached, hof⟩

theorem SaveSound.later {save : SessionSave} (h : s.SaveSound save) : s'.SaveSound save :=
  ⟨h.known.later hlater, h.previous, h.next, h.same, h.arming⟩

theorem RowSound.later {row : BoxSessionRecord} (h : s.RowSound row)
    (hspent : s'.spent row.sessionId = s.spent row.sessionId) : s'.RowSound row where
  consistent := h.consistent
  arming := by
    rcases h.arming with hidle | ⟨k, arm, progress, harming, hreached, hof⟩
    · exact .inl hidle
    · obtain ⟨progress', harming', hreached'⟩ := harming.later hlater
      exact .inr ⟨k, arm, progress', harming', hreached' hreached, hof⟩
  spent := by rw [hspent]; exact h.spent
  bound := h.bound

theorem ManagerSound.later {m : Manager} (h : s.ManagerSound m) : s'.ManagerSound m where
  consistent := h.consistent
  loaded := h.loaded
  awaits := by
    have hawaits := h.awaits
    unfold Awaits at hawaits ⊢
    generalize m.awaiting = awaiting at hawaits ⊢
    rcases awaiting with _ | (⟨k, previous, rollbackOnFailure⟩ | k)
    · exact hawaits.later hlater
    · obtain ⟨hprevious, hconsistent, claims, progress, hk, hknown, hrollback⟩ := hawaits
      obtain ⟨progress', hk', -⟩ := hlater k _ _ hk
      exact ⟨hprevious.later hlater, hconsistent, claims, progress', hk', fun hfalse => (hknown hfalse).later hlater,
        hrollback⟩
    · obtain ⟨hknown, now, progress, hk⟩ := hawaits
      obtain ⟨progress', hk', -⟩ := hlater k _ _ hk
      exact ⟨hknown.later hlater, now, progress', hk'⟩

end

/-! ## Facts of a sound state -/

section

variable (h : Sound s)
include h

omit [DecidableEq ι]

variable {k : ℕ} {arm : BoxSessionRecord} {progress : Progress}

theorem Sound.session_ne (harming : s.Arming k arm progress) : arm.sessionId ≠ "" := by
  obtain ⟨previous, hk⟩ := harming
  exact ((h.saves k _ _ hk).arming rfl).1

theorem Sound.same_arm {k k' : ℕ} {arm arm' : BoxSessionRecord} {progress progress' : Progress}
    (harming : s.Arming k arm progress) (harming' : s.Arming k' arm' progress') (hid : arm.sessionId = arm'.sessionId) :
    k = k' ∧ arm = arm' ∧ progress = progress' := by
  obtain rfl : k = k' := h.unique k k' arm arm' progress progress' harming harming' hid
  obtain ⟨previous, hk⟩ := harming
  obtain ⟨previous', hk'⟩ := harming'
  cases hk.symm.trans hk'
  exact ⟨rfl, rfl, rfl⟩

theorem Sound.row_arm {row : BoxSessionRecord} (hrow : s.row = some row) (harming : s.Arming k arm progress)
    (hid : arm.sessionId = row.sessionId) :
    progress ≠ .waiting ∧ arm.armCount = row.armCount ∧ row.maxEntryAttempts = arm.maxEntryAttempts := by
  rcases (h.row row hrow).arming with ⟨hidle, -⟩ | ⟨k', arm', progress', harming', hreached, hid', hcount, hmax⟩
  · exact absurd (hid.trans hidle) (h.session_ne harming)
  · obtain ⟨-, rfl, rfl⟩ := h.same_arm harming harming' (hid.trans hid'.symm)
    exact ⟨hreached, hcount, hmax⟩

theorem Sound.armCount_eq {row record : BoxSessionRecord} (hrow : s.row = some row) (hknown : s.Known record)
    (hid : record.sessionId = row.sessionId) : record.armCount = row.armCount := by
  rcases hknown with ⟨hidle, hzero, -⟩ | ⟨k, arm, progress, harming, -, hof⟩
  · rcases (h.row row hrow).arming with ⟨-, hzero', -⟩ | ⟨k', arm', progress', harming', -, hid', -⟩
    · rw [hzero, hzero']
    · exact absurd (hid'.trans (hid.symm.trans hidle)) (h.session_ne harming')
  · rw [← hof.armCount]
    exact (h.row_arm hrow harming (hof.sessionId.trans hid)).2.1

theorem Sound.known_of_none (hrow : s.row = none) {record : BoxSessionRecord} (hknown : s.Known record) :
    record.sessionId = "" ∧ record.armCount = 0 ∧ record.maxEntryAttempts = 0 := by
  rcases hknown with hidle | ⟨k, arm, progress, ⟨previous, hk⟩, hreached, -⟩
  · exact hidle
  · exact absurd (h.started hrow k _ _ hk) hreached

theorem Sound.spent_eq_zero {sessionId : String}
    (hnone : ∀ k arm progress, s.Arming k arm progress → arm.sessionId ≠ sessionId) : s.spent sessionId = 0 := by
  apply List.countP_eq_zero.mpr
  rintro ⟨statement, progress⟩ hx hconsumed
  obtain ⟨k, hk⟩ := List.mem_iff_getElem?.mp hx
  cases statement with
  | save save => simp [Sent.consumedIn] at hconsumed
  | consume sessionId' now =>
    obtain ⟨k', arm, progress', harming, hid⟩ := h.consumes k sessionId' now progress hk
    have heq : sessionId' = sessionId := by
      unfold Sent.consumedIn at hconsumed
      split at hconsumed
      next heq => cases heq; simpa using hconsumed
      next heq => cases heq; simpa using hconsumed
      next => cases hconsumed
    exact hnone k' arm progress' harming (hid.trans heq)

omit h in
theorem ManagerSound.loaded_of_awaiting {m : Manager} (hm : s.ManagerSound m) {awaiting : Awaiting}
    (hawaiting : m.awaiting = some awaiting) : m.loaded = true := by
  rcases hm.loaded with hloaded | ⟨hnone, -⟩
  · exact hloaded
  · rw [hnone] at hawaiting
    cases hawaiting

omit h in
theorem Sound.ofArming {m : Manager} (hm : s.ManagerSound m) (hsession : m.record.sessionId ≠ "") :
    ∃ k arm progress, s.Arming k arm progress ∧ OfArming arm m.record := by
  have hof : s.Known m.record → ∃ k arm progress, s.Arming k arm progress ∧ OfArming arm m.record := by
    rintro (⟨hidle, -⟩ | ⟨k, arm, progress, harming, -, hof⟩)
    · exact absurd hidle hsession
    · exact ⟨k, arm, progress, harming, hof⟩
  have hawaits := hm.awaits
  unfold Awaits at hawaits
  generalize m.awaiting = awaiting at hawaits
  rcases awaiting with _ | (⟨k, previous, rollbackOnFailure⟩ | k)
  · exact hof hawaits
  · obtain ⟨-, -, claims, progress, hk, hknown, -⟩ := hawaits
    cases claims with
    | false => exact hof (hknown rfl)
    | true => exact ⟨k, m.record, progress, ⟨previous, hk⟩, rfl, rfl, id⟩
  · exact hof hawaits.1

end

omit [DecidableEq ι] in
theorem Sound.new : Sound (new : Sessions ι) where
  unique := by simp [Arming, Sessions.new]
  saves := by simp [Sessions.new]
  row := by simp [Sessions.new]
  started := by simp [Sessions.new]
  consumes := by simp [Sessions.new]
  outcomes := by simp [Sessions.new]
  fits := by simp [Sessions.new]
  listed := by simp [Sessions.new]
  unspent := by simp [Arming, Sessions.new]
  spent := by simp [Arming, Sessions.new]
  admitted := by simp [Arming, Sessions.new]
  managers := fun _ => ⟨List.Subset.refl _, .inr ⟨rfl, rfl⟩, .inl ⟨rfl, rfl, rfl⟩⟩

/-! ## One step: a manager's mutation -/

section

variable (h : Sound s)
include h

theorem Sound.withManager {i : ι} {m : Manager} (hm : s.ManagerSound m) : Sound (s.withManager i m) := by
  have hlater : Later s (s.withManager i m) := fun k statement progress hk => ⟨progress, hk, id⟩
  constructor
  case unique => exact h.unique
  case saves => exact fun k save progress hk => (h.saves k save progress hk).later hlater
  case row => exact fun row hrow => (h.row row hrow).later hlater rfl
  case started => exact h.started
  case consumes => exact h.consumes
  case outcomes => exact h.outcomes
  case fits => exact h.fits
  case listed => exact h.listed
  case unspent => exact h.unspent
  case spent => exact h.spent
  case admitted => exact h.admitted
  case managers =>
    intro j
    apply ManagerSound.later hlater
    change s.ManagerSound (Function.update s.managers i m j)
    by_cases hj : j = i
    · rw [hj, Function.update_self]
      exact hm
    · rw [Function.update_of_ne hj]
      exact h.managers j

def send (s : Sessions ι) (statement : Statement) : Sessions ι := { s with sent := s.sent ++ [⟨statement, .waiting⟩] }

end

variable (statement : Statement)

omit [DecidableEq ι] in
theorem later_send : Later s (s.send statement) := by
  intro k statement' progress hk
  exact ⟨progress, Run.getElem?_snoc.mpr (.inl hk), id⟩

omit [DecidableEq ι] in
theorem spent_send (sessionId : String) : (s.send statement).spent sessionId = s.spent sessionId := by
  cases statement <;> simp [spent, send, Sent.consumedIn]

omit [DecidableEq ι] in
theorem admittedIn_send (sessionId : String) :
    (s.send statement).sent.countP (Sent.admittedIn sessionId) = s.sent.countP (Sent.admittedIn sessionId) := by
  cases statement <;> simp [send, Sent.admittedIn]

variable {k : ℕ}

omit [DecidableEq ι] in
theorem arming_send {statement : Statement} {arm : BoxSessionRecord} {progress : Progress}
    (harming : (s.send statement).Arming k arm progress) :
    s.Arming k arm progress ∨
      (k = s.sent.length ∧ progress = .waiting ∧ ∃ previous, statement = .save ⟨previous, arm, true⟩) := by
  obtain ⟨previous, hk⟩ := harming
  rcases Run.getElem?_snoc.mp hk with hold | ⟨hlast, heq⟩
  · exact .inl ⟨previous, hold⟩
  · cases heq
    exact .inr ⟨hlast, rfl, previous, rfl⟩

omit [DecidableEq ι] in
theorem Sound.sendSave (h : Sound s) {save : SessionSave} (hsave : s.SaveSound save)
    (hfresh : save.claimsAttemptBudget = true → ∀ (k : ℕ) (save' : SessionSave) (progress : Progress),
      s.sent[k]? = some ⟨.save save', progress⟩ → save'.next.sessionId ≠ save.next.sessionId) :
    Sound (s.send (.save save)) := by
  have hlater : Later s (s.send (.save save)) := later_send _
  have hnew : ∀ {k arm progress}, (s.send (.save save)).Arming k arm progress → s.Arming k arm progress ∨
      (k = s.sent.length ∧ progress = .waiting ∧ save.next = arm ∧
        ∀ k' arm' progress', s.Arming k' arm' progress' → arm'.sessionId ≠ arm.sessionId) := by
    intro k arm progress harming
    rcases arming_send harming with hold | ⟨hlast, hwaiting, previous, heq⟩
    · exact .inl hold
    · cases heq
      refine .inr ⟨hlast, hwaiting, rfl, ?_⟩
      rintro k' arm' progress' ⟨previous', hk'⟩
      exact hfresh rfl k' _ _ hk'
  constructor
  case unique =>
    intro k k' arm arm' progress progress' harming harming' hid
    rcases hnew harming with hold | ⟨hlast, -, -, hother⟩
    · rcases hnew harming' with hold' | ⟨-, -, -, hother'⟩
      · exact h.unique k k' arm arm' progress progress' hold hold' hid
      · exact absurd hid (hother' k arm progress hold)
    · rcases hnew harming' with hold' | ⟨hlast', -, -, -⟩
      · exact absurd hid.symm (hother k' arm' progress' hold')
      · rw [hlast, hlast']
  case saves =>
    intro k save' progress hk
    rcases Run.getElem?_snoc.mp hk with hold | ⟨-, heq⟩
    · exact (h.saves k save' progress hold).later hlater
    · cases heq
      exact hsave.later hlater
  case row => exact fun row hrow => (h.row row hrow).later hlater (spent_send _ _)
  case started =>
    intro hrow k save' progress hk
    rcases Run.getElem?_snoc.mp hk with hold | ⟨-, heq⟩
    · exact h.started hrow k save' progress hold
    · cases heq
      rfl
  case consumes =>
    intro k sessionId now progress hk
    rcases Run.getElem?_snoc.mp hk with hold | ⟨-, heq⟩
    · obtain ⟨k', arm, progress', harming, hid⟩ := h.consumes k sessionId now progress hold
      obtain ⟨progress'', harming', -⟩ := harming.later hlater
      exact ⟨k', arm, progress'', harming', hid⟩
    · cases heq
  case outcomes =>
    intro k sessionId now outcome hk ceiling hceiling k' arm progress harming hid
    rcases Run.getElem?_snoc.mp hk with hold | ⟨-, heq⟩
    · rcases hnew harming with harmed | ⟨-, -, -, hother⟩
      · exact h.outcomes k sessionId now outcome hold ceiling hceiling k' arm progress harmed hid
      · obtain ⟨k'', arm', progress', harming', hid'⟩ := h.consumes k sessionId now _ hold
        exact absurd (hid'.trans hid.symm) (hother k'' arm' progress' harming')
    · cases heq
  case fits =>
    intro k statement outcome hk
    rcases Run.getElem?_snoc.mp hk with hold | ⟨-, heq⟩
    · exact h.fits k statement outcome hold
    · cases heq
  case listed =>
    intro sessionId hmem
    obtain ⟨k, arm, progress, harming, hid⟩ := h.listed sessionId hmem
    obtain ⟨progress', harming', -⟩ := harming.later hlater
    exact ⟨k, arm, progress', harming', hid⟩
  case unspent =>
    intro k arm harming
    rw [spent_send]
    rcases hnew harming with hold | ⟨-, -, -, hother⟩
    · exact h.unspent k arm hold
    · exact h.spent_eq_zero hother
  case spent =>
    intro k arm progress harming hbounded
    rw [spent_send]
    rcases hnew harming with hold | ⟨-, -, -, hother⟩
    · exact h.spent k arm progress hold hbounded
    · rw [h.spent_eq_zero hother]
      exact Nat.zero_le _
  case admitted =>
    intro k arm progress harming hbounded
    rw [admittedIn_send]
    rcases hnew harming with hold | ⟨-, -, -, hother⟩
    · exact h.admitted k arm progress hold hbounded
    · have hnone : arm.sessionId ∉ s.admitted := by
        intro hmem
        obtain ⟨k', arm', progress', harming', hid⟩ := h.listed _ hmem
        exact hother k' arm' progress' harming' hid
      change s.admitted.count arm.sessionId ≤ _
      rw [List.count_eq_zero.mpr hnone]
      exact Nat.zero_le _
  case managers => exact fun i => (h.managers i).later hlater

omit [DecidableEq ι] in
theorem Sound.sendConsume (h : Sound s) {sessionId : String} {now : ℚ}
    (hsession : ∃ k arm progress, s.Arming k arm progress ∧ arm.sessionId = sessionId) :
    Sound (s.send (.consume sessionId now)) := by
  have hlater : Later s (s.send (.consume sessionId now)) := later_send _
  have hold : ∀ {k arm progress}, (s.send (.consume sessionId now)).Arming k arm progress → s.Arming k arm progress := by
    intro k arm progress harming
    rcases arming_send harming with hold | ⟨-, -, previous, heq⟩
    · exact hold
    · cases heq
  have hstill : ∀ {sessionId' : String}, (∃ k arm progress, s.Arming k arm progress ∧ arm.sessionId = sessionId') →
      ∃ k arm progress, (s.send (.consume sessionId now)).Arming k arm progress ∧ arm.sessionId = sessionId' := by
    rintro sessionId' ⟨k, arm, progress, harming, hid⟩
    obtain ⟨progress', harming', -⟩ := harming.later hlater
    exact ⟨k, arm, progress', harming', hid⟩
  constructor
  case unique =>
    intro k k' arm arm' progress progress' harming harming'
    exact h.unique k k' arm arm' progress progress' (hold harming) (hold harming')
  case saves =>
    intro k save progress hk
    rcases Run.getElem?_snoc.mp hk with hk' | ⟨-, heq⟩
    · exact (h.saves k save progress hk').later hlater
    · cases heq
  case row => exact fun row hrow => (h.row row hrow).later hlater (spent_send _ _)
  case started =>
    intro hrow k save progress hk
    rcases Run.getElem?_snoc.mp hk with hk' | ⟨-, heq⟩
    · exact h.started hrow k save progress hk'
    · cases heq
  case consumes =>
    intro k sessionId' now' progress hk
    rcases Run.getElem?_snoc.mp hk with hk' | ⟨-, heq⟩
    · exact hstill (h.consumes k sessionId' now' progress hk')
    · cases heq
      exact hstill hsession
  case outcomes =>
    intro k sessionId' now' outcome hk ceiling hceiling k' arm progress harming
    rcases Run.getElem?_snoc.mp hk with hk' | ⟨-, heq⟩
    · exact h.outcomes k sessionId' now' outcome hk' ceiling hceiling k' arm progress (hold harming)
    · cases heq
  case fits =>
    intro k statement outcome hk
    rcases Run.getElem?_snoc.mp hk with hk' | ⟨-, heq⟩
    · exact h.fits k statement outcome hk'
    · cases heq
  case listed => exact fun sessionId' hmem => hstill (h.listed sessionId' hmem)
  case unspent => exact fun k arm harming => (spent_send _ _).trans (h.unspent k arm (hold harming))
  case spent =>
    intro k arm progress harming hbounded
    rw [spent_send]
    exact h.spent k arm progress (hold harming) hbounded
  case admitted =>
    intro k arm progress harming hbounded
    rw [admittedIn_send]
    exact h.admitted k arm progress (hold harming) hbounded
  case managers => exact fun i => (h.managers i).later hlater

theorem Sound.restart (h : Sound s) (i : ι) (now : ℚ) : Sound (s.withManager i (.fresh now)) :=
  h.withManager ⟨List.Subset.refl _, .inr ⟨rfl, rfl⟩, .inl ⟨rfl, rfl, rfl⟩⟩

theorem Sound.load (h : Sound s) (i : ι) (now : ℚ) : Sound (s.load i now) := by
  unfold Sessions.load
  split
  · exact h
  next hunloaded =>
    have hm := h.managers i
    obtain ⟨hidle, -⟩ := hm.loaded.resolve_left hunloaded
    apply h.withManager
    have hread : (s.row.getD (idleSessionRecord now)).Consistent ∧ s.Known (s.row.getD (idleSessionRecord now)) := by
      cases hrow : s.row with
      | none => exact ⟨List.Subset.refl _, .inl ⟨rfl, rfl, rfl⟩⟩
      | some row =>
        refine ⟨(h.row row hrow).consistent, ?_⟩
        rcases (h.row row hrow).arming with hnone | ⟨k, arm, progress, harming, hreached, hid, hcount, hmax⟩
        · exact .inl hnone
        · exact .inr ⟨k, arm, progress, harming, hreached, hid, hcount, fun hpos => by rwa [Option.getD_some, hmax]⟩
    refine ⟨hread.1, .inl rfl, ?_⟩
    simp only [Awaits, hidle]
    exact hread.2

omit [DecidableEq ι] in
theorem Sound.ask (h : Sound s) (i : ι) : Sound (s.ask configured i) := by
  unfold Sessions.ask
  simp only
  split
  · exact h
  next hask =>
    rw [Bool.or_eq_true, not_or, Bool.not_eq_true, Bool.not_eq_true', Bool.not_eq_false] at hask
    obtain ⟨henforcing, harmed⟩ := hask
    have hsession : (s.managers i).record.sessionId ≠ "" := by
      simp only [BoxSessionRecord.isArmed, Bool.and_eq_true, decide_eq_true_eq] at harmed
      exact harmed.1
    obtain ⟨k₀, arm₀, progress₀, harming₀, hof⟩ := Sound.ofArming (h.managers i) hsession
    have hunbounded : arm₀.maxEntryAttempts = 0 := by
      by_contra hpos
      have hrecord := hof.bounded (Nat.pos_of_ne_zero hpos)
      simp [Manager.enforcing, harmed, hrecord] at henforcing
    have hlater : Later s { s with admitted := s.admitted ++ [(s.managers i).record.sessionId] } :=
      fun k statement progress hk => ⟨progress, hk, id⟩
    constructor
    case unique => exact h.unique
    case saves => exact fun k save progress hk => (h.saves k save progress hk).later hlater
    case row => exact fun row hrow => (h.row row hrow).later hlater rfl
    case started => exact h.started
    case consumes => exact h.consumes
    case outcomes => exact h.outcomes
    case fits => exact h.fits
    case listed => exact Run.forall_mem_snoc h.listed ⟨k₀, arm₀, progress₀, harming₀, hof.sessionId⟩
    case unspent => exact h.unspent
    case spent => exact h.spent
    case admitted =>
      intro k arm progress harming hbounded
      have hne : (s.managers i).record.sessionId ≠ arm.sessionId := by
        intro heq
        obtain ⟨-, rfl, -⟩ := h.same_arm harming₀ harming (hof.sessionId.trans heq)
        exact hbounded.ne' hunbounded
      simpa [List.count_append, List.count_singleton, hne] using h.admitted k arm progress harming hbounded
    case managers => exact fun j => (h.managers j).later hlater

theorem Sound.mutate (h : Sound s) (i : ι) (mutation : Mutation) (now : ℚ) (hminted : s.Minted (.mutate i mutation now)) :
    Sound (s.mutate configured i mutation now) := by
  have hm := h.managers i
  unfold Sessions.mutate
  simp only
  split
  · exact h
  next hfree =>
    have hknown : s.Known (s.managers i).record := by
      have hawaits := hm.awaits
      simpa only [Awaits, hfree] using hawaits
    split
    · exact h
    next next_ rollbackOnFailure claims hsends =>
      have hcommits := Mutation.sends_commit hsends
      have hloaded : (s.managers i).loaded = true :=
        (Mutation.sends_loaded hsends).elim id fun hfailed => hm.loaded.resolve_right fun hidle => by
          rw [hidle.2] at hfailed
          cases hfailed
      have hsave : s.SaveSound ⟨(s.managers i).record, next_, claims⟩ := by
        refine ⟨hknown, hm.consistent, hcommits.consistent hm.consistent, hcommits.same, ?_⟩
        intro hclaims
        obtain ⟨-, ⟨args, hmutation⟩, hcount, hzero⟩ := hcommits.arming hclaims
        rw [hmutation] at hminted
        exact ⟨hminted.1, hcount, hzero⟩
      have hsent := h.sendSave hsave (by
        intro hclaims
        obtain ⟨-, ⟨args, hmutation⟩, -⟩ := hcommits.arming hclaims
        rw [hmutation] at hminted
        exact hminted.2)
      apply hsent.withManager
      refine ⟨hcommits.consistent hm.consistent, .inl hloaded, ?_⟩
      have hlater : Later s (s.send (.save ⟨(s.managers i).record, next_, claims⟩)) := later_send _
      refine ⟨hknown.later hlater, hm.consistent, claims, .waiting, by simp [send], ?_,
        fun hclaims => (hcommits.arming hclaims).1⟩
      intro hclaims
      apply Known.later hlater
      obtain ⟨hid, hcount, hmax⟩ := hcommits.same hclaims
      rcases hknown with ⟨hnone, hzero, hunbounded⟩ | ⟨k, arm, progress, harming, hreached, hof⟩
      · exact .inl ⟨hid.trans hnone, hcount.trans hzero, hmax.trans hunbounded⟩
      · exact .inr ⟨k, arm, progress, harming, hreached, hof.sessionId.trans hid.symm, hof.armCount.trans hcount.symm,
          fun hpos => hmax ▸ hof.bounded hpos⟩
    next hsends =>
      obtain ⟨hloaded, harmed⟩ := Mutation.sends_consume hsends
      have hsession : (s.managers i).record.sessionId ≠ "" := by
        simp only [BoxSessionRecord.isArmed, Bool.and_eq_true, decide_eq_true_eq] at harmed
        exact harmed.1
      obtain ⟨k, arm, progress, harming, hof⟩ := Sound.ofArming hm hsession
      have hsent := @Sound.sendConsume _ _ h _ now ⟨k, arm, progress, harming, hof.sessionId⟩
      have hlater : Later s (s.send (.consume (s.managers i).record.sessionId now)) := later_send _
      apply hsent.withManager
      exact ⟨hm.consistent, .inl hloaded, hknown.later hlater, now, .waiting, by simp [send]⟩

theorem Sound.fail (h : Sound s) (i : ι) : Sound (s.fail i) := by
  have hm := h.managers i
  have hawaits := hm.awaits
  unfold Sessions.fail
  simp only
  split
  · exact h
  next k previous rollbackOnFailure hawaiting =>
    have hloaded : (s.managers i).loaded = true := hm.loaded_of_awaiting hawaiting
    simp only [Awaits, hawaiting] at hawaits
    obtain ⟨hprevious, hconsistent, claims, progress, hk, hknown, hrollback⟩ := hawaits
    split
    next =>
      exact h.withManager ⟨hconsistent, .inl hloaded, hprevious⟩
    next hkept =>
      have hclaims : claims = false := by
        by_contra hclaims
        exact hkept (hrollback (Bool.not_eq_false _ ▸ hclaims))
      exact h.withManager ⟨hm.consistent, .inl hloaded, hknown hclaims⟩
  next k hawaiting =>
    have hloaded : (s.managers i).loaded = true := hm.loaded_of_awaiting hawaiting
    simp only [Awaits, hawaiting] at hawaits
    exact h.withManager ⟨hm.consistent, .inl hloaded, hawaits.1⟩

/-! ## One step: a statement's progress -/

omit [DecidableEq ι] in
theorem countP_set_same {α : Type*} {l : List α} {p : α → Bool} {a b : α} (hk : l[k]? = some a) (h : p b = p a) :
    (l.set k b).countP p = l.countP p := by
  obtain ⟨hlt, ha⟩ := List.getElem?_eq_some_iff.mp hk
  rw [List.countP_set hlt, ha, h]
  cases hp : p a with
  | false => simp
  | true =>
    have hpos : 0 < l.countP p := List.countP_pos_iff.mpr ⟨a, List.mem_of_getElem? hk, hp⟩
    simp only [if_true]
    omega

omit [DecidableEq ι] in
theorem countP_set_rise {α : Type*} {l : List α} {p : α → Bool} {a b : α} (hk : l[k]? = some a) (ha : p a = false)
    (hb : p b = true) : (l.set k b).countP p = l.countP p + 1 := by
  obtain ⟨hlt, heq⟩ := List.getElem?_eq_some_iff.mp hk
  simp [List.countP_set hlt, heq, ha, hb]

section

variable {k : ℕ} {x : Sent} {progress : Progress} (hk : s.sent[k]? = some x)
  (hsent : s'.sent = s.sent.set k { x with progress }) (hprogress : progress ≠ .waiting)
include hk hsent hprogress

omit [DecidableEq ι]

theorem later_set : Later s s' := by
  intro k' statement progress' hk'
  by_cases heq : k' = k
  · subst heq
    cases hk.symm.trans hk'
    have hlt : k' < s.sent.length := (List.getElem?_eq_some_iff.mp hk).1
    exact ⟨progress, by rw [hsent, List.getElem?_set_self hlt], fun _ => hprogress⟩
  · exact ⟨progress', by rw [hsent, List.getElem?_set_ne (Ne.symm heq), hk'], id⟩

omit hprogress in
theorem sent_set {k' : ℕ} {statement : Statement} {progress' : Progress}
    (hk' : s'.sent[k']? = some ⟨statement, progress'⟩) :
    (k' = k ∧ statement = x.statement ∧ progress' = progress) ∨ (k' ≠ k ∧ s.sent[k']? = some ⟨statement, progress'⟩) := by
  rw [hsent] at hk'
  rcases Run.getElem?_set_cases hk hk' with ⟨heq, hx⟩ | hold
  · cases hx
    exact .inl ⟨heq, rfl, rfl⟩
  · exact .inr hold

theorem arming_set {k' : ℕ} {arm : BoxSessionRecord} {progress' : Progress} (harming : s'.Arming k' arm progress') :
    ∃ progress'', s.Arming k' arm progress'' ∧ (progress' = .waiting → progress'' = .waiting) := by
  obtain ⟨previous, hk'⟩ := harming
  rcases sent_set hk hsent hk' with ⟨rfl, hstatement, rfl⟩ | ⟨-, hold⟩
  · refine ⟨x.progress, ⟨previous, ?_⟩, fun hwaiting => absurd hwaiting hprogress⟩
    rw [hk, hstatement]
  · exact ⟨progress', ⟨previous, hold⟩, id⟩

theorem Sound.moved (h : Sound s) (hrow : ∀ row, s'.row = some row → s'.RowSound row)
    (hstarted : s'.row = none → s.row = none ∧ ∀ save, x.statement ≠ .save save)
    (houtcome : ∀ sessionId now outcome, x.statement = .consume sessionId now → progress = .done outcome →
      ∀ ceiling ∈ outcome.ceiling, ∀ k' arm progress', s.Arming k' arm progress' → arm.sessionId = sessionId →
        0 < arm.maxEntryAttempts → 0 < ceiling)
    (hfits : ∀ outcome, progress = .done outcome → outcome.Fits x.statement)
    (hlisted : ∀ sessionId ∈ s'.admitted, ∃ k' arm progress', s.Arming k' arm progress' ∧ arm.sessionId = sessionId)
    (hcount : ∀ k' arm progress', s.Arming k' arm progress' → 0 < arm.maxEntryAttempts →
      s'.admitted.count arm.sessionId ≤ s'.sent.countP (Sent.admittedIn arm.sessionId))
    (hspent : ∀ k' arm progress', s.Arming k' arm progress' → (progress' = .waiting → s'.spent arm.sessionId = 0) ∧
      (0 < arm.maxEntryAttempts → s'.spent arm.sessionId ≤ arm.maxEntryAttempts))
    (hmanagers : ∀ i, s'.ManagerSound (s'.managers i)) : Sound s' := by
  have hlater : Later s s' := later_set hk hsent hprogress
  have hstill : ∀ {sessionId : String}, (∃ k' arm progress', s.Arming k' arm progress' ∧ arm.sessionId = sessionId) →
      ∃ k' arm progress', s'.Arming k' arm progress' ∧ arm.sessionId = sessionId := by
    rintro sessionId ⟨k', arm, progress', harming, hid⟩
    obtain ⟨progress'', harming', -⟩ := harming.later hlater
    exact ⟨k', arm, progress'', harming', hid⟩
  constructor
  case unique =>
    intro k₁ k₂ arm₁ arm₂ progress₁ progress₂ harming₁ harming₂
    obtain ⟨_, hold₁, -⟩ := arming_set hk hsent hprogress harming₁
    obtain ⟨_, hold₂, -⟩ := arming_set hk hsent hprogress harming₂
    exact h.unique k₁ k₂ arm₁ arm₂ _ _ hold₁ hold₂
  case saves =>
    intro k' save progress' hk'
    rcases sent_set hk hsent hk' with ⟨-, hstatement, -⟩ | ⟨-, hold⟩
    · exact (h.saves k save x.progress (by rw [hk, hstatement])).later hlater
    · exact (h.saves k' save progress' hold).later hlater
  case row => exact hrow
  case started =>
    intro hnone k' save progress' hk'
    obtain ⟨hnone', hother⟩ := hstarted hnone
    rcases sent_set hk hsent hk' with ⟨-, hstatement, -⟩ | ⟨-, hold⟩
    · exact absurd hstatement.symm (hother save)
    · exact h.started hnone' k' save progress' hold
  case consumes =>
    intro k' sessionId now progress' hk'
    rcases sent_set hk hsent hk' with ⟨-, hstatement, -⟩ | ⟨-, hold⟩
    · exact hstill (h.consumes k sessionId now x.progress (by rw [hk, hstatement]))
    · exact hstill (h.consumes k' sessionId now progress' hold)
  case outcomes =>
    intro k' sessionId now outcome hk' ceiling hceiling k'' arm progress' harming hid hpos
    obtain ⟨progress'', harming', -⟩ := arming_set hk hsent hprogress harming
    rcases sent_set hk hsent hk' with ⟨-, hstatement, hdone⟩ | ⟨-, hold⟩
    · exact houtcome sessionId now outcome hstatement.symm hdone.symm ceiling hceiling k'' arm progress'' harming' hid hpos
    · exact h.outcomes k' sessionId now outcome hold ceiling hceiling k'' arm progress'' harming' hid hpos
  case fits =>
    intro k' statement outcome hk'
    rcases sent_set hk hsent hk' with ⟨-, hstatement, hdone⟩ | ⟨-, hold⟩
    · exact hstatement ▸ hfits outcome hdone.symm
    · exact h.fits k' statement outcome hold
  case listed => exact fun sessionId hmem => hstill (hlisted sessionId hmem)
  case unspent =>
    intro k' arm harming
    obtain ⟨progress'', harming', hwaiting⟩ := arming_set hk hsent hprogress harming
    exact (hspent k' arm progress'' harming').1 (hwaiting rfl)
  case spent =>
    intro k' arm progress' harming
    obtain ⟨progress'', harming', -⟩ := arming_set hk hsent hprogress harming
    exact (hspent k' arm progress'' harming').2
  case admitted =>
    intro k' arm progress' harming
    obtain ⟨progress'', harming', -⟩ := arming_set hk hsent hprogress harming
    exact hcount k' arm progress'' harming'
  case managers => exact hmanagers

end

/-! ## One step: a statement at the row -/

section

variable (h : Sound s) {k : ℕ} {x : Sent} (hk : s.sent[k]? = some x)
include h hk

omit [DecidableEq ι]

theorem Sound.moved_unspent {progress : Progress} (hunspent : ∀ sessionId,
      Sent.consumedIn sessionId { x with progress } = Sent.consumedIn sessionId x ∧
      Sent.admittedIn sessionId { x with progress } = Sent.admittedIn sessionId x)
    (hsent : s'.sent = s.sent.set k { x with progress }) (hprogress : progress ≠ .waiting)
    (hadmitted : s'.admitted = s.admitted) (hmanagers : s'.managers = s.managers)
    (hrow : ∀ row, s'.row = some row → s'.RowSound row)
    (hstarted : s'.row = none → s.row = none ∧ ∀ save, x.statement ≠ .save save)
    (houtcome : ∀ sessionId now outcome, x.statement = .consume sessionId now → progress = .done outcome →
      ∀ ceiling ∈ outcome.ceiling, ∀ k' arm progress', s.Arming k' arm progress' → arm.sessionId = sessionId →
        0 < arm.maxEntryAttempts → 0 < ceiling)
    (hfits : ∀ outcome, progress = .done outcome → outcome.Fits x.statement) : Sound s' := by
  have hspent : ∀ sessionId, s'.spent sessionId = s.spent sessionId := by
    intro sessionId
    rw [Sessions.spent, hsent, countP_set_same hk (hunspent sessionId).1, Sessions.spent]
  apply h.moved hk hsent hprogress hrow hstarted houtcome hfits
  · rw [hadmitted]
    exact h.listed
  · intro k' arm progress' harming hbounded
    rw [hadmitted, hsent, countP_set_same hk (hunspent _).2]
    exact h.admitted k' arm progress' harming hbounded
  · intro k' arm progress' harming
    rw [hspent]
    exact ⟨fun hwaiting => h.unspent k' arm (hwaiting ▸ harming), h.spent k' arm progress' harming⟩
  · intro i
    rw [hmanagers]
    exact (h.managers i).later (later_set hk hsent hprogress)

end

section

variable (h : Sound s) {k : ℕ} {save : SessionSave} (hk : s.sent[k]? = some ⟨.save save, .waiting⟩)
  (hcurrent : ∀ row, s.row = some row → save.Current row)
include h hk hcurrent

omit [DecidableEq ι]

theorem Sound.row_save (hsent : s'.sent = s.sent.set k ⟨.save save, .done .saved⟩) :
    s'.RowSound (saveBoxTradingSession s.row save) ∧
      ∀ row, s.row = some row → row.KeptBy (saveBoxTradingSession s.row save) := by
  have hsave := h.saves k save .waiting hk
  have hlater : Later s s' := later_set hk hsent (by simp)
  have hspent : ∀ sessionId, s'.spent sessionId = s.spent sessionId := by
    intro sessionId
    rw [Sessions.spent, hsent, countP_set_same hk (by rfl), Sessions.spent]
  -- a save that claims the budget begins a session, any other one goes on with the row's
  cases hclaims : save.claimsAttemptBudget with
  | true =>
    obtain ⟨hsession, hcount, hzero⟩ := hsave.arming hclaims
    have hnext : saveBoxTradingSession s.row save = save.next := by
      cases s.row <;> simp [saveBoxTradingSession, hclaims]
    have harming : s.Arming k save.next .waiting := ⟨save.previous, by rw [hk, ← hclaims]⟩
    rw [hnext]
    constructor
    · constructor
      case consistent => exact hsave.next
      case arming =>
        have hlt : k < s.sent.length := (List.getElem?_eq_some_iff.mp hk).1
        refine .inr ⟨k, save.next, .done .saved, ⟨save.previous, ?_⟩, by simp, rfl, rfl, rfl⟩
        rw [hsent, List.getElem?_set_self hlt, ← hclaims]
      case spent =>
        intro _
        rw [hspent, h.unspent k save.next harming]
        exact Nat.zero_le _
      case bound =>
        intro _
        rw [hzero]
        exact Nat.zero_le _
    · intro row hrow
      have hne : save.next.sessionId ≠ row.sessionId := fun heq => (h.row_arm hrow harming heq).1 rfl
      refine ⟨fun heq => absurd heq hne, fun _ => ?_⟩
      have hprevious := h.armCount_eq hrow hsave.known (hcurrent row hrow).1
      omega
  | false =>
    have hsame := hsave.same hclaims
    cases hrow : s.row with
    | none =>
      obtain ⟨hidle, hcount, hmax⟩ := h.known_of_none hrow hsave.known
      have hidle' : save.next.sessionId = "" := hsame.sessionId.trans hidle
      have hmax' : save.next.maxEntryAttempts = 0 := hsame.maxEntryAttempts.trans hmax
      constructor
      · exact ⟨hsave.next, .inl ⟨hidle', hsame.armCount.trans hcount, hmax'⟩, fun hne => absurd hidle' hne,
          fun hpos => absurd hmax' hpos.ne'⟩
      · intro row hsome
        cases hsome
    | some row =>
      obtain ⟨hid, hknows⟩ := hcurrent row hrow
      have hcount := h.armCount_eq hrow hsave.known hid
      have hnext : saveBoxTradingSession (some row) save =
          { save.next with entryAttempts := row.entryAttempts, maxEntryAttempts := row.maxEntryAttempts } := by
        simp [saveBoxTradingSession, hclaims]
      have hsession : save.next.sessionId = row.sessionId := hsame.sessionId.trans hid
      have harmCount : save.next.armCount = row.armCount := hsame.armCount.trans hcount
      have hold := (h.row row hrow).later hlater (hspent _)
      rw [hnext]
      constructor
      · constructor
        case consistent => exact hsave.next
        case arming =>
          rcases hold.arming with ⟨hidle, hzero, hmax⟩ | ⟨k', arm, progress, harming, hreached, hid', hcount', hmax⟩
          · exact .inl ⟨hsession.trans hidle, harmCount.trans hzero, hmax⟩
          · exact .inr ⟨k', arm, progress, harming, hreached, hid'.trans hsession.symm, hcount'.trans harmCount.symm, hmax⟩
        case spent =>
          intro hne
          have hspent' := hold.spent (hsession ▸ hne)
          rwa [← hsession] at hspent'
        case bound => exact hold.bound
      · intro row' hrow'
        cases hrow'
        exact ⟨fun _ => ⟨le_rfl, hknows hclaims⟩, fun hne => absurd hsession hne⟩

theorem Sound.reachSave (hsent : s'.sent = s.sent.set k ⟨.save save, .done .saved⟩)
    (hrow : s'.row = some (saveBoxTradingSession s.row save)) (hadmitted : s'.admitted = s.admitted)
    (hmanagers : s'.managers = s.managers) : Sound s' := by
  apply h.moved_unspent hk (fun _ => ⟨by rfl, by rfl⟩) hsent (by simp) hadmitted hmanagers
  · intro row hrow'
    obtain rfl : saveBoxTradingSession s.row save = row := Option.some_inj.mp (hrow.symm.trans hrow')
    exact (h.row_save hk hcurrent hsent).1
  · intro hnone
    rw [hrow] at hnone
    cases hnone
  · rintro sessionId now outcome ⟨⟩
  · rintro outcome ⟨rfl⟩
    trivial

end

section

variable (h : Sound s) {k : ℕ} {sessionId : String} {now : ℚ}
include h

omit [DecidableEq ι]

theorem Sound.reachConsumed (hk : s.sent[k]? = some ⟨.consume sessionId now, .waiting⟩) {row : BoxSessionRecord}
    (hconsumable : consumable s.row sessionId = some row)
    (hsent : s'.sent = s.sent.set k ⟨.consume sessionId now, .done (.consumed (row.entryAttempts + 1) row.maxEntryAttempts)⟩)
    (hrow : s'.row = some { row with entryAttempts := row.entryAttempts + 1, updatedAt := now })
    (hadmitted : s'.admitted = s.admitted) (hmanagers : s'.managers = s.managers) : Sound s' := by
  obtain ⟨hsome, hok⟩ := Option.filter_eq_some_iff.mp hconsumable
  rw [decide_eq_true_eq] at hok
  obtain ⟨rfl, hroom⟩ := hok
  obtain ⟨k₀, arm₀, progress₀, harming₀, hid₀⟩ := h.consumes k row.sessionId now .waiting hk
  have hold := h.row row hsome
  have hsession : row.sessionId ≠ "" := hid₀ ▸ h.session_ne harming₀
  have hmine : s'.spent row.sessionId = s.spent row.sessionId + 1 := by
    rw [Sessions.spent, hsent, countP_set_rise hk rfl (by simp [Sent.consumedIn]), Sessions.spent]
  have hother : ∀ sessionId', sessionId' ≠ row.sessionId → s'.spent sessionId' = s.spent sessionId' := by
    intro sessionId' hne
    rw [Sessions.spent, hsent, countP_set_same hk (by simp [Sent.consumedIn, Ne.symm hne]), Sessions.spent]
  have hlater : Later s s' := later_set hk hsent (by simp)
  have hspent := hold.spent hsession
  apply h.moved hk hsent (by simp)
  case hrow =>
    intro row' hrow'
    cases hrow.symm.trans hrow'
    constructor
    case consistent => exact hold.consistent
    case arming =>
      rcases hold.arming with ⟨hidle, -⟩ | ⟨k', arm, progress, harming, hreached, hof⟩
      · exact absurd hidle hsession
      · obtain ⟨progress', harming', hreached'⟩ := harming.later hlater
        exact .inr ⟨k', arm, progress', harming', hreached' hreached, hof⟩
    case spent =>
      intro _
      change s'.spent row.sessionId ≤ row.entryAttempts + 1
      omega
    case bound =>
      intro hpos
      change 0 < row.maxEntryAttempts at hpos
      change row.entryAttempts + 1 ≤ row.maxEntryAttempts
      omega
  case hstarted =>
    intro hnone
    rw [hrow] at hnone
    cases hnone
  case houtcome =>
    rintro sessionId' now' outcome ⟨rfl⟩ ⟨rfl⟩ ceiling ⟨rfl⟩ k' arm progress harming hid hpos
    rw [(h.row_arm hsome harming hid).2.2]
    exact hpos
  case hfits =>
    rintro outcome ⟨rfl⟩
    trivial
  case hlisted =>
    rw [hadmitted]
    exact h.listed
  case hcount =>
    intro k' arm progress harming hpos
    rw [hadmitted, hsent, countP_set_same hk (by rfl)]
    exact h.admitted k' arm progress harming hpos
  case hspent =>
    intro k' arm progress harming
    by_cases hid : arm.sessionId = row.sessionId
    · obtain ⟨hreached, -, hmax⟩ := h.row_arm hsome harming hid
      refine ⟨fun hwaiting => absurd hwaiting hreached, fun hpos => ?_⟩
      rw [hid, hmine, ← hmax]
      omega
    · rw [hother _ hid]
      exact ⟨fun hwaiting => h.unspent k' arm (hwaiting ▸ harming), h.spent k' arm progress harming⟩
  case hmanagers =>
    intro i
    rw [hmanagers]
    exact (h.managers i).later hlater

theorem Sound.reachExplaining (hk : s.sent[k]? = some ⟨.consume sessionId now, .waiting⟩)
    (hsent : s'.sent = s.sent.set k ⟨.consume sessionId now, .explaining⟩) (hrow : s'.row = s.row)
    (hadmitted : s'.admitted = s.admitted) (hmanagers : s'.managers = s.managers) : Sound s' := by
  have hspent : ∀ sessionId', s'.spent sessionId' = s.spent sessionId' := by
    intro sessionId'
    rw [Sessions.spent, hsent, countP_set_same hk (by rfl), Sessions.spent]
  apply h.moved_unspent hk (fun _ => ⟨by rfl, by rfl⟩) hsent (by simp) hadmitted hmanagers
  · intro row hsome
    exact (h.row row (hrow ▸ hsome)).later (later_set hk hsent (by simp)) (hspent _)
  · exact fun hnone => ⟨hrow ▸ hnone, by simp⟩
  · rintro sessionId' now' outcome - ⟨⟩
  · rintro outcome ⟨⟩

theorem Sound.reachRefused (hk : s.sent[k]? = some ⟨.consume sessionId now, .explaining⟩)
    (hcurrent : ∀ row, s.row = some row → row.sessionId = sessionId ∨ 0 < row.maxEntryAttempts)
    (hsent : s'.sent = s.sent.set k
      ⟨.consume sessionId now, .done (.refused (s.row.map fun row => (row.entryAttempts, row.maxEntryAttempts)))⟩)
    (hrow : s'.row = s.row) (hadmitted : s'.admitted = s.admitted) (hmanagers : s'.managers = s.managers) : Sound s' := by
  have hspent : ∀ sessionId', s'.spent sessionId' = s.spent sessionId' := by
    intro sessionId'
    rw [Sessions.spent, hsent, countP_set_same hk (by rfl), Sessions.spent]
  apply h.moved_unspent hk (fun _ => ⟨by rfl, by rfl⟩) hsent (by simp) hadmitted hmanagers
  · intro row hsome
    exact (h.row row (hrow ▸ hsome)).later (later_set hk hsent (by simp)) (hspent _)
  · exact fun hnone => ⟨hrow ▸ hnone, by simp⟩
  -- a refusal shows the ceiling of the row's own session
  · rintro sessionId' now' outcome ⟨rfl⟩ ⟨rfl⟩ ceiling hceiling k' arm progress harming hid hpos
    cases hsome : s.row with
    | none => simp [Outcome.ceiling, hsome] at hceiling
    | some row =>
      obtain rfl : row.maxEntryAttempts = ceiling := by simpa [Outcome.ceiling, hsome] using hceiling
      rcases hcurrent row hsome with hsame | hbounded
      · rw [(h.row_arm hsome harming (hid.trans hsame.symm)).2.2]
        exact hpos
      · exact hbounded
  · rintro outcome ⟨rfl⟩
    trivial

end

/-! ## One step: an answer -/

omit [DecidableEq ι] in
theorem Known.adopt {record record' : BoxSessionRecord} (h : s.Known record) (hsession : record.sessionId ≠ "")
    (hid : record'.sessionId = record.sessionId) (hcount : record'.armCount = record.armCount)
    (hceiling : ∀ k arm progress, s.Arming k arm progress → arm.sessionId = record.sessionId → 0 < arm.maxEntryAttempts →
      0 < record'.maxEntryAttempts) : s.Known record' := by
  rcases h with ⟨hidle, -⟩ | ⟨k, arm, progress, harming, hreached, hof⟩
  · exact absurd hidle hsession
  · exact .inr ⟨k, arm, progress, harming, hreached, hof.sessionId.trans hid.symm, hof.armCount.trans hcount.symm,
      hceiling k arm progress harming hof.sessionId⟩

section

variable (h : Sound s) {k : ℕ}
include h

omit [DecidableEq ι]

theorem Sound.heard {statement : Statement} {outcome : Outcome} (hk : s.sent[k]? = some ⟨statement, .done outcome⟩)
    (hother : ∀ entryAttempts maxEntryAttempts, outcome ≠ .consumed entryAttempts maxEntryAttempts) :
    Sound (s.withProgress k ⟨statement, .done outcome⟩ (.answered outcome)) ∧
      Later s (s.withProgress k ⟨statement, .done outcome⟩ (.answered outcome)) := by
  have hsent : (s.withProgress k ⟨statement, .done outcome⟩ (.answered outcome)).sent =
      s.sent.set k ⟨statement, .answered outcome⟩ := rfl
  have hlater := later_set hk hsent (by simp)
  have hunspent : ∀ sessionId, Sent.consumedIn sessionId ⟨statement, .answered outcome⟩ =
      Sent.consumedIn sessionId ⟨statement, .done outcome⟩ ∧
      Sent.admittedIn sessionId ⟨statement, .answered outcome⟩ = Sent.admittedIn sessionId ⟨statement, .done outcome⟩ := by
    intro sessionId
    cases outcome with
    | consumed entryAttempts maxEntryAttempts => exact absurd rfl (hother _ _)
    | saved | refused durable => cases statement <;> exact ⟨rfl, rfl⟩
  refine ⟨h.moved_unspent hk hunspent hsent (by simp) rfl rfl ?_ ?_ ?_ ?_, hlater⟩
  · exact fun row hrow => (h.row row hrow).later hlater (countP_set_same hk (hunspent _).1)
  · refine fun hnone => ⟨hnone, fun save hsave => ?_⟩
    subst hsave
    exact absurd (h.started hnone k save _ hk) (by simp)
  · rintro sessionId now outcome' - ⟨⟩
  · rintro outcome' ⟨⟩

theorem Sound.heardConsumed {sessionId : String} {now : ℚ} {entryAttempts maxEntryAttempts : ℕ}
    (hk : s.sent[k]? = some ⟨.consume sessionId now, .done (.consumed entryAttempts maxEntryAttempts)⟩)
    (hsent : s'.sent = s.sent.set k ⟨.consume sessionId now, .answered (.consumed entryAttempts maxEntryAttempts)⟩)
    (hrow : s'.row = s.row) (hadmitted : s'.admitted = s.admitted ++ [sessionId]) (hmanagers : s'.managers = s.managers) :
    Sound s' := by
  have hlater : Later s s' := later_set hk hsent (by simp)
  have hsame : ∀ sessionId', s'.spent sessionId' = s.spent sessionId' := by
    intro sessionId'
    rw [Sessions.spent, hsent, countP_set_same hk (by rfl), Sessions.spent]
  apply h.moved hk hsent (by simp)
  case hrow => exact fun row hsome => (h.row row (hrow ▸ hsome)).later hlater (hsame _)
  case hstarted => exact fun hnone => ⟨hrow ▸ hnone, by simp⟩
  case houtcome => rintro sessionId' now' outcome - ⟨⟩
  case hfits => rintro outcome ⟨⟩
  case hlisted =>
    rw [hadmitted]
    exact Run.forall_mem_snoc h.listed (h.consumes k sessionId now _ hk)
  case hcount =>
    intro k' arm progress harming hpos
    have hold := h.admitted k' arm progress harming hpos
    rw [hadmitted, hsent, List.count_append]
    by_cases hid : sessionId = arm.sessionId
    · rw [countP_set_rise hk rfl (by simp [Sent.admittedIn, hid]), hid, List.count_singleton_self]
      omega
    · rw [countP_set_same hk (by simp [Sent.admittedIn, hid]), List.count_singleton, if_neg (by simpa using hid)]
      exact hold
  case hspent =>
    intro k' arm progress harming
    rw [hsame]
    exact ⟨fun hwaiting => h.unspent k' arm (hwaiting ▸ harming), h.spent k' arm progress harming⟩
  case hmanagers =>
    intro j
    rw [hmanagers]
    exact (h.managers j).later hlater

end

section

variable (h : Sound s) {i : ι} {k : ℕ}
include h

theorem Sound.answerCommit {previous : BoxSessionRecord} {rollbackOnFailure : Bool}
    (hawaiting : (s.managers i).awaiting = some (.commit k previous rollbackOnFailure)) {statement : Statement}
    {outcome : Outcome} (hk : s.sent[k]? = some ⟨statement, .done outcome⟩) (now : ℚ) :
    Sound ((s.withProgress k ⟨statement, .done outcome⟩ (.answered outcome)).answered i (s.managers i) outcome now) := by
  have hm := h.managers i
  have hawaits := hm.awaits
  simp only [Awaits, hawaiting] at hawaits
  obtain ⟨-, -, claims, progress, hk', hknown, -⟩ := hawaits
  cases hk.symm.trans hk'
  have hfits := h.fits k _ _ hk
  cases outcome with
  | consumed entryAttempts maxEntryAttempts => exact hfits.elim
  | refused durable => exact hfits.elim
  | saved =>
    obtain ⟨hheard, hlater⟩ := h.heard hk (by simp)
    apply hheard.withManager
    refine ⟨hm.consistent, .inl (hm.loaded_of_awaiting hawaiting), ?_⟩
    cases claims with
    | false => exact (hknown rfl).later hlater
    | true =>
      obtain ⟨progress', harming, hreached⟩ := Arming.later hlater ⟨previous, hk⟩
      exact .inr ⟨k, _, progress', harming, hreached (by simp), rfl, rfl, id⟩

theorem Sound.answerConsume (hawaiting : (s.managers i).awaiting = some (.consume k)) {statement : Statement}
    {outcome : Outcome} (hk : s.sent[k]? = some ⟨statement, .done outcome⟩) (now : ℚ) :
    Sound ((s.withProgress k ⟨statement, .done outcome⟩ (.answered outcome)).answered i (s.managers i) outcome now) := by
  have hm := h.managers i
  have hawaits := hm.awaits
  simp only [Awaits, hawaiting] at hawaits
  obtain ⟨hknown, now', progress, hk'⟩ := hawaits
  cases hk.symm.trans hk'
  obtain ⟨k₀, arm₀, progress₀, harming₀, hid₀⟩ := h.consumes k _ now' _ hk
  have hsession : (s.managers i).record.sessionId ≠ "" := hid₀ ▸ h.session_ne harming₀
  have hloaded := hm.loaded_of_awaiting hawaiting
  have hfits := h.fits k _ _ hk
  have hceilings := h.outcomes k _ now' outcome hk
  cases outcome with
  | saved => exact hfits.elim
  | refused durable =>
    obtain ⟨hheard, hlater⟩ := h.heard hk (by simp)
    cases durable with
    | none => exact hheard.withManager ⟨hm.consistent, .inl hloaded, hknown.later hlater⟩
    | some durable =>
      apply hheard.withManager
      refine ⟨hm.consistent, .inl hloaded, Known.later hlater ?_⟩
      exact hknown.adopt hsession rfl rfl (hceilings durable.2 rfl)
  | consumed entryAttempts maxEntryAttempts =>
    have hheard : Sound { s.withProgress k ⟨.consume (s.managers i).record.sessionId now',
        .done (.consumed entryAttempts maxEntryAttempts)⟩ (.answered (.consumed entryAttempts maxEntryAttempts)) with
          admitted := s.admitted ++ [(s.managers i).record.sessionId] } := h.heardConsumed hk (by rfl) rfl (by rfl) rfl
    apply hheard.withManager
    have hlater : Later s (s.withProgress k ⟨.consume (s.managers i).record.sessionId now',
        .done (.consumed entryAttempts maxEntryAttempts)⟩ (.answered (.consumed entryAttempts maxEntryAttempts))) :=
      later_set hk (by rfl) (by simp)
    refine ⟨hm.consistent, .inl hloaded, Known.later hlater ?_⟩
    exact hknown.adopt hsession rfl rfl (hceilings maxEntryAttempts rfl)

end

theorem Sound.answer (h : Sound s) (i : ι) (now : ℚ) : Sound (s.answer i now) := by
  unfold Sessions.answer
  simp only
  split
  · exact h
  next awaiting hawaiting =>
    split
    next statement outcome hk =>
      cases awaiting with
      | commit k previous rollbackOnFailure => exact h.answerCommit hawaiting hk now
      | consume k => exact h.answerConsume hawaiting hk now
    next => exact h

/-! ## Runs -/

omit [DecidableEq ι] in
theorem Sound.reach (h : Sound s) {x : Sent} (hk : s.sent[k]? = some x)
    (hcurrent : ∀ row, s.row = some row → x.Current row) :
    Sound (s.reach k x) ∧ ∀ row, s.row = some row → ∃ row' ∈ (s.reach k x).row, row.KeptBy row' := by
  have hstays : ∀ {t : Sessions ι}, t.row = s.row → ∀ row, s.row = some row → ∃ row' ∈ t.row, row.KeptBy row' :=
    fun hrow row hsome => ⟨row, hrow.trans hsome, row.keptBy_refl⟩
  obtain ⟨statement, progress⟩ := x
  unfold Sessions.reach
  split
  next save hprogress hstatement =>
    obtain rfl : progress = .waiting := hprogress
    obtain rfl : statement = .save save := hstatement
    refine ⟨h.reachSave hk hcurrent rfl rfl rfl rfl, fun row hsome => ⟨_, rfl, ?_⟩⟩
    exact (@Sound.row_save _ _ (s.withProgress k ⟨.save save, .waiting⟩ (.done .saved)) h _ _ hk hcurrent rfl).2 row hsome
  next sessionId now hprogress hstatement =>
    obtain rfl : progress = .waiting := hprogress
    obtain rfl : statement = .consume sessionId now := hstatement
    split
    next row hconsumable =>
      refine ⟨h.reachConsumed hk hconsumable rfl rfl rfl rfl, fun row' hsome => ⟨_, rfl, ?_⟩⟩
      obtain rfl : row' = row := Option.some_inj.mp (hsome.symm.trans (Option.filter_eq_some_iff.mp hconsumable).1)
      exact ⟨fun _ => ⟨Nat.le_succ _, List.Subset.refl _⟩, fun hne => absurd rfl hne⟩
    next => exact ⟨h.reachExplaining hk rfl rfl rfl rfl, hstays rfl⟩
  next sessionId now hprogress hstatement =>
    obtain rfl : progress = .explaining := hprogress
    obtain rfl : statement = .consume sessionId now := hstatement
    exact ⟨h.reachRefused hk hcurrent rfl rfl rfl rfl, hstays rfl⟩
  next => exact ⟨h, hstays rfl⟩

omit [DecidableEq ι] in
theorem keeps_of_row (hrow : s'.row = s.row) : Keeps s s' := fun row hsome => ⟨row, hrow.trans hsome, row.keptBy_refl⟩

theorem Sound.step (h : Sound s) (e : SessionStep ι) (hminted : s.Minted e) (horderly : s.Orderly e) :
    Sound (s.after configured e) ∧ Keeps s (s.after configured e) := by
  cases e with
  | restart i now => exact ⟨h.restart i now, keeps_of_row rfl⟩
  | load i now =>
    refine ⟨h.load i now, keeps_of_row ?_⟩
    simp only [Sessions.after, Sessions.load]
    split <;> rfl
  | ask i =>
    refine ⟨h.ask i, keeps_of_row ?_⟩
    simp only [Sessions.after, Sessions.ask]
    split <;> rfl
  | mutate i mutation now =>
    refine ⟨h.mutate i mutation now hminted, keeps_of_row ?_⟩
    simp only [Sessions.after, Sessions.mutate]
    split
    · rfl
    · split <;> rfl
  | reach k =>
    simp only [Sessions.after]
    cases hk : s.sent[k]? with
    | none => exact ⟨h, keeps_of_row rfl⟩
    | some x => exact h.reach hk fun row => horderly x row hk
  | answer i now =>
    refine ⟨h.answer i now, keeps_of_row ?_⟩
    simp only [Sessions.after, Sessions.answer]
    split
    · rfl
    · split
      next outcome _ =>
        unfold Sessions.answered
        split <;> rfl
      next => rfl
  | fail i =>
    refine ⟨h.fail i, keeps_of_row ?_⟩
    simp only [Sessions.after, Sessions.fail]
    split
    · rfl
    · split <;> rfl
    · rfl

omit [DecidableEq ι] in
theorem Sound.bounded (h : Sound s) : Bounded s where
  admitted := by
    intro k arm progress harming hpos
    calc s.admitted.count arm.sessionId ≤ s.sent.countP (Sent.admittedIn arm.sessionId) :=
          h.admitted k arm progress harming hpos
      _ ≤ s.spent arm.sessionId := by
          apply List.countP_mono_left
          intro x _ hx
          unfold Sent.admittedIn at hx
          split at hx
          · exact hx
          · cases hx
      _ ≤ arm.maxEntryAttempts := h.spent k arm progress harming hpos
  row := fun row hrow => (h.row row hrow).consistent
  managers := fun i => (h.managers i).consistent

/-- In a run whose sessions have new ids, and whose statements meet rows that fit them. -/
theorem bounded_run (configured : ι → Configured) {events : List (SessionStep ι)}
    (h : Run.Guarded (step configured) (fun s e => s.Minted e ∧ s.Orderly e) new events) :
    Bounded (Run.finish (step configured) new events) ∧ ∀ earlier e later, events = earlier ++ e :: later →
      Keeps (Run.finish (step configured) new earlier) (Run.finish (step configured) new (earlier ++ [e])) := by
  have hsound : ∀ {l : List (SessionStep ι)},
      Run.Guarded (step configured) (fun s e => s.Minted e ∧ s.Orderly e) new l →
        Sound (Run.finish (step configured) new l) :=
    fun hl => hl.invariant Sound (fun s e hs hok => (hs.step e hok.1 hok.2).1) .new
  refine ⟨(hsound h).bounded, ?_⟩
  rintro earlier e later rfl
  obtain ⟨hearlier, hlater⟩ := h.append
  rw [Run.finish_append]
  exact ((hsound hearlier).step e hlater.1.1 hlater.1.2).2

def limits : Bool → Configured := fun _ => ⟨.fin 0, .fin 1⟩

def trial : ArmArgs := ⟨none, none, some "admin", 0, 0, false⟩

def armed (sessionId : String) (armCount : ℕ) (now : ℚ) : BoxSessionRecord :=
  ⟨sessionId, some now, some "admin", 0, [], [], 0, 0, 1, armCount, now⟩

def told (i : Bool) (mutation : Mutation) (now : ℚ) (k : ℕ) : List (SessionStep Bool) :=
  [.mutate i mutation now, .reach k, .answer i now]

def started : List (SessionStep Bool) :=
  .load true 0 :: told true (.arm trial "S1") 1 0 ++ .load false 2 :: told true .attempt 3 1

theorem bounded_run_started : Bounded (Run.finish (step limits) new started) := by
  refine (@bounded_run _ _ limits started ?_).1
  refine ⟨⟨trivial, trivial⟩, ⟨⟨by decide, ?_⟩, trivial⟩, ⟨trivial, ?_⟩, ⟨trivial, trivial⟩, ⟨trivial, trivial⟩,
    ⟨trivial, trivial⟩, ⟨trivial, ?_⟩, ⟨trivial, trivial⟩, trivial⟩
  · intro k save progress hk
    cases hk
  · intro x row _ hrow
    cases hrow
  · intro x row hx _
    have hsent : (Run.finish (step limits) new (started.take 6)).sent[1]? = some ⟨.consume "S1" 3, .waiting⟩ := by
      decide +kernel
    cases hsent.symm.trans hx
    trivial

def revives : List (SessionStep Bool) :=
  started ++ told true (.arm trial "S2") 4 2 ++ told false .aborted 5 3 ++ told false .attempt 6 4

theorem revived : ¬Bounded (Run.finish (step limits) new revives) := by
  intro h
  have hsent : (Run.finish (step limits) new revives).sent[0]? =
      some ⟨.save ⟨idleSessionRecord 0, armed "S1" 1 1, true⟩, .answered .saved⟩ := by decide +kernel
  have hcount : (Run.finish (step limits) new revives).admitted.count "S1" = 2 := by decide +kernel
  have hle := h.admitted 0 (armed "S1" 1 1) _ ⟨_, hsent⟩ (by decide)
  change _ ≤ 1 at hle
  rw [show (armed "S1" 1 1).sessionId = "S1" from rfl, hcount] at hle
  exact absurd hle (by decide)

end Sessions

end TradingSession

end BoxEngine
