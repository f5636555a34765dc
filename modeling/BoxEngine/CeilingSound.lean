import BoxEngine.InventoryCeiling
import BoxEngine.OwnershipSound
import Mathlib.Data.Finset.Card

/-!
# Nothing exposed beside the ceiling

An exposed entry is claimed, held, being established, booked, a residual, or on its way. Where none is on its way
uncounted, the ceiling counts at least what is exposed.
-/

namespace BoxEngine

open Js BoxScanner
open scoped List

/-! ## Where the engine holds an entry -/

namespace OwnedExecutions

/-- Where an exposure may stand after its entry. -/
inductive Holds (e : OwnedExecutions) (no : ℕ) : Prop where
  | booked (pos : Booked BoxTradePayload) (mem : pos ∈ e.positions.byId) (entry : pos.position.entry = some no)
  | residual (registered : RegisteredResidual) (mem : registered ∈ e.residualByAttempt) (entry : registered.entry = some no)
  | opening (opening : OpeningTrade) (mem : opening ∈ e.openings) (entry : opening.no = no)
  | recording (attempt : RecordingAttempt) (mem : attempt ∈ e.recordings) (entry : attempt.no = no)
      (left : attempt.residual ≠ [])
  | retained (array : ℕ) (kept : RetainedExecution) (earlier : array < e.allocated) (mem : kept ∈ e.arrays array)
      (entry : kept.payload.entry = some no)

structure Numbered (e : OwnedExecutions) : Prop where
  openings : ∀ opening ∈ e.openings, opening.payload.entry = some opening.no
  allocated : e.pendingPersists < e.allocated

variable {e e' : OwnedExecutions} {no : ℕ}

structure Extends (e e' : OwnedExecutions) : Prop where
  booked : e.positions.byId ⊆ e'.positions.byId := by exact List.Subset.refl _
  residuals : e.residualByAttempt ⊆ e'.residualByAttempt := by exact List.Subset.refl _
  openings : e.openings.map OpeningTrade.no ⊆ e'.openings.map OpeningTrade.no := by exact List.Subset.refl _
  recordings : e.recordings ⊆ e'.recordings := by exact List.Subset.refl _
  allocated : e.allocated ≤ e'.allocated := by exact le_rfl
  arrays : ∀ k < e.allocated, e.arrays k ⊆ e'.arrays k := by exact fun _ _ => List.Subset.refl _

theorem Extends.holds (h : Extends e e') (hheld : e.Holds no) : e'.Holds no := by
  cases hheld with
  | booked pos mem entry => exact .booked pos (h.booked mem) entry
  | residual registered mem entry => exact .residual registered (h.residuals mem) entry
  | opening opening mem entry =>
    obtain ⟨other, hother, hno⟩ := List.mem_map.mp (h.openings (List.mem_map_of_mem mem))
    exact .opening other hother (hno.trans entry)
  | recording attempt mem entry left => exact .recording attempt (h.recordings mem) entry left
  | retained array kept earlier mem entry =>
    exact .retained array kept (earlier.trans_le h.allocated) (h.arrays array earlier mem) entry

theorem Numbered.retain (h : e.Numbered) (payload : BoxTradePayload) (preallocatedId : Option String) :
    (e.retainOwnedExecution payload preallocatedId).Numbered := ⟨h.openings, h.allocated⟩

theorem Numbered.retainUnrecorded (h : e.Numbered) (k : ℕ) (entry : FilledEntry) (now : Number) :
    (e.retainUnrecorded k entry now).Numbered := by
  unfold OwnedExecutions.retainUnrecorded
  split
  · exact h
  · exact ⟨h.openings, h.allocated⟩

theorem extends_retain (e : OwnedExecutions) (payload : BoxTradePayload) (preallocatedId : Option String) :
    Extends e (e.retainOwnedExecution payload preallocatedId) where
  booked := by rw [retain_byId]; exact List.Subset.refl _
  arrays k _ := by
    by_cases hk : k = e.pendingPersists
    · subst hk
      simp [retainOwnedExecution, pending]
    · simp [retainOwnedExecution, hk]

theorem Numbered.holds_retained (h : e.Numbered) {payload : BoxTradePayload} (hno : payload.entry = some no)
    (preallocatedId : Option String) : (e.retainOwnedExecution payload preallocatedId).Holds no :=
  .retained e.pendingPersists ⟨payload, preallocatedId⟩ h.allocated (by simp [retainOwnedExecution]) hno

theorem extends_retainUnrecorded (e : OwnedExecutions) (k : ℕ) (entry : FilledEntry) (now : Number) :
    Extends e (e.retainUnrecorded k entry now) := by
  unfold retainUnrecorded
  split
  · exact {}
  · exact { recordings := List.subset_append_left _ _ }

theorem holds_unrecorded (e : OwnedExecutions) (no : ℕ) {entry : FilledEntry} (hlegging : entry.legging.isSome = true)
    (now : Number) : (e.retainUnrecorded no entry now).Holds no := by
  obtain ⟨record, hrecord⟩ := Option.isSome_iff_exists.mp hlegging
  unfold retainUnrecorded
  rw [hrecord]
  exact .recording _ (List.mem_append_right _ (List.mem_singleton_self _)) rfl
    (residualQuantities_retained entry hrecord now).1

/-! ## Opening a trade -/

theorem Extends.trans {e'' : OwnedExecutions} (h : Extends e e') (h' : Extends e' e'') : Extends e e'' where
  booked := List.Subset.trans h.booked h'.booked
  residuals := List.Subset.trans h.residuals h'.residuals
  openings := List.Subset.trans h.openings h'.openings
  recordings := List.Subset.trans h.recordings h'.recordings
  allocated := h.allocated.trans h'.allocated
  arrays k hk := List.Subset.trans (h.arrays k hk) (h'.arrays k (hk.trans_le h.allocated))

theorem extends_openPaperTrade (e : OwnedExecutions) (mode : ExecutionMode) (k : ℕ) (entry : FilledEntry) (now : Number) :
    Extends e (e.openPaperTrade mode k entry now) := by
  unfold OwnedExecutions.openPaperTrade
  split
  · exact extends_retainUnrecorded e k entry now
  · split
    · exact (extends_retain e _ _).trans (extends_retainUnrecorded _ k entry now)
    · exact { openings := by simp }

theorem Numbered.openPaperTrade (h : e.Numbered) (mode : ExecutionMode) (k : ℕ) (entry : FilledEntry) (now : Number) :
    (e.openPaperTrade mode k entry now).Numbered := by
  unfold OwnedExecutions.openPaperTrade
  split
  · exact h.retainUnrecorded k entry now
  · split
    · exact (h.retain _ _).retainUnrecorded k entry now
    · refine ⟨fun opening hopening => ?_, h.allocated⟩
      rcases List.mem_append.mp hopening with hold | hnew
      · exact h.openings opening hold
      · rw [List.mem_singleton.mp hnew]
        rfl

theorem openings_retainUnrecorded (e : OwnedExecutions) (k : ℕ) (entry : FilledEntry) (now : Number) :
    (e.retainUnrecorded k entry now).openings = e.openings := by
  unfold retainUnrecorded
  split <;> rfl

theorem openings_openPaperTrade (e : OwnedExecutions) (mode : ExecutionMode) (k : ℕ) (entry : FilledEntry) (now : Number)
    {opening : OpeningTrade} (h : opening ∈ (e.openPaperTrade mode k entry now).openings) :
    opening ∈ e.openings ∨ opening.no = k := by
  unfold openPaperTrade at h
  split at h
  · rw [openings_retainUnrecorded] at h
    exact .inl h
  · split at h
    · rw [openings_retainUnrecorded] at h
      exact .inl h
    · rcases List.mem_append.mp h with hold | hnew
      · exact .inl hold
      · rw [List.mem_singleton.mp hnew]
        exact .inr rfl

theorem Numbered.holds_openPaperTrade (h : e.Numbered) (mode : ExecutionMode) (no : ℕ) {entry : FilledEntry}
    (hentry : entry.legging.isSome = true ∨ Insertable entry) (now : Number) :
    (e.openPaperTrade mode no entry now).Holds no := by
  unfold OwnedExecutions.openPaperTrade
  by_cases hrefused : (singleLotCandidateViolation entry.candidate).isSome ∨ pricedLegs entry.evaluation = false
  · rw [if_pos hrefused]
    rcases hentry with hlegging | ⟨-, hlot, hpriced⟩
    · exact holds_unrecorded e no hlegging now
    · simp [hlot, hpriced] at hrefused
  · rw [if_neg hrefused]
    split
    · exact (extends_retainUnrecorded _ no entry now).holds (h.holds_retained rfl none)
    · exact .opening _ (List.mem_append_right _ (List.mem_singleton_self _)) rfl

/-! ## The answers to the inserts -/

theorem Holds.takeOpening (h : e.Holds no) {opening : OpeningTrade} {openings : List OpeningTrade}
    (hperm : e.openings.Perm (opening :: openings)) (store : List BoxTradeRow) :
    opening.no = no ∨ Holds { e with store, openings } no := by
  cases h with
  | booked pos mem entry => exact .inr (.booked pos mem entry)
  | residual registered mem entry => exact .inr (.residual registered mem entry)
  | opening other mem entry =>
    rcases List.mem_cons.mp (hperm.mem_iff.mp mem) with rfl | hother
    · exact .inl entry
    · exact .inr (.opening other hother entry)
  | recording attempt mem entry left => exact .inr (.recording attempt mem entry left)
  | retained array kept earlier mem entry => exact .inr (.retained array kept earlier mem entry)

def IdOf (e : OwnedExecutions) (id : String) (entry : Option ℕ) : Prop :=
  ∀ pos ∈ e.positions.byId, pos.id = id → pos.position.entry = entry

theorem Holds.add (h : e.Holds no) {p : Booked BoxTradePayload} (hid : e.IdOf p.id p.position.entry) :
    Holds { e with positions := e.positions.add p } no := by
  cases h with
  | booked other mem entry =>
    by_cases heq : other.id = p.id
    · exact .booked p (Keyed.self_mem_put _ _) ((hid other mem heq).symm.trans entry)
    · exact .booked other (Keyed.mem_put_of_ne mem heq) entry
  | residual registered mem entry => exact .residual registered mem entry
  | opening opening mem entry => exact .opening opening mem entry
  | recording attempt mem entry left => exact .recording attempt mem entry left
  | retained array kept earlier mem entry => exact .retained array kept earlier mem entry

def InsertOwned (e : OwnedExecutions) (no : ℕ) (allocated : String) (answer : InsertAnswer) : Prop :=
  ∀ opening ∈ e.openings, opening.no = no →
    match (insertBoxTrade e.store opening.payload opening.preallocatedId allocated answer).2 with
    | .error _ => True
    | .ok none => opening.entry.legging.isSome = true
    | .ok (some row) => e.IdOf row.id (some no)

theorem inserted_cases (e : OwnedExecutions) (k : ℕ) (allocated : String) (answer : InsertAnswer) (now : Number) :
    e.inserted k allocated answer now = e ∨ ∃ opening openings store, e.openings.Perm (opening :: openings) ∧ opening.no = k ∧
      (e.inserted k allocated answer now =
          { e with store, openings := { opening with attempt := opening.attempt + 1 } :: openings } ∨
        e.inserted k allocated answer now = (OwnedExecutions.retainOwnedExecution { e with store, openings } opening.payload
          opening.preallocatedId).retainUnrecorded k opening.entry now ∨
        (insertBoxTrade e.store opening.payload opening.preallocatedId allocated answer).2 = .ok none ∧
          e.inserted k allocated answer now =
            OwnedExecutions.retainUnrecorded { e with store, openings } k opening.entry now ∨
        ∃ row, (insertBoxTrade e.store opening.payload opening.preallocatedId allocated answer).2 = .ok (some row) ∧
          e.inserted k allocated answer now =
            { e with store, openings, positions := e.positions.add ⟨row.id, opening.payload.key, opening.payload⟩ }) := by
  unfold OwnedExecutions.inserted
  cases htake : Keyed.take? OpeningTrade.no k e.openings with
  | none => exact .inl rfl
  | some found =>
    obtain ⟨opening, openings⟩ := found
    have hkey : opening.no = k := Keyed.take?_key htake
    refine .inr ⟨opening, openings, (insertBoxTrade e.store opening.payload opening.preallocatedId allocated answer).1,
      Keyed.take?_perm htake, hkey, ?_⟩
    subst hkey
    simp only
    cases (insertBoxTrade e.store opening.payload opening.preallocatedId allocated answer).2 with
    | error _ =>
      by_cases hlast : opening.attempt < persistRetryAttempts
      · exact .inl (if_pos hlast)
      · exact .inr (.inl (if_neg hlast))
    | ok row =>
      cases row with
      | none => exact .inr (.inr (.inl ⟨rfl, rfl⟩))
      | some row => exact .inr (.inr (.inr ⟨row, rfl, rfl⟩))

theorem Holds.inserted (h : e.Holds no) (hnumbered : e.Numbered) {k : ℕ} {allocated : String} {answer : InsertAnswer}
    (howned : e.InsertOwned k allocated answer) (now : Number) : (e.inserted k allocated answer now).Holds no := by
  rcases e.inserted_cases k allocated answer now with hsame | ⟨opening, openings, store, hperm, hkey, hleft⟩
  · rw [hsame]
    exact h
  have hmem : opening ∈ e.openings := hperm.mem_iff.mpr (.head _)
  have hentry : opening.payload.entry = some k := hkey ▸ hnumbered.openings opening hmem
  have hown := howned opening hmem hkey
  have hrest : k = no ∨ Holds { e with store, openings } no := hkey ▸ h.takeOpening hperm store
  rcases hleft with hleft | hleft | ⟨hresult, hleft⟩ | ⟨row, hresult, hleft⟩ <;> rw [hleft]
  · rcases hrest with rfl | hrest
    · exact .opening _ (.head _) hkey
    · exact Extends.holds { openings := by simp } hrest
  · apply (extends_retainUnrecorded _ _ _ now).holds
    rcases hrest with rfl | hrest
    · exact .retained e.pendingPersists ⟨opening.payload, opening.preallocatedId⟩ hnumbered.allocated
        (by simp [retainOwnedExecution]) hentry
    · exact (extends_retain _ _ _).holds hrest
  · rw [hresult] at hown
    rcases hrest with rfl | hrest
    · exact holds_unrecorded _ _ hown now
    · exact (extends_retainUnrecorded _ _ _ now).holds hrest
  · rw [hresult] at hown
    rcases hrest with rfl | hrest
    · exact .booked ⟨row.id, opening.payload.key, opening.payload⟩ (Keyed.self_mem_put _ _) hentry
    · have hid : IdOf { e with store, openings } row.id opening.payload.entry := by
        rw [hentry]
        exact hown
      exact hrest.add hid

theorem Numbered.inserted (h : e.Numbered) (k : ℕ) (allocated : String) (answer : InsertAnswer) (now : Number) :
    (e.inserted k allocated answer now).Numbered := by
  rcases e.inserted_cases k allocated answer now with hsame | ⟨opening, openings, store, hperm, hkey, hleft⟩
  · rw [hsame]
    exact h
  have hrest : ∀ other ∈ openings, other.payload.entry = some other.no := fun other hother =>
    h.openings other (hperm.mem_iff.mpr (.tail _ hother))
  have hleft' : Numbered { e with store, openings } := ⟨hrest, h.allocated⟩
  rcases hleft with hleft | hleft | ⟨-, hleft⟩ | ⟨row, -, hleft⟩ <;> rw [hleft]
  · refine ⟨fun other hother => ?_, h.allocated⟩
    rcases List.mem_cons.mp hother with rfl | hother
    · exact h.openings opening (hperm.mem_iff.mpr (.head _))
    · exact hrest other hother
  · exact (hleft'.retain _ _).retainUnrecorded _ _ now
  · exact hleft'.retainUnrecorded _ _ now
  · exact ⟨hrest, h.allocated⟩

theorem openings_inserted (e : OwnedExecutions) (k : ℕ) (allocated : String) (answer : InsertAnswer) (now : Number) :
    (e.inserted k allocated answer now).openings.map OpeningTrade.no ⊆ e.openings.map OpeningTrade.no := by
  rcases e.inserted_cases k allocated answer now with hsame | ⟨opening, openings, store, hperm, -, hleft⟩
  · rw [hsame]
    exact List.Subset.refl _
  have hmap : e.openings.map OpeningTrade.no ~ opening.no :: openings.map OpeningTrade.no := hperm.map _
  have hrest : openings.map OpeningTrade.no ⊆ e.openings.map OpeningTrade.no := fun k hk =>
    hmap.mem_iff.mpr (.tail _ hk)
  rcases hleft with hleft | hleft | ⟨-, hleft⟩ | ⟨row, -, hleft⟩ <;> rw [hleft]
  · exact fun k hk => hmap.mem_iff.mpr hk
  · rw [openings_retainUnrecorded]
    exact hrest
  · rw [openings_retainUnrecorded]
    exact hrest
  · exact hrest

/-! ## Attempt rows and passes over the retained payloads -/

def RecordOwned (e : OwnedExecutions) (no : ℕ) (attemptId : Option String) (now : Number) : Prop :=
  ∀ attempt ∈ e.recordings, attempt.no = no → ∀ registered ∈ e.residualByAttempt,
    registered.id = .unstored attempt.key now ∨ some registered.id = attemptId.map .stored → registered.entry = some no

theorem Holds.recorded (h : e.Holds no) {k : ℕ} {attemptId : Option String} {now : Number}
    (howned : e.RecordOwned k attemptId now) : (e.recorded k attemptId now).Holds no := by
  unfold OwnedExecutions.recorded
  cases htake : Keyed.take? RecordingAttempt.no k e.recordings with
  | none => exact h
  | some found =>
    obtain ⟨attempt, recordings⟩ := found
    have hperm := Keyed.take?_perm htake
    have hkey : attempt.no = k := Keyed.take?_key htake
    have hrest : (attempt.no = no ∧ attempt.residual ≠ []) ∨ ∀ rows, Holds { e with recordings, attemptRows := rows } no := by
      cases h with
      | booked pos mem entry => exact .inr fun _ => .booked pos mem entry
      | residual registered mem entry => exact .inr fun _ => .residual registered mem entry
      | opening opening mem entry => exact .inr fun _ => .opening opening mem entry
      | recording other mem entry left =>
        rcases List.mem_cons.mp (hperm.mem_iff.mp mem) with rfl | hother
        · exact .inl ⟨entry, left⟩
        · exact .inr fun _ => .recording other hother entry left
      | retained array kept earlier mem entry => exact .inr fun _ => .retained array kept earlier mem entry
    by_cases hnothing : attempt.residual = []
    · rcases hrest with ⟨-, hleft⟩ | hrest
      · exact absurd hnothing hleft
      · simp only [if_pos hnothing]
        exact hrest _
    · simp only [if_neg hnothing]
      have hid : ∀ registered ∈ e.residualByAttempt, registered.id =
          (attemptId.filter fun id => id ∉ e.attemptRows).elim (.unstored attempt.key now) .stored →
            registered.entry = some k := by
        intro registered hregistered heq
        refine howned attempt (hperm.mem_iff.mpr (.head _)) hkey registered hregistered ?_
        cases hstored : attemptId.filter fun id => id ∉ e.attemptRows with
        | none =>
          rw [hstored] at heq
          exact .inl heq
        | some id =>
          rw [hstored] at heq
          rw [(Option.filter_eq_some_iff.mp hstored).1]
          exact .inr (congrArg some heq)
      rcases hrest with ⟨rfl, -⟩ | hrest
      · exact .residual _ (Keyed.self_mem_put _ _) rfl
      · cases hrest [] with
        | booked pos mem entry => exact .booked pos mem entry
        | residual registered mem entry =>
          by_cases heq : registered.id =
              (attemptId.filter fun id => id ∉ e.attemptRows).elim (.unstored attempt.key now) .stored
          · have hsame : some k = some no := (hid registered mem heq).symm.trans entry
            exact .residual _ (Keyed.self_mem_put _ _) (by rw [hkey, hsame])
          · exact .residual registered (Keyed.mem_put_of_ne mem heq) entry
        | opening opening mem entry => exact .opening opening mem entry
        | recording other mem entry left => exact .recording other mem entry left
        | retained array kept earlier mem entry => exact .retained array kept earlier mem entry

theorem extends_advance (e : OwnedExecutions) (n : ℕ) (pass : DrainPass) : Extends e (e.advance n pass) := by
  unfold OwnedExecutions.advance
  split
  · exact {}
  · refine { allocated := Nat.le_succ _, arrays := fun k hk => ?_ }
    simp [hk.ne]

def DrainOwned (e : OwnedExecutions) (n : ℕ) (allocated : String) (answer : InsertAnswer) : Prop :=
  ∀ pass ∈ e.passes[n]?, ∀ kept ∈ (e.arrays pass.array)[pass.index]?,
    match (insertBoxTrade e.store kept.payload kept.preallocatedId allocated answer).2 with
    | .ok (some row) => e.IdOf row.id row.payload.entry
    | _ => True

theorem Holds.drained (h : e.Holds no) {n : ℕ} {allocated : String} {answer : InsertAnswer}
    (howned : e.DrainOwned n allocated answer) : (e.drained n allocated answer).Holds no := by
  unfold OwnedExecutions.drained
  cases hpass : e.passes[n]? with
  | none => exact h
  | some pass =>
    cases hkept : (e.arrays pass.array)[pass.index]? with
    | none => simpa only [hkept] using h
    | some kept =>
      have hown := howned pass hpass kept hkept
      simp only [hkept]
      cases hresult : (insertBoxTrade e.store kept.payload kept.preallocatedId allocated answer).2 with
      | error _ => exact (extends_advance _ n _).holds (Extends.holds {} h)
      | ok row =>
        cases row with
        | none => exact (extends_advance _ n _).holds (Extends.holds {} h)
        | some row =>
          rw [hresult] at hown
          have hadded := h.add (p := ⟨row.id, row.payload.key, row.payload⟩) hown
          exact (extends_advance _ n _).holds (Extends.holds {} hadded)

theorem openings_recorded (e : OwnedExecutions) (k : ℕ) (attemptId : Option String) (now : Number) :
    (e.recorded k attemptId now).openings = e.openings ∧ (e.Numbered → (e.recorded k attemptId now).Numbered) := by
  unfold recorded
  split
  · exact ⟨rfl, id⟩
  · dsimp only
    split
    · exact ⟨rfl, fun h => ⟨h.openings, h.allocated⟩⟩
    · exact ⟨rfl, fun h => ⟨h.openings, h.allocated⟩⟩

theorem openings_drain (e : OwnedExecutions) : e.drain.openings = e.openings ∧ (e.Numbered → e.drain.Numbered) := by
  unfold drain
  split
  · exact ⟨rfl, id⟩
  · exact ⟨rfl, fun h => ⟨h.openings, h.allocated⟩⟩

theorem extends_drain (e : OwnedExecutions) : Extends e e.drain := by
  unfold drain
  split <;> exact {}

theorem openings_advance (e : OwnedExecutions) (n : ℕ) (pass : DrainPass) :
    (e.advance n pass).openings = e.openings ∧ (e.Numbered → (e.advance n pass).Numbered) := by
  unfold advance
  split
  · exact ⟨rfl, fun h => ⟨h.openings, h.allocated⟩⟩
  · exact ⟨rfl, fun h => ⟨h.openings, Nat.lt_succ_self _⟩⟩

theorem openings_drained (e : OwnedExecutions) (n : ℕ) (allocated : String) (answer : InsertAnswer) :
    (e.drained n allocated answer).openings = e.openings ∧ (e.Numbered → (e.drained n allocated answer).Numbered) := by
  unfold drained
  split
  · exact ⟨rfl, id⟩
  · split
    · exact ⟨rfl, id⟩
    · dsimp only
      split
      · refine (openings_advance _ n _).imp id fun hnext h => hnext ⟨h.openings, h.allocated⟩
      · refine (openings_advance _ n _).imp id fun hnext h => hnext ⟨h.openings, h.allocated⟩
      · refine (openings_advance _ n _).imp id fun hnext h => hnext ⟨h.openings, h.allocated⟩

end OwnedExecutions

def EntryAnswer.HandsOver (charged : Bool) : EntryAnswer → Prop
  | .filled entry =>
    ((buildEntryChargeLegs entry.evaluation.candidate entry.evaluation.legs).isSome = true → charged = true) ∧
      (entry.legging.isSome = true ∨ OwnedExecutions.Insertable entry)
  | .refused legging _ => ∃ record ∈ legging, record.residualExposure ≠ [] ∧
      (.fin 0 < record.filledLegCount ∨ record.emergencyUnwind = true)

/-! ## Where an entry is counted, and where it passes uncounted -/

namespace BoxInventory

variable (s : BoxInventory)

def onRecord : List ℕ :=
  s.engine.positions.byId.filterMap (fun pos => pos.position.entry) ++
    s.engine.residualByAttempt.filterMap RegisteredResidual.entry

def standing : List ℕ :=
  s.entriesInFlight.filterMap (fun exec => exec.id.entryNo) ++ s.holds.filterMap (fun hold => hold.id.entryNo) ++ s.onRecord

def counted : Finset ℕ := (s.standing ++ s.establishing).toFinset

def passing : List ℕ :=
  s.pipelines.filterMap (fun pipeline => match pipeline.stage with
    | .settled _ => some pipeline.no
    | _ => none) ++
  (s.engine.recordings.filter fun attempt => attempt.residual ≠ []).map RecordingAttempt.no ++
  ((List.range s.engine.allocated).flatMap s.engine.arrays).filterMap fun kept => kept.payload.entry

inductive Coordinated (s : BoxInventory) (no : ℕ) : Prop where
  | inFlight (exec : ActiveExecution) (mem : exec ∈ s.active) (id : exec.id = .entry no)
      (entry : exec.opportunityId.isSome = true)
  | held (hold : UncertainHold) (mem : hold ∈ s.holds) (id : hold.id = .entry no)
  | settled (pipeline : EntryPipeline) (mem : pipeline ∈ s.pipelines) (entry : pipeline.no = no) (answer : EntryAnswer)
      (stage : pipeline.stage = .settled answer)

structure Covered (s : BoxInventory) : Prop where
  exposed : ∀ no ∈ s.exposed, s.Coordinated no ∨ s.engine.Holds no
  numbered : s.engine.Numbered
  establishing : s.engine.openings.map OpeningTrade.no ⊆ s.establishing
  pending : s.pendingEstablishments = s.establishing.length

variable {s : BoxInventory} {no : ℕ}

theorem mem_onRecord : no ∈ s.onRecord ↔ (∃ pos ∈ s.engine.positions.byId, pos.position.entry = some no) ∨
    ∃ registered ∈ s.engine.residualByAttempt, registered.entry = some no := by
  simp [onRecord, List.mem_filterMap]

theorem holds_of_onRecord (h : no ∈ s.onRecord) : s.engine.Holds no := by
  rcases mem_onRecord.mp h with ⟨pos, mem, entry⟩ | ⟨registered, mem, entry⟩
  · exact .booked pos mem entry
  · exact .residual registered mem entry

variable {id : ExecutionId}

theorem entryNo_eq_some : id.entryNo = some no ↔ id = .entry no := by
  cases id <;> simp [ExecutionId.entryNo]

theorem mem_standing : no ∈ s.standing ↔
    (∃ exec ∈ s.active, exec.id = .entry no ∧ exec.opportunityId.isSome = true) ∨
      (∃ hold ∈ s.holds, hold.id = .entry no) ∨ no ∈ s.onRecord := by
  simp only [standing, entriesInFlight, List.mem_append, List.mem_filterMap, List.mem_filter, entryNo_eq_some, or_assoc]
  refine or_congr (exists_congr fun exec => ?_) Iff.rfl
  rw [and_assoc, and_comm (a := exec.opportunityId.isSome = true)]

theorem mem_passing : no ∈ s.passing ↔
    (∃ pipeline ∈ s.pipelines, pipeline.no = no ∧ ∃ answer, pipeline.stage = .settled answer) ∨
      (∃ attempt ∈ s.engine.recordings, attempt.no = no ∧ attempt.residual ≠ []) ∨
      ∃ array < s.engine.allocated, ∃ kept ∈ s.engine.arrays array, kept.payload.entry = some no := by
  simp only [passing, List.mem_append, or_assoc]
  refine or_congr ?_ (or_congr ?_ ?_)
  · rw [List.mem_filterMap]
    refine exists_congr fun pipeline => and_congr_right fun _ => ?_
    cases pipeline.stage <;> simp
  · simp only [List.mem_map, List.mem_filter, decide_eq_true_eq]
    exact exists_congr fun attempt => ⟨fun h => ⟨h.1.1, h.2, h.1.2⟩, fun h => ⟨⟨h.1, h.2.2⟩, h.2.1⟩⟩
  · simp only [List.mem_filterMap, List.mem_flatMap, List.mem_range]
    constructor
    · rintro ⟨kept, ⟨array, harray, hkept⟩, hentry⟩
      exact ⟨array, harray, kept, hkept, hentry⟩
    · rintro ⟨array, harray, kept, hkept, hentry⟩
      exact ⟨kept, ⟨array, harray, hkept⟩, hentry⟩

theorem coordinated_of_passing (h : no ∈ s.passing) : s.Coordinated no ∨ s.engine.Holds no := by
  rcases mem_passing.mp h with ⟨pipeline, mem, entry, answer, stage⟩ | ⟨attempt, mem, entry, left⟩ |
      ⟨array, earlier, kept, mem, entry⟩
  · exact .inl (.settled pipeline mem entry answer stage)
  · exact .inr (.recording attempt mem entry left)
  · exact .inr (.retained array kept earlier mem entry)

theorem Covered.counted_or_passing (h : s.Covered) (hno : no ∈ s.exposed) : no ∈ s.counted ∨ no ∈ s.passing := by
  have hstanding : no ∈ s.standing → no ∈ s.counted ∨ no ∈ s.passing := fun hno =>
    .inl (List.mem_toFinset.mpr (List.mem_append_left _ hno))
  rcases h.exposed no hno with hcoordinated | hheld
  · cases hcoordinated with
    | inFlight exec mem id entry => exact hstanding (mem_standing.mpr (.inl ⟨exec, mem, id, entry⟩))
    | held hold mem id => exact hstanding (mem_standing.mpr (.inr (.inl ⟨hold, mem, id⟩)))
    | settled pipeline mem entry answer stage => exact .inr (mem_passing.mpr (.inl ⟨pipeline, mem, entry, answer, stage⟩))
  · cases hheld with
    | booked pos mem entry =>
      exact hstanding (mem_standing.mpr (.inr (.inr (mem_onRecord.mpr (.inl ⟨pos, mem, entry⟩)))))
    | residual registered mem entry =>
      exact hstanding (mem_standing.mpr (.inr (.inr (mem_onRecord.mpr (.inr ⟨registered, mem, entry⟩)))))
    | opening opening mem entry =>
      refine .inl (List.mem_toFinset.mpr (List.mem_append_right _ (h.establishing ?_)))
      exact List.mem_map.mpr ⟨opening, mem, entry⟩
    | recording attempt mem entry left => exact .inr (mem_passing.mpr (.inr (.inl ⟨attempt, mem, entry, left⟩)))
    | retained array kept earlier mem entry =>
      exact .inr (mem_passing.mpr (.inr (.inr ⟨array, earlier, kept, mem, entry⟩)))

theorem Covered.counted_le (h : s.Covered) : s.counted.card ≤ s.held := by
  have hlength := List.toFinset_card_le (s.standing ++ s.establishing)
  have hflight := List.length_filterMap_le (fun exec : ActiveExecution => exec.id.entryNo) s.entriesInFlight
  have hholds := List.length_filterMap_le (fun hold : UncertainHold => hold.id.entryNo) s.holds
  have hbooked := List.length_filterMap_le (fun pos : Booked BoxTradePayload => pos.position.entry) s.engine.positions.byId
  have hresiduals := List.length_filterMap_le RegisteredResidual.entry s.engine.residualByAttempt
  have hpending := h.pending
  simp only [counted, held, boxInventoryCount, standing, onRecord, List.length_append] at hlength ⊢
  omega

/-! ## One step at a time -/

section

variable (h : s.Coordinated no)
include h

theorem Coordinated.congr {s' : BoxInventory} (hactive : s'.active = s.active) (hholds : s'.holds = s.holds)
    (hpipelines : s'.pipelines = s.pipelines) : s'.Coordinated no := by
  cases h with
  | inFlight exec mem id entry => exact .inFlight exec (hactive ▸ mem) id entry
  | held hold mem id => exact .held hold (hholds ▸ mem) id
  | settled pipeline mem entry answer stage => exact .settled pipeline (hpipelines ▸ mem) entry answer stage

theorem Coordinated.takePipeline {pipeline : EntryPipeline} {pipelines : List EntryPipeline}
    (hperm : s.pipelines.Perm (pipeline :: pipelines))
    (hother : pipeline.no = no → ∀ answer, pipeline.stage ≠ .settled answer) : Coordinated { s with pipelines } no := by
  cases h with
  | inFlight exec mem id entry => exact .inFlight exec mem id entry
  | held hold mem id => exact .held hold mem id
  | settled other mem entry answer stage =>
    rcases List.mem_cons.mp (hperm.mem_iff.mp mem) with rfl | hrest
    · exact absurd stage (hother entry answer)
    · exact .settled other hrest entry answer stage

theorem Coordinated.putPipeline (pipeline : EntryPipeline) :
    Coordinated { s with pipelines := pipeline :: s.pipelines } no := by
  cases h with
  | inFlight exec mem id entry => exact .inFlight exec mem id entry
  | held hold mem id => exact .held hold mem id
  | settled other mem entry answer stage => exact .settled other (.tail _ mem) entry answer stage

theorem Coordinated.abandon (hid : id ≠ .entry no) : (s.abandon id).Coordinated no := by
  cases h with
  | inFlight exec mem hexec entry =>
    refine .inFlight exec (List.mem_filter.mpr ⟨mem, ?_⟩) hexec entry
    rw [hexec]
    exact decide_eq_true (Ne.symm hid)
  | held hold mem hhold => exact .held hold mem hhold
  | settled other mem entry answer stage => exact .settled other mem entry answer stage

theorem Coordinated.retain (id : ExecutionId) (exec : Option ActiveExecution) (now : ℚ) :
    (s.retain id exec now).Coordinated no := by
  unfold BoxInventory.retain
  split
  · cases h with
    | inFlight exec mem hexec entry => exact .inFlight exec mem hexec entry
    | held hold mem hhold =>
      by_cases heq : hold.id = id
      · exact .held _ (Keyed.self_mem_put _ _) (heq.symm.trans hhold)
      · exact .held hold (Keyed.mem_put_of_ne mem heq) hhold
    | settled other mem entry answer stage => exact .settled other mem entry answer stage
  · exact h

theorem Coordinated.holdOnUncertainty (hid : id ≠ .entry no) (now : ℚ) :
    (s.holdOnUncertainty id now).Coordinated no := (h.abandon hid).retain _ _ _

theorem Coordinated.settle (hid : id ≠ .entry no) (outcome : Certainty) (now : ℚ) :
    (s.settle id outcome now).Coordinated no := by
  cases outcome with
  | clean => exact h.abandon hid
  | uncertain => exact h.holdOnUncertainty hid now

end

structure SameRest (s s' : BoxInventory) : Prop where
  engine : s'.engine = s.engine
  establishing : s'.establishing = s.establishing
  pending : s'.pendingEstablishments = s.pendingEstablishments
  exposed : s'.exposed = s.exposed

theorem sameRest_retain (s : BoxInventory) (id : ExecutionId) (exec : Option ActiveExecution) (now : ℚ) :
    SameRest s (s.retain id exec now) := by
  unfold retain
  split <;> exact ⟨rfl, rfl, rfl, rfl⟩

theorem sameRest_holdOnUncertainty (s : BoxInventory) (id : ExecutionId) (now : ℚ) : SameRest s (s.holdOnUncertainty id now) :=
  ⟨(sameRest_retain (s.abandon id) id _ now).engine, (sameRest_retain (s.abandon id) id _ now).establishing,
    (sameRest_retain (s.abandon id) id _ now).pending, (sameRest_retain (s.abandon id) id _ now).exposed⟩

theorem sameRest_settle (s : BoxInventory) (id : ExecutionId) (outcome : Certainty) (now : ℚ) :
    SameRest s (s.settle id outcome now) := by
  cases outcome with
  | clean => exact ⟨rfl, rfl, rfl, rfl⟩
  | uncertain => exact sameRest_holdOnUncertainty s id now

theorem Covered.sameRest (h : s.Covered) {s' : BoxInventory} (hrest : SameRest s s')
    (hno : ∀ no ∈ s.exposed, s.Coordinated no → s'.Coordinated no ∨ s'.engine.Holds no) : s'.Covered where
  exposed no hexposed := by
    rw [hrest.exposed] at hexposed
    rcases h.exposed no hexposed with hcoordinated | hheld
    · exact hno no hexposed hcoordinated
    · rw [hrest.engine]
      exact .inr hheld
  numbered := by
    rw [hrest.engine]
    exact h.numbered
  establishing := by
    rw [hrest.engine, hrest.establishing]
    exact h.establishing
  pending := by
    rw [hrest.pending, hrest.establishing]
    exact h.pending

theorem Covered.flat (h : s.Covered) {exposed : Finset ℕ} (hless : exposed ⊆ s.exposed) : Covered { s with exposed } where
  exposed no hno := by
    rcases h.exposed no (hless hno) with hcoordinated | hheld
    · exact .inl (hcoordinated.congr rfl rfl rfl)
    · exact .inr hheld
  numbered := h.numbered
  establishing := h.establishing
  pending := h.pending

/-! ## The runs -/

def KeepsLease (s : BoxInventory) (no : ℕ) : Prop :=
  (s.active.find? fun exec => exec.id = .entry no).any (fun exec => exec.leased && !exec.ownershipLost) = true

/-- No claim while an entry passes uncounted; a hold ends when something else has the entry, and answers are handed
on. -/
def Seamless (cfg : CeilingConfig) (s : BoxInventory) : InventoryEvent → Prop
  | .entry _ _ _ refused => s.claims cfg refused = true → ∀ no ∈ s.passing, no ∈ s.exposed → no ∈ s.counted
  | .threw no _ => no ∈ s.exposed → s.KeepsLease no
  | .resumed no charged _ => no ∈ s.exposed → ∀ pipeline ∈ s.pipelines, pipeline.no = no → ∀ answer,
      pipeline.stage = .settled answer → answer.HandsOver charged ∨ no ∈ s.standing
  | .inserted no allocated answer _ => s.engine.InsertOwned no allocated answer
  | .recorded no attemptId now => s.engine.RecordOwned no attemptId now
  | .drained n allocated answer => s.engine.DrainOwned n allocated answer
  | .holdRenewed id outcome now => ∀ no ∈ s.exposed, id = .entry no →
      (∃ hold ∈ s.holds, hold.id = id ∧ endsHold cfg outcome now hold = true) → no ∈ s.onRecord ∨ no ∈ s.passing
  | _ => True

theorem Covered.coordinateEntry (h : s.Covered) (cfg : CeilingConfig) (key opportunityId underlying : String)
    (refused : Bool) : (s.coordinateEntry cfg key opportunityId underlying refused).Covered := by
  unfold BoxInventory.coordinateEntry
  split
  · refine ⟨fun no hno => ?_, h.numbered, h.establishing, h.pending⟩
    rcases Finset.mem_insert.mp hno with rfl | hold
    · exact .inl (.inFlight _ (List.mem_append_right _ (List.mem_singleton_self _)) rfl rfl)
    · refine (h.exposed no hold).imp_left fun hcoordinated => ?_
      cases hcoordinated with
      | inFlight exec mem id entry => exact .inFlight exec (List.mem_append_left _ mem) id entry
      | held hold mem id => exact .held hold mem id
      | settled pipeline mem entry answer stage => exact .settled pipeline (List.mem_append_left _ mem) entry answer stage
  · exact h.sameRest ⟨rfl, rfl, rfl, rfl⟩ fun _ _ hcoordinated => .inl (hcoordinated.congr rfl rfl rfl)

theorem Covered.abandonEntry (h : s.Covered) (k : ℕ) : (s.abandonEntry k).Covered := by
  unfold BoxInventory.abandonEntry
  split
  · rename_i key pipelines htake
    have hperm := Keyed.take?_perm htake
    have hflat := h.flat (Finset.erase_subset k s.exposed)
    refine hflat.sameRest ⟨rfl, rfl, rfl, rfl⟩ fun no hno hcoordinated => .inl ?_
    have hne : ExecutionId.entry k ≠ .entry no := fun heq =>
      (Finset.mem_erase.mp hno).1 (ExecutionId.entry.inj heq).symm
    exact (hcoordinated.takePipeline hperm fun _ answer hstage => by cases hstage).abandon hne
  · exact h

theorem Covered.grant (h : s.Covered) (k : ℕ) (leased : Bool) : (s.grant k leased).Covered := by
  unfold BoxInventory.grant
  split
  · rename_i key pipelines htake
    have hperm := Keyed.take?_perm htake
    refine h.sameRest ⟨rfl, rfl, rfl, rfl⟩ fun no _ hcoordinated => .inl ?_
    cases (hcoordinated.takePipeline hperm fun _ answer hstage => by cases hstage).putPipeline ⟨k, key, .executing⟩ with
    | inFlight exec mem id entry =>
      by_cases hk : exec.id = .entry k
      · exact .inFlight { exec with leased } (List.mem_map.mpr ⟨exec, mem, if_pos hk⟩) id entry
      · exact .inFlight exec (List.mem_map.mpr ⟨exec, mem, if_neg hk⟩) id entry
    | held hold mem id => exact .held hold mem id
    | settled pipeline mem entry answer stage => exact .settled pipeline mem entry answer stage
  · exact h

section

variable (h : s.Covered)
include h

theorem Covered.answer (k : ℕ) (answer : EntryAnswer) : (s.answer k answer).Covered := by
  unfold BoxInventory.answer
  split
  · rename_i key pipelines htake
    have hperm := Keyed.take?_perm htake
    have hless : (if answer.flat then s.exposed.erase k else s.exposed) ⊆ s.exposed := by
      split
      · exact Finset.erase_subset k s.exposed
      · exact Finset.Subset.refl _
    refine (h.flat hless).sameRest ⟨rfl, rfl, rfl, rfl⟩ fun no _ hcoordinated => .inl ?_
    exact (hcoordinated.takePipeline hperm fun _ answer hstage => by cases hstage).putPipeline _
  · exact h

theorem Covered.holdThrown {k : ℕ} {pipeline : EntryPipeline} {pipelines : List EntryPipeline}
    (hperm : s.pipelines.Perm (pipeline :: pipelines)) (hstage : ∀ answer, pipeline.stage ≠ .settled answer)
    (hkeeps : k ∈ s.exposed → s.KeepsLease k) (now : ℚ) :
    (BoxInventory.holdOnUncertainty { s with pipelines } (.entry k) now).Covered := by
  have htaken : Covered { s with pipelines } := by
    refine h.sameRest ⟨rfl, rfl, rfl, rfl⟩ fun no _ hcoordinated => .inl ?_
    exact hcoordinated.takePipeline hperm fun _ => hstage
  refine htaken.sameRest (sameRest_holdOnUncertainty _ _ now) fun no hno hcoordinated => .inl ?_
  by_cases hk : no = k
  · subst hk
    refine .held ⟨.entry no, now⟩ ?_ rfl
    have hlease := hkeeps hno
    unfold KeepsLease at hlease
    unfold BoxInventory.holdOnUncertainty BoxInventory.retain
    rw [if_pos hlease]
    exact Keyed.self_mem_put _ _
  · exact hcoordinated.holdOnUncertainty (fun heq => hk (ExecutionId.entry.inj heq).symm) now

theorem Covered.throwEntry (k : ℕ) (now : ℚ) (hkeeps : k ∈ s.exposed → s.KeepsLease k) :
    (s.throwEntry k now).Covered := by
  unfold BoxInventory.throwEntry
  split
  · rename_i htake
    exact h.holdThrown (Keyed.take?_perm htake) (fun answer hstage => by cases hstage) hkeeps now
  · rename_i htake
    exact h.holdThrown (Keyed.take?_perm htake) (fun answer hstage => by cases hstage) hkeeps now
  · exact h

theorem Covered.settleEntry (k : ℕ) (now : ℚ) : (s.settleEntry k now).Covered := by
  unfold BoxInventory.settleEntry
  split
  · rename_i no' key answer pipelines htake
    have hperm := Keyed.take?_perm htake
    let settled : BoxInventory := { s with pipelines := ⟨k, key, .settled answer⟩ :: pipelines }
    have hsettled : settled.Covered := by
      refine h.sameRest ⟨rfl, rfl, rfl, rfl⟩ fun no _ hcoordinated => .inl ?_
      exact (hcoordinated.takePipeline hperm fun _ answer hstage => by cases hstage).putPipeline _
    refine hsettled.sameRest (sameRest_settle _ _ _ now) fun no _ hcoordinated => .inl ?_
    by_cases hk : no = k
    · subst hk
      have hpipelines : (settled.settle (.entry no) answer.certainty now).pipelines = settled.pipelines := by
        cases answer.certainty with
        | clean => rfl
        | uncertain =>
          unfold BoxInventory.settle BoxInventory.holdOnUncertainty BoxInventory.retain
          dsimp only
          split <;> rfl
      refine .settled ⟨no, key, .settled answer⟩ ?_ rfl answer rfl
      rw [hpipelines]
      exact .head _
    · exact hcoordinated.settle (fun heq => hk (ExecutionId.entry.inj heq).symm) _ now
  · exact h

theorem Covered.engine {e : OwnedExecutions} (hnumbered : e.Numbered)
    (hopenings : e.openings.map OpeningTrade.no ⊆ s.establishing)
    (hheld : ∀ no ∈ s.exposed, s.engine.Holds no → e.Holds no) : Covered { s with engine := e } where
  exposed no hno := by
    rcases h.exposed no hno with hcoordinated | hold
    · exact .inl (hcoordinated.congr rfl rfl rfl)
    · exact .inr (hheld no hno hold)
  numbered := hnumbered
  establishing := hopenings
  pending := h.pending

theorem Covered.resume (cfg : CeilingConfig) (k : ℕ) (charged : Bool) (now : Number)
    (hseamless : s.Seamless cfg (.resumed k charged now)) : (s.resume cfg k charged now).Covered := by
  -- the call that resumes either held its exposure itself or left it standing elsewhere
  have hrest : ∀ {pipeline : EntryPipeline} {pipelines : List EntryPipeline}, Keyed.take? EntryPipeline.no k s.pipelines =
      some (pipeline, pipelines) → ∀ answer, pipeline.stage = .settled answer → ∀ no ∈ s.exposed,
        (no = k ∧ answer.HandsOver charged) ∨ Coordinated { s with pipelines } no ∨ s.engine.Holds no := by
    intro pipeline pipelines htake answer hstage no hno
    have hperm := Keyed.take?_perm htake
    have hkey : pipeline.no = k := Keyed.take?_key htake
    by_cases hk : no = k
    · subst hk
      have hmem : pipeline ∈ s.pipelines := hperm.mem_iff.mpr (.head _)
      rcases hseamless hno pipeline hmem hkey answer hstage with hhands | hstands
      · exact .inl ⟨rfl, hhands⟩
      · refine .inr ?_
        rcases mem_standing.mp hstands with ⟨exec, mem, id, entry⟩ | ⟨hold, mem, id⟩ | hrecord
        · exact .inl (.inFlight exec mem id entry)
        · exact .inl (.held hold mem id)
        · exact .inr (holds_of_onRecord hrecord)
    · refine .inr ((h.exposed no hno).imp_left fun hcoordinated => hcoordinated.takePipeline hperm ?_)
      intro heq
      exact absurd (heq.symm.trans hkey) hk
  unfold BoxInventory.resume
  split
  -- a fill without legs to book is retained, any other one opens a trade
  · rename_i _ key entry pipelines htake
    have hleft := hrest htake _ rfl
    unfold BoxInventory.establish
    split
    · have hextends := s.engine.extends_retainUnrecorded k entry now
      refine ⟨fun no hno => ?_, h.numbered.retainUnrecorded k entry now, ?_, h.pending⟩
      · rcases hleft no hno with ⟨rfl, -, hentry⟩ | hcoordinated | hheld
        · rcases hentry with hlegging | hinsertable
          · exact .inr (OwnedExecutions.holds_unrecorded _ _ hlegging now)
          · rename_i hnone
            have hlegs := hinsertable.1
            rw [hnone] at hlegs
            cases hlegs
        · exact .inl (hcoordinated.congr rfl rfl rfl)
        · exact .inr (hextends.holds hheld)
      · rw [OwnedExecutions.openings_retainUnrecorded]
        exact h.establishing
    · rename_i legs hlegs
      have hextends := s.engine.extends_openPaperTrade cfg.executionMode k entry now
      split
      · refine ⟨fun no hno => ?_, h.numbered.openPaperTrade _ k entry now, ?_, by simp [h.pending]⟩
        · rcases hleft no hno with ⟨rfl, -, hentry⟩ | hcoordinated | hheld
          · exact .inr (h.numbered.holds_openPaperTrade _ _ hentry now)
          · exact .inl (hcoordinated.congr rfl rfl rfl)
          · exact .inr (hextends.holds hheld)
        · intro no hno
          obtain ⟨opening, hopening, rfl⟩ := List.mem_map.mp hno
          rcases s.engine.openings_openPaperTrade _ k entry now hopening with hold | hnew
          · exact List.mem_append_left _ (h.establishing (List.mem_map_of_mem hold))
          · exact List.mem_append_right _ (by simp [hnew])
      · rename_i hthrew
        refine ⟨fun no hno => ?_, h.numbered, h.establishing, h.pending⟩
        rcases hleft no hno with ⟨rfl, hcharged, -⟩ | hheld
        · exact absurd (hcharged (by rw [hlegs]; rfl)) hthrew
        · exact hheld
  · rename_i _ key legging reason pipelines htake
    have hleft := hrest htake _ rfl
    unfold BoxInventory.handRefusal
    cases legging with
    | none =>
      refine ⟨fun no hno => ?_, h.numbered, h.establishing, h.pending⟩
      rcases hleft no hno with ⟨-, record, hrecord, -⟩ | hheld
      · cases hrecord
      · exact hheld
    | some record =>
      dsimp only
      split
      · refine ⟨fun no hno => ?_, ⟨h.numbered.openings, h.numbered.allocated⟩, h.establishing, h.pending⟩
        rcases hleft no hno with ⟨rfl, record', hrecord, hresidual, -⟩ | hcoordinated | hheld
        · obtain rfl := Option.mem_some_iff.mp hrecord
          exact .inr (.recording _ (List.mem_append_right _ (List.mem_singleton_self _)) rfl hresidual)
        · exact .inl (hcoordinated.congr rfl rfl rfl)
        · exact .inr (OwnedExecutions.Extends.holds { recordings := List.subset_append_left _ _ } hheld)
      · rename_i hunhanded
        refine ⟨fun no hno => ?_, h.numbered, h.establishing, h.pending⟩
        rcases hleft no hno with ⟨-, record', hrecord, -, hfilled⟩ | hheld
        · obtain rfl := Option.mem_some_iff.mp hrecord
          exact absurd hfilled hunhanded
        · exact hheld
  · exact h

theorem Covered.returned (k : ℕ) : (s.returned k).Covered := by
  unfold BoxInventory.returned
  split
  · rename_i hcall
    obtain ⟨hmem, hopenings⟩ := hcall
    refine ⟨fun no hno => ?_, h.numbered, fun no hno => ?_, ?_⟩
    · exact (h.exposed no hno).imp_left fun hcoordinated => hcoordinated.congr rfl rfl rfl
    · refine (List.mem_erase_of_ne ?_).mpr (h.establishing hno)
      rintro rfl
      exact hopenings hno
    · rw [List.length_erase_of_mem hmem, h.pending]
  · exact h

theorem Covered.exitAcquired (underlying : String) (leased : Bool) : Covered { s with
    seq := s.seq + 1, active := s.active ++ [⟨.exit s.seq, none, underlying, leased, false⟩] } := by
  refine h.sameRest ⟨rfl, rfl, rfl, rfl⟩ fun no _ hcoordinated => .inl ?_
  cases hcoordinated with
  | inFlight exec mem id entry => exact .inFlight exec (List.mem_append_left _ mem) id entry
  | held hold mem id => exact .held hold mem id
  | settled pipeline mem entry answer stage => exact .settled pipeline mem entry answer stage

theorem Covered.exitSettled (seq : ℕ) (outcome : Certainty) (now : ℚ) : (s.settle (.exit seq) outcome now).Covered :=
  h.sameRest (sameRest_settle _ _ _ now) fun _ _ hcoordinated => .inl (hcoordinated.settle (by simp) outcome now)

theorem Covered.renewActive (id : ExecutionId) (outcome : LeaseRenewal) : (s.renewActive id outcome).Covered := by
  refine h.sameRest ⟨rfl, rfl, rfl, rfl⟩ fun no _ hcoordinated => .inl ?_
  cases hcoordinated with
  | inFlight exec mem hexec entry =>
    by_cases hlost : exec.id = id ∧ exec.leased = true ∧ outcome ≠ .renewed
    · exact .inFlight { exec with ownershipLost := true } (List.mem_map.mpr ⟨exec, mem, if_pos hlost⟩) hexec entry
    · exact .inFlight exec (List.mem_map.mpr ⟨exec, mem, if_neg hlost⟩) hexec entry
  | held hold mem hhold => exact .held hold mem hhold
  | settled pipeline mem entry answer stage => exact .settled pipeline mem entry answer stage

theorem Covered.renewHold (cfg : CeilingConfig) (id : ExecutionId) (outcome : LeaseRenewal) (now : ℚ)
    (hseamless : s.Seamless cfg (.holdRenewed id outcome now)) : (s.renewHold cfg id outcome now).Covered := by
  refine h.sameRest ⟨rfl, rfl, rfl, rfl⟩ fun no hno hcoordinated => ?_
  cases hcoordinated with
  | inFlight exec mem hexec entry => exact .inl (.inFlight exec mem hexec entry)
  | held hold mem hhold =>
    by_cases hends : hold.id = id ∧ endsHold cfg outcome now hold = true
    · rcases hseamless no hno (hends.1.symm.trans hhold) ⟨hold, mem, hends⟩ with hrecord | hpassing
      · exact .inr (holds_of_onRecord hrecord)
      · exact coordinated_of_passing (s := s.renewHold cfg id outcome now) hpassing
    · refine .inl (.held hold (List.mem_filter.mpr ⟨mem, ?_⟩) hhold)
      exact decide_eq_true hends
  | settled pipeline mem entry answer stage => exact .inl (.settled pipeline mem entry answer stage)

theorem Covered.registerResidual (id : AttemptId) (remaining : List EntryResidual) :
    (s.registerResidual id remaining).Covered := by
  unfold BoxInventory.registerResidual
  dsimp only
  split
  · refine (h.flat (Finset.filter_subset _ s.exposed)).engine ⟨h.numbered.openings, h.numbered.allocated⟩ h.establishing ?_
    intro no hno hheld
    cases hheld with
    | residual registered mem entry =>
      refine .residual registered (List.mem_filter.mpr ⟨mem, decide_eq_true ?_⟩) entry
      intro heq
      exact (Finset.mem_filter.mp hno).2 registered mem heq entry
    | booked pos mem entry => exact .booked pos mem entry
    | opening opening mem entry => exact .opening opening mem entry
    | recording attempt mem entry left => exact .recording attempt mem entry left
    | retained array kept earlier mem entry => exact .retained array kept earlier mem entry
  · split
    · refine h.engine ⟨h.numbered.openings, h.numbered.allocated⟩ h.establishing fun no _ hheld => ?_
      cases hheld with
      | residual registered mem entry =>
        by_cases heq : registered.id = id
        · exact .residual { registered with residual := remaining } (List.mem_map.mpr ⟨registered, mem, if_pos heq⟩) entry
        · exact .residual registered (List.mem_map.mpr ⟨registered, mem, if_neg heq⟩) entry
      | booked pos mem entry => exact .booked pos mem entry
      | opening opening mem entry => exact .opening opening mem entry
      | recording attempt mem entry left => exact .recording attempt mem entry left
      | retained array kept earlier mem entry => exact .retained array kept earlier mem entry
    · refine h.engine ⟨h.numbered.openings, h.numbered.allocated⟩ h.establishing fun no _ hheld => ?_
      exact OwnedExecutions.Extends.holds { residuals := List.subset_append_left _ _ } hheld

theorem Covered.close (id : String) : (s.close id).Covered := by
  refine (h.flat (Finset.filter_subset _ s.exposed)).engine ⟨h.numbered.openings, h.numbered.allocated⟩ h.establishing ?_
  intro no hno hheld
  cases hheld with
  | booked pos mem entry =>
    have hne : pos.id ≠ id := fun heq => (Finset.mem_filter.mp hno).2 pos mem heq entry
    exact .booked pos (PositionBook.mem_remove_of_ne mem hne) entry
  | residual registered mem entry => exact .residual registered mem entry
  | opening opening mem entry => exact .opening opening mem entry
  | recording attempt mem entry left => exact .recording attempt mem entry left
  | retained array kept earlier mem entry => exact .retained array kept earlier mem entry

/-! ## Runs -/

theorem Covered.step {cfg : CeilingConfig} (event : InventoryEvent) (hseamless : s.Seamless cfg event) :
    (s.step cfg event).1.Covered := by
  cases event with
  | entry key opportunityId underlying refused => exact h.coordinateEntry cfg key opportunityId underlying refused
  | abandoned k => exact h.abandonEntry k
  | granted k leased => exact h.grant k leased
  | answered k answer => exact h.answer k answer
  | threw k now => exact h.throwEntry k now hseamless
  | settled k now => exact h.settleEntry k now
  | resumed k charged now => exact h.resume cfg k charged now hseamless
  | returned k => exact h.returned k
  | inserted k allocated answer now =>
    refine h.engine (h.numbered.inserted k allocated answer now) ?_ fun no _ hheld => hheld.inserted h.numbered hseamless now
    exact List.Subset.trans (s.engine.openings_inserted k allocated answer now) h.establishing
  | recorded k attemptId now =>
    obtain ⟨hopenings, hnumbered⟩ := s.engine.openings_recorded k attemptId now
    refine h.engine (hnumbered h.numbered) ?_ fun no _ hheld => hheld.recorded hseamless
    rw [hopenings]
    exact h.establishing
  | drain =>
    obtain ⟨hopenings, hnumbered⟩ := s.engine.openings_drain
    refine h.engine (hnumbered h.numbered) ?_ fun no _ hheld => s.engine.extends_drain.holds hheld
    rw [hopenings]
    exact h.establishing
  | drained pass allocated answer =>
    obtain ⟨hopenings, hnumbered⟩ := s.engine.openings_drained pass allocated answer
    refine h.engine (hnumbered h.numbered) ?_ fun no _ hheld => hheld.drained hseamless
    rw [hopenings]
    exact h.establishing
  | exitAcquired underlying leased => exact h.exitAcquired underlying leased
  | exitSettled seq outcome now => exact h.exitSettled seq outcome now
  | renewed id outcome => exact h.renewActive id outcome
  | holdRenewed id outcome now => exact h.renewHold cfg id outcome now hseamless
  | residual id remaining => exact h.registerResidual id remaining
  | closed id => exact h.close id

end

structure Booted (s : BoxInventory) : Prop where
  exposed : s.exposed = s.onRecord.toFinset
  distinct : s.onRecord.Nodup
  each : s.onRecord.length = s.engine.positions.byId.length + s.engine.residualByAttempt.length
  earlier : ∀ no ∈ s.exposed, no < s.seq
  active : s.active = []
  holds : s.holds = []
  pipelines : s.pipelines = []
  establishing : s.establishing = []
  pending : s.pendingEstablishments = 0
  openings : s.engine.openings = []
  recordings : s.engine.recordings = []
  arrays : ∀ k, s.engine.arrays k = []
  allocated : s.engine.pendingPersists < s.engine.allocated

theorem Booted.covered (h : s.Booted) : s.Covered where
  exposed no hno := by
    rw [h.exposed, List.mem_toFinset] at hno
    exact .inr (holds_of_onRecord hno)
  numbered := ⟨by simp [h.openings], h.allocated⟩
  establishing := by simp [h.openings]
  pending := by rw [h.pending, h.establishing, List.length_nil]

/-- **The ceiling counts every exposed entry** at each claim of a run in which none passes uncounted. -/
theorem ceiling_counts_exposed (cfg : CeilingConfig) (s : BoxInventory) (hs : s.Booted) (events : List InventoryEvent)
    (h : Run.Guarded (step cfg) (Seamless cfg) s events) :
    ∀ before key opportunityId underlying refused after,
      events = before ++ .entry key opportunityId underlying refused :: after →
        let claimed := Run.finish (step cfg) s before
        claimed.claims cfg refused = true →
          claimed.exposed ⊆ claimed.counted ∧ (0 < cfg.maxOpenBoxes → claimed.exposed.card ≤ cfg.maxOpenBoxes - 1) := by
  rintro before key opportunityId underlying refused after rfl claimed hclaims
  obtain ⟨hbefore, hafter⟩ := h.append
  have hcovered : claimed.Covered :=
    hbefore.invariant Covered (fun s event hs hseamless => hs.step event hseamless) hs.covered
  have hcounted : claimed.exposed ⊆ claimed.counted := by
    intro no hno
    rcases hcovered.counted_or_passing hno with hcounted | hpassing
    · exact hcounted
    · exact hafter.1 hclaims no hpassing hno
  refine ⟨hcounted, fun hceiling => ?_⟩
  have hroom : claimed.held < cfg.maxOpenBoxes := by
    simpa [claims, hceiling] using (Bool.and_eq_true_iff.mp hclaims).2
  have hle := (Finset.card_le_card hcounted).trans hcovered.counted_le
  omega

end BoxInventory

def bootedInventory : BoxInventory := ⟨bootedEngine, 0, [], [], [], 0, [], ∅⟩

theorem bootedInventory_booted : bootedInventory.Booted := by
  constructor <;> simp [bootedInventory, bootedEngine, BoxInventory.onRecord]

def boxesAtMost (maxOpenBoxes : ℕ) : CeilingConfig := ⟨.paperLegging, maxOpenBoxes, 60000⟩

def settledFill : List InventoryEvent :=
  [.entry paperEntry.candidate.key "op" "NIFTY" false, .granted 0 true, .answered 0 (.filled paperEntry), .settled 0 0]

def unpersistedFill : List InventoryEvent :=
  settledFill ++ [.resumed 0 true (.fin 0), .inserted 0 "t1" .failedBefore (.fin 1), .inserted 0 "t2" .failedBefore (.fin 2),
    .inserted 0 "t3" .failedBefore (.fin 3), .returned 0]

def establishedFill : List InventoryEvent :=
  settledFill ++ [.resumed 0 true (.fin 0), .inserted 0 "t1" .stored (.fin 1), .returned 0]

theorem ceiling_counts_established :
    let claimed := Run.finish (BoxInventory.step (boxesAtMost 2)) bootedInventory establishedFill
    claimed.exposed ⊆ claimed.counted ∧ (0 < 2 → claimed.exposed.card ≤ 1) := by
  have hguarded : Run.Guarded (BoxInventory.step (boxesAtMost 2)) (BoxInventory.Seamless (boxesAtMost 2)) bootedInventory
      (establishedFill ++ [.entry "NIFTY:1:2" "op2" "NIFTY" false]) := by
    have hpassing : ∀ t : BoxInventory, t.passing = [] → t.Seamless (boxesAtMost 2) (.entry "NIFTY:1:2" "op2" "NIFTY" false) := by
      intro t hnone _ no hno
      rw [hnone] at hno
      cases hno
    refine ⟨hpassing _ rfl, trivial, trivial, trivial, ?_, ?_, trivial, hpassing _ rfl, trivial⟩
    · intro _ pipeline hpipeline _ answer hstage
      obtain rfl := List.mem_singleton.mp hpipeline
      obtain rfl := EntryStage.settled.inj hstage
      exact .inl ⟨fun _ => rfl, .inl rfl⟩
    · intro opening hopening _
      obtain rfl := List.mem_singleton.mp hopening
      intro pos hpos
      cases hpos
  exact BoxInventory.ceiling_counts_exposed (boxesAtMost 2) bootedInventory bootedInventory_booted _ hguarded establishedFill
    "NIFTY:1:2" "op2" "NIFTY" false [] rfl (by decide)

theorem claimed_beside_fill : bootedInventory.Booted ∧
    let settled := Run.finish (BoxInventory.step (boxesAtMost 1)) bootedInventory settledFill
    let unpersisted := Run.finish (BoxInventory.step (boxesAtMost 1)) bootedInventory unpersistedFill
    (settled.claims (boxesAtMost 1) false = true ∧ settled.exposed.card = 1) ∧
      unpersisted.claims (boxesAtMost 1) false = true ∧ unpersisted.exposed.card = 1 := by
  refine ⟨bootedInventory_booted, ⟨?_, ?_⟩, ?_, ?_⟩ <;> rfl

end BoxEngine
