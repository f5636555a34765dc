import BoxEngine.LeggingExits
import BoxEngine.Lib.Run

/-!
# Outstanding quantity follows the banked fills

What is outstanding is the initial quantity less every fill that was banked, whatever the writes answered and whenever
they are retried.
-/

namespace BoxEngine

open Js

/-! ## What a result banks -/

def BoxLegEvaluation.priced (leg : BoxLegEvaluation) : Bool := (leg.price.filter fun price => .fin 0 < price).isSome

namespace AcceptedExit

def confirmed (a : AcceptedExit) (role : BoxLegRole) : ℚ := ((a.fillsByRole role).getD (.fin 0)).value

def banked (a : AcceptedExit) (role : BoxLegRole) : ℚ :=
  if ∃ leg ∈ a.legs, leg.role = role ∧ leg.priced = true then a.confirmed role else 0

end AcceptedExit

namespace MonitoredPosition

variable {pos : MonitoredPosition} {record : LeggingExitRecord}

theorem bank_remaining (pos : MonitoredPosition) (record : LeggingExitRecord) (role : BoxLegRole) :
    ∀ (legs : List BoxLegEvaluation) (banked : BankedFills),
      (legs.foldl (BankedFills.bank pos record) banked).remaining role =
        if ∃ leg ∈ legs, leg.role = role ∧ leg.priced = true then
          Number.max (.fin 0) ((pos.remaining role).sub (record.confirmed role))
        else banked.remaining role
  | [], banked => by simp
  | leg :: legs, banked => by
    rw [List.foldl_cons, bank_remaining pos record role legs]
    by_cases hrest : ∃ leg ∈ legs, leg.role = role ∧ leg.priced = true
    · rw [if_pos hrest, if_pos]
      obtain ⟨other, hmem, hother⟩ := hrest
      exact ⟨other, .tail _ hmem, hother⟩
    · rw [if_neg hrest]
      unfold BankedFills.bank
      cases hprice : leg.price.filter fun price => decide (.fin 0 < price) with
      | none =>
        have hunpriced : ¬ ∃ other ∈ leg :: legs, other.role = role ∧ other.priced = true := by
          rintro ⟨other, hmem, hrole, hpriced⟩
          rcases List.mem_cons.mp hmem with rfl | hmem
          · simp [BoxLegEvaluation.priced, hprice] at hpriced
          · exact hrest ⟨other, hmem, hrole, hpriced⟩
        rw [if_neg hunpriced]
      | some price =>
        by_cases hrole : leg.role = role
        · rw [if_pos ⟨leg, List.mem_cons_self .., hrole, by simp [BoxLegEvaluation.priced, hprice]⟩]
          simp [hrole]
        · have hother : ¬ ∃ other ∈ leg :: legs, other.role = role ∧ other.priced = true := by
            rintro ⟨other, hmem, hother, hpriced⟩
            rcases List.mem_cons.mp hmem with rfl | hmem
            · exact hrole hother
            · exact hrest ⟨other, hmem, hother, hpriced⟩
          rw [if_neg hother]
          simp [Function.update_of_ne (Ne.symm hrole)]

theorem confirmed_of_valid (h : pos.invalidRole record = none) {role : BoxLegRole} {n : ℕ}
    (hremaining : pos.remaining role = .fin n) : ∃ m : ℕ, record.confirmed role = .fin m ∧ m ≤ n := by
  cases hfills : record.fillsByRole role with
  | none => exact ⟨0, by simp [LeggingExitRecord.confirmed, hfills], n.zero_le⟩
  | some _ =>
    have hsubmitted : role ∈ record.submittedRoles := by
      refine List.mem_append_right _ (List.mem_filter.mpr ⟨role.mem_boxLegRoles, ?_⟩)
      rw [hfills]
      rfl
    have hvalid := List.find?_eq_none.mp h role hsubmitted
    rw [decide_eq_true_eq, not_or, not_or] at hvalid
    obtain ⟨hinteger, hnonneg, hle⟩ := hvalid
    cases hconfirmed : record.confirmed role with
    | fin q =>
      rw [hconfirmed] at hinteger hle hnonneg
      rw [hremaining, Number.fin_lt_fin, not_lt] at hle
      rw [Number.fin_lt_fin, not_lt] at hnonneg
      have hden : q.den = 1 := by simpa [isInteger] using hinteger
      have hq : q = (q.num.toNat : ℚ) := by
        have hnum : (0 : ℤ) ≤ q.num := Rat.num_nonneg.mpr hnonneg
        rw [← Int.cast_natCast, Int.toNat_of_nonneg hnum]
        exact ((Rat.den_eq_one_iff q).mp hden).symm
      refine ⟨q.num.toNat, by rw [← hq], ?_⟩
      rw [hq] at hle
      exact_mod_cast hle
    | nan | negInf | posInf => simp [hconfirmed, isInteger] at hinteger

theorem bank_account (h : pos.invalidRole record = none) (legs : List BoxLegEvaluation) {role : BoxLegRole} {n : ℕ}
    (hremaining : pos.remaining role = .fin n) :
    ∃ k : ℕ, (pos.bank record (legs.filter fun leg => .fin 0 < record.confirmed leg.role)).remaining role = .fin k ∧
      (k : ℚ) + AcceptedExit.banked ⟨legs, record.fillsByRole⟩ role = n := by
  obtain ⟨m, hm, hle⟩ := confirmed_of_valid h hremaining
  have hvalue : AcceptedExit.confirmed ⟨legs, record.fillsByRole⟩ role = m := congrArg Number.value hm
  unfold bank AcceptedExit.banked
  rw [bank_remaining, hvalue, hm, hremaining]
  by_cases hpriced : ∃ leg ∈ legs, leg.role = role ∧ leg.priced = true
  · rw [if_pos hpriced]
    by_cases hfilled : 0 < m
    · have hclosed : ∃ leg ∈ legs.filter fun leg => .fin 0 < record.confirmed leg.role,
          leg.role = role ∧ leg.priced = true := by
        obtain ⟨leg, hmem, rfl, hprice⟩ := hpriced
        refine ⟨leg, List.mem_filter.mpr ⟨hmem, decide_eq_true ?_⟩, rfl, hprice⟩
        rw [hm, Number.fin_lt_fin]
        exact_mod_cast hfilled
      have hcast : ((n - m : ℕ) : ℚ) = n - m := Nat.cast_sub hle
      have hleft : Number.max (.fin 0) ((Number.fin n).sub (.fin m)) = .fin (n - m : ℕ) := by
        rw [hcast]
        rcases (hcast ▸ Nat.cast_nonneg _ : (0 : ℚ) ≤ n - m).lt_or_eq with hpos | hzero
        · simp [Number.max, Number.sub, hpos]
        · simp [Number.max, Number.sub, ← hzero]
      rw [if_pos hclosed]
      refine ⟨n - m, hleft, ?_⟩
      rw [hcast, sub_add_cancel]
    · have hopen : ¬ ∃ leg ∈ legs.filter fun leg => .fin 0 < record.confirmed leg.role,
          leg.role = role ∧ leg.priced = true := by
        rintro ⟨leg, hmem, rfl, -⟩
        have hpos := of_decide_eq_true (List.mem_filter.mp hmem).2
        rw [hm, Number.fin_lt_fin] at hpos
        exact hfilled (by exact_mod_cast hpos)
      rw [if_neg hopen, Nat.eq_zero_of_not_pos hfilled]
      exact ⟨n, hremaining, by simp⟩
  · have hopen : ¬ ∃ leg ∈ legs.filter fun leg => .fin 0 < record.confirmed leg.role, leg.role = role ∧ leg.priced = true := by
      rintro ⟨leg, hmem, hleg⟩
      exact hpriced ⟨leg, List.mem_of_mem_filter hmem, hleg⟩
    rw [if_neg hopen, if_neg hpriced]
    exact ⟨n, hremaining, add_zero _⟩

def Banks (pos : MonitoredPosition) (result : LeggingExitResult) (projected : MonitoredPosition) : Prop :=
  ∀ role (n : ℕ), pos.remaining role = .fin n → ∃ k : ℕ, projected.remaining role = .fin k ∧
    (k : ℚ) + AcceptedExit.banked ⟨result.legs, result.record.fillsByRole⟩ role = n

end MonitoredPosition

def PartialPersist.afterUncertain (persist : PartialPersist) : Bool :=
  persist.projected.exitAttempts.getLast?.any fun attempt => decide (attempt.status = .uncertain)

namespace AppliedExit

def projected : AppliedExit → Option MonitoredPosition
  | .uncertain persist _ => some persist.projected
  | .invalid persist _ => some persist.projected
  | .final projected => some projected
  | .partial_ persist _ => some persist.projected
  | .nothing _ => none
  | .threw => none

def Writes (pos : MonitoredPosition) : AppliedExit → Prop
  | .uncertain persist _ => persist.projected.remaining = pos.remaining ∧ persist.afterUncertain = true
  | .invalid persist _ => persist.projected.remaining = pos.remaining ∧ persist.afterUncertain = false
  | .final _ => True
  | .partial_ persist _ => persist.afterUncertain = false
  | .nothing _ => False
  | .threw => False

def Follows (pos : MonitoredPosition) (result : LeggingExitResult) : AppliedExit → Prop
  | .final projected => pos.Banks result projected
  | .partial_ persist _ => pos.Banks result persist.projected ∧ persist.afterUncertain = false
  | .uncertain persist detail => Writes pos (.uncertain persist detail)
  | .invalid persist message => Writes pos (.invalid persist message)
  | .nothing _ => True
  | .threw => True

end AppliedExit

theorem elim_threw {ε α : Type} {P : AppliedExit → Prop} (answer : Except ε α) {f : α → AppliedExit} (hthrew : P .threw)
    (h : ∀ a, P (f a)) : P (answer.toOption.elim .threw f) := by
  cases answer with
  | error _ => exact hthrew
  | ok a => exact h a

theorem map_elim_threw {ε α β : Type} {P : AppliedExit → Prop} (answer : Except ε α) (g : α → β) {f : β → AppliedExit}
    (hthrew : P .threw) (h : ∀ a, P (f (g a))) : P ((answer.map g).toOption.elim .threw f) := by
  cases answer with
  | error _ => exact hthrew
  | ok a => exact h a

theorem applyLeggingExitResult_follows (mode : ExecutionMode) (pos : MonitoredPosition) (result : LeggingExitResult)
    (origin : ExitOrigin) (reason : String) :
    (pos.applyLeggingExitResult mode result origin reason).Follows pos result := by
  unfold MonitoredPosition.applyLeggingExitResult
  dsimp only
  split
  · refine map_elim_threw _ _ trivial fun residual => ⟨rfl, ?_⟩
    simp [PartialPersist.afterUncertain, MonitoredPosition.recovering, MonitoredPosition.attemptWithout]
  · split
    · trivial
    · split
      · refine map_elim_threw _ _ trivial fun residual => ⟨rfl, ?_⟩
        simp [PartialPersist.afterUncertain, MonitoredPosition.recovering, MonitoredPosition.attemptWithout]
      · rename_i hvalid
        have hbanks := fun (role : BoxLegRole) (n : ℕ) (hremaining : pos.remaining role = .fin n) =>
          MonitoredPosition.bank_account hvalid result.legs hremaining
        split
        · exact hbanks
        · rename_i hopen
          refine elim_threw _ trivial fun residual => ⟨hbanks, ?_⟩
          simp [PartialPersist.afterUncertain, MonitoredPosition.afterBanking, MonitoredPosition.bankedAttempt, hopen]

/-! ## The monitor -/

def ExitCall.projected : ExitCall → Option MonitoredPosition
  | .executing _ _ => none
  | .persisting applied => applied.projected

namespace ExitMonitor

variable (s : ExitMonitor)

def outstanding : BoxLegRole → Number :=
  match s.exit.bind ExitCall.projected, s.pendingFinalPersist, s.pendingPartialPersist with
  | some projected, _, _ => projected.remaining
  | none, some projected, _ => projected.remaining
  | none, none, some persist => persist.projected.remaining
  | none, none, none => s.pos.remaining

def banked (role : BoxLegRole) : ℚ := (s.accepted.map fun a => a.banked role).sum

structure Opened (s : ExitMonitor) : Prop where
  «open» : s.open = true
  whole : ∀ role, ∃ n : ℕ, s.pos.remaining role = .fin n
  exit : s.exit = none
  final : s.pendingFinalPersist = none
  partial_ : s.pendingPartialPersist = none
  retrying : s.retrying = none
  accepted : s.accepted = []

/-- No manual close is started while the record of an uncertain result is retained. -/
def RecordsFirst : ExitEvent → Prop
  | .started .manual _ _ => ∀ persist ∈ s.pendingPartialPersist, persist.afterUncertain = false
  | _ => True

def Retries : Prop :=
  match s.retrying with
  | none => True
  | some (.final projected) => s.pendingFinalPersist = some projected
  | some (.partial_ persist) => s.pendingPartialPersist = some persist

structure Following (initial : BoxLegRole → ℚ) (s : ExitMonitor) : Prop where
  account : s.open = true → ∀ role, ∃ n : ℕ, s.outstanding role = .fin n ∧ (n : ℚ) + s.banked role = initial role
  free : s.exit.isSome = true → s.pendingFinalPersist = none ∧ s.pendingPartialPersist = none
  single : s.pendingFinalPersist = none ∨ s.pendingPartialPersist = none
  retries : s.Retries
  recovery : s.pendingFinalPersist.isSome = true ∨ (∃ persist ∈ s.pendingPartialPersist, persist.afterUncertain = false) →
    s.pos.positionState = .recovery
  writing : ∀ applied, s.exit = some (.persisting applied) → applied.Writes s.pos

variable {initial : BoxLegRole → ℚ} {s : ExitMonitor}
variable {origin : ExitOrigin} {reason : String}

theorem Following.nothing_retained (h : Following initial s) {refused : Bool}
    (hfirst : s.RecordsFirst (.started origin reason refused)) (hadmits : s.admits origin refused = true) :
    s.exit = none ∧ s.pendingFinalPersist = none ∧ s.pendingPartialPersist = none := by
  simp only [admits, Bool.and_eq_true, Bool.or_eq_true, decide_eq_true_eq, Option.isNone_iff_eq_none] at hadmits
  obtain ⟨⟨⟨-, hstate⟩, hexit⟩, horigin⟩ := hadmits
  rcases horigin with rfl | hpending
  · refine ⟨hexit, ?_, ?_⟩
    · by_contra hsome
      exact hstate (h.recovery (.inl (Option.isSome_iff_ne_none.mpr hsome)))
    · cases hpending : s.pendingPartialPersist with
      | none => rfl
      | some persist => exact absurd (h.recovery (.inr ⟨persist, hpending, hfirst persist hpending⟩)) hstate
  · exact ⟨hexit, hpending⟩

theorem outstanding_idle (hexit : s.exit = none) (hfinal : s.pendingFinalPersist = none)
    (hpart : s.pendingPartialPersist = none) : s.outstanding = s.pos.remaining := by
  simp [outstanding, hexit, hfinal, hpart]

theorem outstanding_of_retained (hexit : s.exit = none) (hfinal : s.pendingFinalPersist = none) {persist : PartialPersist}
    (hpart : s.pendingPartialPersist = some persist) : s.outstanding = persist.projected.remaining := by
  simp [outstanding, hexit, hfinal, hpart]

theorem outstanding_final (hexit : s.exit = none) {projected : MonitoredPosition}
    (hfinal : s.pendingFinalPersist = some projected) : s.outstanding = projected.remaining := by
  simp [outstanding, hexit, hfinal]

theorem Opened.following (h : s.Opened) : Following (fun role => (s.pos.remaining role).value) s where
  account _ role := by
    obtain ⟨n, hn⟩ := h.whole role
    refine ⟨n, ?_, ?_⟩
    · rw [outstanding_idle h.exit h.final h.partial_, hn]
    · simp [banked, h.accepted, hn]
  free hexit := by simp [h.exit] at hexit
  single := .inl h.final
  retries := by
    unfold Retries
    rw [h.retrying]
    trivial
  recovery hpending := by simp [h.final, h.partial_] at hpending
  writing applied hexit := by simp [h.exit] at hexit

section

variable (h : Following initial s)
include h

theorem Following.started (origin : ExitOrigin) (reason : String) (refused : Bool)
    (hfirst : s.RecordsFirst (.started origin reason refused)) (mode : ExecutionMode) :
    Following initial (s.step mode (.started origin reason refused)).1 := by
  unfold ExitMonitor.step
  dsimp only
  split
  · rename_i hadmits
    obtain ⟨hexit, hfinal, hpart⟩ := h.nothing_retained hfirst hadmits
    refine { h with account := fun hopen role => ?_, free := fun _ => ⟨hfinal, hpart⟩, writing := fun applied heq => ?_ }
    · obtain ⟨n, hn, hsum⟩ := h.account hopen role
      rw [outstanding_idle hexit hfinal hpart] at hn
      refine ⟨n, ?_, hsum⟩
      simpa [outstanding, ExitCall.projected, hfinal, hpart] using hn
    · cases heq
  · exact h

theorem Following.drop (hexit : s.exit = some (.executing origin reason)) (pos : MonitoredPosition)
    (hremaining : pos.remaining = s.pos.remaining) (hstate : pos.positionState = s.pos.positionState) :
    Following initial { s with exit := none, pos } := by
  obtain ⟨hfinal, hpart⟩ := h.free (by rw [hexit]; rfl)
  refine { h with account := fun hopen role => ?_, free := fun hsome => ?_, recovery := fun hpending => ?_, writing := ?_ }
  · obtain ⟨n, hn, hsum⟩ := h.account hopen role
    refine ⟨n, ?_, hsum⟩
    simpa [outstanding, hexit, ExitCall.projected, hfinal, hpart, hremaining] using hn
  · cases hsome
  · rw [hstate]
    exact h.recovery hpending
  · intro applied heq
    cases heq

theorem Following.write (hexit : s.exit = some (.executing origin reason)) (applied : AppliedExit)
    {projected : MonitoredPosition} (hprojected : applied.projected = some projected) (hwrites : applied.Writes s.pos)
    (result : LeggingExitResult) (accepted : List AcceptedExit)
    (hbanks : (accepted = s.accepted ∧ projected.remaining = s.pos.remaining) ∨
      (accepted = s.accepted ++ [⟨result.legs, result.record.fillsByRole⟩] ∧ s.pos.Banks result projected)) :
    Following initial { s with exit := some (.persisting applied), accepted } := by
  obtain ⟨hfinal, hpart⟩ := h.free (by rw [hexit]; rfl)
  refine { h with account := fun hopen role => ?_, free := fun _ => ⟨hfinal, hpart⟩, writing := fun other heq => ?_ }
  · obtain ⟨n, hn, hsum⟩ := h.account hopen role
    have hremaining : s.pos.remaining role = .fin n := by
      simpa [outstanding, hexit, ExitCall.projected, hfinal, hpart] using hn
    rcases hbanks with ⟨rfl, hsame⟩ | ⟨rfl, hbanks⟩
    · refine ⟨n, ?_, hsum⟩
      simp [outstanding, ExitCall.projected, hprojected, hsame, hremaining]
    · obtain ⟨k, hk, hless⟩ := hbanks role n hremaining
      refine ⟨k, ?_, ?_⟩
      · simp [outstanding, ExitCall.projected, hprojected, hk]
      · rw [← hsum, ← hless, banked, banked, List.map_append, List.sum_append, List.map_singleton, List.sum_singleton]
        ring
  · cases heq
    exact hwrites

theorem Following.apply (mode : ExecutionMode) (result : LeggingExitResult) :
    Following initial (s.apply mode result) := by
  unfold ExitMonitor.apply
  split
  · rename_i origin reason hexit
    have hfollows := applyLeggingExitResult_follows mode s.pos result origin reason
    split
    · exact h.drop hexit _ rfl rfl
    · exact h.drop hexit _ rfl rfl
    · rename_i persist detail happlied
      rw [happlied] at hfollows
      exact h.write hexit (.uncertain persist detail) rfl hfollows result s.accepted (.inl ⟨rfl, hfollows.1⟩)
    · rename_i persist message happlied
      rw [happlied] at hfollows
      exact h.write hexit (.invalid persist message) rfl hfollows result s.accepted (.inl ⟨rfl, hfollows.1⟩)
    · rename_i projected happlied
      rw [happlied] at hfollows
      exact h.write hexit (.final projected) rfl trivial result _ (.inr ⟨rfl, hfollows⟩)
    · rename_i persist closedRoles happlied
      rw [happlied] at hfollows
      exact h.write hexit (.partial_ persist closedRoles) rfl hfollows.2 result _ (.inr ⟨rfl, hfollows.1⟩)
  · exact h

theorem Following.settle {s' : ExitMonitor} (hopen : s'.open = true → s.open = true)
    (hsame : s'.open = true → s'.outstanding = s.outstanding) (haccepted : s'.accepted = s.accepted)
    (hexit : s'.exit = none) (hsingle : s'.pendingFinalPersist = none ∨ s'.pendingPartialPersist = none)
    (hretries : s'.Retries)
    (hrecovery : s'.pendingFinalPersist.isSome = true ∨ (∃ persist ∈ s'.pendingPartialPersist,
      persist.afterUncertain = false) → s'.pos.positionState = .recovery) :
    Following initial s' where
  account hopen' role := by
    obtain ⟨n, hn, hsum⟩ := h.account (hopen hopen') role
    refine ⟨n, ?_, ?_⟩
    · rw [hsame hopen', hn]
    · rw [banked, haccepted]
      exact hsum
  free hsome := by simp [hexit] at hsome
  single := hsingle
  retries := hretries
  recovery := hrecovery
  writing applied heq := by simp [hexit] at heq

theorem Following.not_retrying (hexit : s.exit.isSome = true) : s.retrying = none := by
  obtain ⟨hfinal, hpart⟩ := h.free hexit
  have hretries := h.retries
  unfold Retries at hretries
  split at hretries
  · assumption
  · rw [hfinal] at hretries
    cases hretries
  · rw [hpart] at hretries
    cases hretries

end

theorem retries_of_none (h : s.retrying = none) : s.Retries := by
  unfold Retries
  rw [h]
  trivial

section

variable (h : Following initial s)
include h

theorem Following.finishPersist (stored : Bool) : Following initial (s.finishPersist stored) := by
  unfold ExitMonitor.finishPersist
  split
  · rename_i applied hexit
    have hwrites := h.writing applied hexit
    have hflight : s.exit.isSome = true := by rw [hexit]; rfl
    obtain ⟨hfinal, hpart⟩ := h.free hflight
    have hretrying := h.not_retrying hflight
    have hidle : ∀ {s' : ExitMonitor}, s'.retrying = s.retrying → s'.Retries := fun heq =>
      retries_of_none (heq.trans hretrying)
    have hbefore : s.outstanding = applied.projected.elim s.pos.remaining MonitoredPosition.remaining := by
      cases hprojected : applied.projected <;>
        simp [outstanding, hexit, ExitCall.projected, hprojected, hfinal, hpart]
    unfold ExitMonitor.persisted
    cases applied with
    | nothing _ => exact hwrites.elim
    | threw => exact hwrites.elim
    | uncertain persist detail =>
      dsimp only
      split
      · refine h.settle id (fun _ => ?_) rfl rfl (.inl hfinal) (hidle rfl) (fun _ => rfl)
        rw [hbefore]
        exact (outstanding_idle rfl (by exact hfinal) (by exact hpart)).trans hwrites.1.symm
      · refine h.settle id (fun _ => ?_) rfl rfl (.inl hfinal) (hidle rfl) fun hpending => ?_
        · rw [hbefore]
          exact outstanding_of_retained rfl (by exact hfinal) rfl
        · rcases hpending with hsome | ⟨other, hother, hnot⟩
          · simp [hfinal] at hsome
          · obtain rfl := Option.mem_some_iff.mp hother
            simp [hwrites.2] at hnot
    | invalid persist message =>
      dsimp only
      split
      · refine h.settle id (fun _ => ?_) rfl rfl (.inl hfinal) (hidle rfl) fun hpending => ?_
        · rw [hbefore]
          exact (outstanding_idle rfl (by exact hfinal) (by exact hpart)).trans hwrites.1.symm
        · simp [hfinal, hpart] at hpending
      · refine h.settle id (fun _ => ?_) rfl rfl (.inl hfinal) (hidle rfl) (fun _ => rfl)
        rw [hbefore]
        exact outstanding_of_retained rfl (by exact hfinal) rfl
    | final projected =>
      dsimp only
      split
      · refine h.settle (fun hopen => by cases hopen) (fun hopen => by cases hopen) rfl rfl (.inl hfinal) (hidle rfl)
          fun hpending => ?_
        simp [hfinal, hpart] at hpending
      · refine h.settle id (fun _ => ?_) rfl rfl (.inr hpart) (hidle rfl) (fun _ => rfl)
        rw [hbefore]
        exact outstanding_final rfl rfl
    | partial_ persist closedRoles =>
      dsimp only
      split
      · refine h.settle id (fun _ => ?_) rfl rfl (.inl hfinal) (hidle rfl) fun hpending => ?_
        · rw [hbefore]
          exact outstanding_idle rfl (by exact hfinal) (by exact hpart)
        · simp [hfinal, hpart] at hpending
      · refine h.settle id (fun _ => ?_) rfl rfl (.inl hfinal) (hidle rfl) (fun _ => rfl)
        rw [hbefore]
        exact outstanding_of_retained rfl (by exact hfinal) rfl
  · exact h

theorem Following.retryFinal : Following initial s.retryFinal := by
  unfold ExitMonitor.retryFinal
  split
  · rename_i projected _ hfinal
    exact { h with account := h.account, retries := hfinal }
  · exact h

theorem Following.retryPartial : Following initial s.retryPartial := by
  unfold ExitMonitor.retryPartial
  split
  · rename_i persist _ hpart
    exact { h with account := h.account, retries := hpart }
  · exact h

theorem Following.idle (hretained : s.pendingFinalPersist ≠ none ∨ s.pendingPartialPersist ≠ none) : s.exit = none := by
  by_contra hflight
  obtain ⟨hfinal, hpart⟩ := h.free (Option.isSome_iff_ne_none.mpr hflight)
  rcases hretained with hretained | hretained
  · exact hretained hfinal
  · exact hretained hpart

theorem Following.finishRetry (stored : Bool) : Following initial (s.finishRetry stored) := by
  have hretries := h.retries
  unfold Retries at hretries
  unfold ExitMonitor.finishRetry
  split
  · exact h
  · rename_i projected hretrying
    rw [hretrying] at hretries
    have hexit := h.idle (.inl (by rw [hretries]; simp))
    have hpart : s.pendingPartialPersist = none := h.single.resolve_left (by rw [hretries]; simp)
    split
    · rename_i hclosed
      refine h.settle id (fun hopen => ?_) rfl hexit (.inl rfl) (retries_of_none rfl) fun hpending => ?_
      · exact absurd (hopen.symm.trans hclosed) (by simp)
      · simp [hpart] at hpending
    · split
      · refine h.settle (fun hopen => by cases hopen) (fun hopen => by cases hopen) rfl hexit (.inl rfl) (retries_of_none rfl)
          fun hpending => ?_
        simp [hpart] at hpending
      · exact h.settle id (fun _ => rfl) rfl hexit h.single (retries_of_none rfl) h.recovery
  · rename_i persist hretrying
    rw [hretrying] at hretries
    have hexit := h.idle (.inr (by rw [hretries]; simp))
    have hfinal : s.pendingFinalPersist = none := h.single.resolve_right (by rw [hretries]; simp)
    split
    · rename_i hclosed
      refine h.settle id (fun hopen => ?_) rfl hexit (.inr rfl) (retries_of_none rfl) fun hpending => ?_
      · exact absurd (hopen.symm.trans hclosed) (by simp)
      · simp [hfinal] at hpending
    · split
      · refine h.settle id (fun _ => ?_) rfl hexit (.inr rfl) (retries_of_none rfl) fun hpending => ?_
        · rw [outstanding_of_retained hexit hfinal hretries]
          exact outstanding_idle hexit (by exact hfinal) rfl
        · simp [hfinal] at hpending
      · exact h.settle id (fun _ => rfl) rfl hexit h.single (retries_of_none rfl) h.recovery

theorem Following.step (mode : ExecutionMode) (event : ExitEvent) (hfirst : s.RecordsFirst event) :
    Following initial (s.step mode event).1 := by
  cases event with
  | started origin reason refused => exact h.started origin reason refused hfirst mode
  | threw =>
    unfold ExitMonitor.step
    dsimp only
    split
    · rename_i hexit
      exact h.drop hexit s.pos rfl rfl
    · exact h
  | returned result => exact h.apply mode result
  | persisted stored => exact h.finishPersist stored
  | retryFinal => exact h.retryFinal
  | retryPartial => exact h.retryPartial
  | retried stored => exact h.finishRetry stored

end

/-- **What is outstanding follows the banked fills**, and an exit is sized by exactly that. -/
theorem outstanding_follows_banked (mode : ExecutionMode) (s : ExitMonitor) (hs : s.Opened) (events : List ExitEvent)
    (h : Run.Guarded (step mode) RecordsFirst s events) :
    let after := Run.finish (step mode) s events
    after.open = true →
      (∀ role, ∃ n : ℕ, after.outstanding role = .fin n ∧ (n : ℚ) + after.banked role = (s.pos.remaining role).value) ∧
        (after.exit = none → after.pendingFinalPersist = none → after.pendingPartialPersist = none →
          after.pos.remaining = after.outstanding) ∧
        ∀ origin reason refused, after.RecordsFirst (.started origin reason refused) →
          after.admits origin refused = true → after.pos.remaining = after.outstanding := by
  intro after hopen
  have hafter : Following (fun role => (s.pos.remaining role).value) after :=
    h.invariant _ (fun s event hs hfirst => hs.step mode event hfirst) hs.following
  refine ⟨hafter.account hopen, fun hexit hfinal hpart => (outstanding_idle hexit hfinal hpart).symm, ?_⟩
  intro origin reason refused hfirst hadmits
  obtain ⟨hexit, hfinal, hpart⟩ := hafter.nothing_retained hfirst hadmits
  exact (outstanding_idle hexit hfinal hpart).symm

end ExitMonitor

def wholeBox : MonitoredPosition where
  position := ⟨"t1", none, fun _ => .fin 75, fun _ => ⟨.fin 1, "NIFTY", "NFO"⟩⟩
  positionState := .box
  exitAttempts := []
  exitBlockedReason := none

def openedBox : ExitMonitor := ⟨true, wholeBox, none, none, none, none, []⟩

theorem openedBox_opened : openedBox.Opened := ⟨rfl, fun _ => ⟨75, rfl⟩, rfl, rfl, rfl, rfl, rfl⟩

def closedLeg (role : BoxLegRole) (price : Option Number) : BoxLegEvaluation := ⟨role, .sell, .fin 1, "NIFTY", price⟩

def confirmedExit (roles : List BoxLegRole) : LeggingExitRecord :=
  ⟨roles.map fun role => ⟨role, .fin 75, none⟩, fun role => if role ∈ roles then some (.fin 75) else none,
      roles.length, roles.length⟩

def closesK2Ce : LeggingExitResult :=
  .failed (some [closedLeg .k2Ce (some (.fin 120))]) (confirmedExit [.k2Ce]) "live exit partially filled"

def closesUnpriced : LeggingExitResult :=
  .failed (some [closedLeg .k1Ce none, closedLeg .k2Ce (some (.fin 120))]) (confirmedExit [.k1Ce, .k2Ce])
    "live exit partially filled"

def unprovenExit : LeggingExitResult :=
  .failed (some []) (confirmedExit []) "exit terminal quantity uncertain; position moved to recovery"

def oneExit (origin : ExitOrigin) (result : LeggingExitResult) (stored : Bool) : List ExitEvent :=
  [.started origin "EDGE_CONVERGED" false, .returned result, .persisted stored]

/-- The write of a partial exit fails, and its retry is stored. -/
theorem outstanding_follows_retried :
    let after := Run.finish (ExitMonitor.step .live) openedBox (oneExit .auto closesK2Ce false ++ [.retryPartial, .retried true])
    ∃ n : ℕ, after.outstanding .k2Ce = .fin n ∧ (n : ℚ) + after.banked .k2Ce = 75 := by
  have hguarded : Run.Guarded (ExitMonitor.step .live) ExitMonitor.RecordsFirst openedBox
      (oneExit .auto closesK2Ce false ++ [.retryPartial, .retried true]) :=
    ⟨trivial, trivial, trivial, trivial, trivial, trivial⟩
  exact (ExitMonitor.outstanding_follows_banked .live openedBox openedBox_opened _ hguarded (by decide +kernel)).1 .k2Ce

def afterExits (events : List ExitEvent) : ExitMonitor := Run.finish (ExitMonitor.step .live) openedBox events

def writtenOver : List ExitEvent :=
  oneExit .auto unprovenExit false ++ oneExit .manual closesK2Ce true ++ [.retryPartial, .retried true]

def StillOutstanding (s : ExitMonitor) (role : BoxLegRole) : Prop :=
  s.exit.isNone = true ∧ s.accepted.map (fun a => a.confirmed role) = [75] ∧ s.pos.remaining role = .fin 75

theorem confirmed_fill_outstanding : openedBox.Opened ∧
    StillOutstanding (afterExits (oneExit .auto closesUnpriced true)) .k1Ce ∧
      (afterExits (oneExit .auto closesUnpriced true)).admits .auto false = true ∧
    StillOutstanding (afterExits (oneExit .auto closesK2Ce false)) .k2Ce ∧
    StillOutstanding (afterExits writtenOver) .k2Ce := by
  refine ⟨openedBox_opened, ⟨?_, ?_, ?_⟩, ?_, ⟨?_, ?_, ?_⟩, ?_, ?_, ?_⟩ <;> decide +kernel

end BoxEngine
