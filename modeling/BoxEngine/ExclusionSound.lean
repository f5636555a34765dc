import BoxEngine.UnderlyingExclusions

/-!
# Memory and table of the blocklist

Where no two calls in progress share a symbol, no roll-back of a bulk change meets a change made meanwhile, and no
load is overtaken, the book is the table.
-/

namespace BoxEngine

open Js UnderlyingExclusionBook

namespace Blocklist

variable {toUpperCase : String → String} {s : Blocklist} {x : String} {change : ExclusionChange}

def Stored (s : Blocklist) (x : String) : Prop := x ∈ s.rows.map UnderlyingExclusion.symbol

def InProgress (s : Blocklist) (x : String) : Prop :=
  ∃ (call : ℕ) (c : ExclusionCall), s.calls[call]? = some c ∧ c.fate ≠ .answered ∧ x ∈ c.change.symbols

structure Faithful (s : Blocklist) : Prop where
  memory : s.lastLoad = some true → ∀ x, ¬s.InProgress x → (s.book.Holds x ↔ s.Stored x)
  inForce : ∀ x excluded, s.verdict x = some excluded → ¬s.InProgress x → (s.book.Holds x ↔ excluded = true)
  changing : s.dbEnabled = true → ∀ (call : ℕ) (c : ExclusionCall), s.calls[call]? = some c → c.fate ≠ .answered →
    ∀ x ∈ c.change.symbols, (s.book.Holds x ↔ x ∈ c.change.excluded)

def UndoesOwn (toUpperCase : String → String) (s : Blocklist) : BlocklistEvent → Prop
  | .answered call => ∀ c error, s.calls[call]? = some c → c.fate = .failed error → ∀ x ∉ c.change.symbols,
      ((s.step toUpperCase (.answered call)).1.book.Holds x ↔ s.book.Holds x)
  | _ => True

/-- No two calls share a symbol, a roll-back meets nobody's change, and a load installs what is still stored. -/
def Orderly (toUpperCase : String → String) (s : Blocklist) : BlocklistEvent → Prop
  | .answered call => ∀ c error add remove before, s.calls[call]? = some c → c.fate = .failed error →
      c.change = .bulk add remove before → ∀ x ∉ c.change.symbols,
        (s.book.Holds x ↔ x ∈ before.map UnderlyingExclusion.symbol)
  | .loadAnswered load => ∀ rows, s.loads[load]? = some (.read rows) → ∀ x,
      ¬s.InProgress x ∧ (x ∈ rows.map UnderlyingExclusion.symbol ↔ s.Stored x)
  | event => ∀ change, s.requested toUpperCase event = .ok change → ∀ x ∈ change.symbols, ¬s.InProgress x

/-! ## The invariant -/

def Known (s : Blocklist) (x : String) : Prop := s.lastLoad = some true ∨ s.verdict x ≠ none

def WellFormed (toUpperCase : String → String) (s : Blocklist) : Prop :=
  ∀ (call : ℕ) (c : ExclusionCall), s.calls[call]? = some c → c.change.WellFormed toUpperCase

/-! ## The book as a mirror of the table -/

def mirrorFate : WriteFate → WriteBehind.Fate
  | .pending => .pending
  | .stored _ => .stored
  | .failed _ => .failed
  | .answered => .answered

def mirrorCall (c : ExclusionCall) : WriteBehind.Call String Prop :=
  ⟨c.change.shown, fun x => c.change.restored x, mirrorFate c.fate⟩

def mirror (s : Blocklist) : WriteBehind.Mirror String Prop where
  memory := s.book.Holds
  store := s.Stored
  known := s.Known
  verdict := fun x => (s.verdict x).map fun excluded => excluded = true
  calls := s.calls.map mirrorCall

theorem mirrorFate_eq_answered {fate : WriteFate} : mirrorFate fate = .answered ↔ fate = .answered := by
  cases fate <;> simp [mirrorFate]

theorem mirrorCall_after {c : ExclusionCall} : (mirrorCall c).after x ≠ none ↔ x ∈ c.change.symbols :=
  (not_congr ExclusionChange.shown_eq_none).trans not_not

theorem busy_mirror : s.mirror.Busy x ↔ s.InProgress x := by
  constructor
  · rintro ⟨call, m, hm, hopen, hx⟩
    obtain ⟨c, hc, rfl⟩ := Option.map_eq_some_iff.mp ((List.getElem?_map ..).symm.trans hm)
    exact ⟨call, c, hc, fun heq => hopen (mirrorFate_eq_answered.mpr heq), mirrorCall_after.mp hx⟩
  · rintro ⟨call, c, hc, hopen, hx⟩
    exact ⟨call, mirrorCall c, by simp [mirror, hc], fun heq => hopen (mirrorFate_eq_answered.mp heq),
      mirrorCall_after.mpr hx⟩

section

variable {call : ℕ} {c : ExclusionCall}

theorem mirror_withFate (fate : WriteFate) :
    (s.withFate call c fate).mirror = s.mirror.withFate call (mirrorCall c) (mirrorFate fate) :=
  WriteBehind.Mirror.ext rfl rfl rfl rfl List.map_set

theorem mirror_begin (hwf : change.WellFormed toUpperCase) :
    (s.begin_ toUpperCase change).mirror = s.mirror.begin_ (mirrorCall ⟨change, .pending⟩) := by
  refine WriteBehind.Mirror.ext ?_ rfl rfl rfl List.map_append
  funext x
  exact (propext (ExclusionChange.holds_apply hwf)).trans (ExclusionChange.overlay_shown _).symm

theorem mirror_write (hwf : c.change.WellFormed toUpperCase) (hfate : c.fate = .pending) (henabled : s.dbEnabled = true) :
    (s.write call c).mirror = s.mirror.write call (mirrorCall c) := by
  simp only [write, hfate, henabled, if_true]
  refine WriteBehind.Mirror.ext rfl ?_ rfl rfl List.map_set
  funext x
  exact (propext (ExclusionChange.mem_store hwf)).trans (ExclusionChange.overlay_shown _).symm

theorem mirror_confirm {n : ℕ} (hfate : c.fate = .stored n) :
    (s.answer toUpperCase call c).1.mirror = s.mirror.confirm call (mirrorCall c) := by
  simp only [answer, hfate]
  refine WriteBehind.Mirror.ext rfl rfl ?_ ?_ List.map_set
  · funext x
    by_cases hx : x ∈ c.change.symbols <;>
      simp [mirror, Known, withFate, WriteBehind.Mirror.confirm, mirrorCall, ExclusionChange.shown, hx]
  · funext x
    by_cases hx : x ∈ c.change.symbols <;>
      simp [mirror, withFate, WriteBehind.Mirror.confirm, mirrorCall, ExclusionChange.shown, hx]

theorem mirror_rollBack (hwf : c.change.WellFormed toUpperCase) {error : String} (hfate : c.fate = .failed error) :
    (s.answer toUpperCase call c).1.mirror = s.mirror.rollBack call (mirrorCall c) := by
  simp only [answer, hfate]
  refine WriteBehind.Mirror.ext ?_ rfl rfl rfl List.map_set
  funext x
  exact propext (ExclusionChange.holds_rollBack hwf)

end

/-- With a database every call keeps the book and the table in step. -/
structure Live (s : Blocklist) : Prop where
  enabled : s.dbEnabled = true
  sound : s.mirror.Sound

section

variable {call : ℕ} {c : ExclusionCall} (hcall : s.calls[call]? = some c)
include hcall

theorem get_mirror : s.mirror.calls[call]? = some (mirrorCall c) := by simp [mirror, hcall]

theorem get_withFate (fate : WriteFate) {j : ℕ} {c' : ExclusionCall} (h : (s.withFate call c fate).calls[j]? = some c') :
    (j = call ∧ c' = { c with fate }) ∨ (j ≠ call ∧ s.calls[j]? = some c') :=
  Run.getElem?_set_cases hcall h

theorem Live.write (h : Live s) (hwf : WellFormed toUpperCase s) : Live (s.write call c) := by
  by_cases hfate : c.fate = .pending
  · refine ⟨?_, ?_⟩
    · simp only [Blocklist.write, hfate, h.enabled, if_true]
      exact h.enabled
    · rw [mirror_write (hwf call c hcall) hfate h.enabled]
      exact h.sound.write (get_mirror hcall) (by simp [mirrorCall, mirrorFate, hfate])
  · have hsame : s.write call c = s := by
      unfold Blocklist.write
      split
      next heq => exact absurd heq hfate
      next => rfl
    rwa [hsame]

theorem Live.failWrite (h : Live s) (error : String) : Live (s.failWrite call c error) := by
  unfold Blocklist.failWrite
  split
  next hpending =>
    refine ⟨h.enabled, ?_⟩
    rw [mirror_withFate]
    exact h.sound.fail (get_mirror hcall) (by simp [mirrorCall, mirrorFate, hpending])
  next => exact h

theorem Live.answerStored (h : Live s) {n : ℕ} (hfate : c.fate = .stored n) : Live (s.answer toUpperCase call c).1 := by
  refine ⟨by simp only [answer, hfate]; exact h.enabled, ?_⟩
  rw [mirror_confirm hfate]
  exact h.sound.confirm (get_mirror hcall) (by simp [mirrorCall, mirrorFate, hfate])

omit hcall in
theorem overlay_restored
    (hbulk : ∀ add remove before, c.change = .bulk add remove before → ∀ x ∉ c.change.symbols,
      (s.book.Holds x ↔ x ∈ before.map UnderlyingExclusion.symbol)) (hx : x ∉ c.change.symbols) :
    WriteBehind.overlay (fun x => c.change.restored x) s.book.Holds x = s.book.Holds x := by
  cases hchange : c.change with
  | bulk add remove before => exact (propext (hbulk add remove before hchange x hx)).symm
  | _ =>
    apply WriteBehind.overlay_none
    rw [hchange] at hx
    exact ExclusionChange.restored_eq_none hx (by simp)

omit hcall in
theorem holds_answerFailed (hwf : c.change.WellFormed toUpperCase) {error : String} (hfate : c.fate = .failed error)
    (hbulk : ∀ add remove before, c.change = .bulk add remove before → ∀ x ∉ c.change.symbols,
      (s.book.Holds x ↔ x ∈ before.map UnderlyingExclusion.symbol)) (hx : x ∉ c.change.symbols) :
    (s.answer toUpperCase call c).1.book.Holds x ↔ s.book.Holds x := by
  simp only [answer, hfate]
  exact (ExclusionChange.holds_rollBack hwf).trans (iff_of_eq (overlay_restored hbulk hx))

theorem Live.answerFailed (h : Live s) (hwf : c.change.WellFormed toUpperCase) {error : String}
    (hfate : c.fate = .failed error)
    (hbulk : ∀ add remove before, c.change = .bulk add remove before → ∀ x ∉ c.change.symbols,
      (s.book.Holds x ↔ x ∈ before.map UnderlyingExclusion.symbol)) : Live (s.answer toUpperCase call c).1 := by
  refine ⟨by simp only [answer, hfate]; exact h.enabled, ?_⟩
  rw [mirror_rollBack hwf hfate]
  apply h.sound.rollBack (get_mirror hcall) (by simp [mirrorCall, mirrorFate, hfate])
  exact fun x hx => overlay_restored hbulk (ExclusionChange.shown_eq_none.mp hx)

end

theorem Live.begin_ (h : Live s) (hbegun : Begun toUpperCase s.book change)
    (hfree : ∀ x ∈ change.symbols, ¬s.InProgress x) : Live (s.begin_ toUpperCase change) := by
  refine ⟨h.enabled, ?_⟩
  rw [mirror_begin hbegun.wellFormed]
  apply h.sound.begin_ (.inl rfl)
  · exact fun x hx hbusy => hfree x (mirrorCall_after.mp hx) (busy_mirror.mp hbusy)
  · exact fun x hx => hbegun.noted x (mirrorCall_after.mp hx)

/-! ## Loads -/

theorem Live.answerLoad (h : Live s) {load : ℕ} {fate : LoadFate}
    (horderly : ∀ rows, fate = .read rows → ∀ x,
      ¬s.InProgress x ∧ (x ∈ rows.map UnderlyingExclusion.symbol ↔ s.Stored x)) :
    Live (s.answerLoad load fate) := by
  cases fate with
  | pending => exact h
  | answered => exact h
  | failed error =>
    refine ⟨h.enabled, h.sound.forget fun x hknown => ?_⟩
    exact .inr (hknown.resolve_left (by simp [Blocklist.answerLoad]))
  | read rows =>
    refine ⟨h.enabled, h.sound.reload (fun x hbusy => (horderly rows rfl x).1 (busy_mirror.mp hbusy)) ?_ _⟩
    funext x
    exact propext ((holds_loaded rows).trans (horderly rows rfl x).2)

theorem Live.load (h : Live s) (retry : Bool) : Live (s.loadPersistedExclusions retry) := by
  unfold loadPersistedExclusions
  split
  · exact h
  · rw [if_pos h.enabled]
    exact ⟨h.enabled, h.sound⟩

/-! ## Steps -/

theorem WellFormed.withFate (h : WellFormed toUpperCase s) {call : ℕ} {c : ExclusionCall} (hcall : s.calls[call]? = some c)
    (fate : WriteFate) : WellFormed toUpperCase (s.withFate call c fate) := by
  intro j c' hj
  rcases get_withFate hcall fate hj with ⟨-, rfl⟩ | ⟨-, hj'⟩
  · exact h call c hcall
  · exact h j c' hj'

variable {event : BlocklistEvent}

theorem step_requested (h : s.requested toUpperCase event = .ok change) :
    (s.step toUpperCase event).1 = s.begin_ toUpperCase change := by
  cases event with
  | exclude symbol reason actor at_ => simp only [step, h]
  | include_ symbol => simp only [step, h]
  | bulk exclude include_ actor at_ => simp only [step, h]
  | _ => cases h

theorem step_cases {P : Blocklist → Prop} (event : BlocklistEvent) (hsame : P s)
    (hbegin : ∀ change, s.requested toUpperCase event = .ok change → P (s.begin_ toUpperCase change))
    (hwrite : ∀ call c, s.calls[call]? = some c → P (s.write call c))
    (hfail : ∀ call c error, s.calls[call]? = some c → P (s.failWrite call c error))
    (hanswer : ∀ call c, event = .answered call → s.calls[call]? = some c → P (s.answer toUpperCase call c).1)
    (hload : ∀ retry, P (s.loadPersistedExclusions retry))
    (hread : ∀ load fate, s.loads[load]? = some .pending → P (s.withLoad load fate))
    (hanswerLoad : ∀ load fate, event = .loadAnswered load → s.loads[load]? = some fate → P (s.answerLoad load fate)) :
    P (s.step toUpperCase event).1 := by
  cases event with
  | exclude symbol reason actor at_ =>
    cases hrequest : s.requested toUpperCase (.exclude symbol reason actor at_) with
    | error answer => simpa only [step, hrequest] using hsame
    | ok change => simpa only [step, hrequest] using hbegin change hrequest
  | include_ symbol =>
    cases hrequest : s.requested toUpperCase (.include_ symbol) with
    | error answer => simpa only [step, hrequest] using hsame
    | ok change => simpa only [step, hrequest] using hbegin change hrequest
  | bulk exclude include_ actor at_ =>
    cases hrequest : s.requested toUpperCase (.bulk exclude include_ actor at_) with
    | error answer => simpa only [step, hrequest] using hsame
    | ok change => simpa only [step, hrequest] using hbegin change hrequest
  | written call =>
    cases hcall : s.calls[call]? with
    | none => simpa only [step, hcall] using hsame
    | some c => simpa only [step, hcall] using hwrite call c hcall
  | writeFailed call error =>
    cases hcall : s.calls[call]? with
    | none => simpa only [step, hcall] using hsame
    | some c => simpa only [step, hcall] using hfail call c error hcall
  | answered call =>
    cases hcall : s.calls[call]? with
    | none => simpa only [step, hcall] using hsame
    | some c => simpa only [step, hcall] using hanswer call c rfl hcall
  | load retry => exact hload retry
  | rowsRead load | readFailed load error =>
    cases hfate : s.loads[load]? with
    | none => simpa only [step, hfate] using hsame
    | some fate =>
      cases fate with
      | pending => simpa only [step, hfate] using hread load _ hfate
      | _ => simpa only [step, hfate] using hsame
  | loadAnswered load =>
    cases hfate : s.loads[load]? with
    | none => simpa only [step, hfate] using hsame
    | some fate => simpa only [step, hfate] using hanswerLoad load fate rfl hfate

theorem WellFormed.step (h : WellFormed toUpperCase s) (hupper : KeepsSymbols toUpperCase) (event : BlocklistEvent) :
    WellFormed toUpperCase (s.step toUpperCase event).1 := by
  apply step_cases event h
  case hbegin =>
    intro change hrequest call c hcall
    rcases Run.getElem?_snoc.mp hcall with hcall' | ⟨-, rfl⟩
    · exact h call c hcall'
    · exact (begun_of_requested hupper hrequest).wellFormed
  case hwrite =>
    intro call c hcall
    unfold write
    split
    · split
      · exact h.withFate hcall _
      · exact h.withFate hcall _
    · exact h
  case hfail =>
    intro call c error hcall
    unfold failWrite
    split
    · exact h.withFate hcall _
    · exact h
  case hanswer =>
    intro call c _ hcall
    unfold answer
    split
    · exact h.withFate hcall _
    · exact h.withFate hcall _
    · exact h
  case hload =>
    intro retry
    unfold loadPersistedExclusions
    split
    · exact h
    · split <;> exact h
  case hread => exact fun _ _ _ => h
  case hanswerLoad =>
    intro load fate _ _
    cases fate <;> exact h

theorem Live.step (h : Live s) (hwf : WellFormed toUpperCase s) (hupper : KeepsSymbols toUpperCase)
    (horderly : s.Orderly toUpperCase event) : Live (s.step toUpperCase event).1 := by
  cases hrequest : s.requested toUpperCase event with
  | ok change =>
    rw [step_requested hrequest]
    apply h.begin_ (begun_of_requested hupper hrequest)
    cases event with
    | exclude symbol reason actor at_ | include_ symbol
    | bulk exclude include_ actor at_ => exact horderly change hrequest
    | _ => cases hrequest
  | error answer =>
    apply step_cases event h
    case hbegin =>
      intro change hchange
      rw [hrequest] at hchange
      cases hchange
    case hwrite => exact fun call c hcall => h.write hcall hwf
    case hfail => exact fun call c error hcall => h.failWrite hcall error
    case hload => exact h.load
    case hread => exact fun load fate _ => ⟨h.enabled, h.sound⟩
    case hanswerLoad =>
      rintro load fate rfl hfate
      apply h.answerLoad
      rintro rows rfl
      exact horderly rows hfate
    case hanswer =>
      rintro call c rfl hcall
      cases hfate : c.fate with
      | pending | answered => simpa only [Blocklist.answer, hfate] using h
      | stored n => exact h.answerStored hcall hfate
      | failed error =>
        apply h.answerFailed hcall (hwf call c hcall) hfate
        exact fun add remove before heq => horderly c error add remove before hcall hfate heq

/-! ## Without a database -/

structure Dormant (s : Blocklist) : Prop where
  disabled : s.dbEnabled = false
  verdict : ∀ x, s.verdict x = none
  lastLoad : s.lastLoad ≠ some true
  loads : s.loads = []
  unstored : ∀ (i : ℕ) (c : ExclusionCall) (n : ℕ), s.calls[i]? = some c → c.fate ≠ .stored n

theorem Dormant.withFate (h : Dormant s) {call : ℕ} {c : ExclusionCall} (hcall : s.calls[call]? = some c) {fate : WriteFate}
    (hfate : ∀ n, fate ≠ .stored n) : Dormant (s.withFate call c fate) := by
  refine { h with unstored := ?_ }
  intro i c' n hi
  rcases get_withFate hcall fate hi with ⟨-, rfl⟩ | ⟨-, hi'⟩
  · exact hfate n
  · exact h.unstored i c' n hi'

theorem Dormant.step (h : Dormant s) (event : BlocklistEvent) : Dormant (s.step toUpperCase event).1 := by
  apply step_cases event h
  case hbegin =>
    intro change _
    refine { h with unstored := ?_ }
    intro i c n hi
    rcases Run.getElem?_snoc.mp hi with hi' | ⟨-, rfl⟩
    · exact h.unstored i c n hi'
    · simp
  case hwrite =>
    intro call c hcall
    unfold write
    split
    · simp only [h.disabled, Bool.false_eq_true, if_false]
      exact h.withFate hcall (by simp)
    · exact h
  case hfail =>
    intro call c error hcall
    unfold failWrite
    split
    · exact h.withFate hcall (by simp)
    · exact h
  case hanswer =>
    intro call c _ hcall
    unfold answer
    split
    next n hfate => exact absurd hfate (h.unstored call c n hcall)
    next =>
      have hanswered : Dormant (s.withFate call c .answered) := h.withFate hcall (by simp)
      exact { hanswered with }
    next => exact h
  case hload =>
    intro retry
    unfold loadPersistedExclusions
    split
    · exact h
    · simp only [h.disabled, Bool.false_eq_true, if_false]
      exact { h with disabled := rfl }
  case hread =>
    intro load fate hload
    simp [h.loads] at hload
  case hanswerLoad =>
    intro load fate _ hload
    simp [h.loads] at hload

/-! ## Runs -/

structure Inv (toUpperCase : String → String) (s : Blocklist) : Prop where
  wellFormed : WellFormed toUpperCase s
  mode : Live s ∨ Dormant s

theorem Inv.new (dbEnabled : Bool) (rows : List UnderlyingExclusion) : Inv toUpperCase (new dbEnabled rows) := by
  refine ⟨fun call c hcall => by simp [Blocklist.new] at hcall, ?_⟩
  cases dbEnabled with
  | true =>
    refine .inl ⟨rfl, ?_⟩
    constructor <;> simp [mirror, Blocklist.new, Known]
  | false =>
    apply Or.inr
    constructor <;> simp [Blocklist.new]

theorem Inv.step (h : Inv toUpperCase s) (hupper : KeepsSymbols toUpperCase) (horderly : s.Orderly toUpperCase event) :
    Inv toUpperCase (s.step toUpperCase event).1 := by
  refine ⟨h.wellFormed.step hupper event, ?_⟩
  rcases h.mode with hlive | hdormant
  · exact .inl (hlive.step h.wellFormed hupper horderly)
  · exact .inr (hdormant.step event)

theorem Live.faithful (h : Live s) : Faithful s where
  memory := fun hload x hidle => iff_of_eq (h.sound.settled x (fun hbusy => hidle (busy_mirror.mp hbusy)) (.inl hload))
  changing := by
    intro _ call c hcall hopen x hx
    have hshown : (mirrorCall c).after x = some (x ∈ c.change.excluded) := if_pos hx
    exact iff_of_eq (h.sound.shown call _ (get_mirror hcall) (fun heq => hopen (mirrorFate_eq_answered.mp heq)) x _ hshown)
  inForce := by
    intro x excluded hverdict hidle
    have hbusy : ¬s.mirror.Busy x := fun hbusy => hidle (busy_mirror.mp hbusy)
    have hknown : s.Known x := .inr (by simp [hverdict])
    have hstored : s.mirror.store x = (excluded = true) := by
      apply h.sound.verdicts x _ (by simp [mirror, hverdict])
      intro call m hm hfate
      by_contra hx
      exact hbusy ⟨call, m, hm, by simp [hfate], hx⟩
    exact iff_of_eq ((h.sound.settled x hbusy hknown).trans hstored)

theorem Dormant.faithful (h : Dormant s) : Faithful s where
  memory := fun hload => absurd hload h.lastLoad
  inForce := by
    intro x excluded hverdict
    rw [h.verdict x] at hverdict
    cases hverdict
  changing := by
    intro henabled
    rw [h.disabled] at henabled
    cases henabled

theorem Inv.undoesOwn (h : Inv toUpperCase s) (horderly : s.Orderly toUpperCase event) :
    s.UndoesOwn toUpperCase event := by
  cases event with
  | answered call =>
    intro c error hcall hfate x hx
    have hbulk : ∀ add remove before, c.change = .bulk add remove before → ∀ x ∉ c.change.symbols,
        (s.book.Holds x ↔ x ∈ before.map UnderlyingExclusion.symbol) :=
      fun add remove before heq => horderly c error add remove before hcall hfate heq
    simp only [Blocklist.step, hcall]
    exact holds_answerFailed (h.wellFormed call c hcall) hfate hbulk hx
  | _ => trivial

/-- **A run whose steps are orderly keeps the blocklist and its table in step.** -/
theorem faithful_run (hupper : KeepsSymbols toUpperCase) (dbEnabled : Bool) (rows : List UnderlyingExclusion)
    {events : List BlocklistEvent}
    (h : Run.Guarded (step toUpperCase) (Orderly toUpperCase) (new dbEnabled rows) events) :
    Faithful (Run.finish (step toUpperCase) (new dbEnabled rows) events) ∧
      ∀ earlier event later, events = earlier ++ event :: later →
        UndoesOwn toUpperCase (Run.finish (step toUpperCase) (new dbEnabled rows) earlier) event := by
  have hinv : ∀ {events : List BlocklistEvent},
      Run.Guarded (step toUpperCase) (Orderly toUpperCase) (new dbEnabled rows) events →
      Inv toUpperCase (Run.finish (step toUpperCase) (new dbEnabled rows) events) :=
    fun h => h.invariant (Inv toUpperCase) (fun s event hs horderly => hs.step hupper horderly) (Inv.new dbEnabled rows)
  constructor
  · rcases (hinv h).mode with hlive | hdormant
    · exact hlive.faithful
    · exact hdormant.faithful
  · rintro earlier event later rfl
    obtain ⟨hearlier, hrest⟩ := h.append
    exact (hinv hearlier).undoesOwn hrest.1

/-! ## A bulk change that fails -/

def upperAscii (s : String) : String := String.ofList (s.toList.map Char.toUpper)

theorem upperAscii_keepsSymbols : KeepsSymbols upperAscii := by
  intro s hs
  have hsame : ∀ c ∈ s.toList, c.toUpper = c := by
    intro c hc
    have hrange := range_of_isSymbolChar (List.all_eq_true.mp hs c hc)
    unfold Char.toUpper
    rw [dif_neg]
    rintro ⟨hlow, -⟩
    have hle : 97 ≤ c.toNat := UInt32.le_iff_toNat_le.mp hlow
    omega
  unfold upperAscii
  rw [List.map_congr_left hsame, List.map_id', String.ofList_toList]

/-- The write of NIFTY fails while RELIANCE, excluded meanwhile, is stored and answered. -/
def loadsThenExcludes : List BlocklistEvent :=
  [.load false, .rowsRead 0, .loadAnswered 0, .exclude (.text " nifty ") .absent none 5,
    .exclude (.text "RELIANCE") .absent none 6, .written 1, .answered 1, .writeFailed 0 "timeout", .answered 0]

theorem faithful_run_exclude : Faithful (Run.finish (step upperAscii) (new true []) loadsThenExcludes) ∧
    ∀ earlier event later, loadsThenExcludes = earlier ++ event :: later →
      UndoesOwn upperAscii (Run.finish (step upperAscii) (new true []) earlier) event := by
  apply faithful_run upperAscii_keepsSymbols
  have hidle : ∀ (s : Blocklist) (x : String), s.calls = [] → ¬s.InProgress x := by
    rintro s x hcalls ⟨call, c, hcall, -⟩
    simp [hcalls] at hcall
  refine ⟨?_, ?_, ?_, ?_, ?_, ?_, ?_, ?_, ?_, trivial⟩
  · rintro change ⟨⟩
  · rintro change ⟨⟩
  · rintro rows ⟨⟩ x
    exact ⟨hidle _ x rfl, Iff.rfl⟩
  · exact fun change _ x _ => hidle _ x rfl
  · intro change hchange x hx
    rintro ⟨call, c, hcall, -, hmem⟩
    have hasked : ((Run.finish (step upperAscii) (new true []) (loadsThenExcludes.take 4)).requested upperAscii
        (.exclude (.text "RELIANCE") .absent none 6)).toOption = some (.exclude ⟨"RELIANCE", none, none, 6⟩ none) := by
      decide +kernel
    have hcalls : (Run.finish (step upperAscii) (new true []) (loadsThenExcludes.take 4)).calls =
        [⟨.exclude ⟨"NIFTY", none, none, 5⟩ none, .pending⟩] := by decide +kernel
    have hchange' : (Run.finish (step upperAscii) (new true []) (loadsThenExcludes.take 4)).requested upperAscii
        (.exclude (.text "RELIANCE") .absent none 6) = .ok change := hchange
    have hcall' : c ∈ (Run.finish (step upperAscii) (new true []) (loadsThenExcludes.take 4)).calls :=
      List.mem_of_getElem? hcall
    rw [hchange'] at hasked
    cases hasked
    rw [hcalls, List.mem_singleton] at hcall'
    cases hcall'
    simp [ExclusionChange.symbols] at hx hmem
    exact absurd (hx.symm.trans hmem) (by decide)
  · rintro change ⟨⟩
  · intro c error add remove before hcall hfate
    have hstored : (Run.finish (step upperAscii) (new true []) (loadsThenExcludes.take 6)).calls[1]?.map ExclusionCall.fate =
        some (.stored 0) := by decide +kernel
    have hcall' : (Run.finish (step upperAscii) (new true []) (loadsThenExcludes.take 6)).calls[1]? = some c := hcall
    rw [hcall', Option.map_some, hfate] at hstored
    cases hstored
  · rintro change ⟨⟩
  · intro c error add remove before hcall _ hbulk
    have hsingle : (Run.finish (step upperAscii) (new true []) (loadsThenExcludes.take 8)).calls[0]?.map ExclusionCall.change =
        some (.exclude ⟨"NIFTY", none, none, 5⟩ none) := by decide +kernel
    have hcall' : (Run.finish (step upperAscii) (new true []) (loadsThenExcludes.take 8)).calls[0]? = some c := hcall
    rw [hcall', Option.map_some, hbulk] at hsingle
    cases hsingle

def bulkFails : List BlocklistEvent :=
  [.load false, .rowsRead 0, .loadAnswered 0, .bulk (.array [(.text "NIFTY", .absent)]) .absent none 5,
    .exclude (.text "RELIANCE") .absent none 6, .written 1, .answered 1, .writeFailed 0 "timeout", .answered 0]

/-- RELIANCE was excluded during a bulk change of NIFTY, whose failure makes it tradable again. -/
theorem exclusion_lost : ¬Faithful (Run.finish (step upperAscii) (new true []) bulkFails) := by
  intro h
  have hverdict : (Run.finish (step upperAscii) (new true []) bulkFails).verdict "RELIANCE" = some true := by decide +kernel
  have hover : (Run.finish (step upperAscii) (new true []) bulkFails).calls.all (fun c => c.fate = .answered) = true := by
    decide +kernel
  have hgone : "RELIANCE" ∉
      (Run.finish (step upperAscii) (new true []) bulkFails).book.entries.map UnderlyingExclusion.symbol := by decide +kernel
  apply hgone
  apply (h.inForce "RELIANCE" true hverdict _).mpr rfl
  rintro ⟨call, c, hcall, hopen, -⟩
  exact hopen (by simpa using List.all_eq_true.mp hover c (List.mem_of_getElem? hcall))

end Blocklist

end BoxEngine
