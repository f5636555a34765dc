import BoxEngine.Lib.WriteBehind
import BoxEngine.Tuning

/-!
# The thresholds in force are the stored ones

Where no two calls in progress change one threshold and a failed call finds the others unchanged, the thresholds in
force are those last committed.
-/

namespace BoxEngine

open Js

section

variable (base : ℚ) (values : PartialTuning) (cfg : TuningConfig) (key : TuningKey)

theorem get_applyTuning :
    (readTuning (applyTuning base values cfg)).get key = (values.get key).getD ((readTuning cfg).get key) := by
  cases key <;> rfl

theorem minGrossEdge_applyTuning :
    (applyTuning base values cfg).minGrossEdge = min base (requiredNetProfit (applyTuning base values cfg)) := by
  simp only [applyTuning, requiredNetProfit]

theorem get_all (tuning : BoxTuning) : tuning.all.get key = some (tuning.get key) := by
  cases key <;> rfl

end

namespace TuningEngine

variable {start : TuningConfig} {rows : List (String × ℚ)} {s : TuningEngine} {key : TuningKey}

def latest (log : List PartialTuning) (key : TuningKey) : Option ℚ :=
  log.foldl (fun held values => (values.get key).or held) none

def storedValue (rows : List (String × ℚ)) (key : TuningKey) : Option ℚ :=
  (rows.find? fun row => row.1 = BOX_TUNING_KEYS key).map Prod.snd

def InProgress (s : TuningEngine) (key : TuningKey) : Prop :=
  ∃ (call : ℕ) (c : TuningCall), s.calls[call]? = some c ∧ c.fate ≠ .answered ∧ c.values.get key ≠ none

structure InForce (start : TuningConfig) (rows : List (String × ℚ)) (s : TuningEngine) : Prop where
  memory : ∀ key, ¬s.InProgress key →
    (readTuning s.cfg).get key = (latest s.saves key).getD ((readTuning start).get key)
  changed : ∀ key value, latest s.changes key = some value → ¬s.InProgress key → (readTuning s.cfg).get key = value
  derived : s.cfg.minGrossEdge = min start.minGrossEdge (requiredNetProfit s.cfg)
  table : ∀ key, storedValue s.rows key = (latest s.saves key).or (storedValue rows key)

def SparesSaved (s : TuningEngine) : TuningEvent → Prop
  | .answered call => ∀ c error, s.calls[call]? = some c → c.fate = .failed error → ∀ key,
      (∃ values ∈ s.saves.drop c.since, values.get key ≠ none) →
        (readTuning (s.step (.answered call)).1.cfg).get key = (readTuning s.cfg).get key
  | _ => True

def Orderly (s : TuningEngine) : TuningEvent → Prop
  | .setTuning patch _ => ∀ values, validateTuning patch = .ok values → ∀ key, values.get key ≠ none → ¬s.InProgress key
  | .answered call => ∀ c error, s.calls[call]? = some c → c.fate = .failed error → ∀ key,
      c.values.get key = none → c.before.get key = (readTuning s.cfg).get key
  | _ => True

/-! ## The thresholds as a mirror of the table -/

theorem latest_snoc (log : List PartialTuning) (values : PartialTuning) (key : TuningKey) :
    latest (log ++ [values]) key = (values.get key).or (latest log key) := by
  simp [latest]

def mirrorFate : SaveFate → WriteBehind.Fate
  | .pending => .pending
  | .saved => .stored
  | .failed _ => .failed
  | .answered => .answered

def mirrorCall (c : TuningCall) : WriteBehind.Call TuningKey ℚ := ⟨c.values.get, c.before.all.get, mirrorFate c.fate⟩

def mirror (start : TuningConfig) (s : TuningEngine) : WriteBehind.Mirror TuningKey ℚ where
  memory := (readTuning s.cfg).get
  store := fun key => (latest s.saves key).getD ((readTuning start).get key)
  known := fun _ => True
  verdict := latest s.changes
  calls := s.calls.map mirrorCall

theorem mirrorFate_eq_answered {fate : SaveFate} : mirrorFate fate = .answered ↔ fate = .answered := by
  cases fate <;> simp [mirrorFate]

theorem get_mirror {call : ℕ} {c : TuningCall} (h : s.calls[call]? = some c) :
    (mirror start s).calls[call]? = some (mirrorCall c) := by
  simp [mirror, h]

theorem get_of_mirror {call : ℕ} {m : WriteBehind.Call TuningKey ℚ} (h : (mirror start s).calls[call]? = some m) :
    ∃ c, s.calls[call]? = some c ∧ m = mirrorCall c := by
  obtain ⟨c, hc, rfl⟩ := Option.map_eq_some_iff.mp ((List.getElem?_map ..).symm.trans h)
  exact ⟨c, hc, rfl⟩

theorem busy_mirror : (mirror start s).Busy key ↔ s.InProgress key := by
  constructor
  · rintro ⟨call, m, hm, hopen, hkey⟩
    obtain ⟨c, hc, rfl⟩ := get_of_mirror hm
    exact ⟨call, c, hc, fun heq => hopen (mirrorFate_eq_answered.mpr heq), hkey⟩
  · rintro ⟨call, c, hc, hopen, hkey⟩
    exact ⟨call, mirrorCall c, get_mirror hc, fun heq => hopen (mirrorFate_eq_answered.mp heq), hkey⟩

section

variable {call : ℕ} {c : TuningCall}

theorem mirror_withFate (fate : SaveFate) :
    mirror start (s.withFate call c fate) = (mirror start s).withFate call (mirrorCall c) (mirrorFate fate) := by
  simp only [mirror, withFate, WriteBehind.Mirror.withFate, List.map_set]
  rfl

theorem mirror_save (hfate : c.fate = .pending) :
    mirror start (s.save call c) = (mirror start s).write call (mirrorCall c) := by
  have hstore : (fun key => (latest (s.saves ++ [c.values]) key).getD ((readTuning start).get key)) =
      WriteBehind.overlay c.values.get fun key => (latest s.saves key).getD ((readTuning start).get key) := by
    funext key
    rw [latest_snoc, WriteBehind.overlay]
    cases c.values.get key <;> rfl
  simp only [save, hfate, mirror, withFate, WriteBehind.Mirror.write, WriteBehind.Mirror.withFate, List.map_set, hstore]
  rfl

theorem mirror_confirm (hfate : c.fate = .saved) :
    mirror start (s.answer call c).1 = (mirror start s).confirm call (mirrorCall c) := by
  have hverdict : latest (s.changes ++ [c.values]) = fun key => (c.values.get key).or (latest s.changes key) := by
    funext key
    exact latest_snoc _ _ _
  simp only [answer, hfate, mirror, withFate, WriteBehind.Mirror.confirm, WriteBehind.Mirror.withFate, List.map_set,
    hverdict, or_true]
  rfl

theorem mirror_rollBack {error : String} (hfate : c.fate = .failed error) :
    mirror start (s.answer call c).1 = (mirror start s).rollBack call (mirrorCall c) := by
  have hmemory : (readTuning (applyTuning s.baseMinGrossEdge c.before.all s.cfg)).get =
      WriteBehind.overlay c.before.all.get (readTuning s.cfg).get := by
    funext key
    exact get_applyTuning _ _ _ _
  simp only [answer, hfate, mirror, withFate, WriteBehind.Mirror.rollBack, WriteBehind.Mirror.withFate, List.map_set, hmemory]
  rfl

theorem mirror_setTuning {patch : TuningPatch} {dbEnabled : Bool} {values : PartialTuning}
    (h : validateTuning patch = .ok values) :
    ∃ fate, (fate = .pending ∨ ∃ error, fate = .failed error) ∧
      (s.setTuning patch dbEnabled).1.calls = s.calls ++ [⟨values, readTuning s.cfg, s.saves.length, fate⟩] ∧
      mirror start (s.setTuning patch dbEnabled).1 =
        (mirror start s).begin_ (mirrorCall ⟨values, readTuning s.cfg, s.saves.length, fate⟩) := by
  have hmemory : (readTuning (applyTuning s.baseMinGrossEdge values s.cfg)).get =
      WriteBehind.overlay values.get (readTuning s.cfg).get := by
    funext key
    exact get_applyTuning _ _ _ _
  refine ⟨if dbEnabled then .pending else .failed savingUnconfigured, ?_, ?_, ?_⟩
  · cases dbEnabled <;> simp
  · simp [setTuning, h]
  · simp only [setTuning, h, mirror, WriteBehind.Mirror.begin_, List.map_append, hmemory]
    rfl

end

/-! ## The invariant -/

def Undisturbed (s : TuningEngine) : Prop :=
  ∀ (call : ℕ) (c : TuningCall), s.calls[call]? = some c → c.fate ≠ .answered → c.fate ≠ .saved →
    c.since ≤ s.saves.length ∧ ∀ values ∈ s.saves.drop c.since, ∀ key, c.values.get key ≠ none → values.get key = none

structure Inv (start : TuningConfig) (rows : List (String × ℚ)) (s : TuningEngine) : Prop where
  sound : (mirror start s).Sound
  base : s.baseMinGrossEdge = start.minGrossEdge
  derived : s.cfg.minGrossEdge = min s.baseMinGrossEdge (requiredNetProfit s.cfg)
  undisturbed : s.Undisturbed
  table : ∀ key, storedValue s.rows key = (latest s.saves key).or (storedValue rows key)

theorem Inv.new (h : start.minGrossEdge ≤ requiredNetProfit start) : Inv start rows (new start rows) where
  sound := by
    constructor
    case settled => exact fun key _ _ => rfl
    case verdicts =>
      intro key value hverdict
      cases hverdict
    all_goals simp [mirror, TuningEngine.new]
  base := rfl
  derived := (min_eq_left h).symm
  undisturbed := by
    intro call c hcall
    simp [TuningEngine.new] at hcall
  table := fun key => rfl

theorem storedValue_put (rows : List (String × ℚ)) (key key' : TuningKey) (value : ℚ) :
    storedValue (Keyed.put Prod.fst rows (BOX_TUNING_KEYS key', value)) key =
      if key = key' then some value else storedValue rows key := by
  have hkeys : BOX_TUNING_KEYS key = BOX_TUNING_KEYS key' ↔ key = key' := by
    cases key <;> cases key' <;> simp [BOX_TUNING_KEYS]
  unfold storedValue
  rw [Keyed.find?_put]
  by_cases h : key = key'
  · rw [if_pos (hkeys.mpr h), if_pos h]
    rfl
  · rw [if_neg fun heq => h (hkeys.mp heq), if_neg h]

theorem storedValue_save (values : PartialTuning) (rows : List (String × ℚ)) (key : TuningKey) :
    storedValue (saveBoxSettings (tuningEntries values) rows) key = (values.get key).or (storedValue rows key) := by
  obtain ⟨minExpectedNetProfit, safetyBuffer⟩ := values
  cases minExpectedNetProfit <;> cases safetyBuffer <;> cases key <;>
    simp [saveBoxSettings, tuningEntries, PartialTuning.get, storedValue_put]

section

variable {call : ℕ} {c : TuningCall} (hcall : s.calls[call]? = some c)
include hcall

theorem get_withFate {fate : SaveFate} {j : ℕ} {c' : TuningCall} (h : (s.withFate call c fate).calls[j]? = some c') :
    (j = call ∧ c' = { c with fate }) ∨ (j ≠ call ∧ s.calls[j]? = some c') :=
  Run.getElem?_set_cases hcall h

theorem Undisturbed.answered (h : s.Undisturbed) : (s.withFate call c .answered).Undisturbed := by
  intro j c' hj hopen hunsaved
  rcases get_withFate hcall hj with ⟨-, rfl⟩ | ⟨-, hj'⟩
  · exact absurd rfl hopen
  · exact h j c' hj' hopen hunsaved

theorem Inv.save (h : Inv start rows s) : Inv start rows (s.save call c) := by
  by_cases hfate : c.fate = .pending
  · have hsound : (mirror start (s.save call c)).Sound := by
      rw [mirror_save hfate]
      exact h.sound.write (get_mirror hcall) (by simp [mirrorCall, mirrorFate, hfate])
    have hopen : c.fate ≠ .answered := by simp [hfate]
    unfold TuningEngine.save at hsound ⊢
    rw [hfate] at hsound ⊢
    constructor
    case sound => exact hsound
    case base => exact h.base
    case derived => exact h.derived
    case undisturbed =>
      intro j c' hj hopen' hunsaved
      rcases get_withFate hcall hj with ⟨-, rfl⟩ | ⟨hne, hj'⟩
      · exact absurd rfl hunsaved
      · obtain ⟨hle, hfree⟩ := h.undisturbed j c' hj' hopen' hunsaved
        refine ⟨by simpa using Nat.le_succ_of_le hle, ?_⟩
        show ∀ values ∈ (s.saves ++ [c.values]).drop c'.since, _
        rw [List.drop_append_of_le_length hle]
        apply Run.forall_mem_snoc hfree
        intro key hkey
        exact h.sound.apart j call (mirrorCall c') (mirrorCall c) (get_mirror hj') (get_mirror hcall) hne
          (fun heq => hopen' (mirrorFate_eq_answered.mp heq)) (fun heq => hopen (mirrorFate_eq_answered.mp heq)) key hkey
    case table =>
      intro key
      rw [storedValue_save, h.table, latest_snoc, Option.or_assoc]
  · have hsame : s.save call c = s := by
      unfold TuningEngine.save
      split
      next heq => exact absurd heq hfate
      next => rfl
    rwa [hsame]

theorem Inv.failSave (h : Inv start rows s) (error : String) : Inv start rows (s.failSave call c error) := by
  unfold TuningEngine.failSave
  split
  next hfate =>
    refine { h with sound := ?_, undisturbed := ?_ }
    · rw [mirror_withFate]
      exact h.sound.fail (get_mirror hcall) (by simp [mirrorCall, mirrorFate, hfate])
    · intro j c' hj hopen hunsaved
      rcases get_withFate hcall hj with ⟨-, rfl⟩ | ⟨-, hj'⟩
      · exact h.undisturbed call c hcall (by simp [hfate]) (by simp [hfate])
      · exact h.undisturbed j c' hj' hopen hunsaved
  next => exact h

theorem Inv.answer (h : Inv start rows s)
    (horderly : ∀ error, c.fate = .failed error → ∀ key, c.values.get key = none →
      c.before.get key = (readTuning s.cfg).get key) :
    Inv start rows (s.answer call c).1 := by
  cases hfate : c.fate with
  | pending | answered => simpa only [TuningEngine.answer, hfate] using h
  | saved =>
    have hsound : (mirror start (s.answer call c).1).Sound := by
      rw [mirror_confirm hfate]
      exact h.sound.confirm (get_mirror hcall) (by simp [mirrorCall, mirrorFate, hfate])
    unfold TuningEngine.answer at hsound ⊢
    rw [hfate] at hsound ⊢
    exact { h with sound := hsound, undisturbed := h.undisturbed.answered hcall }
  | failed error =>
    have hsound : (mirror start (s.answer call c).1).Sound := by
      rw [mirror_rollBack hfate]
      apply h.sound.rollBack (get_mirror hcall) (by simp [mirrorCall, mirrorFate, hfate])
      intro key hkey
      have hbefore : (mirrorCall c).restore key = some (c.before.get key) := get_all key c.before
      rw [WriteBehind.overlay_some hbefore]
      exact horderly error hfate key hkey
    unfold TuningEngine.answer at hsound ⊢
    rw [hfate] at hsound ⊢
    exact { h with
      sound := hsound
      derived := minGrossEdge_applyTuning ..
      undisturbed := h.undisturbed.answered hcall }

end

theorem Inv.setTuning (h : Inv start rows s) {patch : TuningPatch} {dbEnabled : Bool}
    (horderly : s.Orderly (.setTuning patch dbEnabled)) : Inv start rows (s.setTuning patch dbEnabled).1 := by
  cases hvalid : validateTuning patch with
  | error error => simpa only [TuningEngine.setTuning, hvalid] using h
  | ok values =>
    obtain ⟨fate, hfate, hcalls, hmirror⟩ := @mirror_setTuning start s patch dbEnabled values hvalid
    have hsaves : (s.setTuning patch dbEnabled).1.saves = s.saves := by simp only [TuningEngine.setTuning, hvalid]
    constructor
    case sound =>
      rw [hmirror]
      apply h.sound.begin_
      · rcases hfate with rfl | ⟨error, rfl⟩ <;> simp [mirrorCall, mirrorFate]
      · exact fun key hkey hbusy => horderly values hvalid key hkey (busy_mirror.mp hbusy)
      · exact fun key _ => get_all key _
    case base => simpa only [TuningEngine.setTuning, hvalid] using h.base
    case derived => simp only [TuningEngine.setTuning, hvalid, minGrossEdge_applyTuning]
    case undisturbed =>
      intro j c' hj hopen hunsaved
      rw [hcalls] at hj
      rw [hsaves]
      rcases Run.getElem?_snoc.mp hj with hj' | ⟨-, rfl⟩
      · exact h.undisturbed j c' hj' hopen hunsaved
      · simp
    case table => simpa only [TuningEngine.setTuning, hvalid] using h.table

theorem Inv.step (h : Inv start rows s) {event : TuningEvent} (horderly : s.Orderly event) :
    Inv start rows (s.step event).1 := by
  cases event with
  | setTuning patch dbEnabled => exact h.setTuning horderly
  | saved call =>
    cases hcall : s.calls[call]? with
    | none => simpa only [TuningEngine.step, hcall] using h
    | some c => simpa only [TuningEngine.step, hcall] using h.save hcall
  | saveFailed call error =>
    cases hcall : s.calls[call]? with
    | none => simpa only [TuningEngine.step, hcall] using h
    | some c => simpa only [TuningEngine.step, hcall] using h.failSave hcall error
  | answered call =>
    cases hcall : s.calls[call]? with
    | none => simpa only [TuningEngine.step, hcall] using h
    | some c => simpa only [TuningEngine.step, hcall] using h.answer hcall fun error => horderly c error hcall

theorem Inv.inForce (h : Inv start rows s) : InForce start rows s where
  memory := fun key hidle => h.sound.settled key (fun hbusy => hidle (busy_mirror.mp hbusy)) trivial
  changed := by
    intro key value hchanged hidle
    have hbusy : ¬(mirror start s).Busy key := fun hbusy => hidle (busy_mirror.mp hbusy)
    refine (h.sound.settled key hbusy trivial).trans (h.sound.verdicts key value hchanged ?_)
    intro call m hm hstored
    by_contra hkey
    exact hbusy ⟨call, m, hm, by simp [hstored], hkey⟩
  derived := by rw [h.derived, h.base]
  table := h.table

theorem Inv.sparesSaved (h : Inv start rows s) {event : TuningEvent} (horderly : s.Orderly event) : s.SparesSaved event := by
  cases event with
  | answered call =>
    rintro c error hcall hfate key ⟨values, hvalues, hkey⟩
    have hnot : c.values.get key = none := by
      by_contra hown
      exact hkey ((h.undisturbed call c hcall (by simp [hfate]) (by simp [hfate])).2 values hvalues key hown)
    simp only [TuningEngine.step, hcall, TuningEngine.answer, hfate]
    rw [get_applyTuning, get_all]
    exact horderly c error hcall hfate key hnot
  | _ => trivial

/-- In every state of an orderly run the thresholds in force are the stored ones. -/
theorem inForce_run (cfg : TuningConfig) (rows : List (String × ℚ)) (hbase : cfg.minGrossEdge ≤ requiredNetProfit cfg)
    {events : List TuningEvent} (h : Run.Guarded step Orderly (new cfg rows) events) :
    InForce cfg rows (Run.finish step (new cfg rows) events) ∧
      ∀ earlier event later, events = earlier ++ event :: later →
        SparesSaved (Run.finish step (new cfg rows) earlier) event := by
  have hinv : ∀ {events : List TuningEvent}, Run.Guarded step Orderly (new cfg rows) events →
      Inv cfg rows (Run.finish step (new cfg rows) events) :=
    fun h => h.invariant (Inv cfg rows) (fun s event hs horderly => hs.step horderly) (Inv.new hbase)
  constructor
  · exact (hinv h).inForce
  · rintro earlier event later rfl
    obtain ⟨hearlier, hrest⟩ := h.append
    exact (hinv hearlier).sparesSaved hrest.1

def configured : TuningConfig := ⟨1200, 100, 1200, 0⟩

/-- A buffer set during a stored change of the entry gate is not saved. -/
def loosens : List TuningEvent :=
  [.setTuning ⟨some (.fin 800), none⟩ true, .setTuning ⟨none, some (.fin 250)⟩ true, .saved 0, .answered 0,
    .saveFailed 1 "timeout", .answered 1]

theorem inForce_run_loosens : InForce configured [] (Run.finish step (new configured []) loosens) ∧
    ∀ earlier event later, loosens = earlier ++ event :: later →
      SparesSaved (Run.finish step (new configured []) earlier) event := by
  apply inForce_run configured [] (by decide +kernel)
  refine ⟨?_, ?_, trivial, ?_, trivial, ?_, trivial⟩
  · rintro values - key - ⟨call, c, hcall, -⟩
    simp [new] at hcall
  · rintro values hvalues key hkey ⟨call, c, hcall, -, hset⟩
    have hcalls : (Run.finish step (new configured []) (loosens.take 1)).calls.map TuningCall.values = [⟨some 800, none⟩] := by
      decide +kernel
    have hvalid : (validateTuning ⟨none, some (.fin 250)⟩).toOption = some ⟨none, some 250⟩ := by decide +kernel
    have hmem : c.values ∈ (Run.finish step (new configured []) (loosens.take 1)).calls.map TuningCall.values :=
      List.mem_map_of_mem (List.mem_of_getElem? hcall)
    rw [hcalls, List.mem_singleton] at hmem
    rw [hvalues] at hvalid
    cases hvalid
    rw [hmem] at hset
    cases key
    · exact hkey rfl
    · exact hset rfl
  · intro c error hcall hfate
    have hsaved : (Run.finish step (new configured []) (loosens.take 3)).calls[0]?.map TuningCall.fate = some .saved := by
      decide +kernel
    have hcall' : (Run.finish step (new configured []) (loosens.take 3)).calls[0]? = some c := hcall
    rw [hcall', Option.map_some, hfate] at hsaved
    cases hsaved
  · intro c error hcall _ key hkey
    have hheld : (Run.finish step (new configured []) (loosens.take 5)).calls[1]? =
        some ⟨⟨none, some 250⟩, ⟨800, 100⟩, 0, .failed "timeout"⟩ := by decide +kernel
    have hgate : (readTuning (Run.finish step (new configured []) (loosens.take 5)).cfg).get .minExpectedNetProfit = 800 := by
      decide +kernel
    cases hheld.symm.trans hcall
    cases key with
    | minExpectedNetProfit => exact hgate.symm
    | safetyBuffer => cases hkey

def gateFails : List TuningEvent :=
  [.setTuning ⟨some (.fin 800), none⟩ true, .setTuning ⟨none, some (.fin 250)⟩ true, .saved 1, .answered 1,
    .saveFailed 0 "timeout", .answered 0]

/-- The buffer was set during a change of the entry gate, whose failure takes it back. -/
theorem buffer_lost : ¬InForce configured [] (Run.finish step (new configured []) gateFails) := by
  intro h
  have hsaved : latest (Run.finish step (new configured []) gateFails).saves .safetyBuffer = some 250 := by decide +kernel
  have hover : (Run.finish step (new configured []) gateFails).calls.all (fun c => c.fate = .answered) = true := by
    decide +kernel
  have hback : (readTuning (Run.finish step (new configured []) gateFails).cfg).get .safetyBuffer = 100 := by decide +kernel
  have hidle : ¬(Run.finish step (new configured []) gateFails).InProgress .safetyBuffer := by
    rintro ⟨call, c, hcall, hopen, -⟩
    exact hopen (by simpa using List.all_eq_true.mp hover c (List.mem_of_getElem? hcall))
  have hmemory := h.memory .safetyBuffer hidle
  rw [hsaved, hback] at hmemory
  revert hmemory
  decide +kernel

/-! ## Any run keeps the limits -/

def InLimits (key : TuningKey) (value : ℚ) : Prop :=
  (∃ n : ℤ, value = n) ∧ (BOX_TUNING_LIMITS key).min ≤ value ∧ value ≤ (BOX_TUNING_LIMITS key).max

theorem validateTuningValue_inLimits {raw : Option Number} {value : ℚ}
    (h : validateTuningValue key raw = .ok (some value)) : InLimits key value := by
  rcases raw with _ | n
  · cases h
  cases n with
  | fin v =>
    simp only [validateTuningValue] at h
    split at h
    · cases h
    next hin =>
      cases h
      rw [not_or, not_lt, not_lt] at hin
      have hlimits : (BOX_TUNING_LIMITS key).min = (0 : ℤ) ∧ (BOX_TUNING_LIMITS key).max = (1000000 : ℤ) := by
        cases key <;> simp [BOX_TUNING_LIMITS]
      rw [InLimits, hlimits.1, hlimits.2, mathRound]
      rw [hlimits.1, hlimits.2] at hin
      push_cast at hin
      have hlow : (0 : ℤ) ≤ ⌊v + 1 / 2⌋ := Int.le_floor.mpr (by push_cast; linarith)
      have hhigh : ⌊v + 1 / 2⌋ < 1000001 := Int.floor_lt.mpr (by push_cast; linarith)
      exact ⟨⟨_, rfl⟩, Int.cast_le.mpr hlow, Int.cast_le.mpr (Int.le_of_lt_add_one hhigh)⟩
  | _ => cases h

theorem validateTuning_inLimits {patch : TuningPatch} {values : PartialTuning} (h : validateTuning patch = .ok values)
    {value : ℚ} (hvalue : values.get key = some value) : InLimits key value := by
  unfold validateTuning at h
  split at h
  · cases h
  next hprofit =>
    split at h
    · cases h
    next hbuffer =>
      split at h
      · cases h
      · cases h
        cases key with
        | minExpectedNetProfit => exact validateTuningValue_inLimits (hprofit.trans (congrArg _ hvalue))
        | safetyBuffer => exact validateTuningValue_inLimits (hbuffer.trans (congrArg _ hvalue))

/-- The threshold the engine started with, or a whole amount within the limits. -/
def Admissible (start : TuningConfig) (key : TuningKey) (value : ℚ) : Prop :=
  value = (readTuning start).get key ∨ InLimits key value

structure Limited (start : TuningConfig) (rows : List (String × ℚ)) (s : TuningEngine) : Prop where
  base : s.baseMinGrossEdge = start.minGrossEdge
  memory : ∀ key, Admissible start key ((readTuning s.cfg).get key)
  values : ∀ c ∈ s.calls, ∀ key value, c.values.get key = some value → InLimits key value
  before : ∀ c ∈ s.calls, ∀ key, Admissible start key (c.before.get key)
  derived : s.cfg = start ∨ s.cfg.minGrossEdge = min start.minGrossEdge (requiredNetProfit s.cfg)
  table : ∀ row ∈ s.rows, row ∈ rows ∨ ∃ key, row.1 = BOX_TUNING_KEYS key ∧ InLimits key row.2

theorem Limited.apply (h : Limited start rows s) {values : PartialTuning} {calls : List TuningCall}
    (hvalues : ∀ key value, values.get key = some value → Admissible start key value)
    (hcalls : ∀ c ∈ calls, (∀ key value, c.values.get key = some value → InLimits key value) ∧
      ∀ key, Admissible start key (c.before.get key)) :
    Limited start rows { s with cfg := applyTuning s.baseMinGrossEdge values s.cfg, calls } where
  base := h.base
  memory := by
    intro key
    rw [get_applyTuning]
    cases hvalue : values.get key with
    | none => exact h.memory key
    | some value => exact hvalues key value hvalue
  values := fun c hc => (hcalls c hc).1
  before := fun c hc => (hcalls c hc).2
  derived := .inr (h.base ▸ minGrossEdge_applyTuning ..)
  table := h.table

theorem Limited.withFate (h : Limited start rows s) {call : ℕ} {c : TuningCall} (hcall : s.calls[call]? = some c)
    (fate : SaveFate) : Limited start rows (s.withFate call c fate) := by
  have hset : ∀ c' ∈ (s.withFate call c fate).calls, c' ∈ s.calls ∨ c' = { c with fate } := fun _ => List.mem_or_eq_of_mem_set
  have hc := List.mem_of_getElem? hcall
  refine { h with values := fun c' hc' => ?_, before := fun c' hc' => ?_ }
  · rcases hset c' hc' with hmem | rfl
    · exact h.values c' hmem
    · exact h.values c hc
  · rcases hset c' hc' with hmem | rfl
    · exact h.before c' hmem
    · exact h.before c hc

theorem tuningEntries_inLimits {values : PartialTuning} (h : ∀ key value, values.get key = some value → InLimits key value)
    {row : String × ℚ} (hrow : row ∈ tuningEntries values) : ∃ key, row.1 = BOX_TUNING_KEYS key ∧ InLimits key row.2 := by
  obtain ⟨key, -, hentry⟩ := List.mem_filterMap.mp hrow
  obtain ⟨value, hvalue, rfl⟩ := Option.map_eq_some_iff.mp hentry
  exact ⟨key, rfl, h key value hvalue⟩

theorem mem_saveBoxSettings {entries rows : List (String × ℚ)} {row : String × ℚ} (h : row ∈ saveBoxSettings entries rows) :
    row ∈ entries ∨ row ∈ rows := by
  unfold saveBoxSettings at h
  induction entries generalizing rows with
  | nil => exact .inr h
  | cons entry entries ih =>
    rcases ih h with hmem | hmem
    · exact .inl (.tail _ hmem)
    · refine (Keyed.mem_put hmem).imp_left ?_
      rintro rfl
      exact .head _

theorem Limited.step (h : Limited start rows s) (event : TuningEvent) : Limited start rows (s.step event).1 := by
  cases event with
  | setTuning patch dbEnabled =>
    simp only [TuningEngine.step, TuningEngine.setTuning]
    split
    · exact h
    next values hvalid =>
      have hvalues : ∀ key value, values.get key = some value → InLimits key value :=
        fun _ _ => validateTuning_inLimits hvalid
      refine h.apply (fun key value hvalue => .inr (hvalues key value hvalue)) ?_
      exact Run.forall_mem_snoc (fun c hc => ⟨h.values c hc, h.before c hc⟩) ⟨hvalues, h.memory⟩
  | saved call =>
    simp only [TuningEngine.step]
    split
    next c hcall =>
      unfold TuningEngine.save
      split
      · refine { h.withFate hcall .saved with table := fun row hrow => ?_ }
        rcases mem_saveBoxSettings hrow with hentry | hold
        · exact .inr (tuningEntries_inLimits (h.values c (List.mem_of_getElem? hcall)) hentry)
        · exact h.table row hold
      · exact h
    · exact h
  | saveFailed call error =>
    simp only [TuningEngine.step]
    split
    next c hcall =>
      unfold TuningEngine.failSave
      split
      · exact h.withFate hcall _
      · exact h
    · exact h
  | answered call =>
    simp only [TuningEngine.step]
    split
    next c hcall =>
      unfold TuningEngine.answer
      have hanswered := h.withFate hcall .answered
      split
      · exact { hanswered with }
      · refine hanswered.apply ?_ fun c' hc' => ⟨hanswered.values c' hc', hanswered.before c' hc'⟩
        intro key value hvalue
        rw [get_all, Option.some_inj] at hvalue
        exact hvalue ▸ h.before c (List.mem_of_getElem? hcall) key
      · exact h
    · exact h

/-- Whatever calls overlap or fail, no threshold in force or stored is out of its limits that was not so at the start,
and the gross edge asked for never rises above its configured value or the net profit asked for. -/
theorem limits_kept (cfg : TuningConfig) (rows : List (String × ℚ)) (events : List TuningEvent) :
    Limited cfg rows (Run.finish step (new cfg rows) events) :=
  Run.invariant (Limited cfg rows) (fun _ event h => h.step event)
    ⟨rfl, fun key => .inl rfl, by simp [new], by simp [new], .inl rfl, fun row hrow => .inl hrow⟩

end TuningEngine

end BoxEngine
