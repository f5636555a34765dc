import BoxEngine.Lib.While
import BoxEngine.OrderScheduling
import Mathlib.Data.Int.ConditionallyCompleteOrder
import Mathlib.Data.List.Induction
import Mathlib.Data.List.Perm.Subperm

/-!
# The paper scheduler

The timeline a batch would get from the live order manager: one slot for the whole of an operation's life, and one
channel that paces the posts.
-/

namespace BoxEngine

open Js

structure ExecutionSchedulingPolicy where
  maxConcurrentOperations : ℚ
  minBrokerIntervalMs : ℤ
  priorityFor : BoxOrderPurpose → ℤ

structure SchedulableOperation where
  id : String
  purpose : BoxOrderPurpose
  sequence : ℤ
  readyAt : ℤ
  persistenceMs : Option ℤ
  postToAckMs : ℤ
  ackToTerminalMs : ℤ

structure ScheduledOperation where
  id : String
  purpose : BoxOrderPurpose
  priority : ℤ
  sequence : ℤ
  slot : ℕ
  queuedAt : ℤ
  dequeuedAt : ℤ
  persistedAt : ℤ
  transportAllowedAt : ℤ
  postStartedAt : ℤ
  ackAt : ℤ
  terminalAt : ℤ
  queueWaitMs : ℤ
  persistenceWaitMs : ℤ
  transportWaitMs : ℤ

namespace PaperScheduler

def eps : ℚ := 1 / 1000000

structure Pending where
  op : SchedulableOperation
  priority : ℤ
  index : ℕ

def compareScheduling (a b : Pending) : ℤ :=
  if a.priority - b.priority ≠ 0 then a.priority - b.priority else a.op.sequence - b.op.sequence

structure State where
  slotFreeAt : ℕ → WithBot ℤ
  transportFreeAt : WithBot ℤ
  results : ℕ → Option ScheduledOperation

def State.start : State := ⟨fun _ => ⊥, ⊥, fun _ => none⟩

section
variable (operations : List SchedulableOperation) (policy : ExecutionSchedulingPolicy)

def cap : ℕ := max 1 ⌊policy.maxConcurrentOperations⌋.toNat

def minInterval : ℤ := max 0 policy.minBrokerIntervalMs

def pending : List Pending :=
  operations.zipIdx.map fun (op, index) => ⟨op, policy.priorityFor op.purpose, index⟩

variable (state : State)

def waiting : List Pending :=
  (pending operations policy).filter fun entry => (state.results entry.index).isNone

def earlier : WithBot ℤ → WithBot ℤ → Bool
  | _, ⊥ => false
  | ⊥, (_ : ℤ) => true
  | (a : ℤ), (b : ℤ) => decide (a < b)

def earliestSlot (slotFreeAt : ℕ → WithBot ℤ) : ℕ :=
  (List.range (cap policy)).foldl (fun slot i => if earlier (slotFreeAt i) (slotFreeAt slot) then i else slot) 0

def readyBy (slotAvailableAt : WithBot ℤ) (entry : Pending) : Bool :=
  match slotAvailableAt with
  | ⊥ => false
  | (at_ : ℤ) => decide ((entry.op.readyAt : ℚ) ≤ at_ + eps)

def better : Option Pending → Pending → Option Pending
  | none, entry => some entry
  | some best, entry => if compareScheduling entry best < 0 then some entry else some best

def choose (entries : List Pending) : Option Pending := entries.foldl better none

def sooner : Option ℤ → Pending → Option ℤ
  | none, entry => some entry.op.readyAt
  | some at_, entry => if entry.op.readyAt < at_ then some entry.op.readyAt else some at_

def earliestReady (entries : List Pending) : Option ℤ := entries.foldl sooner none

/-- The operation waits for its slot, then for its record and the transport. -/
def schedule (slot : ℕ) (slotAvailableAt : WithBot ℤ) (entry : Pending) : ScheduledOperation :=
  let op := entry.op
  let dequeuedAt := slotAvailableAt.unbotD op.readyAt |> max op.readyAt
  let persistedAt := dequeuedAt + (op.persistenceMs.elim 0 fun ms => max 0 ms)
  let transportAllowedAt := max persistedAt (state.transportFreeAt.unbotD persistedAt)
  let ackAt := transportAllowedAt + max 0 op.postToAckMs
  { id := op.id
    purpose := op.purpose
    priority := entry.priority
    sequence := op.sequence
    slot
    queuedAt := op.readyAt
    dequeuedAt
    persistedAt
    transportAllowedAt
    postStartedAt := transportAllowedAt
    ackAt
    terminalAt := ackAt + max 0 op.ackToTerminalMs
    queueWaitMs := dequeuedAt - op.readyAt
    persistenceWaitMs := persistedAt - dequeuedAt
    transportWaitMs := transportAllowedAt - persistedAt }

def State.assign (slot : ℕ) (entry : Pending) : State :=
  let planned := schedule state slot (state.slotFreeAt slot) entry
  { slotFreeAt := Function.update state.slotFreeAt slot planned.terminalAt
    -- the post occupies the shared channel
    transportFreeAt := (planned.postStartedAt + minInterval policy : ℤ)
    results := Function.update state.results entry.index (some planned) }

/-- The earliest slot takes the best operation ready for it, or idles until one is. -/
def step : State :=
  let slot := earliestSlot policy state.slotFreeAt
  let left := waiting operations policy state
  match choose (left.filter (readyBy (state.slotFreeAt slot))) with
  | some entry => state.assign policy slot entry
  | none =>
    match earliestReady left with
    | none => state
    | some at_ => { state with slotFreeAt := Function.update state.slotFreeAt slot (at_ : ℤ) }

def complete : Bool := (waiting operations policy state).isEmpty

def turns : ℕ := (operations.length + 1) * (cap policy + 1)

def run : State :=
  While.loop (complete operations policy) (step operations policy) (turns operations policy) State.start

end

end PaperScheduler

def planPaperSchedule (operations : List SchedulableOperation) (policy : ExecutionSchedulingPolicy) :
    List ScheduledOperation :=
  (List.range operations.length).filterMap (PaperScheduler.run operations policy).results

namespace PaperScheduler

/-! ## The pieces of one turn -/

theorem earlier_iff (a b : WithBot ℤ) : earlier a b = true ↔ a < b := by
  induction a using WithBot.recBotCoe with
  | bot | coe a => induction b using WithBot.recBotCoe <;> simp [earlier]

theorem earliestSlot_foldl (free : ℕ → WithBot ℤ) (n : ℕ) :
    let slot := (List.range n).foldl (fun slot i => if earlier (free i) (free slot) then i else slot) 0
    slot < max 1 n ∧ ∀ i < n, free slot ≤ free i := by
  induction n with
  | zero => simp
  | succ n ih =>
    obtain ⟨hlt, hle⟩ := ih
    dsimp only at hlt hle ⊢
    rw [List.range_succ, List.foldl_append, List.foldl_cons, List.foldl_nil]
    set slot := (List.range n).foldl (fun slot i => if earlier (free i) (free slot) then i else slot) 0
    by_cases hless : free n < free slot
    · rw [if_pos ((earlier_iff _ _).mpr hless)]
      refine ⟨by omega, fun i hi => ?_⟩
      by_cases hn : i = n
      · rw [hn]
      · exact hless.le.trans (hle i (by omega))
    · rw [if_neg fun h => hless ((earlier_iff _ _).mp h)]
      refine ⟨by omega, fun i hi => ?_⟩
      by_cases hn : i = n
      · rw [hn]
        exact not_lt.mp hless
      · exact hle i (by omega)

theorem earliestSlot_spec (policy : ExecutionSchedulingPolicy) (free : ℕ → WithBot ℤ) :
    earliestSlot policy free < cap policy ∧ ∀ s < cap policy, free (earliestSlot policy free) ≤ free s := by
  obtain ⟨hlt, hle⟩ := earliestSlot_foldl free (cap policy)
  have hcap : 1 ≤ cap policy := le_max_left _ _
  exact ⟨by rw [max_eq_right hcap] at hlt; exact hlt, hle⟩

def Pending.Before (a b : Pending) : Prop :=
  a.priority < b.priority ∨ a.priority = b.priority ∧
    (a.op.sequence < b.op.sequence ∨ a.op.sequence = b.op.sequence ∧ a.index < b.index)

theorem Pending.Before.trans {a b c : Pending} (hab : a.Before b) (hbc : b.Before c) : a.Before c := by
  unfold Pending.Before at *
  omega

theorem compareScheduling_neg {a b : Pending} : compareScheduling a b < 0 ↔
    a.priority < b.priority ∨ a.priority = b.priority ∧ a.op.sequence < b.op.sequence := by
  unfold compareScheduling
  split <;> omega

variable (entries : List Pending)

theorem choose_append (entry : Pending) : choose (entries ++ [entry]) = better (choose entries) entry := by
  simp [choose]

theorem choose_eq_none {entries : List Pending} : choose entries = none ↔ entries = [] := by
  induction entries using List.reverseRecOn with
  | nil => simp [choose]
  | append_singleton entries entry ih =>
    rw [choose_append]
    cases choose entries with
    | none => simp [better]
    | some best => by_cases h : compareScheduling entry best < 0 <;> simp [better, h]

theorem choose_eq_some {entries : List Pending} (hindex : entries.Pairwise fun a b => a.index < b.index) {best : Pending}
    (h : choose entries = some best) : best ∈ entries ∧ ∀ entry ∈ entries, entry = best ∨ best.Before entry := by
  induction entries using List.reverseRecOn generalizing best with
  | nil => simp [choose] at h
  | append_singleton entries last ih =>
    rw [choose_append] at h
    obtain ⟨hold, _, hlast⟩ := List.pairwise_append.mp hindex
    have hbefore : ∀ entry ∈ entries, entry.index < last.index := fun entry hentry => hlast entry hentry last (by simp)
    cases hchosen : choose entries with
    | none =>
      rw [hchosen] at h
      obtain rfl := Option.some_inj.mp h
      rw [choose_eq_none.mp hchosen]
      simp
    | some previous =>
      rw [hchosen] at h
      obtain ⟨hmem, hbest⟩ := ih hold hchosen
      have hindexes := hbefore previous hmem
      by_cases hless : compareScheduling last previous < 0
      · simp only [better, hless, if_true] at h
        obtain rfl := Option.some_inj.mp h
        have hfirst : last.Before previous := by
          rw [compareScheduling_neg] at hless
          unfold Pending.Before
          omega
        refine ⟨by simp, fun entry hentry => ?_⟩
        rcases List.mem_append.mp hentry with hentry | hentry
        · rcases hbest entry hentry with rfl | hlater
          · exact .inr hfirst
          · exact .inr (hfirst.trans hlater)
        · exact .inl (by simpa using hentry)
      · simp only [better, hless, if_false] at h
        obtain rfl := Option.some_inj.mp h
        refine ⟨by simp [hmem], fun entry hentry => ?_⟩
        rcases List.mem_append.mp hentry with hentry | hentry
        · exact hbest entry hentry
        · obtain rfl : entry = last := by simpa using hentry
          rw [compareScheduling_neg] at hless
          refine .inr ?_
          unfold Pending.Before
          omega

theorem earliestReady_append (entry : Pending) :
    earliestReady (entries ++ [entry]) = sooner (earliestReady entries) entry := by
  simp [earliestReady]

theorem earliestReady_spec : (earliestReady entries = none → entries = []) ∧
    ∀ e, earliestReady entries = some e →
      (∃ entry ∈ entries, entry.op.readyAt = e) ∧ ∀ entry ∈ entries, e ≤ entry.op.readyAt := by
  induction entries using List.reverseRecOn with
  | nil => simp [earliestReady]
  | append_singleton entries last ih =>
    rw [earliestReady_append]
    cases hearliest : earliestReady entries with
    | none =>
      obtain rfl := ih.1 hearliest
      simp [sooner]
    | some at_ =>
      obtain ⟨⟨first, hfirst, hready⟩, hle⟩ := ih.2 at_ hearliest
      by_cases hless : last.op.readyAt < at_
      · simp only [sooner, hless, if_true, reduceCtorEq, false_implies, true_and, Option.some.injEq, forall_eq']
        refine ⟨⟨last, by simp, rfl⟩, fun entry hentry => ?_⟩
        rcases List.mem_append.mp hentry with hentry | hentry
        · exact hless.le.trans (hle entry hentry)
        · rw [List.mem_singleton.mp hentry]
      · simp only [sooner, hless, if_false, reduceCtorEq, false_implies, true_and, Option.some.injEq, forall_eq']
        refine ⟨⟨first, by simp [hfirst], hready⟩, fun entry hentry => ?_⟩
        rcases List.mem_append.mp hentry with hentry | hentry
        · exact hle entry hentry
        · rw [List.mem_singleton.mp hentry]
          exact not_lt.mp hless

theorem readyBy_coe (m : ℤ) (entry : Pending) : readyBy m entry = true ↔ entry.op.readyAt ≤ m := by
  unfold readyBy eps
  rw [decide_eq_true_iff]
  constructor
  · intro h
    by_contra hlt
    have : (m : ℚ) + 1 ≤ (entry.op.readyAt : ℚ) := by exact_mod_cast not_le.mp hlt
    linarith
  · intro h
    have : (entry.op.readyAt : ℚ) ≤ (m : ℚ) := by exact_mod_cast h
    linarith

variable {operations : List SchedulableOperation} {policy : ExecutionSchedulingPolicy} {state : State}

def entryOf (policy : ExecutionSchedulingPolicy) (op : SchedulableOperation) (i : ℕ) : Pending :=
  ⟨op, policy.priorityFor op.purpose, i⟩

theorem mem_waiting {entry : Pending} : entry ∈ waiting operations policy state ↔
    ∃ op, operations[entry.index]? = some op ∧ entry = entryOf policy op entry.index ∧ state.results entry.index = none := by
  unfold waiting pending
  rw [List.mem_filter, List.mem_map]
  constructor
  · rintro ⟨⟨⟨op, i⟩, hmem, rfl⟩, hnone⟩
    exact ⟨op, List.mem_zipIdx_iff_getElem?.mp hmem, rfl, by simpa using hnone⟩
  · rintro ⟨op, hop, hentry, hnone⟩
    exact ⟨⟨(op, entry.index), List.mem_zipIdx_iff_getElem?.mpr hop, hentry.symm⟩, by simp [hnone]⟩

theorem waiting_index : (waiting operations policy state).Pairwise fun a b => a.index < b.index := by
  refine List.Pairwise.filter _ ?_
  unfold pending
  rw [List.pairwise_map]
  have h : (operations.zipIdx.map Prod.snd).Pairwise (· < ·) := by
    rw [List.zipIdx_map_snd]
    exact List.pairwise_lt_range'
  exact List.pairwise_map.mp h

/-! ## One turn -/

theorem step_cases (h : complete operations policy state = false) :
    (∃ (m : ℤ) (i : ℕ) (op : SchedulableOperation), state.slotFreeAt (earliestSlot policy state.slotFreeAt) = m ∧
      operations[i]? = some op ∧ state.results i = none ∧ op.readyAt ≤ m ∧
      (∀ j op', operations[j]? = some op' → state.results j = none → op'.readyAt ≤ m →
        j = i ∨ (entryOf policy op i).Before (entryOf policy op' j)) ∧
      step operations policy state =
        state.assign policy (earliestSlot policy state.slotFreeAt) (entryOf policy op i)) ∨
    ∃ e : ℤ, state.slotFreeAt (earliestSlot policy state.slotFreeAt) < e ∧
      (∀ j op', operations[j]? = some op' → state.results j = none → e ≤ op'.readyAt) ∧
      earliestReady (waiting operations policy state) = e ∧
      step operations policy state =
        { state with slotFreeAt := Function.update state.slotFreeAt (earliestSlot policy state.slotFreeAt) e } := by
  set slot := earliestSlot policy state.slotFreeAt with hslot
  set left := waiting operations policy state with hleft
  have hmem : ∀ {j op'}, operations[j]? = some op' → state.results j = none → entryOf policy op' j ∈ left :=
    fun hop' hnone' => mem_waiting.mpr ⟨_, hop', rfl, hnone'⟩
  cases hchosen : choose (left.filter (readyBy (state.slotFreeAt slot))) with
  | some entry =>
    obtain ⟨hentry, hbest⟩ := choose_eq_some (List.Pairwise.filter _ waiting_index) hchosen
    obtain ⟨hwaiting, hready⟩ := List.mem_filter.mp hentry
    obtain ⟨op, hop, heq, hnone⟩ := mem_waiting.mp hwaiting
    induction hm : state.slotFreeAt slot using WithBot.recBotCoe with
    | bot => simp [hm, readyBy] at hready
    | coe m =>
      rw [hm, readyBy_coe] at hready
      refine .inl ⟨m, entry.index, op, rfl, hop, hnone, by rwa [heq] at hready, fun j op' hop' hnone' hready' => ?_, ?_⟩
      · have hfiltered : entryOf policy op' j ∈ left.filter (readyBy (state.slotFreeAt slot)) := by
          rw [List.mem_filter, hm, readyBy_coe]
          exact ⟨hmem hop' hnone', hready'⟩
        rcases hbest _ hfiltered with hsame | hbefore
        · exact .inl (congrArg Pending.index hsame)
        · exact .inr (by rwa [heq] at hbefore)
      · unfold step
        rw [← hslot, ← hleft]
        simp only [hchosen]
        rw [← heq]
  | none =>
    have hlate : ∀ entry ∈ left, ¬ readyBy (state.slotFreeAt slot) entry = true :=
      List.filter_eq_nil_iff.mp (choose_eq_none.mp hchosen)
    have hsome : left ≠ [] := by
      intro hnil
      simp [complete, ← hleft, hnil] at h
    obtain ⟨e, he⟩ := Option.ne_none_iff_exists'.mp fun hnone => hsome ((earliestReady_spec left).1 hnone)
    obtain ⟨⟨first, hfirst, hready⟩, hle⟩ := (earliestReady_spec left).2 e he
    refine .inr ⟨e, ?_, fun j op' hop' hnone' => hle _ (hmem hop' hnone'), he, ?_⟩
    · have hnot := hlate first hfirst
      induction hm : state.slotFreeAt slot using WithBot.recBotCoe with
      | bot => exact WithBot.bot_lt_coe e
      | coe m =>
        rw [hm, readyBy_coe, hready] at hnot
        exact WithBot.coe_lt_coe.mpr (not_le.mp hnot)
    · unfold step
      rw [← hslot, ← hleft]
      simp only [hchosen, he]

structure Timeline (policy : ExecutionSchedulingPolicy) (op : SchedulableOperation) (r : ScheduledOperation) : Prop where
  id : r.id = op.id
  purpose : r.purpose = op.purpose
  priority : r.priority = policy.priorityFor op.purpose
  sequence : r.sequence = op.sequence
  slot : r.slot < cap policy
  queued : r.queuedAt = op.readyAt
  dequeued : r.queuedAt ≤ r.dequeuedAt
  persisted : r.dequeuedAt ≤ r.persistedAt
  posted : r.persistedAt ≤ r.postStartedAt
  acknowledged : r.postStartedAt ≤ r.ackAt
  terminal : r.ackAt ≤ r.terminalAt

section
variable {slot i : ℕ} {m : ℤ} {op : SchedulableOperation}

theorem schedule_timeline (hslot : slot < cap policy) : Timeline policy op (schedule state slot m (entryOf policy op i)) := by
  refine ⟨rfl, rfl, rfl, rfl, hslot, rfl, ?_, ?_, ?_, ?_, ?_⟩ <;> simp only [schedule, entryOf]
  · exact le_max_left _ _
  · cases op.persistenceMs with
    | none => simp
    | some ms => simp
  · exact le_max_left _ _
  · simp
  · simp

theorem schedule_dequeued (hready : op.readyAt ≤ m) : (schedule state slot m (entryOf policy op i)).dequeuedAt = m :=
  max_eq_right hready

theorem schedule_post : state.transportFreeAt ≤ (schedule state slot m (entryOf policy op i)).postStartedAt := by
  simp only [schedule]
  induction state.transportFreeAt using WithBot.recBotCoe with
  | bot => exact bot_le
  | coe x => exact WithBot.coe_le_coe.mpr (le_max_right _ _)

end

/-! ## The invariant -/

def State.Waits (operations : List SchedulableOperation) (state : State) (j : ℕ) (t : ℤ) : Prop :=
  (∃ op, operations[j]? = some op ∧ op.readyAt ≤ t) ∧ ∀ r, state.results j = some r → t < r.dequeuedAt

structure Sound (operations : List SchedulableOperation) (policy : ExecutionSchedulingPolicy) (state : State) : Prop where
  planned : ∀ {i r}, state.results i = some r → ∃ op, operations[i]? = some op ∧ Timeline policy op r
  past : ∀ {i r}, state.results i = some r → ∀ s < cap policy, (r.dequeuedAt : WithBot ℤ) ≤ state.slotFreeAt s
  held : ∀ {i r}, state.results i = some r → (r.terminalAt : WithBot ℤ) ≤ state.slotFreeAt r.slot
  posted : ∀ {i r}, state.results i = some r →
    ((r.postStartedAt + minInterval policy : ℤ) : WithBot ℤ) ≤ state.transportFreeAt
  apart : ∀ {i j r r'}, i ≠ j → state.results i = some r → state.results j = some r' →
    r.postStartedAt + minInterval policy ≤ r'.postStartedAt ∨ r'.postStartedAt + minInterval policy ≤ r.postStartedAt
  alone : ∀ {i j r r'}, i ≠ j → state.results i = some r → state.results j = some r' → r.slot = r'.slot →
    r.terminalAt ≤ r'.dequeuedAt ∨ r'.terminalAt ≤ r.dequeuedAt
  fair : ∀ {i j r op op'}, state.results i = some r → operations[i]? = some op → operations[j]? = some op' → j ≠ i →
    state.Waits operations j r.dequeuedAt → (entryOf policy op i).Before (entryOf policy op' j)
  busy : ∀ {s}, s < cap policy → ∀ {t : ℤ}, (t : WithBot ℤ) < state.slotFreeAt s → ∀ {j}, state.Waits operations j t →
    ∃ i r, state.results i = some r ∧ r.slot = s ∧ r.dequeuedAt ≤ t ∧ t < r.terminalAt

theorem Sound.start : Sound operations policy .start where
  planned h := by simp [State.start] at h
  past h := by simp [State.start] at h
  held h := by simp [State.start] at h
  posted h := by simp [State.start] at h
  apart _ h := by simp [State.start] at h
  alone _ h := by simp [State.start] at h
  fair h := by simp [State.start] at h
  busy _ _ h := by simp [State.start] at h

section
variable {slot : ℕ} {e : ℤ}

theorem Sound.idle (h : Sound operations policy state) (hslot : slot < cap policy) (hlate : state.slotFreeAt slot < e)
    (hnone : ∀ j op, operations[j]? = some op → state.results j = none → e ≤ op.readyAt) :
    Sound operations policy { state with slotFreeAt := Function.update state.slotFreeAt slot e } := by
  have hle : ∀ s, state.slotFreeAt s ≤ Function.update state.slotFreeAt slot (e : WithBot ℤ) s := by
    intro s
    by_cases hs : s = slot
    · subst hs
      simpa using hlate.le
    · simp [hs]
  refine ⟨h.planned, fun hr s hs => (h.past hr s hs).trans (hle s), fun hr => (h.held hr).trans (hle _), h.posted, h.apart,
    h.alone, h.fair, ?_⟩
  intro s hs t ht j hwaits
  by_cases hbefore : (t : WithBot ℤ) < state.slotFreeAt s
  · exact h.busy hs hbefore hwaits
  · exfalso
    by_cases hsame : s = slot
    · subst hsame
      have hte : t < e := by simpa using ht
      obtain ⟨⟨op, hop, hready⟩, hlater⟩ := hwaits
      cases hresult : state.results j with
      | none => exact absurd (hnone j op hop hresult) (not_le.mpr (lt_of_le_of_lt hready hte))
      | some r =>
        have hdequeued : (r.dequeuedAt : WithBot ℤ) ≤ t := (h.past hresult s hslot).trans (not_lt.mp hbefore)
        exact absurd (hlater r hresult) (not_lt.mpr (WithBot.coe_le_coe.mp hdequeued))
    · simp only [Function.update_of_ne hsame] at ht
      exact hbefore ht

end

section
variable {slot i : ℕ} {m : ℤ} {op : SchedulableOperation}

theorem results_assign {entry : Pending} {j : ℕ} {x : ScheduledOperation}
    (h : (state.assign policy slot entry).results j = some x) :
    j = entry.index ∧ x = schedule state slot (state.slotFreeAt slot) entry ∨ j ≠ entry.index ∧ state.results j = some x := by
  unfold State.assign at h
  by_cases hj : j = entry.index
  · subst hj
    exact .inl ⟨rfl, by simpa using h.symm⟩
  · exact .inr ⟨hj, by simpa [hj] using h⟩

theorem Sound.assign (h : Sound operations policy state) (hslot : slot < cap policy)
    (hleast : ∀ s < cap policy, state.slotFreeAt slot ≤ state.slotFreeAt s) (hm : state.slotFreeAt slot = m)
    (hop : operations[i]? = some op) (hnone : state.results i = none) (hready : op.readyAt ≤ m)
    (hbest : ∀ j op', operations[j]? = some op' → state.results j = none → op'.readyAt ≤ m →
      j = i ∨ (entryOf policy op i).Before (entryOf policy op' j)) :
    Sound operations policy (state.assign policy slot (entryOf policy op i)) := by
  have hcases := fun {j x} => @results_assign policy state slot (entryOf policy op i) j x
  have hline : Timeline policy op (schedule state slot m (entryOf policy op i)) := schedule_timeline hslot
  have hfrom := @schedule_dequeued policy state slot i m op hready
  have hpost := @schedule_post policy state slot i m op
  have hfree : ∀ s, (state.assign policy slot (entryOf policy op i)).slotFreeAt s =
      if s = slot then ((schedule state slot m (entryOf policy op i)).terminalAt : WithBot ℤ) else state.slotFreeAt s := by
    intro s
    simp [State.assign, hm, Function.update_apply]
  have hchannel : (state.assign policy slot (entryOf policy op i)).transportFreeAt =
      (((schedule state slot m (entryOf policy op i)).postStartedAt + minInterval policy : ℤ) : WithBot ℤ) := by
    simp [State.assign, hm]
  have hinterval : 0 ≤ minInterval policy := le_max_left _ _
  rw [hm] at hcases
  set r := schedule state slot m (entryOf policy op i) with hr
  have hmr : m ≤ r.terminalAt := by
    have := hline.persisted
    have := hline.posted
    have := hline.acknowledged
    have := hline.terminal
    omega
  have hpast : ∀ {j x}, state.results j = some x → x.dequeuedAt ≤ m := fun hx => by
    have := h.past hx slot hslot
    rw [hm] at this
    exact WithBot.coe_le_coe.mp this
  have hposted : ∀ {j x}, state.results j = some x → x.postStartedAt + minInterval policy ≤ r.postStartedAt := fun hx =>
    WithBot.coe_le_coe.mp ((h.posted hx).trans hpost)
  have hwaits : ∀ {j t}, (state.assign policy slot (entryOf policy op i)).Waits operations j t → t < m ∨ j ≠ i →
      state.Waits operations j t := by
    intro j t hwaiting hor
    refine ⟨hwaiting.1, fun x hx => ?_⟩
    by_cases hj : j = i
    · rw [hj, hnone] at hx
      cases hx
    · refine hwaiting.2 x ?_
      simp [State.assign, entryOf, hj, hx]
  -- each part holds of the earlier records as before, and of the new one by what its schedule says
  refine ⟨?_, ?_, ?_, ?_, ?_, ?_, ?_, ?_⟩
  · intro j x hx
    rcases hcases hx with ⟨rfl, rfl⟩ | ⟨_, hold⟩
    · exact ⟨op, hop, hline⟩
    · exact h.planned hold
  · intro j x hx s hs
    rw [hfree]
    rcases hcases hx with ⟨_, rfl⟩ | ⟨_, hold⟩
    · rw [hfrom]
      split
      · exact WithBot.coe_le_coe.mpr hmr
      · rw [← hm]
        exact hleast s hs
    · split
      · exact WithBot.coe_le_coe.mpr ((hpast hold).trans hmr)
      · exact h.past hold s hs
  · intro j x hx
    rw [hfree]
    rcases hcases hx with ⟨_, rfl⟩ | ⟨_, hold⟩
    · rw [if_pos (show r.slot = slot from rfl)]
    · split
      · rename_i hsame
        have := h.held hold
        rw [hsame, hm] at this
        exact this.trans (WithBot.coe_le_coe.mpr hmr)
      · exact h.held hold
  · intro j x hx
    rw [hchannel]
    rcases hcases hx with ⟨_, rfl⟩ | ⟨_, hold⟩
    · exact le_rfl
    · have := hposted hold
      exact WithBot.coe_le_coe.mpr (by omega)
  · intro j k x y hne hx hy
    rcases hcases hx with ⟨hj, rfl⟩ | ⟨_, hold⟩
    · rcases hcases hy with ⟨hk, _⟩ | ⟨_, hold'⟩
      · exact absurd (hj.trans hk.symm) hne
      · exact .inr (hposted hold')
    · rcases hcases hy with ⟨_, rfl⟩ | ⟨_, hold'⟩
      · exact .inl (hposted hold)
      · exact h.apart hne hold hold'
  · intro j k x y hne hx hy hsame
    have hearlier : ∀ {l z}, state.results l = some z → z.slot = r.slot → z.terminalAt ≤ r.dequeuedAt := fun hz hzslot => by
      have := h.held hz
      rw [hzslot, show r.slot = slot from rfl, hm] at this
      rw [hfrom]
      exact WithBot.coe_le_coe.mp this
    rcases hcases hx with ⟨hj, rfl⟩ | ⟨_, hold⟩
    · rcases hcases hy with ⟨hk, _⟩ | ⟨_, hold'⟩
      · exact absurd (hj.trans hk.symm) hne
      · exact .inr (hearlier hold' hsame.symm)
    · rcases hcases hy with ⟨_, rfl⟩ | ⟨_, hold'⟩
      · exact .inl (hearlier hold hsame)
      · exact h.alone hne hold hold' hsame
  · intro j k x opj opk hx hopj hopk hne hwaiting
    rcases hcases hx with ⟨hj, rfl⟩ | ⟨_, hold⟩
    · obtain rfl : j = i := hj
      obtain rfl : op = opj := by simpa [hop] using hopj
      obtain ⟨⟨op', hop', hreadyk⟩, hlater⟩ := hwaits hwaiting (.inr hne)
      obtain rfl : op' = opk := by simpa [hop'] using hopk
      rw [hfrom] at hreadyk
      cases hk : state.results k with
      | none => exact (hbest k op' hop' hk hreadyk).resolve_left hne
      | some y =>
        have := hlater y hk
        have := hpast hk
        omega
    · refine h.fair hold hopj hopk hne ⟨hwaiting.1, fun y hy => ?_⟩
      by_cases hk : k = i
      · rw [hk, hnone] at hy
        cases hy
      · refine hwaiting.2 y ?_
        simp [State.assign, entryOf, hk, hy]
  -- below `m` the slots are as they were; from there on the slot is busy with the new record
  · intro s hs t ht j hwaiting
    rw [hfree] at ht
    have hkept : ∀ {k x}, state.results k = some x →
        (state.assign policy slot (entryOf policy op i)).results k = some x := by
      intro k x hx
      have hk : k ≠ i := by
        rintro rfl
        rw [hnone] at hx
        cases hx
      simp [State.assign, entryOf, hk, hx]
    have hnew : (state.assign policy slot (entryOf policy op i)).results i = some r := by simp [State.assign, entryOf, hr, hm]
    by_cases hbefore : t < m
    · have hold : (t : WithBot ℤ) < state.slotFreeAt s :=
        (WithBot.coe_lt_coe.mpr hbefore).trans_le (hm ▸ hleast s hs)
      obtain ⟨k, x, hx, hxslot, hxt⟩ := h.busy hs hold (hwaits hwaiting (.inl hbefore))
      exact ⟨k, x, hkept hx, hxslot, hxt⟩
    · by_cases hsame : s = slot
      · rw [if_pos hsame] at ht
        exact ⟨i, r, hnew, hsame.symm, by rw [hfrom]; omega, WithBot.coe_lt_coe.mp ht⟩
      · rw [if_neg hsame] at ht
        have hne : j ≠ i := by
          rintro rfl
          have := hwaiting.2 r hnew
          rw [hfrom] at this
          exact hbefore this
        obtain ⟨k, x, hx, hxslot, hxt⟩ := h.busy hs ht (hwaits hwaiting (.inr hne))
        exact ⟨k, x, hkept hx, hxslot, hxt⟩

end

theorem Sound.step (h : Sound operations policy state) (hmore : complete operations policy state = false) :
    Sound operations policy (step operations policy state) := by
  obtain ⟨hslot, hleast⟩ := earliestSlot_spec policy state.slotFreeAt
  obtain ⟨m, i, op, hm, hop, hnone, hready, hbest, hstep⟩ | ⟨e, hlate, hnone, _, hstep⟩ := step_cases hmore
  · rw [hstep]
    exact h.assign hslot hleast hm hop hnone hready hbest
  · rw [hstep]
    exact h.idle hslot hlate hnone

/-! ## The loop ends -/

def behind (policy : ExecutionSchedulingPolicy) (state : State) (time : ℤ) : ℕ :=
  (List.range (cap policy)).countP fun s => earlier (state.slotFreeAt s) time

def measure (operations : List SchedulableOperation) (policy : ExecutionSchedulingPolicy) (state : State) : ℕ :=
  let left := waiting operations policy state
  left.length * (cap policy + 1) + behind policy state ((earliestReady left).getD 0)

theorem behind_le (policy : ExecutionSchedulingPolicy) (state : State) (time : ℤ) : behind policy state time ≤ cap policy :=
  List.countP_le_length.trans_eq List.length_range

theorem behind_update {slot : ℕ} {e : ℤ} (hslot : slot < cap policy) (hlate : state.slotFreeAt slot < e) :
    behind policy { state with slotFreeAt := Function.update state.slotFreeAt slot e } e < behind policy state e := by
  unfold behind
  dsimp only
  rw [List.countP_eq_length_filter, List.countP_eq_length_filter]
  have hfilter : ((List.range (cap policy)).filter fun s => earlier (Function.update state.slotFreeAt slot (e : WithBot ℤ) s) e) =
      ((List.range (cap policy)).filter fun s => earlier (state.slotFreeAt s) e).filter fun s => decide (s ≠ slot) := by
    rw [List.filter_filter]
    refine List.filter_congr fun s _ => ?_
    by_cases hs : s = slot
    · subst hs
      simp [earlier]
    · simp [hs]
  rw [hfilter]
  exact List.length_filter_lt_length_iff_exists.mpr
    ⟨slot, List.mem_filter.mpr ⟨List.mem_range.mpr hslot, (earlier_iff _ _).mpr hlate⟩, by simp⟩

theorem waiting_assign {slot i : ℕ} {op : SchedulableOperation} (hop : operations[i]? = some op)
    (hnone : state.results i = none) :
    (waiting operations policy (state.assign policy slot (entryOf policy op i))).length <
      (waiting operations policy state).length := by
  have hsub : waiting operations policy (state.assign policy slot (entryOf policy op i)) =
      (waiting operations policy state).filter fun entry => decide (entry.index ≠ i) := by
    unfold waiting
    rw [List.filter_filter]
    refine List.filter_congr fun entry _ => ?_
    by_cases hi : entry.index = i
    · simp [State.assign, entryOf, hi]
    · simp [State.assign, entryOf, hi]
  rw [hsub]
  refine List.length_filter_lt_length_iff_exists.mpr ⟨entryOf policy op i, ?_, by simp [entryOf]⟩
  exact mem_waiting.mpr ⟨op, hop, rfl, hnone⟩

theorem measure_step (hmore : complete operations policy state = false) :
    measure operations policy (step operations policy state) < measure operations policy state := by
  obtain ⟨hslot, -⟩ := earliestSlot_spec policy state.slotFreeAt
  obtain ⟨m, i, op, hm, hop, hnone, hready, hbest, hstep⟩ | ⟨e, hlate, hnone, he, hstep⟩ := step_cases hmore
  · rw [hstep]
    have hless := @waiting_assign operations policy state (earliestSlot policy state.slotFreeAt) i op hop hnone
    unfold measure
    dsimp only
    have hcount := behind_le policy (state.assign policy (earliestSlot policy state.slotFreeAt) (entryOf policy op i))
      ((earliestReady (waiting operations policy (state.assign policy (earliestSlot policy state.slotFreeAt)
        (entryOf policy op i)))).getD 0)
    have hmul := Nat.mul_le_mul_right (cap policy + 1) (Nat.succ_le_of_lt hless)
    rw [Nat.succ_mul] at hmul
    omega
  · rw [hstep]
    set slot := earliestSlot policy state.slotFreeAt
    have hsame : waiting operations policy { state with slotFreeAt := Function.update state.slotFreeAt slot e } =
        waiting operations policy state := rfl
    unfold measure
    dsimp only
    rw [hsame, he, Option.getD_some]
    exact Nat.add_lt_add_left (behind_update hslot hlate) _

theorem run_complete (operations : List SchedulableOperation) (policy : ExecutionSchedulingPolicy) :
    Sound operations policy (run operations policy) ∧ complete operations policy (run operations policy) = true := by
  have hstep := fun s (h : Sound operations policy s) hmore => h.step hmore
  refine ⟨While.loop_invariant hstep _ .start, While.loop_done hstep (fun s _ hmore => measure_step hmore) .start ?_⟩
  unfold measure turns
  dsimp only
  have hleft : (waiting operations policy State.start).length ≤ operations.length := by
    unfold waiting pending
    refine (List.length_filter_le _ _).trans_eq ?_
    simp
  have hcount := behind_le policy State.start ((earliestReady (waiting operations policy State.start)).getD 0)
  have hmul := Nat.mul_le_mul_right (cap policy + 1) hleft
  rw [Nat.add_mul]
  omega

theorem result_isSome {i : ℕ} (hi : i < operations.length) : ((run operations policy).results i).isSome = true := by
  by_contra hnone
  have hcomplete := (run_complete operations policy).2
  have hmem : entryOf policy operations[i] i ∈ waiting operations policy (run operations policy) :=
    mem_waiting.mpr ⟨operations[i], by simp [entryOf, hi], rfl, by simpa [entryOf] using hnone⟩
  rw [complete, List.isEmpty_iff] at hcomplete
  rw [hcomplete] at hmem
  cases hmem

end PaperScheduler

open PaperScheduler

/-! ## The schedule -/

theorem filterMap_range {α : Type*} (f : ℕ → Option α) (n : ℕ) (h : ∀ i < n, (f i).isSome = true) :
    ((List.range n).filterMap f).length = n ∧ ∀ i < n, ((List.range n).filterMap f)[i]? = f i := by
  induction n with
  | zero => simp
  | succ n ih =>
    obtain ⟨hlength, hget⟩ := ih fun i hi => h i (by omega)
    obtain ⟨a, ha⟩ := Option.isSome_iff_exists.mp (h n (by omega))
    rw [List.range_succ, List.filterMap_append, List.filterMap_cons_some ha, List.filterMap_nil]
    refine ⟨by simp [hlength], fun i hi => ?_⟩
    by_cases hn : i = n
    · rw [hn, List.getElem?_append_right hlength.le, hlength, Nat.sub_self, ha]
      rfl
    · rw [List.getElem?_append_left (by omega), hget i (by omega)]

variable (operations : List SchedulableOperation) (policy : ExecutionSchedulingPolicy)

theorem plan_length : (planPaperSchedule operations policy).length = operations.length :=
  (filterMap_range _ _ fun _ hi => result_isSome hi).1

theorem plan_getElem? (i : ℕ) : (planPaperSchedule operations policy)[i]? = (run operations policy).results i := by
  by_cases hi : i < operations.length
  · exact (filterMap_range _ _ fun _ hi => result_isSome hi).2 i hi
  · rw [List.getElem?_eq_none (by rw [plan_length]; omega)]
    cases hresult : (run operations policy).results i with
    | none => rfl
    | some r =>
      obtain ⟨op, hop, _⟩ := (run_complete operations policy).1.planned hresult
      rw [List.getElem?_eq_none (by omega)] at hop
      cases hop

theorem plan_running (t : ℤ) :
    ((planPaperSchedule operations policy).filter fun r => decide (r.dequeuedAt ≤ t ∧ t < r.terminalAt)).length ≤
      cap policy := by
  have hsound := (run_complete operations policy).1
  set running := (planPaperSchedule operations policy).filter fun r => decide (r.dequeuedAt ≤ t ∧ t < r.terminalAt)
  have hnodup : (running.map ScheduledOperation.slot).Nodup := by
    rw [List.Nodup, List.pairwise_map, List.pairwise_filter]
    rw [List.pairwise_iff_getElem]
    intro i j hi hj hij hr hr' hslot
    have hri := plan_getElem? operations policy i
    have hrj := plan_getElem? operations policy j
    rw [List.getElem?_eq_getElem hi] at hri
    rw [List.getElem?_eq_getElem hj] at hrj
    simp only [decide_eq_true_eq] at hr hr'
    have := hsound.alone hij.ne hri.symm hrj.symm hslot
    omega
  have hsubset : running.map ScheduledOperation.slot ⊆ List.range (cap policy) := by
    intro s hs
    obtain ⟨r, hr, rfl⟩ := List.mem_map.mp hs
    obtain ⟨i, hi, rfl⟩ := List.getElem_of_mem (List.mem_filter.mp hr).1
    have hri := plan_getElem? operations policy i
    rw [List.getElem?_eq_getElem hi] at hri
    obtain ⟨op, _, hline⟩ := hsound.planned hri.symm
    exact List.mem_range.mpr hline.slot
  have := (List.subperm_of_subset hnodup hsubset).length_le
  simpa using this

/-- **A schedule has a timeline for every operation, within its slots and its interval.** -/
theorem paper_schedule_sound :
    (planPaperSchedule operations policy).length = operations.length ∧
    let plan := planPaperSchedule operations policy
    (∀ (i : ℕ) op r, operations[i]? = some op → plan[i]? = some r → Timeline policy op r) ∧
    (∀ t : ℤ, (plan.filter fun r => decide (r.dequeuedAt ≤ t ∧ t < r.terminalAt)).length ≤
      max 1 ⌊policy.maxConcurrentOperations⌋.toNat) ∧
    (∀ (i j : ℕ) (r r' : ScheduledOperation), i ≠ j → plan[i]? = some r → plan[j]? = some r' →
      r.postStartedAt + policy.minBrokerIntervalMs ≤ r'.postStartedAt ∨
        r'.postStartedAt + policy.minBrokerIntervalMs ≤ r.postStartedAt) ∧
    (∀ (i j : ℕ) (r r' : ScheduledOperation), plan[i]? = some r → plan[j]? = some r' →
      r'.queuedAt ≤ r.dequeuedAt → r.dequeuedAt < r'.dequeuedAt →
      r.priority < r'.priority ∨ r.priority = r'.priority ∧
        (r.sequence < r'.sequence ∨ r.sequence = r'.sequence ∧ i < j)) ∧
    ∀ s < cap policy, ∀ (t : ℤ), ∀ r' ∈ plan, r'.queuedAt ≤ t → t < r'.dequeuedAt →
      ∃ r ∈ plan, r.slot = s ∧ r.dequeuedAt ≤ t ∧ t < r.terminalAt := by
  have hsound := (run_complete operations policy).1
  have hget := plan_getElem? operations policy
  dsimp only
  refine ⟨plan_length operations policy, fun i op r hop hr => ?_, plan_running operations policy,
    fun i j r r' hne hr hr' => ?_, fun i j r r' hr hr' hready hlater => ?_, fun s hs t r' hr' hready hlater => ?_⟩
  · rw [hget] at hr
    obtain ⟨op', hop', hline⟩ := hsound.planned hr
    obtain rfl : op = op' := by simpa [hop] using hop'
    exact hline
  · rw [hget] at hr hr'
    have hapart := hsound.apart hne hr hr'
    have : policy.minBrokerIntervalMs ≤ minInterval policy := le_max_right _ _
    omega
  · rw [hget] at hr hr'
    obtain ⟨op, hop, hline⟩ := hsound.planned hr
    obtain ⟨op', hop', hline'⟩ := hsound.planned hr'
    have hne : j ≠ i := by
      rintro rfl
      obtain rfl : r = r' := by simpa [hr] using hr'
      omega
    have hwaits : (run operations policy).Waits operations j r.dequeuedAt := by
      refine ⟨⟨op', hop', by rw [← hline'.queued]; exact hready⟩, fun x hx => ?_⟩
      obtain rfl : r' = x := by simpa [hr'] using hx
      exact hlater
    rw [hline.priority, hline'.priority, hline.sequence, hline'.sequence]
    exact hsound.fair hr hop hop' hne hwaits
  · obtain ⟨j, hj, rfl⟩ := List.getElem_of_mem hr'
    have hrj := hget j
    rw [List.getElem?_eq_getElem hj] at hrj
    obtain ⟨op', hop', hline'⟩ := hsound.planned hrj.symm
    have hwaits : (run operations policy).Waits operations j t := by
      refine ⟨⟨op', hop', by rw [← hline'.queued]; exact hready⟩, fun x hx => ?_⟩
      rw [← hrj] at hx
      obtain rfl := Option.some_inj.mp hx
      exact hlater
    have hbefore : (t : WithBot ℤ) < (run operations policy).slotFreeAt s :=
      (WithBot.coe_lt_coe.mpr hlater).trans_le (hsound.past hrj.symm s hs)
    obtain ⟨i, r, hr, hslot, ht⟩ := hsound.busy hs hbefore hwaits
    rw [← hget] at hr
    exact ⟨r, List.mem_of_getElem? hr, hslot, ht⟩

/-- Of two equal operations the first is dequeued first. A policy of no concurrent operation runs one. -/
theorem paper_schedule_edges :
    let same := fun id => SchedulableOperation.mk id .entry 0 0 none 10 20
    let plan := planPaperSchedule [same "a", same "b"] ⟨0, 0, fun purpose => boxOrderPriority purpose⟩
    plan.map (fun r => (r.priority, r.sequence, r.dequeuedAt)) = [(3, 0, 0), (3, 0, 30)] ∧
    (plan.filter fun r => decide (r.dequeuedAt ≤ 0 ∧ 0 < r.terminalAt)).length = 1 := by
  decide +kernel

end BoxEngine
