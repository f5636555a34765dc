import BoxEngine.Lib.Backlog
import BoxEngine.Lib.Number
import BoxEngine.Lib.Positions
import BoxEngine.Lib.Run

/-!
# Bounded queues

A `coalesce` queue keeps the latest value under each key and drops its oldest; a `never-drop` queue keeps everything,
and its capacity says when it is overloaded.
-/

namespace BoxEngine

open Js

inductive OverflowPolicy where
  | coalesce
  | neverDrop
  deriving DecidableEq

structure BoundedQueueOptions where
  capacity : ℕ
  overflow : OverflowPolicy

structure QueuedItem (T : Type*) where
  key : String
  value : T
  enqueuedAt : Number

/-- The items, their index by key, the overload latch and the counters. -/
structure BoundedQueue (T : Type*) where
  items : List (QueuedItem T)
  indexByKey : String → Option ℕ
  overloaded : Bool
  droppedHold : Bool
  enqueuedCount : ℕ
  processedCount : ℕ
  droppedCount : ℕ
  coalescedCount : ℕ
  overloadEventCount : ℕ

inductive QueueOp (T : Type*) where
  | enqueue (value : T) (key : String) (now : Number)
  | dequeue
  | drainAll

namespace BoundedQueue

variable {T : Type*}

def new : BoundedQueue T :=
  { items := [], indexByKey := fun _ => none, overloaded := false, droppedHold := false, enqueuedCount := 0
    processedCount := 0, droppedCount := 0, coalescedCount := 0, overloadEventCount := 0 }

variable (q : BoundedQueue T)

def depth : ℕ := q.items.length

def isOverloaded : Bool := q.overloaded

def emitOverload : BoundedQueue T := { q with overloadEventCount := q.overloadEventCount + 1 }

def forceOverload : BoundedQueue T :=
  if q.overloaded then { q with droppedHold := true }
  else emitOverload { q with droppedHold := true, overloaded := true }

def reindexAfterShift : BoundedQueue T :=
  { q with indexByKey := Positions.build (q.items.map QueuedItem.key) }

def dropOldest : BoundedQueue T :=
  match q.items with
  | [] => q
  | _ :: rest => forceOverload (reindexAfterShift { q with items := rest, droppedCount := q.droppedCount + 1 })

section
variable (opts : BoundedQueueOptions)
variable (q : BoundedQueue T)

def reassess : BoundedQueue T :=
  let nowOver := decide (opts.capacity < q.items.length)
  if nowOver ∧ ¬q.overloaded then emitOverload { q with overloaded := true }
  else if ¬nowOver ∧ q.overloaded ∧ ¬q.droppedHold then { q with overloaded := false }
  else q

def enqueue (value : T) (key : String) (now : Number) : BoundedQueue T :=
  let q := { q with enqueuedCount := q.enqueuedCount + 1 }
  match opts.overflow with
  | .coalesce =>
    match q.indexByKey key with
    | some existing =>
      reassess opts
        { q with
          items := q.items.modify existing fun item => { item with value }
          coalescedCount := q.coalescedCount + 1 }
    | none =>
      let q := if opts.capacity ≤ q.items.length then q.dropOldest else q
      reassess opts
        { q with
          items := q.items ++ [⟨key, value, now⟩]
          indexByKey := Function.update q.indexByKey key (some q.items.length) }
  | .neverDrop => reassess opts { q with items := q.items ++ [⟨key, value, now⟩] }

def dequeue : BoundedQueue T × Option T :=
  match q.items with
  | [] => (q, none)
  | item :: rest =>
    let q := { q with items := rest, processedCount := q.processedCount + 1, droppedHold := false }
    (reassess opts (match opts.overflow with
      | .coalesce => reindexAfterShift q
      | .neverDrop => q), some item.value)

def drainAll : BoundedQueue T × List T :=
  (reassess opts
    { q with
      items := []
      processedCount := q.processedCount + q.items.length
      indexByKey := fun _ => none
      droppedHold := false }, q.items.map QueuedItem.value)

def step : QueueOp T → BoundedQueue T × List T
  | .enqueue value key now => (q.enqueue opts value key now, [])
  | .dequeue => ((q.dequeue opts).1, (q.dequeue opts).2.toList)
  | .drainAll => q.drainAll opts

end

end BoundedQueue

/-! ## Bounded queues against their backlog -/

def QueueOp.toOp {T : Type*} : QueueOp T → Backlog.Op String T
  | .enqueue value key _ => .enqueue key value
  | .dequeue => .dequeue
  | .drainAll => .drain

def QueueOp.input {T : Type*} : QueueOp T → List T
  | .enqueue value _ _ => [value]
  | _ => []

def QueuedItem.slot {T : Type*} (item : QueuedItem T) : String × T := (item.key, item.value)

namespace BoundedQueue

variable {T : Type*} {opts : BoundedQueueOptions} {q : BoundedQueue T}

def keys (q : BoundedQueue T) : List String := q.items.map QueuedItem.key

def values (q : BoundedQueue T) : List T := q.items.map QueuedItem.value

def slots (q : BoundedQueue T) : List (String × T) := q.items.map QueuedItem.slot

theorem map_slots_fst (q : BoundedQueue T) : q.slots.map Prod.fst = q.keys := by
  simp [slots, keys, Function.comp_def, QueuedItem.slot]

theorem map_slots_snd (q : BoundedQueue T) : q.slots.map Prod.snd = q.values := by
  simp [slots, values, Function.comp_def, QueuedItem.slot]

section
variable (opts) (q)

theorem reassess_eq : ∃ overloaded events,
    reassess opts q = { q with overloaded, overloadEventCount := events } := by
  unfold reassess emitOverload
  dsimp only
  split_ifs <;> exact ⟨_, _, rfl⟩

@[simp] theorem reassess_items : (reassess opts q).items = q.items := by
  obtain ⟨_, _, h⟩ := reassess_eq opts q
  rw [h]

@[simp] theorem reassess_indexByKey : (reassess opts q).indexByKey = q.indexByKey := by
  obtain ⟨_, _, h⟩ := reassess_eq opts q
  rw [h]

@[simp] theorem reassess_droppedHold : (reassess opts q).droppedHold = q.droppedHold := by
  obtain ⟨_, _, h⟩ := reassess_eq opts q
  rw [h]

@[simp] theorem reassess_enqueuedCount : (reassess opts q).enqueuedCount = q.enqueuedCount := by
  obtain ⟨_, _, h⟩ := reassess_eq opts q
  rw [h]

@[simp] theorem reassess_processedCount : (reassess opts q).processedCount = q.processedCount := by
  obtain ⟨_, _, h⟩ := reassess_eq opts q
  rw [h]

@[simp] theorem reassess_droppedCount : (reassess opts q).droppedCount = q.droppedCount := by
  obtain ⟨_, _, h⟩ := reassess_eq opts q
  rw [h]

@[simp] theorem reassess_coalescedCount : (reassess opts q).coalescedCount = q.coalescedCount := by
  obtain ⟨_, _, h⟩ := reassess_eq opts q
  rw [h]

theorem reassess_overloaded : (reassess opts q).overloaded = true ↔
    opts.capacity < q.items.length ∨ q.overloaded = true ∧ q.droppedHold = true := by
  unfold reassess emitOverload
  by_cases hover : opts.capacity < q.items.length <;> cases hlatch : q.overloaded <;> cases hhold : q.droppedHold <;>
    simp [hover, hlatch]

end

/-! ## Operations -/

section
variable {value : T} {key : String} {now : Number} {head : QueuedItem T} {rest : List (QueuedItem T)}

theorem enqueue_replace (hmode : opts.overflow = .coalesce) {i : ℕ} (hindex : q.indexByKey key = some i) :
    q.enqueue opts value key now = reassess opts
      { q with
        items := q.items.modify i fun item => { item with value }
        enqueuedCount := q.enqueuedCount + 1
        coalescedCount := q.coalescedCount + 1 } := by
  simp [enqueue, hmode, hindex]

theorem enqueue_place (hmode : opts.overflow = .coalesce) (hindex : q.indexByKey key = none)
    (hroom : q.items.length < opts.capacity) :
    q.enqueue opts value key now = reassess opts
      { q with
        items := q.items ++ [⟨key, value, now⟩]
        indexByKey := Function.update q.indexByKey key (some q.items.length)
        enqueuedCount := q.enqueuedCount + 1 } := by
  simp [enqueue, hmode, hindex, hroom.not_ge]

theorem enqueue_displace (value : T) (now : Number) (hmode : opts.overflow = .coalesce) (hindex : q.indexByKey key = none)
    (hfull : opts.capacity ≤ q.items.length) (hitems : q.items = head :: rest) : ∃ events,
    q.enqueue opts value key now = reassess opts
      { q with
        items := rest ++ [⟨key, value, now⟩]
        indexByKey := Function.update (Positions.build (rest.map QueuedItem.key)) key (some rest.length)
        overloaded := true
        droppedHold := true
        enqueuedCount := q.enqueuedCount + 1
        droppedCount := q.droppedCount + 1
        overloadEventCount := events } := by
  rw [hitems, List.length_cons] at hfull
  cases hlatch : q.overloaded with
  | true =>
    refine ⟨q.overloadEventCount, ?_⟩
    simp [enqueue, hmode, hindex, hfull, hitems, dropOldest, forceOverload, reindexAfterShift, hlatch]
  | false =>
    refine ⟨q.overloadEventCount + 1, ?_⟩
    simp [enqueue, hmode, hindex, hfull, hitems, dropOldest, forceOverload, reindexAfterShift, emitOverload, hlatch]

theorem enqueue_append (hmode : opts.overflow = .neverDrop) :
    q.enqueue opts value key now = reassess opts
      { q with items := q.items ++ [⟨key, value, now⟩], enqueuedCount := q.enqueuedCount + 1 } := by
  simp [enqueue, hmode]

theorem dequeue_nil (hitems : q.items = []) : q.dequeue opts = (q, none) := by simp [dequeue, hitems]

theorem dequeue_coalesce (hmode : opts.overflow = .coalesce) (hitems : q.items = head :: rest) :
    q.dequeue opts = (reassess opts
      { q with
        items := rest
        indexByKey := Positions.build (rest.map QueuedItem.key)
        processedCount := q.processedCount + 1
        droppedHold := false }, some head.value) := by
  simp [dequeue, hmode, hitems, reindexAfterShift]

theorem dequeue_neverDrop (hmode : opts.overflow = .neverDrop) (hitems : q.items = head :: rest) :
    q.dequeue opts = (reassess opts
      { q with items := rest, processedCount := q.processedCount + 1, droppedHold := false }, some head.value) := by
  simp [dequeue, hmode, hitems]

end

/-! ## What every operation keeps -/

variable (opts) in
/-- The index is exact, a coalescing queue is bounded, and every item is accounted for. -/
structure Sound (q : BoundedQueue T) : Prop where
  exact : opts.overflow = .coalesce → Positions.Exact q.keys q.indexByKey
  bound : opts.overflow = .coalesce → q.items.length ≤ opts.capacity
  counted : q.enqueuedCount = q.processedCount + q.droppedCount + q.coalescedCount + q.items.length
  latched : q.overloaded = true ↔ opts.capacity < q.items.length ∨ q.droppedHold = true
  held : q.droppedHold = true → q.items ≠ []

theorem sound_new : Sound opts (new : BoundedQueue T) := by
  constructor <;> simp [new, keys, Positions.exact_nil]

theorem Sound.keys_nodup (h : q.Sound opts) (hmode : opts.overflow = .coalesce) : q.keys.Nodup := (h.exact hmode).nodup

theorem latched_reassess (h : q.droppedHold = true → q.overloaded = true) :
    (reassess opts q).overloaded = true ↔
      opts.capacity < (reassess opts q).items.length ∨ (reassess opts q).droppedHold = true := by
  rw [reassess_overloaded, reassess_items, reassess_droppedHold]
  exact or_congr_right ⟨And.right, fun hhold => ⟨h hhold, hhold⟩⟩

theorem Sound.enqueue (h : q.Sound opts) (hcapacity : 1 ≤ opts.capacity) (value : T) (key : String) (now : Number) :
    (q.enqueue opts value key now).Sound opts := by
  have hhold : q.droppedHold = true → q.overloaded = true := fun hhold => h.latched.mpr (.inr hhold)
  have hcounted := h.counted
  cases hmode : opts.overflow with
  | coalesce =>
    have hbound := h.bound hmode
    cases hindex : q.indexByKey key with
    | some i =>
      rw [enqueue_replace hmode hindex]
      refine ⟨fun _ => ?_, fun _ => ?_, ?_, latched_reassess hhold, fun hheld => ?_⟩
      · have hkeys : (q.items.modify i fun item => { item with value }).map QueuedItem.key = q.keys :=
          Positions.map_modify_same (by simp) q.items i
        simp only [keys, reassess_items, reassess_indexByKey, hkeys]
        exact h.exact hmode
      · simpa using hbound
      · simp
        omega
      · rw [reassess_droppedHold] at hheld
        rw [reassess_items, Ne, ← List.length_eq_zero_iff, List.length_modify, List.length_eq_zero_iff]
        exact h.held hheld
    | none =>
      have hnew := (h.exact hmode).not_mem hindex
      by_cases hroom : q.items.length < opts.capacity
      · rw [enqueue_place hmode hindex hroom]
        refine ⟨fun _ => ?_, fun _ => ?_, ?_, latched_reassess hhold, fun _ => ?_⟩
        · have hexact := (h.exact hmode).snoc hnew
          simpa [keys] using hexact
        · simpa using Nat.succ_le_of_lt hroom
        · simp
          omega
        · simp
      · cases hitems : q.items with
        | nil =>
          rw [hitems] at hroom
          exact absurd hcapacity hroom
        | cons head rest =>
          obtain ⟨events, hevents⟩ := enqueue_displace value now hmode hindex (not_lt.mp hroom) hitems
          rw [hevents]
          rw [hitems, List.length_cons] at hcounted hbound
          refine ⟨fun _ => ?_, fun _ => ?_, ?_, latched_reassess fun _ => rfl, fun _ => ?_⟩
          · have hkeys : (head.key :: rest.map QueuedItem.key).Nodup := by
              simpa [keys, hitems] using h.keys_nodup hmode
            have hrest : key ∉ rest.map QueuedItem.key := fun hmem => hnew (by simp [keys, hitems, hmem])
            have hexact := (Positions.exact_build (List.nodup_cons.mp hkeys).2).snoc hrest
            simpa [keys] using hexact
          · simpa using hbound
          · simp
            omega
          · simp
  | neverDrop =>
    rw [enqueue_append hmode]
    refine ⟨by simp [hmode], by simp [hmode], ?_, latched_reassess hhold, ?_⟩
    · simp
      omega
    · simp

theorem Sound.dequeue (h : q.Sound opts) : (q.dequeue opts).1.Sound opts := by
  have hcounted := h.counted
  cases hitems : q.items with
  | nil =>
    rw [dequeue_nil hitems]
    exact h
  | cons head rest =>
    rw [hitems, List.length_cons] at hcounted
    cases hmode : opts.overflow with
    | coalesce =>
      rw [dequeue_coalesce hmode hitems]
      refine ⟨fun _ => ?_, fun _ => ?_, ?_, latched_reassess (by simp), by simp⟩
      · have hkeys : (head.key :: rest.map QueuedItem.key).Nodup := by
          simpa [keys, hitems] using h.keys_nodup hmode
        simpa [keys] using Positions.exact_build (List.nodup_cons.mp hkeys).2
      · have hbound := h.bound hmode
        rw [hitems, List.length_cons] at hbound
        simp
        omega
      · simp
        omega
    | neverDrop =>
      rw [dequeue_neverDrop hmode hitems]
      refine ⟨by simp [hmode], by simp [hmode], ?_, latched_reassess (by simp), by simp⟩
      simp
      omega

theorem Sound.drainAll (h : q.Sound opts) : (q.drainAll opts).1.Sound opts := by
  have hcounted := h.counted
  refine ⟨fun _ => ?_, fun _ => ?_, ?_, latched_reassess (by simp), by simp [BoundedQueue.drainAll]⟩
  · simp [BoundedQueue.drainAll, keys, Positions.exact_nil]
  · simp [BoundedQueue.drainAll]
  · simp [BoundedQueue.drainAll]
    omega

theorem Sound.step (h : q.Sound opts) (hcapacity : 1 ≤ opts.capacity) (op : QueueOp T) :
    (q.step opts op).1.Sound opts := by
  cases op with
  | enqueue value key now => exact h.enqueue hcapacity value key now
  | dequeue => exact h.dequeue
  | drainAll => exact h.drainAll

/-! ## The backlog -/

variable {b : Backlog String T}

theorem enqueue_refines (h : q.Sound opts) (hcapacity : 1 ≤ opts.capacity) (hmode : opts.overflow = .coalesce)
    (hb : b.Holds q.slots) (value : T) (key : String) (now : Number) :
    ∃ b', Backlog.Step opts.capacity b (.enqueue key value) b' [] ∧
      b'.Holds (q.enqueue opts value key now).slots := by
  have hwaiting : ∀ k, k ∈ b.waiting ↔ k ∈ q.keys := fun k => by rw [hb.waiting, map_slots_fst]
  have hcard : b.waiting.card = q.items.length := by rw [hb.card, slots, List.length_map]
  cases hindex : q.indexByKey key with
  | some i =>
    have hi : q.keys[i]? = some key := (h.exact hmode key i).mp hindex
    refine ⟨_, .replace ((hwaiting key).mpr (List.mem_iff_getElem?.mpr ⟨i, hi⟩)), ?_⟩
    have hslots : (q.enqueue opts value key now).slots = q.slots.modify i fun slot => (slot.1, value) := by
      rw [enqueue_replace hmode hindex, slots, reassess_items]
      exact Positions.map_modify (by simp [QueuedItem.slot]) q.items i
    rw [hslots]
    exact hb.record (by rwa [map_slots_fst])
  | none =>
    have hnew : key ∉ b.waiting := fun hmem => (h.exact hmode).not_mem hindex ((hwaiting key).mp hmem)
    by_cases hroom : q.items.length < opts.capacity
    · refine ⟨_, .place hnew (hcard ▸ hroom), ?_⟩
      have hslots : (q.enqueue opts value key now).slots = q.slots ++ [(key, value)] := by
        rw [enqueue_place hmode hindex hroom, slots, reassess_items]
        simp [slots, QueuedItem.slot]
      rw [hslots]
      exact hb.place hnew
    · cases hitems : q.items with
      | nil =>
        rw [hitems] at hroom
        exact absurd hcapacity hroom
      | cons head rest =>
        obtain ⟨events, hevents⟩ := enqueue_displace value now hmode hindex (not_lt.mp hroom) hitems
        have hhead : b.Holds (head.slot :: rest.map QueuedItem.slot) := by simpa [slots, hitems] using hb
        refine ⟨_, .displace hnew (hcard ▸ not_lt.mp hroom) hhead.oldest, ?_⟩
        have hslots : (q.enqueue opts value key now).slots = rest.map QueuedItem.slot ++ [(key, value)] := by
          rw [hevents, slots, reassess_items]
          simp [QueuedItem.slot]
        rw [hslots]
        exact hhead.leave.place fun hmem => hnew (Finset.mem_of_mem_erase hmem)

theorem dequeue_refines (hmode : opts.overflow = .coalesce) (hb : b.Holds q.slots) :
    ∃ b', Backlog.Step opts.capacity b .dequeue b' (q.dequeue opts).2.toList ∧ b'.Holds (q.dequeue opts).1.slots := by
  cases hitems : q.items with
  | nil =>
    rw [dequeue_nil hitems]
    refine ⟨b, .idle ?_, hb⟩
    rw [← Finset.card_eq_zero, hb.card, slots, hitems]
    rfl
  | cons head rest =>
    have hhead : b.Holds (head.slot :: rest.map QueuedItem.slot) := by simpa [slots, hitems] using hb
    rw [dequeue_coalesce hmode hitems]
    refine ⟨_, .take hhead.oldest (hhead.latest _ (.head _)), ?_⟩
    simpa [slots] using hhead.leave

theorem drainAll_refines (hb : b.Holds q.slots) :
    ∃ b', Backlog.Step opts.capacity b .drain b' (q.drainAll opts).2 ∧ b'.Holds (q.drainAll opts).1.slots := by
  refine ⟨{ b with waiting := ∅ }, ?_, ?_⟩
  · have hdrain := hb.drain opts.capacity
    rwa [map_slots_snd] at hdrain
  · have hslots : (q.drainAll opts).1.slots = [] := by simp [BoundedQueue.drainAll, slots]
    rw [hslots]
    exact .nothing b

theorem step_refines (h : q.Sound opts) (hcapacity : 1 ≤ opts.capacity) (hmode : opts.overflow = .coalesce)
    (hb : b.Holds q.slots) (op : QueueOp T) :
    ∃ b', Backlog.Step opts.capacity b op.toOp b' (q.step opts op).2 ∧ b'.Holds (q.step opts op).1.slots := by
  cases op with
  | enqueue value key now => exact enqueue_refines h hcapacity hmode hb value key now
  | dequeue => exact dequeue_refines hmode hb
  | drainAll => exact drainAll_refines hb

/-! ## Runs -/

theorem hands_out (hmode : opts.overflow = .neverDrop) (op : QueueOp T) :
    (q.step opts op).2 ++ (q.step opts op).1.values = q.values ++ op.input := by
  cases op with
  | enqueue value key now => simp [step, enqueue_append hmode, values, QueueOp.input]
  | dequeue =>
    cases hitems : q.items with
    | nil => simp [step, dequeue_nil hitems, QueueOp.input]
    | cons head rest => simp [step, dequeue_neverDrop hmode hitems, values, hitems, QueueOp.input]
  | drainAll => simp [step, drainAll, values, QueueOp.input]

variable (opts) in
def DropUnseen (ops : List (QueueOp T)) : Prop :=
  ∃ before op after, ops = before ++ op :: after ∧
    (Run.finish (step opts) new before).droppedCount < (Run.finish (step opts) new (before ++ [op])).droppedCount ∧
    ∀ op' ∈ after, op'.input ≠ []

theorem dropUnseen_snoc (ops : List (QueueOp T)) (op : QueueOp T) : DropUnseen opts (ops ++ [op]) ↔
    (Run.finish (step opts) new ops).droppedCount < (Run.finish (step opts) new (ops ++ [op])).droppedCount ∨
      DropUnseen opts ops ∧ op.input ≠ [] := by
  constructor
  · rintro ⟨before, op', after, heq, hdrop, hafter⟩
    cases after using List.reverseRecOn with
    | nil =>
      obtain ⟨rfl, hop⟩ := List.append_inj' heq rfl
      cases hop
      exact .inl hdrop
    | append_singleton after last =>
      rw [← List.cons_append, ← List.append_assoc] at heq
      obtain ⟨rfl, hop⟩ := List.append_inj' heq rfl
      cases hop
      exact .inr ⟨⟨before, op', after, rfl, hdrop, fun o ho => hafter o (List.mem_append_left _ ho)⟩,
        hafter op (by simp)⟩
  · rintro (hdrop | ⟨⟨before, op', after, rfl, hdrop, hafter⟩, hop⟩)
    · exact ⟨ops, op, [], rfl, hdrop, by simp⟩
    · refine ⟨before, op', after ++ [op], by simp, hdrop, fun o ho => ?_⟩
      rcases List.mem_append.mp ho with ho | ho
      · exact hafter o ho
      · rwa [List.mem_singleton.mp ho]

theorem step_held (h : q.Sound opts) (hcapacity : 1 ≤ opts.capacity) (op : QueueOp T) :
    (q.step opts op).1.droppedHold = true ↔
      q.droppedCount < (q.step opts op).1.droppedCount ∨ q.droppedHold = true ∧ op.input ≠ [] := by
  cases op with
  | enqueue value key now =>
    simp only [step, QueueOp.input, ne_eq, List.cons_ne_nil, not_false_eq_true, and_true]
    cases hmode : opts.overflow with
    | coalesce =>
      cases hindex : q.indexByKey key with
      | some i => simp [enqueue_replace hmode hindex]
      | none =>
        by_cases hroom : q.items.length < opts.capacity
        · simp [enqueue_place hmode hindex hroom]
        · cases hitems : q.items with
          | nil =>
            rw [hitems] at hroom
            exact absurd hcapacity hroom
          | cons head rest =>
            obtain ⟨events, hevents⟩ :=
              enqueue_displace value now hmode hindex (not_lt.mp hroom) hitems
            simp [hevents]
    | neverDrop => simp [enqueue_append hmode]
  | dequeue =>
    simp only [step, QueueOp.input, ne_eq, not_true_eq_false, and_false, or_false]
    cases hitems : q.items with
    | nil =>
      have hfree := mt h.held (not_not_intro hitems)
      simpa [dequeue_nil hitems] using hfree
    | cons head rest => cases hmode : opts.overflow <;> simp [dequeue, hmode, hitems, reindexAfterShift]
  | drainAll => simp [step, drainAll, QueueOp.input]

theorem run_sound (hcapacity : 1 ≤ opts.capacity) (ops : List (QueueOp T)) :
    (Run.finish (step opts) new ops).Sound opts := by
  induction ops using List.reverseRecOn with
  | nil => exact sound_new
  | append_singleton ops op ih =>
    rw [Run.finish_append]
    exact ih.step hcapacity op

theorem run_held (hcapacity : 1 ≤ opts.capacity) (ops : List (QueueOp T)) :
    (Run.finish (step opts) new ops).droppedHold = true ↔ DropUnseen opts ops := by
  induction ops using List.reverseRecOn with
  | nil =>
    constructor
    · intro h
      cases h
    · rintro ⟨before, op, after, h, -⟩
      cases before <;> cases h
  | append_singleton ops op ih =>
    rw [dropUnseen_snoc, ← ih, Run.finish_append]
    exact step_held (run_sound hcapacity ops) hcapacity op

theorem run_refines (hcapacity : 1 ≤ opts.capacity) (hmode : opts.overflow = .coalesce) (ops : List (QueueOp T)) :
    ∃ b, Backlog.Run opts.capacity (ops.map QueueOp.toOp) (Run.answers (step opts) new ops) b ∧
      b.Holds (Run.finish (step opts) new ops).slots := by
  induction ops using List.reverseRecOn with
  | nil => exact ⟨_, .nil, Backlog.holds_empty⟩
  | append_singleton ops op ih =>
    obtain ⟨b, hrun, hb⟩ := ih
    obtain ⟨b', hstep, hb'⟩ := step_refines (run_sound hcapacity ops) hcapacity hmode hb op
    rw [Run.finish_append, Run.answers_snoc, List.map_append]
    exact ⟨b', hrun.snoc hstep, hb'⟩

theorem run_hands_out (hmode : opts.overflow = .neverDrop) (ops : List (QueueOp T)) :
    (Run.answers (step opts) new ops).flatten ++ (Run.finish (step opts) new ops).values =
      ops.flatMap QueueOp.input := by
  induction ops using List.reverseRecOn with
  | nil => rfl
  | append_singleton ops op ih =>
    rw [Run.finish_append, Run.answers_snoc, List.flatten_append, List.append_assoc, List.flatMap_append, ← ih]
    simpa using hands_out hmode op

end BoundedQueue

/-- A queue is its backlog, or hands out what came in; it is overloaded when over its capacity or with a drop unseen.
-/
theorem queue_refines {T : Type*} (opts : BoundedQueueOptions) (hcapacity : 1 ≤ opts.capacity) (ops : List (QueueOp T)) :
    let q := Run.finish (BoundedQueue.step opts) .new ops
    let handed := Run.answers (BoundedQueue.step opts) .new ops
    (opts.overflow = .coalesce →
      q.keys.Nodup ∧ (∀ key i, q.indexByKey key = some i ↔ q.keys[i]? = some key) ∧ q.depth ≤ opts.capacity ∧
        ∃ b, Backlog.Run opts.capacity (ops.map QueueOp.toOp) handed b ∧ b.Holds q.slots) ∧
    (opts.overflow = .neverDrop → handed.flatten ++ q.values = ops.flatMap QueueOp.input) ∧
    q.enqueuedCount = q.processedCount + q.droppedCount + q.coalescedCount + q.depth ∧
    (q.isOverloaded = true ↔ opts.capacity < q.depth ∨ BoundedQueue.DropUnseen opts ops) := by
  intro q handed
  have hsound : q.Sound opts := BoundedQueue.run_sound hcapacity ops
  refine ⟨fun hmode => ?_, fun hmode => BoundedQueue.run_hands_out hmode ops, hsound.counted, ?_⟩
  · exact ⟨hsound.keys_nodup hmode, hsound.exact hmode, hsound.bound hmode,
      BoundedQueue.run_refines hcapacity hmode ops⟩
  · rw [← BoundedQueue.run_held hcapacity ops]
    exact hsound.latched

def pricesOfTwo : List (QueueOp ℕ) :=
  [.enqueue 100 "a" (.fin 0), .enqueue 101 "a" (.fin 1), .enqueue 50 "b" (.fin 2), .dequeue]

theorem queue_refines_pricesOfTwo :
    let opts : BoundedQueueOptions := ⟨1, .coalesce⟩
    let q := Run.finish (BoundedQueue.step opts) .new pricesOfTwo
    let handed := Run.answers (BoundedQueue.step opts) .new pricesOfTwo
    (opts.overflow = .coalesce →
      q.keys.Nodup ∧ (∀ key i, q.indexByKey key = some i ↔ q.keys[i]? = some key) ∧ q.depth ≤ opts.capacity ∧
        ∃ b, Backlog.Run opts.capacity (pricesOfTwo.map QueueOp.toOp) handed b ∧ b.Holds q.slots) ∧
    (opts.overflow = .neverDrop → handed.flatten ++ q.values = pricesOfTwo.flatMap QueueOp.input) ∧
    q.enqueuedCount = q.processedCount + q.droppedCount + q.coalescedCount + q.depth ∧
    (q.isOverloaded = true ↔ opts.capacity < q.depth ∨ BoundedQueue.DropUnseen opts pricesOfTwo) :=
  queue_refines ⟨1, .coalesce⟩ le_rfl pricesOfTwo

example : Run.answers (BoundedQueue.step ⟨1, .coalesce⟩) .new pricesOfTwo = [[], [], [], [50]] := by decide

end BoxEngine
