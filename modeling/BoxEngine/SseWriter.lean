import BoxEngine.Lib.Number
import BoxEngine.Lib.Run
import Mathlib.Data.List.Induction

/-!
# Server-sent events

The bounded output of one client: frames queue while the sink pushes back, one per coalesce key, and a client over its
budget is disconnected.
-/

namespace BoxEngine

open Js

def chunkLength (chunk : String) : ℕ := (chunk.toList.map fun c => if c.toNat < 65536 then 1 else 2).sum

structure QueuedFrame where
  chunk : String
  coalesceKey : Option String

def QueuedFrame.length (frame : QueuedFrame) : ℕ := chunkLength frame.chunk

inductive WriteOutcome where
  | accepted
  | backpressure
  | threw
  deriving DecidableEq

/-- What the sink does with a chunk, and what it reports to hold; some report nothing. -/
structure SinkAnswer where
  outcome : WriteOutcome
  writableLength : Option Number

inductive SseEffect where
  | write (frame : QueuedFrame)
  | onceDrain
  | destroy
  | overBudget (pendingBytes : Number) (queuedFrames : ℕ)

structure BoundedSseWriter where
  writableLength : Option Number
  budget : Number
  blocked : Bool
  drainArmed : Bool
  queue : List QueuedFrame
  queuedBytes : ℤ
  framesWritten : ℕ
  framesCoalesced : ℕ
  closed : Bool

def DEFAULT_SSE_CLIENT_BUDGET_BYTES : ℕ := 512 * 1024

inductive SseEvent where
  | send (event data : String) (coalesceKey : Option String) (writableLength : Option Number) (answer : SinkAnswer)
  /-- The sink drained; the answers are those to the writes that follow, in order. -/
  | drain (writableLength : Option Number) (answers : ℕ → SinkAnswer)
  | close

namespace BoundedSseWriter

def budgetOf (maxPendingBytes : Option Number) : Number :=
  Number.max (.fin (16 * 1024 : ℕ)) (maxPendingBytes.getD (.fin DEFAULT_SSE_CLIENT_BUDGET_BYTES))

def new (maxPendingBytes writableLength : Option Number) : BoundedSseWriter :=
  { writableLength
    budget := budgetOf maxPendingBytes
    blocked := false, drainArmed := false, queue := [], queuedBytes := 0, framesWritten := 0, framesCoalesced := 0
    closed := false }

variable (w : BoundedSseWriter)

def pendingBytes : Number := (Number.fin w.queuedBytes).add (w.writableLength.getD (.fin 0))

def close : BoundedSseWriter := { w with closed := true, queue := [], queuedBytes := 0 }

def enforceBudget : BoundedSseWriter × List SseEffect :=
  if w.closed then (w, [])
  else if w.pendingBytes ≤ w.budget then (w, [])
  else (w.close, [.destroy, .overBudget w.pendingBytes w.queue.length])

def armDrain : BoundedSseWriter × List SseEffect :=
  if w.drainArmed ∨ w.closed then (w, []) else ({ w with drainArmed := true }, [.onceDrain])

def writeNow (answer : SinkAnswer) (frame : QueuedFrame) : BoundedSseWriter × List SseEffect :=
  let w := { w with writableLength := answer.writableLength }
  match answer.outcome with
  | .threw => (w.close, [.write frame])
  | .accepted => ({ w with framesWritten := w.framesWritten + 1 }, [.write frame])
  | .backpressure =>
    let armed := armDrain { w with framesWritten := w.framesWritten + 1, blocked := true }
    -- what the sink took counts at once
    let enforced := armed.1.enforceBudget
    (enforced.1, .write frame :: (armed.2 ++ enforced.2))

def sseChunk (event data : String) : String := s!"event: {event}\ndata: {data}\n\n"

/-- A frame with the key of a queued one takes its place. -/
def send (event data : String) (coalesceKey : Option String) (answer : SinkAnswer) :
    BoundedSseWriter × List SseEffect :=
  if w.closed then (w, [])
  else
    let frame : QueuedFrame := ⟨sseChunk event data, coalesceKey⟩
    if !w.blocked then w.writeNow answer frame
    else
      let place := if coalesceKey = none then none else w.queue.findIdx? (·.coalesceKey = coalesceKey)
      match place with
      | some i =>
        let previous := (w.queue[i]?).elim 0 QueuedFrame.length
        enforceBudget
          { w with
            queue := w.queue.set i frame
            queuedBytes := w.queuedBytes - previous + frame.length
            framesCoalesced := w.framesCoalesced + 1 }
      | none =>
        enforceBudget { w with queue := w.queue ++ [frame], queuedBytes := w.queuedBytes + frame.length }

def flushFrom (answers : ℕ → SinkAnswer) : List QueuedFrame → ℕ → BoundedSseWriter → BoundedSseWriter × List SseEffect
  | [], _, w => (w, [])
  | next :: rest, i, w =>
    if w.closed ∨ w.blocked then (w, [])
    else
      let written := writeNow { w with queue := rest, queuedBytes := w.queuedBytes - next.length } (answers i) next
      let further := flushFrom answers rest (i + 1) written.1
      (further.1, written.2 ++ further.2)

def flush (answers : ℕ → SinkAnswer) : BoundedSseWriter × List SseEffect :=
  let flushed := flushFrom answers w.queue 0 w
  ({ flushed.1 with queuedBytes := if flushed.1.queuedBytes < 0 then 0 else flushed.1.queuedBytes }, flushed.2)

def onDrain (answers : ℕ → SinkAnswer) : BoundedSseWriter × List SseEffect :=
  if w.drainArmed then flush { w with drainArmed := false, blocked := false } answers else (w, [])

def step : SseEvent → BoundedSseWriter × List SseEffect
  | .send event data coalesceKey writableLength answer =>
    send { w with writableLength } event data coalesceKey answer
  | .drain writableLength answers => onDrain { w with writableLength } answers
  | .close => (w.close, [])

end BoundedSseWriter

/-! ## What a client gets -/

def SseEvent.frame? : SseEvent → Option QueuedFrame
  | .send event data coalesceKey _ _ => some ⟨BoundedSseWriter.sseChunk event data, coalesceKey⟩
  | _ => none

def SseEffect.frame? : SseEffect → Option QueuedFrame
  | .write frame => some frame
  | _ => none

def keyless (frames : List QueuedFrame) : List QueuedFrame := frames.filter (·.coalesceKey = none)

def keyed (key : String) (frames : List QueuedFrame) : List QueuedFrame := frames.filter (·.coalesceKey = some key)

def queuedLength (frames : List QueuedFrame) : ℤ := (frames.map fun frame => (frame.length : ℤ)).sum

section
variable {frames frames' : List QueuedFrame} {frame : QueuedFrame} {key : String}

@[simp] theorem keyless_append : keyless (frames ++ frames') = keyless frames ++ keyless frames' := by simp [keyless]

@[simp] theorem keyed_append : keyed key (frames ++ frames') = keyed key frames ++ keyed key frames' := by simp [keyed]

@[simp] theorem keyless_nil : keyless [] = [] := rfl

@[simp] theorem keyed_nil : keyed key [] = [] := rfl

theorem keyless_single_some (h : frame.coalesceKey = some key) : keyless [frame] = [] := by simp [keyless, h]

theorem keyed_single (h : frame.coalesceKey = some key) : keyed key [frame] = [frame] := by simp [keyed, h]

theorem keyed_single_ne (h : frame.coalesceKey ≠ some key) : keyed key [frame] = [] := by simp [keyed, h]

@[simp] theorem queuedLength_append : queuedLength (frames ++ frames') = queuedLength frames + queuedLength frames' := by
  simp [queuedLength]

@[simp] theorem queuedLength_nil : queuedLength [] = 0 := rfl

@[simp] theorem queuedLength_cons : queuedLength (frame :: frames) = frame.length + queuedLength frames := by
  simp [queuedLength]

theorem queuedLength_nonneg (frames : List QueuedFrame) : 0 ≤ queuedLength frames := by
  induction frames with
  | nil => simp
  | cons frame frames ih =>
    rw [queuedLength_cons]
    omega

end

namespace BoundedSseWriter

variable {w w' : BoundedSseWriter} {sent handed : List QueuedFrame}

def Within (w : BoundedSseWriter) : Prop := w.closed = false → w.blocked = true → w.pendingBytes ≤ w.budget

def Armed (w : BoundedSseWriter) : Prop := w.closed = false → w.blocked = true → w.drainArmed = true

/-! ## The parts of a call -/

theorem enforceBudget_cases (w : BoundedSseWriter) :
    (w.enforceBudget = (w, []) ∧ w.Within) ∨ ∃ told : List SseEffect,
      w.enforceBudget = (w.close, told) ∧ told.filterMap SseEffect.frame? = [] := by
  unfold enforceBudget
  by_cases hclosed : w.closed = true
  · rw [if_pos hclosed]
    exact .inl ⟨rfl, fun hopen => by simp [hclosed] at hopen⟩
  · rw [if_neg hclosed]
    by_cases hpending : w.pendingBytes ≤ w.budget
    · rw [if_pos hpending]
      exact .inl ⟨rfl, fun _ _ => hpending⟩
    · rw [if_neg hpending]
      exact .inr ⟨_, rfl, rfl⟩

/-- What one write makes of an open writer: it closes, or goes on with the queue it had. -/
structure Wrote (w w' : BoundedSseWriter) : Prop where
  budget : w'.budget = w.budget
  queue : w'.closed = true ∧ w'.queue = [] ∧ w'.queuedBytes = 0 ∨
    w'.closed = false ∧ w'.queue = w.queue ∧ w'.queuedBytes = w.queuedBytes
  armed : w'.Armed
  within : w'.Within

theorem writeNow_wrote (hopen : w.closed = false) (hclear : w.blocked = false) (answer : SinkAnswer) (frame : QueuedFrame) :
    Wrote w (w.writeNow answer frame).1 ∧ (w.writeNow answer frame).2.filterMap SseEffect.frame? = [frame] := by
  unfold writeNow
  cases answer.outcome with
  | threw => exact ⟨⟨rfl, .inl ⟨rfl, rfl, rfl⟩, by simp [Armed, close], by simp [Within, close]⟩, rfl⟩
  | accepted =>
    exact ⟨⟨rfl, .inr ⟨hopen, rfl, rfl⟩, by simp [Armed, hclear], by simp [Within, hclear]⟩, rfl⟩
  | backpressure =>
    dsimp only
    generalize hpushed : ({ w with writableLength := answer.writableLength, framesWritten := w.framesWritten + 1
                                   blocked := true } : BoundedSseWriter) = pushed
    have harmed : ∃ told : List SseEffect, pushed.armDrain = ({ pushed with drainArmed := true }, told) ∧
        told.filterMap SseEffect.frame? = [] := by
      subst hpushed
      cases hdrain : w.drainArmed with
      | true => exact ⟨[], by simp [armDrain], rfl⟩
      | false => exact ⟨[.onceDrain], by simp [armDrain, hopen], rfl⟩
    obtain ⟨told, harm, htold⟩ := harmed
    rw [harm]
    subst hpushed
    rcases enforceBudget_cases { w with writableLength := answer.writableLength, blocked := true, drainArmed := true
                                        framesWritten := w.framesWritten + 1 } with ⟨h, hwithin⟩ | ⟨owed, h, hover⟩
    · rw [h]
      exact ⟨⟨rfl, .inr ⟨hopen, rfl, rfl⟩, fun _ _ => rfl, hwithin⟩, by simp [SseEffect.frame?, htold]⟩
    · rw [h]
      exact ⟨⟨rfl, .inl ⟨rfl, rfl, rfl⟩, by simp [Armed, close], by simp [Within, close]⟩,
        by simp [SseEffect.frame?, htold, hover]⟩

theorem flushFrom_closed (answers : ℕ → SinkAnswer) (hclosed : w.closed = true) (frames : List QueuedFrame) (i : ℕ) :
    flushFrom answers frames i w = (w, []) := by
  cases frames with
  | nil => rfl
  | cons next rest => simp [flushFrom, hclosed]

structure Flushed (w : BoundedSseWriter) (frames : List QueuedFrame) (w' : BoundedSseWriter)
    (handed : List QueuedFrame) : Prop where
  budget : w'.budget = w.budget
  queue : w'.closed = true ∧ w'.queue = [] ∨
    w'.closed = false ∧ handed ++ w'.queue = frames ∧ (w'.blocked = false → w'.queue = [])
  bytes : w'.queuedBytes = queuedLength w'.queue
  armed : w'.Armed
  within : w'.Within

theorem flushFrom_flushed (answers : ℕ → SinkAnswer) (frames : List QueuedFrame) (i : ℕ) {w : BoundedSseWriter}
    (hqueue : w.queue = frames) (hopen : w.closed = false) (hbytes : w.queuedBytes = queuedLength frames)
    (harmed : w.Armed) (hwithin : w.Within) :
    Flushed w frames (flushFrom answers frames i w).1
      ((flushFrom answers frames i w).2.filterMap SseEffect.frame?) := by
  induction frames generalizing i w with
  | nil =>
    exact ⟨rfl, .inr ⟨hopen, by simp [flushFrom, hqueue], fun _ => hqueue⟩, by simpa [flushFrom, hqueue] using hbytes,
      harmed, hwithin⟩
  | cons next rest ih =>
    unfold flushFrom
    by_cases hblocked : w.blocked = true
    · rw [if_pos (.inr hblocked)]
      exact ⟨rfl, .inr ⟨hopen, by simp [hqueue], fun h => by simp [hblocked] at h⟩, by rw [hbytes, hqueue], harmed, hwithin⟩
    · have hgo : ¬(w.closed = true ∨ w.blocked = true) := by simp [hopen, hblocked]
      rw [if_neg hgo]
      dsimp only
      have hclear : w.blocked = false := by simpa using hblocked
      obtain ⟨hwrote, hframe⟩ := writeNow_wrote (w := { w with queue := rest, queuedBytes := w.queuedBytes - next.length })
        hopen hclear (answers i) next
      generalize writeNow { w with queue := rest, queuedBytes := w.queuedBytes - next.length } (answers i) next =
        written at hwrote hframe
      rw [List.filterMap_append, hframe]
      rcases hwrote.queue with ⟨hclosed, hempty, hzero⟩ | ⟨hstill, hrest, hless⟩
      · rw [flushFrom_closed answers hclosed]
        exact ⟨hwrote.budget, .inl ⟨hclosed, hempty⟩, by rw [hzero, hempty]; rfl, hwrote.armed, hwrote.within⟩
      · have hleft : written.1.queuedBytes = queuedLength rest := by
          rw [hless, hbytes, queuedLength_cons]
          simp
        have hrec := ih (i + 1) hrest hstill hleft hwrote.armed hwrote.within
        refine ⟨hrec.budget.trans hwrote.budget, ?_, hrec.bytes, hrec.armed, hrec.within⟩
        rcases hrec.queue with hclosed | ⟨hopen', hsplit, hend⟩
        · exact .inl hclosed
        · exact .inr ⟨hopen', by simp [hsplit], hend⟩

/-! ## What every call keeps -/

structure Sound (w : BoundedSseWriter) (sent handed : List QueuedFrame) : Prop where
  bytes : w.queuedBytes = queuedLength w.queue
  shut : w.closed = true → w.queue = []
  clear : w.blocked = false → w.queue = []
  armed : w.Armed
  delivered : w.closed = false → keyless handed ++ keyless w.queue = keyless sent
  latest : ∀ key, keyed key w.queue = [] ∨ ∃ frame, keyed key w.queue = [frame] ∧ (keyed key sent).getLast? = some frame

theorem sound_new (maxPendingBytes writableLength : Option Number) : (new maxPendingBytes writableLength).Sound [] [] := by
  constructor <;> simp [new, Armed]

theorem Sound.close (hbytes : w.queuedBytes = 0) (hclosed : w.closed = true) (hqueue : w.queue = []) :
    w.Sound sent handed := by
  constructor <;> simp [Armed, hbytes, hclosed, hqueue]

section

variable (h : w.Sound sent handed)
include h

theorem Sound.writableLength (writableLength : Option Number) : Sound { w with writableLength } sent handed :=
  ⟨h.bytes, h.shut, h.clear, h.armed, h.delivered, h.latest⟩

theorem Sound.ignored (hclosed : w.closed = true) (frame : QueuedFrame) : w.Sound (sent ++ [frame]) handed :=
  .close (by rw [h.bytes, h.shut hclosed]; rfl) hclosed (h.shut hclosed)

theorem Sound.enforce :
    (w.enforceBudget).1.Sound sent (handed ++ (w.enforceBudget).2.filterMap SseEffect.frame?) ∧
      (w.enforceBudget).1.Within ∧ (w.enforceBudget).1.budget = w.budget := by
  rcases enforceBudget_cases w with ⟨henforce, hwithin⟩ | ⟨told, henforce, htold⟩
  · rw [henforce]
    exact ⟨by simpa using h, hwithin, rfl⟩
  · rw [henforce]
    exact ⟨.close rfl rfl rfl, by simp [Within, BoundedSseWriter.close], rfl⟩

theorem Sound.written (hopen : w.closed = false) (hclear : w.blocked = false) (answer : SinkAnswer)
    (frame : QueuedFrame) :
    (w.writeNow answer frame).1.Sound (sent ++ [frame])
        (handed ++ (w.writeNow answer frame).2.filterMap SseEffect.frame?) ∧
      (w.writeNow answer frame).1.Within ∧ (w.writeNow answer frame).1.budget = w.budget := by
  obtain ⟨hwrote, hframe⟩ := writeNow_wrote hopen hclear answer frame
  rw [hframe]
  refine ⟨?_, hwrote.within, hwrote.budget⟩
  have hnone := h.clear hclear
  rcases hwrote.queue with ⟨hclosed, hempty, hzero⟩ | ⟨-, hsame, hbytes⟩
  · exact .close hzero hclosed hempty
  · have hqueue := hsame.trans hnone
    refine ⟨by rw [hbytes, h.bytes, hsame], fun _ => hqueue, fun _ => hqueue, hwrote.armed, fun _ => ?_, fun key => ?_⟩
    · have hbefore := h.delivered hopen
      rw [hnone, keyless_nil, List.append_nil] at hbefore
      rw [hqueue, keyless_append, keyless_append, hbefore, keyless_nil, List.append_nil]
    · exact .inl (by rw [hqueue]; rfl)

theorem Sound.queued (hopen : w.closed = false) (hblocked : w.blocked = true) (frame : QueuedFrame)
    (hkey : ∀ key, frame.coalesceKey = some key → keyed key w.queue = []) :
    Sound { w with queue := w.queue ++ [frame], queuedBytes := w.queuedBytes + frame.length } (sent ++ [frame]) handed where
  bytes := by simp [h.bytes]
  shut := fun hclosed => by simp [hopen] at hclosed
  clear := fun hclear => by simp [hblocked] at hclear
  armed := h.armed
  delivered := fun _ => by
    rw [keyless_append, keyless_append, ← List.append_assoc, h.delivered hopen]
  latest := by
    intro key
    rw [keyed_append, keyed_append]
    by_cases hframe : frame.coalesceKey = some key
    · rw [hkey key hframe, keyed_single hframe]
      exact .inr ⟨frame, by simp⟩
    · rw [keyed_single_ne hframe, List.append_nil, List.append_nil]
      exact h.latest key

theorem Sound.replaced (hopen : w.closed = false) (hblocked : w.blocked = true) {before after : List QueuedFrame}
    {previous frame : QueuedFrame} {key : String} (hqueue : w.queue = before ++ previous :: after)
    (hprevious : previous.coalesceKey = some key) (hframe : frame.coalesceKey = some key) :
    Sound { w with
      queue := before ++ frame :: after
      queuedBytes := w.queuedBytes - previous.length + frame.length
      framesCoalesced := w.framesCoalesced + 1 } (sent ++ [frame]) handed where
  bytes := by
    have hbytes := h.bytes
    rw [hqueue] at hbytes
    simp at hbytes ⊢
    omega
  shut := fun hclosed => by simp [hopen] at hclosed
  clear := fun hclear => by simp [hblocked] at hclear
  armed := h.armed
  delivered := fun _ => by
    have hbefore := h.delivered hopen
    rw [hqueue, List.append_cons, keyless_append, keyless_append, keyless_single_some hprevious, List.append_nil] at hbefore
    rw [List.append_cons, keyless_append, keyless_append, keyless_single_some hframe, keyless_append,
      keyless_single_some hframe, List.append_nil, List.append_nil, hbefore]
  latest := by
    intro other
    have hother := h.latest other
    rw [hqueue, List.append_cons, keyed_append, keyed_append] at hother
    rw [List.append_cons, keyed_append, keyed_append, keyed_append]
    by_cases hsame : key = other
    · subst hsame
      -- the frame that goes was the only one with the key
      rw [keyed_single hprevious] at hother
      have hlone : keyed key before = [] ∧ keyed key after = [] := by
        rcases hother with hnone | ⟨only, hone, -⟩
        · simp at hnone
        · have hcount := congrArg List.length hone
          simp only [List.length_append, List.length_cons, List.length_nil] at hcount
          exact ⟨List.length_eq_zero_iff.mp (by omega), List.length_eq_zero_iff.mp (by omega)⟩
      rw [keyed_single hframe, hlone.1, hlone.2]
      exact .inr ⟨frame, by simp⟩
    · have hne : frame.coalesceKey ≠ some other := by
        rw [hframe]
        simpa using hsame
      have hne' : previous.coalesceKey ≠ some other := by
        rw [hprevious]
        simpa using hsame
      rw [keyed_single_ne hne', List.append_nil] at hother
      rw [keyed_single_ne hne, List.append_nil, List.append_nil]
      exact hother

end

/-! ## Calls and drains -/

section
variable {event data : String} {coalesceKey : Option String} {answer : SinkAnswer}

theorem send_direct (hopen : w.closed = false) (hclear : w.blocked = false) :
    w.send event data coalesceKey answer = w.writeNow answer ⟨sseChunk event data, coalesceKey⟩ := by
  simp [BoundedSseWriter.send, hopen, hclear]

def place (w : BoundedSseWriter) (coalesceKey : Option String) : Option ℕ :=
  if coalesceKey = none then none else w.queue.findIdx? (·.coalesceKey = coalesceKey)

theorem send_join (hopen : w.closed = false) (hblocked : w.blocked = true) (hplace : w.place coalesceKey = none) :
    w.send event data coalesceKey answer = enforceBudget
      { w with
        queue := w.queue ++ [⟨sseChunk event data, coalesceKey⟩]
        queuedBytes := w.queuedBytes + (⟨sseChunk event data, coalesceKey⟩ : QueuedFrame).length } := by
  unfold place at hplace
  simp only [BoundedSseWriter.send, hopen, hblocked, hplace, Bool.false_eq_true, if_false, Bool.not_true]

theorem send_replace (hopen : w.closed = false) (hblocked : w.blocked = true) {before after : List QueuedFrame}
    {previous : QueuedFrame} (hplace : w.place coalesceKey = some before.length)
    (hqueue : w.queue = before ++ previous :: after) :
    w.send event data coalesceKey answer = enforceBudget
      { w with
        queue := before ++ ⟨sseChunk event data, coalesceKey⟩ :: after
        queuedBytes := w.queuedBytes - previous.length + (⟨sseChunk event data, coalesceKey⟩ : QueuedFrame).length
        framesCoalesced := w.framesCoalesced + 1 } := by
  have hset : w.queue.set before.length ⟨sseChunk event data, coalesceKey⟩ =
      before ++ ⟨sseChunk event data, coalesceKey⟩ :: after := by simp [hqueue]
  have hget : (w.queue[before.length]?).elim 0 QueuedFrame.length = previous.length := by simp [hqueue]
  unfold place at hplace
  simp only [BoundedSseWriter.send, hopen, hblocked, hplace, hset, hget, Bool.false_eq_true, if_false, Bool.not_true]

theorem keyed_of_place (hplace : w.place coalesceKey = none) (key : String) (hkey : coalesceKey = some key) :
    keyed key w.queue = [] := by
  subst hkey
  simpa [place, keyed] using hplace

theorem exists_of_place {i : ℕ} (hplace : w.place coalesceKey = some i) : ∃ before previous after key,
    w.queue = before ++ previous :: after ∧ i = before.length ∧ previous.coalesceKey = some key ∧
      coalesceKey = some key := by
  cases coalesceKey with
  | none => simp [place] at hplace
  | some key =>
    simp only [place, reduceCtorEq, if_false] at hplace
    obtain ⟨hlt, hfound, -⟩ := List.findIdx?_eq_some_iff_getElem.mp hplace
    refine ⟨w.queue.take i, w.queue[i], w.queue.drop (i + 1), key, ?_, ?_, by simpa using hfound, rfl⟩
    · rw [List.getElem_cons_drop, List.take_append_drop]
    · rw [List.length_take, Nat.min_eq_left hlt.le]

theorem Sound.send (h : w.Sound sent handed) :
    (w.send event data coalesceKey answer).1.Sound (sent ++ [⟨sseChunk event data, coalesceKey⟩])
        (handed ++ (w.send event data coalesceKey answer).2.filterMap SseEffect.frame?) ∧
      (w.send event data coalesceKey answer).1.Within ∧ (w.send event data coalesceKey answer).1.budget = w.budget := by
  by_cases hclosed : w.closed = true
  · have hsend : w.send event data coalesceKey answer = (w, []) := by simp [BoundedSseWriter.send, hclosed]
    rw [hsend]
    exact ⟨by simpa using h.ignored hclosed _, by simp [Within, hclosed], rfl⟩
  have hopen : w.closed = false := by simpa using hclosed
  by_cases hblocked : w.blocked = true
  · cases hplace : w.place coalesceKey with
    | none =>
      rw [send_join hopen hblocked hplace]
      exact (h.queued hopen hblocked _ (keyed_of_place hplace)).enforce
    | some i =>
      obtain ⟨before, previous, after, key, hqueue, rfl, hprevious, hkey⟩ := exists_of_place hplace
      rw [send_replace hopen hblocked hplace hqueue]
      exact (h.replaced hopen hblocked hqueue hprevious hkey).enforce
  · have hclear : w.blocked = false := by simpa using hblocked
    rw [send_direct hopen hclear]
    exact h.written hopen hclear answer _

end

theorem Sound.flush (h : w.Sound sent handed) (hopen : w.closed = false) (answers : ℕ → SinkAnswer) :
    (flush { w with drainArmed := false, blocked := false } answers).1.Sound sent
        (handed ++ (flush { w with drainArmed := false, blocked := false } answers).2.filterMap SseEffect.frame?) ∧
      (flush { w with drainArmed := false, blocked := false } answers).1.Within ∧
      (flush { w with drainArmed := false, blocked := false } answers).1.budget = w.budget := by
  have hflushed := flushFrom_flushed (w := { w with drainArmed := false, blocked := false }) answers w.queue 0 rfl hopen
    h.bytes (by simp [Armed]) (by simp [Within])
  unfold BoundedSseWriter.flush
  dsimp only at hflushed ⊢
  generalize flushFrom answers w.queue 0 { w with drainArmed := false, blocked := false } = flushed at hflushed
  have hbytes : (if flushed.1.queuedBytes < 0 then 0 else flushed.1.queuedBytes) = flushed.1.queuedBytes := by
    have hnonneg := queuedLength_nonneg flushed.1.queue
    rw [← hflushed.bytes] at hnonneg
    exact if_neg hnonneg.not_gt
  rw [hbytes]
  refine ⟨?_, hflushed.within, hflushed.budget⟩
  rcases hflushed.queue with ⟨hclosed, hempty⟩ | ⟨hstill, hsplit, hend⟩
  · exact .close (by rw [hflushed.bytes, hempty]; rfl) hclosed hempty
  · refine ⟨hflushed.bytes, fun hclosed => by simp [hstill] at hclosed, hend, hflushed.armed, fun _ => ?_, fun key => ?_⟩
    · have hbefore := h.delivered hopen
      rw [← hsplit, keyless_append, ← List.append_assoc] at hbefore
      rw [keyless_append, hbefore]
    · have hlatest := h.latest key
      rw [← hsplit, keyed_append] at hlatest
      rcases hlatest with hnone | ⟨frame, hone, hlast⟩
      · exact .inl (List.append_eq_nil_iff.mp hnone).2
      · rcases List.append_eq_singleton_iff.mp hone with ⟨-, hright⟩ | ⟨-, hright⟩
        · exact .inr ⟨frame, hright, hlast⟩
        · exact .inl hright

theorem Sound.drain (h : w.Sound sent handed) (answers : ℕ → SinkAnswer) :
    (w.onDrain answers).1.Sound sent (handed ++ (w.onDrain answers).2.filterMap SseEffect.frame?) ∧
      (w.onDrain answers).1.Within ∧ (w.onDrain answers).1.budget = w.budget := by
  unfold onDrain
  by_cases harmed : w.drainArmed = true
  · rw [if_pos harmed]
    by_cases hclosed : w.closed = true
    · have hflush : BoundedSseWriter.flush { w with drainArmed := false, blocked := false } answers =
          ({ w with drainArmed := false, blocked := false }, []) := by
        simp [BoundedSseWriter.flush, h.shut hclosed, h.bytes, flushFrom]
      rw [hflush]
      exact ⟨.close (by rw [h.bytes, h.shut hclosed]; rfl) hclosed (h.shut hclosed), by simp [Within], rfl⟩
    · exact h.flush (by simpa using hclosed) answers
  · rw [if_neg harmed]
    refine ⟨by simpa using h, fun hopen hblocked => absurd (h.armed hopen hblocked) harmed, rfl⟩

theorem Sound.step (h : w.Sound sent handed) (event : SseEvent) :
    (w.step event).1.Sound (sent ++ event.frame?.toList) (handed ++ (w.step event).2.filterMap SseEffect.frame?) ∧
      (w.step event).1.Within ∧ (w.step event).1.budget = w.budget := by
  cases event with
  | send event data coalesceKey writableLength answer => exact (h.writableLength writableLength).send
  | drain writableLength answers =>
    have hsent : sent ++ (SseEvent.drain writableLength answers).frame?.toList = sent := List.append_nil sent
    rw [hsent]
    exact (h.writableLength writableLength).drain answers
  | close => exact ⟨.close rfl rfl rfl, by simp [Within, BoundedSseWriter.step, BoundedSseWriter.close], rfl⟩

def sentBy (events : List SseEvent) : List QueuedFrame := events.filterMap SseEvent.frame?

def handedBy (w : BoundedSseWriter) (events : List SseEvent) : List QueuedFrame :=
  (Run.answers BoundedSseWriter.step w events).flatten.filterMap SseEffect.frame?

theorem sound_run (maxPendingBytes writableLength : Option Number) (events : List SseEvent) :
    let start := new maxPendingBytes writableLength
    let w := Run.finish BoundedSseWriter.step start events
    w.Sound (sentBy events) (start.handedBy events) ∧ w.Within ∧ w.budget = budgetOf maxPendingBytes := by
  intro start
  induction events using List.reverseRecOn with
  | nil => exact ⟨sound_new maxPendingBytes writableLength, by simp [Within, start, new], rfl⟩
  | append_singleton events event ih =>
    obtain ⟨hsound, -, hbudget⟩ := ih
    have hsent : sentBy (events ++ [event]) = sentBy events ++ event.frame?.toList := by
      cases hframe : event.frame? <;> simp [sentBy, hframe]
    have hhanded : start.handedBy (events ++ [event]) = start.handedBy events ++
        ((Run.finish BoundedSseWriter.step start events).step event).2.filterMap SseEffect.frame? := by
      simp [handedBy, Run.answers_snoc]
    dsimp only
    rw [Run.finish_append, hsent, hhanded]
    obtain ⟨hsound', hwithin, hsame⟩ := hsound.step event
    exact ⟨hsound', hwithin, hsame.trans hbudget⟩

end BoundedSseWriter

/-- An open writer has handed on every frame without a key, in order, but those it queues; of a key it queues the
latest or none; and its count is exact. -/
theorem sse_delivery (maxPendingBytes writableLength : Option Number) (events : List SseEvent) :
    let start := BoundedSseWriter.new maxPendingBytes writableLength
    let w := Run.finish BoundedSseWriter.step start events
    let sent := BoundedSseWriter.sentBy events
    (w.closed = false → keyless (start.handedBy events) ++ keyless w.queue = keyless sent) ∧
    (∀ key, keyed key w.queue = [] ∨
      ∃ frame, keyed key w.queue = [frame] ∧ (keyed key sent).getLast? = some frame) ∧
    w.queuedBytes = queuedLength w.queue ∧
    (w.closed = false → w.blocked = true → w.pendingBytes ≤ BoundedSseWriter.budgetOf maxPendingBytes) := by
  obtain ⟨hsound, hwithin, hbudget⟩ := BoundedSseWriter.sound_run maxPendingBytes writableLength events
  exact ⟨hsound.delivered, hsound.latest, hsound.bytes, fun hopen hblocked => hbudget ▸ hwithin hopen hblocked⟩

/-- Two snapshots behind a sink that pushed back: the second takes the place of the first. -/
example : (Run.finish BoundedSseWriter.step (.new none none)
    [.send "entry" "1" none none ⟨.backpressure, some (.fin 10)⟩,
     .send "snapshot" "2" (some "snapshot") (some (.fin 10)) ⟨.accepted, none⟩,
     .send "snapshot" "3" (some "snapshot") (some (.fin 10)) ⟨.accepted, none⟩]).framesCoalesced = 1 := by decide +kernel

end BoxEngine
