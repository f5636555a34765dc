import BoxEngine.Lib.Keyed
import BoxEngine.Lib.Number
import BoxEngine.Lib.Run
import BoxEngine.Lib.Text
import BoxEngine.Lib.WriteBehind
import Mathlib.Data.List.Sort

/-!
# The operator's blocklist

The book in memory, its table and the calls that change both: memory first, then one statement, a roll-back where it
failed. Each await is a step of its own.
-/

namespace BoxEngine

open Js

/-! ## Requests -/

def MAX_EXCLUDED_UNDERLYINGS : ℕ := 500
def MAX_EXCLUSION_REASON_LENGTH : ℕ := 280
def MAX_SYMBOL_LENGTH : ℕ := 32

structure UnderlyingExclusion where
  symbol : String
  reason : Option String
  excludedBy : Option String
  excludedAt : ℚ
  deriving DecidableEq

/-- A value of a request's body: absent or null, a string, or anything else. -/
inductive RequestValue where
  | absent
  | text (s : String)
  | other

inductive RequestList (α : Type) where
  | absent
  | array (items : List α)
  | other

def RequestList.items {α : Type} : RequestList α → Option (List α)
  | .absent => some []
  | .array items => some items
  | .other => none

def isSymbolChar (c : Char) : Bool :=
  ('A' ≤ c && c ≤ 'Z') || ('0' ≤ c && c ≤ '9') || c = '&' || c = '-' || c = '_'

def unitLength (s : String) : ℕ := (s.toList.map fun c => if 0xFFFF < c.toNat then 2 else 1).sum

section

variable (toUpperCase : String → String)

def normaliseUnderlyingSymbol (raw : String) : Option String :=
  let symbol := toUpperCase (trim raw)
  if unitLength symbol = 0 || MAX_SYMBOL_LENGTH < unitLength symbol then none
  else if symbol.toList.all isSymbolChar then some symbol else none

def validateExclusionInput (symbol reason : RequestValue) : Except String (String × Option String) :=
  let usable :=
    match symbol with
    | .text raw => normaliseUnderlyingSymbol toUpperCase raw
    | _ => none
  match usable with
  | none =>
    .error ("symbol must be an underlying name of 1-" ++ toString MAX_SYMBOL_LENGTH ++
      " characters using A-Z, 0-9, &, - or _ (for example NIFTY, RELIANCE or M&M).")
  | some symbol =>
    match reason with
    | .absent => .ok (symbol, none)
    | .other => .error "reason must be a string when provided."
    | .text raw =>
      let reason := trim raw
      if unitLength reason = 0 then .ok (symbol, none)
      else if MAX_EXCLUSION_REASON_LENGTH < unitLength reason then
        .error ("reason must be at most " ++ toString MAX_EXCLUSION_REASON_LENGTH ++ " characters.")
      else .ok (symbol, some reason)

inductive ExclusionLoadState where
  | neverLoaded
  | loaded
  | failed
  | unpersisted
  deriving DecidableEq

structure UnderlyingExclusionBook where
  entries : List UnderlyingExclusion
  state : ExclusionLoadState
  error : Option String

namespace UnderlyingExclusionBook

def new : UnderlyingExclusionBook := ⟨[], .neverLoaded, none⟩

def loaded (list : List UnderlyingExclusion) : UnderlyingExclusionBook :=
  ⟨list.foldl (Keyed.put UnderlyingExclusion.symbol) [], .loaded, none⟩

variable (b : UnderlyingExclusionBook)

def loadFailed (error : String) : UnderlyingExclusionBook :=
  { b with state := .failed, error := some error }

def unpersisted : UnderlyingExclusionBook := ⟨[], .unpersisted, none⟩

def persistent : Bool := b.state ≠ .unpersisted

def get (underlying : String) : Option UnderlyingExclusion :=
  match normaliseUnderlyingSymbol toUpperCase underlying with
  | none => none
  | some symbol => b.entries.find? fun e => e.symbol = symbol

def list : List UnderlyingExclusion :=
  b.entries.insertionSort fun e e' => e.symbol ≤ e'.symbol

def symbols : List String := b.list.map UnderlyingExclusion.symbol

def set (entry : UnderlyingExclusion) : UnderlyingExclusionBook :=
  { b with entries := Keyed.put UnderlyingExclusion.symbol b.entries entry }

def delete (underlying : String) : UnderlyingExclusionBook :=
  match normaliseUnderlyingSymbol toUpperCase underlying with
  | none => b
  | some symbol => { b with entries := b.entries.filter fun e => ¬e.symbol = symbol }

def wouldExceedCap (symbol : String) : Bool :=
  symbol ∉ b.entries.map UnderlyingExclusion.symbol && MAX_EXCLUDED_UNDERLYINGS ≤ b.entries.length

end UnderlyingExclusionBook

end

inductive ExclusionChange where
  | exclude (entry : UnderlyingExclusion) (before : Option UnderlyingExclusion)
  | include_ (symbol : String) (before : UnderlyingExclusion)
  | bulk (add : List UnderlyingExclusion) (remove : List String) (before : List UnderlyingExclusion)
  deriving DecidableEq

namespace ExclusionChange

def symbols : ExclusionChange → List String
  | exclude entry _ => [entry.symbol]
  | include_ symbol _ => [symbol]
  | bulk add remove _ => add.map UnderlyingExclusion.symbol ++ remove

def excluded : ExclusionChange → List String
  | exclude entry _ => [entry.symbol]
  | include_ _ _ => []
  | bulk add _ _ => add.map UnderlyingExclusion.symbol

variable (toUpperCase : String → String)

def apply (b : UnderlyingExclusionBook) : ExclusionChange → UnderlyingExclusionBook
  | exclude entry _ => b.set entry
  | include_ symbol _ => b.delete toUpperCase symbol
  | bulk add remove _ =>
    remove.foldl (UnderlyingExclusionBook.delete toUpperCase) (add.foldl UnderlyingExclusionBook.set b)

def rollBack (b : UnderlyingExclusionBook) : ExclusionChange → UnderlyingExclusionBook
  | exclude entry none => b.delete toUpperCase entry.symbol
  | exclude _ (some before) => b.set before
  | include_ _ before => b.set before
  | bulk _ _ before => .loaded before

def store (rows : List UnderlyingExclusion) : ExclusionChange → List UnderlyingExclusion
  | exclude entry _ => Keyed.put UnderlyingExclusion.symbol rows entry
  | include_ symbol _ => rows.filter fun row => row.symbol ≠ symbol
  | bulk add remove _ =>
    (add.foldl (Keyed.put UnderlyingExclusion.symbol) rows).filter fun row => row.symbol ∉ remove

def noDatabase : ExclusionChange → String
  | exclude _ _ => "Box persistence is not configured, so an exclusion cannot be saved."
  | include_ _ _ => "Box persistence is not configured, so an exclusion cannot be removed."
  | bulk _ _ _ => "Box persistence is not configured, so exclusions cannot be saved."

def deleted (rows : List UnderlyingExclusion) : ExclusionChange → ℕ
  | exclude _ _ => 0
  | include_ symbol _ => rows.countP fun row => row.symbol = symbol
  | bulk add remove _ => (add.foldl (Keyed.put UnderlyingExclusion.symbol) rows).countP fun row => row.symbol ∈ remove

end ExclusionChange

inductive WriteFate where
  | pending
  | stored (deleted : ℕ)
  | failed (error : String)
  | answered
  deriving DecidableEq

structure ExclusionCall where
  change : ExclusionChange
  fate : WriteFate
  deriving DecidableEq

inductive LoadFate where
  | pending
  | read (rows : List UnderlyingExclusion)
  | failed (error : String)
  | answered

inductive ExclusionAnswer where
  | refused (code : ℕ) (error : String)
  | excluded (entry : UnderlyingExclusion)
  | included (removed : Bool) (symbol : String)
  | applied (added removed : ℕ)
  | none

structure Blocklist where
  dbEnabled : Bool
  book : UnderlyingExclusionBook
  rows : List UnderlyingExclusion
  calls : List ExclusionCall
  loads : List LoadFate
  /-- Whether the last load succeeded, and whether each symbol's last change as made excluded it, for the proofs
  alone. -/
  lastLoad : Option Bool
  verdict : String → Option Bool

inductive BlocklistEvent where
  | exclude (symbol reason : RequestValue) (actor : Option String) (at_ : ℚ)
  | include_ (symbol : RequestValue)
  | bulk (exclude : RequestList (RequestValue × RequestValue)) (include_ : RequestList RequestValue)
      (actor : Option String) (at_ : ℚ)
  | written (call : ℕ)
  | writeFailed (call : ℕ) (error : String)
  | answered (call : ℕ)
  | load (retry : Bool)
  | rowsRead (load : ℕ)
  | readFailed (load : ℕ) (error : String)
  | loadAnswered (load : ℕ)

namespace Blocklist

variable (toUpperCase : String → String)

def new (dbEnabled : Bool) (rows : List UnderlyingExclusion) : Blocklist :=
  { dbEnabled, book := .new, rows, calls := [], loads := [], lastLoad := none, verdict := fun _ => none }

/-! ## What a request asks for -/

variable (s : Blocklist)

def excludeUnderlying (symbol reason : RequestValue) (actor : Option String) (at_ : ℚ) :
    Except ExclusionAnswer ExclusionChange :=
  match validateExclusionInput toUpperCase symbol reason with
  | .error error => .error (.refused 400 error)
  | .ok (symbol, reason) =>
    if !s.book.persistent then
      .error (.refused 503 ("Box persistence is not configured, so an exclusion cannot be saved. It would be lost on " ++
        "the next restart, so it is refused rather than accepted and forgotten."))
    else if s.book.wouldExceedCap symbol then
      .error (.refused 409 ("At most " ++ toString MAX_EXCLUDED_UNDERLYINGS ++ " underlyings may be excluded. " ++
        "A blocklist this large is better expressed as a narrower universe (BOX_MAX_UNDERLYINGS) than as a deny list."))
    else .ok (.exclude ⟨symbol, reason, actor, at_⟩ (s.book.get toUpperCase symbol))

def includeUnderlying (symbol : RequestValue) : Except ExclusionAnswer ExclusionChange :=
  match validateExclusionInput toUpperCase symbol .absent with
  | .error error => .error (.refused 400 error)
  | .ok (symbol, _) =>
    if !s.book.persistent then
      .error (.refused 503 "Box persistence is not configured, so there is no stored blocklist to remove from.")
    else
      match s.book.get toUpperCase symbol with
      | none => .error (.included false symbol)
      | some before => .ok (.include_ symbol before)

def readExclude (actor : Option String) (at_ : ℚ) : List (RequestValue × RequestValue) → List UnderlyingExclusion →
    Except String (List UnderlyingExclusion)
  | [], add => .ok add
  | (symbol, reason) :: raws, add =>
    match validateExclusionInput toUpperCase symbol reason with
    | .error error => .error ("exclude: " ++ error)
    | .ok (symbol, reason) =>
      if symbol ∈ add.map UnderlyingExclusion.symbol then readExclude actor at_ raws add
      else readExclude actor at_ raws (add ++ [⟨symbol, reason, actor, at_⟩])

def readInclude (addSymbols : List String) : List RequestValue → List String → Except String (List String)
  | [], remove => .ok remove
  | symbol :: raws, remove =>
    match validateExclusionInput toUpperCase symbol .absent with
    | .error error => .error ("include: " ++ error)
    | .ok (symbol, _) =>
      if symbol ∈ addSymbols then
        .error (symbol ++ " appears in both exclude and include; the request is ambiguous and was not applied.")
      else if symbol ∈ remove then readInclude addSymbols raws remove
      else readInclude addSymbols raws (remove ++ [symbol])

def resulting (addSymbols remove : List String) : List String :=
  let kept := s.book.symbols.filter fun symbol => symbol ∉ remove
  kept ++ addSymbols.filter fun symbol => symbol ∉ kept

/-- All of a bulk request is read and checked before any of it is applied. -/
def setExcludedUnderlyingsBulk (exclude : RequestList (RequestValue × RequestValue))
    (include_ : RequestList RequestValue) (actor : Option String) (at_ : ℚ) : Except ExclusionAnswer ExclusionChange :=
  if !s.book.persistent then
    .error (.refused 503 ("Box persistence is not configured, so exclusions cannot be saved. They would be lost on the " ++
      "next restart, so the request is refused rather than accepted and forgotten."))
  else
    match exclude.items, include_.items with
    | some rawExclude, some rawInclude =>
      match readExclude toUpperCase actor at_ rawExclude [] with
      | .error error => .error (.refused 400 error)
      | .ok add =>
        match readInclude toUpperCase (add.map UnderlyingExclusion.symbol) rawInclude [] with
        | .error error => .error (.refused 400 error)
        | .ok remove =>
          let size := (s.resulting (add.map UnderlyingExclusion.symbol) remove).length
          if MAX_EXCLUDED_UNDERLYINGS < size then
            .error (.refused 409 ("That would leave " ++ toString size ++ " excluded underlyings, above the limit of " ++
              toString MAX_EXCLUDED_UNDERLYINGS ++ ". A blocklist this large is better expressed as a narrower " ++
              "universe (BOX_MAX_UNDERLYINGS) than as a deny list."))
          else .ok (.bulk add remove s.book.list)
    | _, _ => .error (.refused 400 "exclude and include must each be an array when provided.")

def requested : BlocklistEvent → Except ExclusionAnswer ExclusionChange
  | .exclude symbol reason actor at_ => s.excludeUnderlying toUpperCase symbol reason actor at_
  | .include_ symbol => s.includeUnderlying toUpperCase symbol
  | .bulk exclude include_ actor at_ => s.setExcludedUnderlyingsBulk toUpperCase exclude include_ actor at_
  | _ => .error .none

/-! ## Steps -/

variable (change : ExclusionChange)

def begin_ : Blocklist :=
  { s with book := change.apply toUpperCase s.book, calls := s.calls ++ [⟨change, .pending⟩] }

variable (call : ℕ)

def withFate (c : ExclusionCall) (fate : WriteFate) : Blocklist :=
  { s with calls := s.calls.set call { c with fate } }

def write (c : ExclusionCall) : Blocklist :=
  match c.fate with
  | .pending =>
    if s.dbEnabled then
      { s.withFate call c (.stored (c.change.deleted s.rows)) with rows := c.change.store s.rows }
    else s.withFate call c (.failed c.change.noDatabase)
  | _ => s

def failWrite (c : ExclusionCall) (error : String) : Blocklist :=
  match c.fate with
  | .pending => s.withFate call c (.failed error)
  | _ => s

def successOf (deleted : ℕ) : ExclusionAnswer :=
  match change with
  | .exclude entry _ => .excluded entry
  | .include_ symbol _ => .included (0 < deleted) symbol
  | .bulk add _ _ => .applied add.length deleted

def failureOf (error : String) : ExclusionAnswer :=
  match change with
  | .exclude _ _ => .refused 503 ("Could not save the exclusion: " ++ error)
  | .include_ _ _ => .refused 503 ("Could not remove the exclusion: " ++ error)
  | .bulk _ _ _ => .refused 503 ("Could not save the exclusions: " ++ error)

def answer (c : ExclusionCall) : Blocklist × ExclusionAnswer :=
  match c.fate with
  | .stored deleted =>
    ({ s.withFate call c .answered with
        verdict := fun symbol =>
          if symbol ∈ c.change.symbols then some (decide (symbol ∈ c.change.excluded)) else s.verdict symbol },
      successOf c.change deleted)
  | .failed error =>
    ({ s.withFate call c .answered with book := c.change.rollBack toUpperCase s.book }, failureOf c.change error)
  | _ => (s, .none)

def loadPersistedExclusions (retry : Bool) : Blocklist :=
  if retry && s.book.state ≠ .failed then s
  else if s.dbEnabled then { s with loads := s.loads ++ [.pending] }
  else { s with book := .unpersisted }

def readRows (rows : List UnderlyingExclusion) : List UnderlyingExclusion :=
  rows.filterMap fun row => (normaliseUnderlyingSymbol toUpperCase row.symbol).map fun symbol => { row with symbol }

def withLoad (load : ℕ) (fate : LoadFate) : Blocklist := { s with loads := s.loads.set load fate }

def answerLoad (load : ℕ) : LoadFate → Blocklist
  | .read rows => { s.withLoad load .answered with book := .loaded rows, lastLoad := some true }
  | .failed error => { s.withLoad load .answered with book := s.book.loadFailed error, lastLoad := some false }
  | _ => s

def step : BlocklistEvent → Blocklist × ExclusionAnswer
  | .written call =>
    match s.calls[call]? with
    | none => (s, .none)
    | some c => (s.write call c, .none)
  | .writeFailed call error =>
    match s.calls[call]? with
    | none => (s, .none)
    | some c => (s.failWrite call c error, .none)
  | .answered call =>
    match s.calls[call]? with
    | none => (s, .none)
    | some c => s.answer toUpperCase call c
  | .load retry => (s.loadPersistedExclusions retry, .none)
  | .rowsRead load =>
    match s.loads[load]? with
    | some .pending => (s.withLoad load (.read (readRows toUpperCase s.rows)), .none)
    | _ => (s, .none)
  | .readFailed load error =>
    match s.loads[load]? with
    | some .pending => (s.withLoad load (.failed error), .none)
    | _ => (s, .none)
  | .loadAnswered load =>
    match s.loads[load]? with
    | none => (s, .none)
    | some fate => (s.answerLoad load fate, .none)
  | event =>
    match s.requested toUpperCase event with
    | .error answer => (s, answer)
    | .ok change => (s.begin_ toUpperCase change, .none)

end Blocklist

/-! ## What one change of the blocklist does -/

namespace UnderlyingExclusionBook

variable {toUpperCase : String → String} {b : UnderlyingExclusionBook} {x : String}

def Holds (b : UnderlyingExclusionBook) (x : String) : Prop := x ∈ b.entries.map UnderlyingExclusion.symbol

def Usable (toUpperCase : String → String) (x : String) : Prop := normaliseUnderlyingSymbol toUpperCase x = some x

theorem holds_set (entry : UnderlyingExclusion) : (b.set entry).Holds x ↔ x = entry.symbol ∨ b.Holds x := Keyed.mem_map_put

theorem holds_foldl_set (add : List UnderlyingExclusion) :
    (add.foldl set b).Holds x ↔ x ∈ add.map UnderlyingExclusion.symbol ∨ b.Holds x := by
  induction add generalizing b with
  | nil => simp
  | cons entry add ih =>
    rw [List.foldl_cons, ih, holds_set, List.map_cons, List.mem_cons]
    tauto

variable {symbol : String}

theorem holds_delete (h : Usable toUpperCase symbol) :
    (b.delete toUpperCase symbol).Holds x ↔ x ≠ symbol ∧ b.Holds x := by
  have hsymbol : normaliseUnderlyingSymbol toUpperCase symbol = some symbol := h
  simp only [delete, hsymbol, Holds, List.mem_map, List.mem_filter, decide_eq_true_eq]
  constructor
  · rintro ⟨e, ⟨he, hne⟩, rfl⟩
    exact ⟨hne, e, he, rfl⟩
  · rintro ⟨hne, e, he, rfl⟩
    exact ⟨e, ⟨he, hne⟩, rfl⟩

theorem holds_foldl_delete {remove : List String} (h : ∀ symbol ∈ remove, Usable toUpperCase symbol) :
    (remove.foldl (delete toUpperCase) b).Holds x ↔ x ∉ remove ∧ b.Holds x := by
  induction remove generalizing b with
  | nil => simp
  | cons symbol remove ih =>
    rw [List.foldl_cons, ih fun y hy => h y (.tail _ hy), holds_delete (h symbol (.head _)),
      List.mem_cons]
    tauto

theorem holds_loaded (list : List UnderlyingExclusion) : (loaded list).Holds x ↔ x ∈ list.map UnderlyingExclusion.symbol := by
  unfold loaded Holds
  rw [Keyed.mem_map_foldl_put]
  simp

theorem mem_list : x ∈ b.list.map UnderlyingExclusion.symbol ↔ b.Holds x := by
  unfold list Holds
  simp only [List.mem_map]
  constructor
  · rintro ⟨e, he, rfl⟩
    exact ⟨e, (List.perm_insertionSort _ _).mem_iff.mp he, rfl⟩
  · rintro ⟨e, he, rfl⟩
    exact ⟨e, (List.perm_insertionSort _ _).mem_iff.mpr he, rfl⟩

theorem symbol_of_get (h : Usable toUpperCase symbol) {e : UnderlyingExclusion}
    (he : b.get toUpperCase symbol = some e) : e.symbol = symbol := by
  have hsymbol : normaliseUnderlyingSymbol toUpperCase symbol = some symbol := h
  simp only [get, hsymbol] at he
  simpa using List.find?_some he

theorem get_isSome_iff (h : Usable toUpperCase symbol) : (b.get toUpperCase symbol).isSome ↔ b.Holds symbol := by
  have hsymbol : normaliseUnderlyingSymbol toUpperCase symbol = some symbol := h
  simp only [get, hsymbol, List.find?_isSome, Holds, List.mem_map, decide_eq_true_eq]

end UnderlyingExclusionBook

open UnderlyingExclusionBook

/-! ## One change -/

namespace ExclusionChange

variable {toUpperCase : String → String} {b : UnderlyingExclusionBook} {x : String} {change : ExclusionChange}

/-- What a change makes of a symbol as soon as it begins. -/
def shown (change : ExclusionChange) (x : String) : Option Prop :=
  if x ∈ change.symbols then some (x ∈ change.excluded) else none

/-- What the roll-back makes of a symbol: a bulk change puts the whole earlier book back. -/
def restored (x : String) : ExclusionChange → Option Prop
  | exclude entry before => if x = entry.symbol then some before.isSome else none
  | include_ symbol _ => if x = symbol then some True else none
  | bulk _ _ before => some (x ∈ before.map UnderlyingExclusion.symbol)

theorem shown_eq_none : change.shown x = none ↔ x ∉ change.symbols := by
  by_cases hx : x ∈ change.symbols <;> simp [shown, hx]

theorem overlay_shown (held : String → Prop) :
    WriteBehind.overlay change.shown held x = if x ∈ change.symbols then x ∈ change.excluded else held x := by
  by_cases hx : x ∈ change.symbols <;> simp [WriteBehind.overlay, shown, hx]

theorem restored_eq_none (hx : x ∉ change.symbols) (hbulk : ∀ add remove before, change ≠ bulk add remove before) :
    change.restored x = none := by
  cases change with
  | exclude entry before | include_ symbol before => exact if_neg fun heq => hx (List.mem_singleton.mpr heq)
  | bulk add remove before => exact absurd rfl (hbulk add remove before)

structure WellFormed (toUpperCase : String → String) (change : ExclusionChange) : Prop where
  usable : ∀ x ∈ change.symbols, Usable toUpperCase x
  apart : ∀ add remove before, change = bulk add remove before → ∀ x ∈ add.map UnderlyingExclusion.symbol, x ∉ remove
  ofExclude : ∀ entry before, change = exclude entry (some before) → before.symbol = entry.symbol
  ofInclude : ∀ symbol before, change = include_ symbol before → before.symbol = symbol

section

variable (h : WellFormed toUpperCase change)
include h

theorem holds_apply :
    (change.apply toUpperCase b).Holds x ↔ if x ∈ change.symbols then x ∈ change.excluded else b.Holds x := by
  cases change with
  | exclude entry before =>
    simp only [apply, symbols, excluded, List.mem_singleton, holds_set]
    by_cases hx : x = entry.symbol <;> simp [hx]
  | include_ symbol before =>
    rw [apply, holds_delete (h.usable symbol (List.mem_singleton_self _))]
    by_cases hx : x = symbol <;> simp [symbols, excluded, hx]
  | bulk add remove before =>
    have hremove : ∀ y ∈ remove, Usable toUpperCase y := fun y hy => h.usable y (List.mem_append_right _ hy)
    rw [apply, holds_foldl_delete hremove, holds_foldl_set]
    have hapart := h.apart add remove before rfl x
    by_cases hadd : x ∈ add.map UnderlyingExclusion.symbol
    · simp [symbols, excluded, hadd, hapart hadd]
    · by_cases hmem : x ∈ remove <;> simp [symbols, excluded, hadd, hmem]

theorem holds_rollBack :
    (change.rollBack toUpperCase b).Holds x ↔ WriteBehind.overlay (fun x => change.restored x) b.Holds x := by
  cases change with
  | exclude entry before =>
    cases before with
    | none =>
      rw [rollBack, holds_delete (h.usable _ (List.mem_singleton_self _))]
      by_cases hx : x = entry.symbol <;> simp [WriteBehind.overlay, restored, hx]
    | some before =>
      rw [rollBack, holds_set, h.ofExclude entry before rfl]
      by_cases hx : x = entry.symbol <;> simp [WriteBehind.overlay, restored, hx]
  | include_ symbol before =>
    rw [rollBack, holds_set, h.ofInclude symbol before rfl]
    by_cases hx : x = symbol <;> simp [WriteBehind.overlay, restored, hx]
  | bulk add remove before => exact holds_loaded before

theorem mem_store {rows : List UnderlyingExclusion} :
    x ∈ (change.store rows).map UnderlyingExclusion.symbol ↔
      if x ∈ change.symbols then x ∈ change.excluded else x ∈ rows.map UnderlyingExclusion.symbol := by
  have hfilter : ∀ (p : String → Bool) (l : List UnderlyingExclusion),
      x ∈ (l.filter fun row => p row.symbol).map UnderlyingExclusion.symbol ↔ p x ∧ x ∈ l.map UnderlyingExclusion.symbol := by
    intro p l
    simp only [List.mem_map, List.mem_filter]
    constructor
    · rintro ⟨row, ⟨hrow, hp⟩, rfl⟩
      exact ⟨hp, row, hrow, rfl⟩
    · rintro ⟨hp, row, hrow, rfl⟩
      exact ⟨row, ⟨hrow, hp⟩, rfl⟩
  cases change with
  | exclude entry before =>
    rw [store, Keyed.mem_map_put]
    by_cases hx : x = entry.symbol <;> simp [symbols, excluded, hx]
  | include_ symbol before =>
    rw [store, hfilter fun y => y ≠ symbol]
    by_cases hx : x = symbol <;> simp [symbols, excluded, hx]
  | bulk add remove before =>
    rw [store, hfilter fun y => y ∉ remove, Keyed.mem_map_foldl_put]
    have hapart := h.apart add remove before rfl x
    by_cases hadd : x ∈ add.map UnderlyingExclusion.symbol
    · simp [symbols, excluded, hadd, hapart hadd]
    · by_cases hmem : x ∈ remove <;> simp [symbols, excluded, hadd, hmem]

end

end ExclusionChange

/-! ## What a request gives -/

/-- Upper-casing leaves capital letters, digits and the three signs of a symbol alone. -/
def KeepsSymbols (toUpperCase : String → String) : Prop := ∀ s : String, s.toList.all isSymbolChar → toUpperCase s = s

theorem range_of_isSymbolChar {c : Char} (h : isSymbolChar c = true) : 38 ≤ c.toNat ∧ c.toNat ≤ 95 := by
  simp only [isSymbolChar, Bool.or_eq_true, Bool.and_eq_true, decide_eq_true_eq, Char.le_def, UInt32.le_iff_toNat_le] at h
  rcases h with (((⟨h, h'⟩ | ⟨h, h'⟩) | rfl) | rfl) | rfl
  · exact ⟨Nat.le_trans (by decide) h, Nat.le_trans h' (by decide)⟩
  · exact ⟨Nat.le_trans (by decide) h, Nat.le_trans h' (by decide)⟩
  · decide
  · decide
  · decide

theorem isSpace_of_isSymbolChar {c : Char} (h : isSymbolChar c = true) : isSpace c = false := by
  have hrange := range_of_isSymbolChar h
  simp only [isSpace, Bool.or_eq_false_iff, Bool.and_eq_false_iff, decide_eq_false_iff_not]
  omega

section

variable {toUpperCase : String → String} (hupper : KeepsSymbols toUpperCase)
include hupper

theorem usable_of_normalise {raw symbol : String} (h : normaliseUnderlyingSymbol toUpperCase raw = some symbol) :
    Usable toUpperCase symbol := by
  unfold normaliseUnderlyingSymbol at h
  dsimp only at h
  split at h
  · cases h
  next hlength =>
    split at h
    next hchars =>
      obtain rfl := Option.some_inj.mp h
      have htrim : trim (toUpperCase (trim raw)) = toUpperCase (trim raw) :=
        trim_of_forall fun c hc => isSpace_of_isSymbolChar (List.all_eq_true.mp hchars c hc)
      simp only [Usable, normaliseUnderlyingSymbol, htrim, hupper _ hchars, hlength, hchars, if_true]
      simp
    · cases h

theorem usable_of_validate {symbol reason : RequestValue} {parsed : String} {note : Option String}
    (h : validateExclusionInput toUpperCase symbol reason = .ok (parsed, note)) : Usable toUpperCase parsed := by
  unfold validateExclusionInput at h
  dsimp only at h
  split at h
  · cases h
  next usable husable =>
    have hsymbol : ∃ raw, normaliseUnderlyingSymbol toUpperCase raw = some usable := by
      split at husable
      · exact ⟨_, husable⟩
      · cases husable
    obtain ⟨raw, hraw⟩ := hsymbol
    have hparsed : parsed = usable := by
      split at h
      · cases h; rfl
      · cases h
      · split at h
        · cases h; rfl
        · split at h
          · cases h
          · cases h; rfl
    rw [hparsed]
    exact usable_of_normalise hupper hraw

namespace Blocklist

theorem usable_of_readExclude {actor : Option String} {at_ : ℚ} {raws : List (RequestValue × RequestValue)}
    {add add' : List UnderlyingExclusion} (hadd : ∀ e ∈ add, Usable toUpperCase e.symbol)
    (h : readExclude toUpperCase actor at_ raws add = .ok add') : ∀ e ∈ add', Usable toUpperCase e.symbol := by
  induction raws generalizing add with
  | nil =>
    cases h
    exact hadd
  | cons raw raws ih =>
    unfold readExclude at h
    split at h
    · cases h
    next symbol reason hparsed =>
      have husable : Usable toUpperCase symbol := usable_of_validate hupper hparsed
      split at h
      · exact ih hadd h
      · have hsnoc : ∀ e ∈ add ++ [⟨symbol, reason, actor, at_⟩], Usable toUpperCase e.symbol := by
          apply Run.forall_mem_snoc hadd
          exact husable
        exact ih hsnoc h

theorem usable_of_readInclude {addSymbols : List String} {raws : List RequestValue} {remove remove' : List String}
    (hremove : ∀ x ∈ remove, Usable toUpperCase x ∧ x ∉ addSymbols)
    (h : readInclude toUpperCase addSymbols raws remove = .ok remove') :
    ∀ x ∈ remove', Usable toUpperCase x ∧ x ∉ addSymbols := by
  induction raws generalizing remove with
  | nil =>
    cases h
    exact hremove
  | cons raw raws ih =>
    unfold readInclude at h
    split at h
    · cases h
    next symbol reason hparsed =>
      have husable : Usable toUpperCase symbol := usable_of_validate hupper hparsed
      split at h
      · cases h
      next hfresh =>
        split at h
        · exact ih hremove h
        · exact ih (Run.forall_mem_snoc hremove ⟨husable, hfresh⟩) h

end Blocklist

end

namespace Blocklist

variable {toUpperCase : String → String} {s : Blocklist} {x : String} {change : ExclusionChange}

structure Begun (toUpperCase : String → String) (b : UnderlyingExclusionBook) (change : ExclusionChange) : Prop where
  wellFormed : change.WellFormed toUpperCase
  noted : ∀ x ∈ change.symbols, change.restored x = some (b.Holds x)

section

variable (hupper : KeepsSymbols toUpperCase)
include hupper

theorem begun_exclude {symbol reason : RequestValue} {actor : Option String} {at_ : ℚ}
    (h : s.excludeUnderlying toUpperCase symbol reason actor at_ = .ok change) : Begun toUpperCase s.book change := by
  unfold excludeUnderlying at h
  split at h
  · cases h
  next symbol reason hparsed =>
    have husable : Usable toUpperCase symbol := usable_of_validate hupper hparsed
    split at h
    · cases h
    · split at h
      · cases h
      · cases h
        constructor
        · constructor
          case usable => simpa [ExclusionChange.symbols] using husable
          case apart => rintro _ _ _ ⟨⟩
          case ofInclude => rintro _ _ ⟨⟩
          case ofExclude =>
            intro entry before heq
            cases entry
            injection heq with hentry hbefore
            cases hentry
            exact symbol_of_get husable hbefore
        -- what an undo restores is whether the symbol was held
        · intro x hx
          rw [List.mem_singleton.mp hx, ExclusionChange.restored, if_pos rfl]
          exact congrArg some (propext (get_isSome_iff husable))

theorem begun_include {symbol : RequestValue} (h : s.includeUnderlying toUpperCase symbol = .ok change) :
    Begun toUpperCase s.book change := by
  unfold includeUnderlying at h
  split at h
  · cases h
  next symbol reason hparsed =>
    have husable : Usable toUpperCase symbol := usable_of_validate hupper hparsed
    split at h
    · cases h
    · split at h
      · cases h
      next before hbefore =>
        cases h
        constructor
        · constructor
          case usable => simpa [ExclusionChange.symbols] using husable
          case apart => rintro _ _ _ ⟨⟩
          case ofExclude => rintro _ _ ⟨⟩
          case ofInclude =>
            rintro _ _ ⟨⟩
            exact symbol_of_get husable hbefore
        · intro x hx
          rw [List.mem_singleton.mp hx]
          have hholds := (get_isSome_iff husable).mp (by rw [hbefore]; rfl)
          simp [ExclusionChange.restored, hholds]

theorem begun_bulk {exclude : RequestList (RequestValue × RequestValue)} {include_ : RequestList RequestValue}
    {actor : Option String} {at_ : ℚ}
    (h : s.setExcludedUnderlyingsBulk toUpperCase exclude include_ actor at_ = .ok change) :
    Begun toUpperCase s.book change := by
  unfold setExcludedUnderlyingsBulk at h
  split at h
  · cases h
  · split at h
    next rawExclude rawInclude _ _ =>
      split at h
      · cases h
      next add hadd =>
        split at h
        · cases h
        next remove hremove =>
          dsimp only at h
          split at h
          · cases h
          · cases h
            have hadded := usable_of_readExclude hupper (by simp) hadd
            have hremoved := usable_of_readInclude hupper (by simp) hremove
            constructor
            · constructor
              case ofExclude => rintro _ _ ⟨⟩
              case ofInclude => rintro _ _ ⟨⟩
              case usable =>
                intro x hx
                rcases List.mem_append.mp hx with hx | hx
                · obtain ⟨e, he, rfl⟩ := List.mem_map.mp hx
                  exact hadded e he
                · exact (hremoved x hx).1
              case apart =>
                rintro _ _ _ ⟨⟩ x hx hmem
                exact (hremoved x hmem).2 hx
            · exact fun x _ => congrArg some (propext mem_list.symm).symm
    · cases h

theorem begun_of_requested {event : BlocklistEvent} (h : s.requested toUpperCase event = .ok change) :
    Begun toUpperCase s.book change := by
  cases event with
  | exclude symbol reason actor at_ => exact begun_exclude hupper h
  | include_ symbol => exact begun_include hupper h
  | bulk exclude include_ actor at_ => exact begun_bulk hupper h
  | _ => cases h

end

end Blocklist

end BoxEngine
