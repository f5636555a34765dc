import BoxEngine.ProjectorFrames

/-!
# No secret is projected

The writer and the projector both walk a payload to every depth before they let it on. So a document carries no
forbidden key whatever the table held at first, and the table gets none that it did not hold.
-/

namespace BoxEngine

open Js

/-- The key stands somewhere in the value, at any depth. -/
inductive Carries (key : String) : Json → Prop
  | key {fields : List (String × Json)} {child : Json} (h : (key, child) ∈ fields) : Carries key (.obj fields)
  | field {fields : List (String × Json)} {name : String} {child : Json} (h : (name, child) ∈ fields)
      (hchild : Carries key child) : Carries key (.obj fields)
  | item {items : List Json} {child : Json} (h : child ∈ items) (hchild : Carries key child) : Carries key (.arr items)

def Redacted (value : Json) : Prop := ∀ key, Carries key value → forbidden key = false

theorem redacted_arr {items : List Json} : Redacted (.arr items) ↔ ∀ item ∈ items, Redacted item := by
  constructor
  · exact fun h item hitem key hkey => h key (.item hitem hkey)
  · intro h key hkey
    cases hkey with
    | item hitem hchild => exact h _ hitem key hchild

theorem redacted_obj {fields : List (String × Json)} :
    Redacted (.obj fields) ↔ ∀ field ∈ fields, forbidden field.1 = false ∧ Redacted field.2 := by
  constructor
  · exact fun h field hfield => ⟨h _ (.key hfield), fun key hkey => h key (.field hfield hkey)⟩
  · intro h key hkey
    cases hkey with
    | key hfield => exact (h _ hfield).1
    | field hfield hchild => exact (h _ hfield).2 key hchild

mutual

theorem secretField_eq_none (path : String) : ∀ value, secretField path value = none ↔ Redacted value
  | .arr items => by rw [secretField, secretItem_eq_none path 0 items, redacted_arr]
  | .obj fields => by rw [secretField, secretOf_eq_none path fields, redacted_obj]
  | .null | .bool _ | .num _ | .str _ => ⟨fun _ _ hkey => (nomatch hkey), fun _ => rfl⟩

theorem secretItem_eq_none (path : String) (i : ℕ) : ∀ items,
    secretItem path i items = none ↔ ∀ item ∈ items, Redacted item
  | [] => by simp [secretItem]
  | item :: items => by
    rw [secretItem, Option.or_eq_none_iff, secretField_eq_none _ item, secretItem_eq_none path (i + 1) items,
      List.forall_mem_cons]

theorem secretOf_eq_none (path : String) : ∀ fields,
    secretOf path fields = none ↔ ∀ field ∈ fields, forbidden field.1 = false ∧ Redacted field.2
  | [] => by simp [secretOf]
  | (key, child) :: fields => by
    rw [secretOf, List.forall_mem_cons]
    split
    next h => simp [h]
    next h => simp [h, secretField_eq_none _ child, secretOf_eq_none path fields]

end

theorem assertNoSecretFields_eq_none {value : Json} : assertNoSecretFields value = none ↔ Redacted value :=
  secretField_eq_none "$" value

namespace Outbox

variable {ι : Type} [DecidableEq ι] {cfg : ProjectorConfig} {s : Outbox ι} {start : List OutboxRow}

def Admitted (start : List OutboxRow) (payload : Json) : Prop := Redacted payload ∨ ∃ row ∈ start, row.payload = payload

def Checked (p : ProjectorPass) : Prop := p.stage = .writing → ∀ row, p.row? = some row → Redacted row.payload

structure Guards (start : List OutboxRow) (s : Outbox ι) : Prop where
  rows : ∀ row ∈ s.rows, Admitted start row.payload
  txs : ∀ tx ∈ s.txs, Redacted tx.event.payload ∧ ∀ row, tx.state = .inserted row → Redacted row.payload
  passes : ∀ q ∈ s.passes, Checked q.2
  docs : ∀ d ∈ s.docs, Redacted d.doc.data

variable {p : ProjectorPass}

theorem checked_stageOf (h : p.stage = stageOf p.groups) : Checked p := by
  intro hstage row hrow
  have hstart := (stageOf_eq h).1 hstage row hrow
  unfold startOf at hstart
  split at hstart
  · cases hstart
  · split at hstart
    · cases hstart
    next hnone => exact assertNoSecretFields_eq_none.mp hnone

theorem checked_of_ne (h : p.stage ≠ .writing) : Checked p := fun hstage => absurd hstage h

theorem Guards.withPass (h : Guards start s) {i : ι} (hp : Checked p) : Guards start (s.withPass i p) :=
  { h with
    passes := fun q hq => by
      rcases mem_withPass hq with rfl | hq
      · exact hp
      · exact h.passes q hq }

theorem Guards.endPass (h : Guards start s) (i : ι) : Guards start (s.endPass i) :=
  { h with passes := fun q hq => h.passes q (mem_endPass hq).1 }

omit [DecidableEq ι] in
theorem Guards.withTx (h : Guards start s) {j : ℕ} {tx : WriterTx} (hj : s.txs[j]? = some tx) {state : WriterState}
    (hstate : ∀ row, state = .inserted row → Redacted row.payload) : Guards start (s.withTx j tx state) :=
  { h with
    txs := fun tx' htx' => by
      rcases List.mem_or_eq_of_mem_set htx' with hmem | rfl
      · exact h.txs tx' hmem
      · exact ⟨(h.txs tx (List.mem_of_getElem? hj)).1, hstate⟩ }

omit [DecidableEq ι] in
theorem Guards.replaceOne (h : Guards start s) {row : OutboxRow} (hrow : Redacted row.payload) (now : ℚ) :
    ∀ d ∈ replaceOne s.docs row now, Redacted d.doc.data := by
  intro d hd
  rcases mem_replaceOne hd with ⟨-, hdoc⟩ | ⟨hmem, -⟩
  · rw [hdoc]
    exact hrow
  · exact h.docs d hmem

omit [DecidableEq ι] in
theorem Guards.commitTx (h : Guards start s) {j : ℕ} {tx : WriterTx} (hj : s.txs[j]? = some tx) :
    Guards start (s.commitTx j tx) := by
  obtain ⟨hevent, hinserted⟩ := h.txs tx (List.mem_of_getElem? hj)
  have hover : Guards start (s.withTx j tx .ended) := h.withTx hj (by simp)
  refine { hover with rows := ?_ }
  show ∀ row ∈ tx.commit s.rows, Admitted start row.payload
  unfold WriterTx.commit
  split
  next row hstate => exact Run.forall_mem_snoc h.rows (.inl (hinserted row hstate))
  next sequence now _ =>
    simp only [List.forall_mem_map]
    intro row hrow
    split
    · exact .inl hevent
    · exact h.rows row hrow
  next => exact h.rows

theorem Guards.step (h : Guards start s) (e : OutboxStep ι) : Guards start (s.after cfg e) := by
  have hpass : ∀ {i p}, s.pass? i = some p → Checked p := fun hp => h.passes _ (mem_of_pass? hp)
  apply step_cases e h
  case henqueue =>
    intro kind event _
    unfold Outbox.enqueue
    split
    · exact h
    next hnone =>
      exact { h with txs := Run.forall_mem_snoc h.txs ⟨assertNoSecretFields_eq_none.mp hnone, fun _ hstate => nomatch hstate⟩ }
  case hsettle =>
    intro j tx now hj
    have hevent := (h.txs tx (List.mem_of_getElem? hj)).1
    apply settle_cases now h
    case hignored => exact fun _ => h.withTx hj fun _ hstate => nomatch hstate
    case hupdated =>
      intro _ _ _
      have hupdated : Guards start (s.withTx j tx (.updated s.nextval now)) := h.withTx hj (by simp)
      exact { hupdated with }
    case hinserted =>
      intro sequence _ _
      refine h.withTx hj ?_
      rintro row ⟨⟩
      exact hevent
  case hcommitTx => exact fun j tx _ hj => h.commitTx hj
  case hrollBackTx => exact fun j tx hj => h.withTx hj fun _ hstate => nomatch hstate
  case hclaim => exact fun i now _ => claim_cases i now h fun _ => h.withPass (checked_stageOf rfl)
  case hmongo =>
    intro i p now outcome hp
    apply mongo_cases i p now outcome h
    case hwritten =>
      intro row hstage hrow
      exact { h.withPass (checked_of_ne (by simp)) with docs := h.replaceOne (hpass hp hstage row hrow) now }
    case hrejected =>
      rintro row error docs hstage hrow (rfl | rfl)
      · exact h.withPass (checked_of_ne (by simp))
      · exact { h.withPass (checked_of_ne (by simp)) with docs := h.replaceOne (hpass hp hstage row hrow) now }
  case hmark =>
    intro i p now failure _
    apply mark_cases i p now failure h
    case hdone => exact fun _ _ _ _ => h.withPass (checked_stageOf rfl)
    case hfailed => exact fun _ _ => h.withPass (checked_of_ne (by simp [ProjectorPass.failMark]))
  case hrecord =>
    intro i p now fails _
    exact record_cases i p now fails h (fun _ _ _ _ _ => h.withPass (checked_stageOf rfl)) (h.endPass i)
  case hcommit =>
    intro i p fails _
    apply commit_cases i p fails h _ (h.endPass i)
    intro _
    refine { h.endPass i with rows := ?_ }
    rw [Mark.foldl_apply, List.forall_mem_map]
    intro row hrow
    have hset : (Mark.setAll p.marks row).payload = row.payload := by
      refine Mark.setAll_keeps (P := fun row' => row'.payload = row.payload) rfl ?_
      intro mark _ row' hrow'
      cases mark <;> exact hrow'
    rw [hset]
    exact h.rows row hrow
  case hlose =>
    intro i p hp
    have hchecked : Checked p := hpass hp
    exact h.withPass hchecked
  case hcrash =>
    intro i p now landed hp
    apply crash_cases i p now landed _ (h.endPass i)
    exact fun row hstage hrow => { h.endPass i with docs := h.replaceOne (hpass hp hstage row hrow) now }

/-- **No secret is projected**, by any number of processes and from any table: no document carries a forbidden key at
any depth, and no row does whose payload the table did not hold at first. -/
theorem no_secret_projected (cfg : ProjectorConfig) (start : List OutboxRow) (nextval : ℕ) (events : List (OutboxStep ι)) :
    (∀ d ∈ (Run.finish (Outbox.step cfg) ⟨start, nextval, [], [], []⟩ events).docs, Redacted d.doc.data) ∧
      ∀ row ∈ (Run.finish (Outbox.step cfg) (⟨start, nextval, [], [], []⟩ : Outbox ι) events).rows,
        Redacted row.payload ∨ ∃ row' ∈ start, row'.payload = row.payload := by
  have h : Guards start (Run.finish (Outbox.step cfg) (⟨start, nextval, [], [], []⟩ : Outbox ι) events) :=
    Run.invariant (Guards start) (fun _ e h => h.step e)
      ⟨fun row hrow => .inr ⟨row, hrow, rfl⟩, by simp, by simp, by simp⟩
  exact ⟨h.docs, h.rows⟩

end Outbox

end BoxEngine
