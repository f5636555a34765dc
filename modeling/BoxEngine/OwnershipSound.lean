import BoxEngine.EntrySound
import BoxEngine.HandBackSound
import BoxEngine.Lib.Run
import BoxEngine.OwnedExecutions
import Mathlib.Algebra.Order.Group.Multiset

/-!
# One owner for every filled entry

What an entry filled is in exactly one place at a time, unless engine and scanner both act on one failed insert, a
refused insert has nobody to take the fill, or two passes over the payloads overlap.
-/

namespace BoxEngine

open Js BoxScanner

abbrev Share := ℕ × RoleQuantities

def BoxTradePayload.share (payload : BoxTradePayload) : Option Share :=
  payload.entry.map fun no => (no, payload.remainingQtyByRole)

def residualQuantities : List EntryResidual → RoleQuantities := totalOn EntryResidual.role EntryResidual.quantity

def RecordingAttempt.share (attempt : RecordingAttempt) : Share := (attempt.no, residualQuantities attempt.residual)

def RegisteredResidual.share (registered : RegisteredResidual) : Option Share :=
  registered.entry.map fun no => (no, residualQuantities registered.residual)

namespace OwnedExecutions

variable (s : OwnedExecutions)

def shares : List Share :=
  s.positions.byId.filterMap (fun pos => pos.position.share) ++ s.pending.filterMap (fun kept => kept.payload.share) ++
    s.residualByAttempt.filterMap RegisteredResidual.share

def owners (no : ℕ) : List RoleQuantities :=
  (s.shares.filter fun share => share.1 = no).map Prod.snd

/-- Nothing is under way. -/
structure Quiet (s : OwnedExecutions) : Prop where
  openings : s.openings = []
  recordings : s.recordings = []
  passes : s.passes = []

def IdsFresh (mode : ExecutionMode) (id : String) : Prop :=
  (∀ entry ∈ s.entries, entry.preallocatedId mode ≠ some id) ∧ ∀ row ∈ s.store, row.id ≠ id

def Possible (mode : ExecutionMode) (s : OwnedExecutions) : OwnershipEvent → Prop
  | .filled entry _ => ∀ id ∈ entry.preallocatedId mode, s.IdsFresh mode id
  | .inserted _ allocated _ _ => s.IdsFresh mode allocated
  | .drained _ allocated _ => s.IdsFresh mode allocated
  | _ => True

def Insertable (entry : FilledEntry) : Prop :=
  (buildEntryChargeLegs entry.evaluation.candidate entry.evaluation.legs).isSome = true ∧
    singleLotCandidateViolation entry.candidate = none ∧ pricedLegs entry.evaluation = true

def LeavesOne (mode : ExecutionMode) (s : OwnedExecutions) : OwnershipEvent → Prop
  | .filled entry _ =>
    if entry.legging.isSome then
      Insertable entry → mode = .live → (entry.preallocatedId mode).isSome = true
    else Insertable entry
  | .inserted no allocated answer _ =>
    ∀ opening ∈ s.openings, opening.no = no →
      if opening.entry.legging.isSome then
        persistRetryAttempts ≤ opening.attempt →
          (insertBoxTrade s.store opening.payload opening.preallocatedId allocated answer).2 ≠ .error ()
      else (insertBoxTrade s.store opening.payload opening.preallocatedId allocated answer).2 ≠ .ok none
  | .recorded _ _ _ => True
  | .drain => s.pending ≠ [] → s.passes = []
  | .drained n allocated answer =>
    ∀ pass ∈ s.passes[n]?, ∀ kept ∈ (s.arrays pass.array)[pass.index]?,
      (insertBoxTrade s.store kept.payload kept.preallocatedId allocated answer).2 ≠ .ok none

structure Booted (s : OwnedExecutions) : Prop where
  entries : s.entries = []
  quiet : s.Quiet
  pending : s.pending = []
  storeIds : (s.store.map BoxTradeRow.id).Nodup
  rows : ∀ row ∈ s.store, row.payload.entry = none
  booked : ∀ pos ∈ s.positions.byId, ∃ row ∈ s.store, row.id = pos.id ∧ pos.position.entry = none
  residuals : ∀ residual ∈ s.residualByAttempt,
    residual.entry = none ∧ ∃ id ∈ s.attemptRows, residual.id = .stored id

end OwnedExecutions

theorem FilledEntry.payload_share (entry : FilledEntry) (no : ℕ) : (entry.payload no).share = some (no, entry.confirmed) := by
  have hqty : confirmedEntryQty entry.candidate entry.legging = entry.confirmed := by
    funext role
    obtain ⟨hsafe, hpos⟩ := entry.whole role
    cases hlegging : entry.legging with
    | none => simp [confirmedEntryQty, entry.oneLot hlegging role]
    | some record =>
      have hfill := entry.byRole record (by rw [hlegging]; rfl) role
      have hle : Number.fin 0 ≤ entry.confirmed role := Number.le_of_lt hpos
      simp [confirmedEntryQty, hfill, hsafe, hle]
  simp [BoxTradePayload.share, FilledEntry.payload, hqty]

theorem residualQuantities_retained (entry : FilledEntry) {record : PaperLeggingExecutionRecord}
    (hlegging : entry.legging = some record) (now : Number) :
    (record.unrecorded (retainedLegs entry.evaluation (some record) now)).residualExposure ≠ [] ∧
      residualQuantities (record.unrecorded (retainedLegs entry.evaluation (some record) now)).residualExposure =
        entry.confirmed := by
  have hperm := entry.legs record (by rw [hlegging]; rfl)
  have hfilled : (record.legs.filter fun leg => .fin 0 < leg.fillQty) = record.legs := by
    rw [List.filter_eq_self]
    intro leg hleg
    have hmem := hperm.mem_iff.mp (List.mem_map_of_mem hleg)
    obtain ⟨role, -, heq⟩ := List.mem_map.mp hmem
    rw [← (Prod.mk.inj heq).2]
    exact decide_eq_true (entry.whole role).2
  have hne : record.legs ≠ [] := by
    intro hnil
    rw [hnil] at hperm
    simpa [boxLegRoles] using hperm.length_eq
  have hretained : (record.unrecorded (retainedLegs entry.evaluation (some record) now)).residualExposure =
      retainedLegs entry.evaluation (some record) now := by
    rw [PaperLeggingExecutionRecord.unrecorded, if_pos (entry.nothingLeft record (by rw [hlegging]; rfl))]
  have hrows : (retainedLegs entry.evaluation (some record) now).map (fun leg => (leg.role, leg.quantity)) =
      record.legs.map fun leg => (leg.role, leg.fillQty) := by
    simp [retainedLegs, hfilled, hne]
  rw [hretained]
  constructor
  · intro hnil
    rw [hnil] at hrows
    exact hne (List.map_eq_nil_iff.mp hrows.symm)
  · funext role
    have hroles : ((retainedLegs entry.evaluation (some record) now).map EntryResidual.role).Nodup := by
      have hnodup : ((record.legs.map fun leg => (leg.role, leg.fillQty)).map Prod.fst).Nodup := by
        rw [(hperm.map Prod.fst).nodup_iff]
        simp [boxLegRoles]
      rw [← hrows, List.map_map] at hnodup
      exact hnodup
    have hmem : (role, entry.confirmed role) ∈ (retainedLegs entry.evaluation (some record) now).map
        fun leg => (leg.role, leg.quantity) := by
      rw [hrows, hperm.mem_iff]
      exact List.mem_map_of_mem (by cases role <;> simp [boxLegRoles])
    obtain ⟨leg, hleg, heq⟩ := List.mem_map.mp hmem
    obtain ⟨rfl, hqty⟩ := Prod.mk.inj heq
    rw [← hqty]
    exact totalOn_of_mem EntryResidual.role EntryResidual.quantity hroles hleg

/-! ## Everything filled is held somewhere -/

namespace OwnedExecutions

def waiting (s : OwnedExecutions) : List RetainedExecution :=
  match s.passes with
  | [] => s.pending
  | pass :: _ => pass.still ++ (s.arrays pass.array).drop pass.index

def held (s : OwnedExecutions) : Multiset Share :=
  s.openings.filterMap (fun opening => opening.payload.share) + s.recordings.map RecordingAttempt.share +
    s.positions.byId.filterMap (fun pos => pos.position.share) + s.waiting.filterMap (fun kept => kept.payload.share) +
    s.residualByAttempt.filterMap RegisteredResidual.share

def numbered (entries : List FilledEntry) : List Share := entries.zipIdx.map fun numbered => (numbered.2, numbered.1.confirmed)

/-- The shares held and the shares at hand are those of the entries, each once. -/
structure Accounted (mode : ExecutionMode) (s : OwnedExecutions) (hand : Multiset Share) : Prop where
  held : s.held + hand = numbered s.entries
  ids : ∀ (i j : ℕ) (e e' : FilledEntry) (id : String), s.entries[i]? = some e → s.entries[j]? = some e' →
    e.preallocatedId mode = some id → e'.preallocatedId mode = some id → i = j
  keys : (s.entries.map fun entry => entry.candidate.key).Nodup
  taken : ∀ entry ∈ s.entries, s.positions.isTaken entry.candidate.key = true
  storeIds : (s.store.map BoxTradeRow.id).Nodup
  rows : ∀ row ∈ s.store, ∀ no, row.payload.entry = some no →
    ∃ entry : FilledEntry, s.entries[no]? = some entry ∧ row.payload = entry.payload no
  named : ∀ row ∈ s.store, ∀ no entry, s.entries[no]? = some entry → entry.preallocatedId mode = some row.id →
    row.payload.entry = some no
  booked : ∀ pos ∈ s.positions.byId, ∃ row ∈ s.store, row.id = pos.id ∧ row.payload.entry = pos.position.entry
  openings : ∀ opening ∈ s.openings, s.entries[opening.no]? = some opening.entry ∧
    opening.payload = opening.entry.payload opening.no ∧ opening.preallocatedId = opening.entry.preallocatedId mode
  waiting : ∀ kept ∈ s.waiting, ∃ (no : ℕ) (entry : FilledEntry), s.entries[no]? = some entry ∧
    kept.payload = entry.payload no ∧ kept.preallocatedId = entry.preallocatedId mode
  recordings : ∀ attempt ∈ s.recordings, attempt.residual ≠ [] ∧
    ∃ entry : FilledEntry, s.entries[attempt.no]? = some entry ∧ attempt.key = entry.candidate.key
  residuals : ∀ residual ∈ s.residualByAttempt, (∃ id ∈ s.attemptRows, residual.id = .stored id) ∨
    ∃ (no : ℕ) (entry : FilledEntry) (now : Number), residual.entry = some no ∧ s.entries[no]? = some entry ∧
      residual.id = .unstored entry.candidate.key now
  passes : s.passes = [] ∨
    ∃ pass, s.passes = [pass] ∧ pass.array = s.pendingPersists ∧ pass.index ≤ s.pending.length

variable {mode : ExecutionMode} {s : OwnedExecutions} {hand : Multiset Share}

theorem numbered_snoc (entries : List FilledEntry) (entry : FilledEntry) :
    numbered (entries ++ [entry]) = numbered entries ++ [(entries.length, entry.confirmed)] := by
  simp [numbered, List.zipIdx_append]

theorem numbered_keys (entries : List FilledEntry) : (numbered entries).map Prod.fst = List.range entries.length := by
  induction entries using List.reverseRecOn with
  | nil => rfl
  | append_singleton entries entry ih => simp [numbered_snoc, ih, List.range_succ]

variable {no : ℕ} {entry : FilledEntry}

theorem mem_numbered {entries : List FilledEntry} (h : entries[no]? = some entry) :
    (no, entry.confirmed) ∈ numbered entries :=
  List.mem_map.mpr ⟨(entry, no), List.mem_zipIdx_iff_getElem?.mpr h, rfl⟩

theorem numbered_of {entries : List FilledEntry} (h : entries[no]? = some entry) :
    (numbered entries).filter (fun share => share.1 = no) = [(no, entry.confirmed)] := by
  refine Keyed.filter_of_mem (f := Prod.fst) ?_ (mem_numbered h)
  rw [numbered_keys]
  exact List.nodup_range

theorem Accounted.not_held {held : RoleQuantities} (h : Accounted mode s {(no, held)}) {q : RoleQuantities} :
    (no, q) ∉ s.held := by
  intro hmem
  obtain ⟨rest, hrest⟩ := Multiset.exists_cons_of_mem hmem
  have hnodup : (s.held + {(no, held)}).map Prod.fst |>.Nodup := by
    rw [h.held, Multiset.map_coe, Multiset.coe_nodup, numbered_keys]
    exact List.nodup_range
  rw [hrest, Multiset.map_add, Multiset.map_cons, Multiset.cons_add, Multiset.nodup_cons] at hnodup
  exact hnodup.1 (by simp)

/-! ## One hand at a time -/

theorem insertBoxTrade_cases (store : List BoxTradeRow) (payload : BoxTradePayload) (preallocatedId : Option String)
    (allocated : String) (answer : InsertAnswer) :
    ((insertBoxTrade store payload preallocatedId allocated answer).1 = store ∧
      ∀ row, (insertBoxTrade store payload preallocatedId allocated answer).2 = .ok (some row) →
        row ∈ store ∧ preallocatedId = some row.id) ∨
    ((insertBoxTrade store payload preallocatedId allocated answer).1 =
        store ++ [⟨preallocatedId.getD allocated, payload⟩] ∧
      (∀ row ∈ store, row.id ≠ preallocatedId.getD allocated) ∧
      ∀ row, (insertBoxTrade store payload preallocatedId allocated answer).2 = .ok (some row) →
        row = ⟨preallocatedId.getD allocated, payload⟩) := by
  have hfound : ∀ row, (.ok (preallocatedId.bind fun id => store.find? fun other => other.id = id) :
      Except Unit (Option BoxTradeRow)) = .ok (some row) → row ∈ store ∧ preallocatedId = some row.id := by
    intro row hrow
    obtain ⟨id, hid, hfind⟩ := Option.bind_eq_some_iff.mp (Except.ok.inj hrow)
    have hmatch := List.find?_some hfind
    rw [decide_eq_true_eq] at hmatch
    exact ⟨List.mem_of_find?_eq_some hfind, by rw [hid, hmatch]⟩
  cases htaken : store.any fun other => other.id = preallocatedId.getD allocated with
  | true =>
    cases answer with
    | failedBefore => exact .inl ⟨by simp [insertBoxTrade], fun row hrow => by simp [insertBoxTrade] at hrow⟩
    | stored | failedAfter | duplicate =>
      refine .inl ⟨by simp [insertBoxTrade, htaken], fun row hrow => hfound row ?_⟩
      simpa [insertBoxTrade, htaken] using hrow
  | false =>
    have hfresh : ∀ row ∈ store, row.id ≠ preallocatedId.getD allocated := by simpa using htaken
    cases answer with
    | failedBefore => exact .inl ⟨by simp [insertBoxTrade], fun row hrow => by simp [insertBoxTrade] at hrow⟩
    | duplicate =>
      refine .inl ⟨by simp [insertBoxTrade], fun row hrow => hfound row ?_⟩
      simpa [insertBoxTrade] using hrow
    | stored =>
      refine .inr ⟨by simp [insertBoxTrade, htaken], hfresh, fun row hrow => ?_⟩
      simpa [insertBoxTrade, htaken, eq_comm] using hrow
    | failedAfter =>
      exact .inr ⟨by simp [insertBoxTrade, htaken], hfresh, fun row hrow => by simp [insertBoxTrade, htaken] at hrow⟩

theorem Accounted.insert (h : Accounted mode s hand) (hentry : s.entries[no]? = some entry) {allocated : String}
    (hfresh : s.IdsFresh mode allocated) (answer : InsertAnswer) :
    let inserted := insertBoxTrade s.store (entry.payload no) (entry.preallocatedId mode) allocated answer
    Accounted mode { s with store := inserted.1 } hand ∧
      ∀ row, inserted.2 = .ok (some row) → row ∈ inserted.1 ∧ row.payload = entry.payload no := by
  intro inserted
  rcases insertBoxTrade_cases s.store (entry.payload no) (entry.preallocatedId mode) allocated answer with
    ⟨hstore, hrow⟩ | ⟨hstore, hnew, hrow⟩
  · refine ⟨?_, fun row hok => ?_⟩
    · change (insertBoxTrade s.store (entry.payload no) (entry.preallocatedId mode) allocated answer).1 = s.store at hstore
      rw [show inserted.1 = s.store from hstore]
      exact h
    · obtain ⟨hmem, hid⟩ := hrow row hok
      have howner := h.named row hmem no entry hentry hid
      obtain ⟨entry', hentry', hpayload⟩ := h.rows row hmem no howner
      rw [hentry] at hentry'
      cases hentry'
      exact ⟨by rw [show inserted.1 = s.store from hstore]; exact hmem, hpayload⟩
  · have hlast : inserted.1 = s.store ++ [⟨(entry.preallocatedId mode).getD allocated, entry.payload no⟩] := hstore
    refine ⟨?_, fun row hok => ?_⟩
    · rw [hlast]
      refine { h with storeIds := ?_, rows := ?_, named := ?_, booked := ?_ }
      · rw [List.map_append, List.nodup_append]
        refine ⟨h.storeIds, by simp, ?_⟩
        rintro id hid id' hid' rfl
        obtain ⟨row, hmem, rfl⟩ := List.mem_map.mp hid
        exact hnew row hmem (by simpa using hid')
      · intro row hmem no' hno'
        rcases List.mem_append.mp hmem with hmem | hmem
        · exact h.rows row hmem no' hno'
        · rw [List.mem_singleton.mp hmem] at hno' ⊢
          cases hno'
          exact ⟨entry, hentry, rfl⟩
      · intro row hmem no' entry' hentry' hid
        rcases List.mem_append.mp hmem with hmem | hmem
        · exact h.named row hmem no' entry' hentry' hid
        · rw [List.mem_singleton.mp hmem] at hid ⊢
          cases hpre : entry.preallocatedId mode with
          | none =>
            rw [hpre] at hid
            exact absurd hid (hfresh.1 entry' (List.mem_of_getElem? hentry'))
          | some id =>
            rw [hpre] at hid
            rw [h.ids no' no entry' entry id hentry' hentry hid hpre]
            rfl
      · intro pos hpos
        obtain ⟨row, hmem, hrow⟩ := h.booked pos hpos
        exact ⟨row, List.mem_append_left _ hmem, hrow⟩
    · rw [hrow row hok, hlast]
      exact ⟨by simp, rfl⟩

variable {key : String}

theorem isTaken_add {book : PositionBook BoxTradePayload} (h : book.isTaken key = true) (pos : Booked BoxTradePayload) :
    (book.add pos).isTaken key = true := by
  by_cases hkey : key = pos.key
  · simp [PositionBook.isTaken, PositionBook.add, hkey]
  · simpa [PositionBook.isTaken, PositionBook.add, hkey] using h

theorem isTaken_reserve {book reserved : PositionBook BoxTradePayload} (hbook : book.reserve key = some reserved)
    (key' : String) : reserved.isTaken key' = true ↔ key' = key ∨ book.isTaken key' = true := by
  unfold PositionBook.reserve at hbook
  split at hbook
  · cases hbook
  · cases hbook
    simp only [PositionBook.isTaken, Finset.mem_insert, Bool.or_eq_true, decide_eq_true_eq]
    tauto

theorem Accounted.book (h : Accounted mode s {(no, entry.confirmed)}) {row : BoxTradeRow} (hrow : row ∈ s.store)
    (hpayload : row.payload = entry.payload no) :
    Accounted mode { s with positions := s.positions.add ⟨row.id, (entry.payload no).key, entry.payload no⟩ } 0 := by
  have hnew : row.id ∉ s.positions.byId.map Booked.id := by
    intro hmem
    obtain ⟨pos, hpos, hid⟩ := List.mem_map.mp hmem
    obtain ⟨row', hrow', hid', hentry'⟩ := h.booked pos hpos
    have hsame : row' = row := List.inj_on_of_nodup_map h.storeIds hrow' hrow (hid'.trans hid)
    rw [hsame, hpayload] at hentry'
    refine h.not_held (q := pos.position.remainingQtyByRole) ?_
    have hshare : pos.position.share = some (no, pos.position.remainingQtyByRole) := by
      rw [BoxTradePayload.share, ← hentry']
      rfl
    simp only [OwnedExecutions.held, Multiset.mem_add, Multiset.mem_coe]
    exact .inl (.inl (.inr (List.mem_filterMap.mpr ⟨pos, hpos, hshare⟩)))
  have hbook : (s.positions.add ⟨row.id, (entry.payload no).key, entry.payload no⟩).byId =
      s.positions.byId ++ [⟨row.id, (entry.payload no).key, entry.payload no⟩] := by
    rw [PositionBook.add_byId, Keyed.put, if_neg hnew]
  refine { h with held := ?_, taken := fun e he => isTaken_add (h.taken e he) _, booked := ?_ }
  · rw [← h.held]
    simp only [OwnedExecutions.held, OwnedExecutions.waiting, pending, hbook, List.filterMap_append, ← Multiset.coe_add]
    simp only [List.filterMap_cons, entry.payload_share, List.filterMap_nil, Multiset.coe_singleton]
    abel
  · intro pos hpos
    rw [hbook] at hpos
    rcases List.mem_append.mp hpos with hpos | hpos
    · exact h.booked pos hpos
    · rw [List.mem_singleton.mp hpos]
      exact ⟨row, hrow, rfl, by rw [hpayload]⟩

theorem Accounted.handOver (h : Accounted mode s {(no, entry.confirmed)}) (hentry : s.entries[no]? = some entry)
    (hlegging : entry.legging.isSome = true) (now : Number) : Accounted mode (s.retainUnrecorded no entry now) 0 := by
  obtain ⟨record, hrecord⟩ := Option.isSome_iff_exists.mp hlegging
  obtain ⟨hne, hqty⟩ := residualQuantities_retained entry hrecord now
  have hstep : s.retainUnrecorded no entry now = { s with recordings := s.recordings ++ [⟨no, entry.candidate.key,
      (record.unrecorded (retainedLegs entry.evaluation (some record) now)).residualExposure⟩] } := by
    rw [retainUnrecorded, hrecord]
  rw [hstep]
  refine { h with held := ?_, recordings := ?_ }
  · rw [← h.held]
    simp only [OwnedExecutions.held, OwnedExecutions.waiting, pending, List.map_append, ← Multiset.coe_add,
        List.map_cons, List.map_nil,
      RecordingAttempt.share, hqty, Multiset.coe_singleton]
    abel
  · intro attempt hattempt
    rcases List.mem_append.mp hattempt with hattempt | hattempt
    · exact h.recordings attempt hattempt
    · rw [List.mem_singleton.mp hattempt]
      exact ⟨hne, entry, hentry, rfl⟩

theorem isTaken_retain {payload : BoxTradePayload} {preallocatedId : Option String}
    (h : s.positions.isTaken key = true) :
    (s.retainOwnedExecution payload preallocatedId).positions.isTaken key = true := by
  simp only [retainOwnedExecution]
  split
  · exact h
  · cases hreserve : s.positions.reserve payload.key with
    | none => exact h
    | some reserved => exact (isTaken_reserve hreserve key).mpr (.inr h)

theorem retain_byId (s : OwnedExecutions) (payload : BoxTradePayload) (preallocatedId : Option String) :
    (s.retainOwnedExecution payload preallocatedId).positions.byId = s.positions.byId := by
  simp only [retainOwnedExecution]
  split
  · rfl
  · unfold PositionBook.reserve
    split <;> rfl

def OnePass (s : OwnedExecutions) : Prop :=
  s.passes = [] ∨ ∃ pass, s.passes = [pass] ∧ pass.array = s.pendingPersists ∧ pass.index ≤ s.pending.length

theorem waiting_retain {s : OwnedExecutions} (h : s.OnePass) (payload : BoxTradePayload) (preallocatedId : Option String) :
    (s.retainOwnedExecution payload preallocatedId).waiting = s.waiting ++ [⟨payload, preallocatedId⟩] := by
  rcases h with hnone | ⟨pass, hpass, harray, hindex⟩
  · simp [OwnedExecutions.waiting, retainOwnedExecution, hnone, pending]
  · have hlive : s.arrays pass.array = s.pending := by rw [harray, pending]
    have hpush : (s.retainOwnedExecution payload preallocatedId).arrays pass.array = s.pending ++
        [⟨payload, preallocatedId⟩] := by
      simp [retainOwnedExecution, harray]
    have hsame : (s.retainOwnedExecution payload preallocatedId).passes = [pass] := hpass
    simp only [OwnedExecutions.waiting, hsame, hpass, hpush, hlive]
    rw [List.drop_append_of_le_length hindex, List.append_assoc]

theorem OnePass.retain {s : OwnedExecutions} (h : s.OnePass) (payload : BoxTradePayload) (preallocatedId : Option String) :
    (s.retainOwnedExecution payload preallocatedId).OnePass := by
  rcases h with hnone | ⟨pass, hpass, harray, hindex⟩
  · exact .inl hnone
  · refine .inr ⟨pass, hpass, harray, ?_⟩
    simp only [pending, retainOwnedExecution, Function.update_self, List.length_append, List.length_singleton]
    exact Nat.le_succ_of_le hindex

theorem Accounted.retain (h : Accounted mode s {(no, entry.confirmed)}) (hentry : s.entries[no]? = some entry) :
    Accounted mode (s.retainOwnedExecution (entry.payload no) (entry.preallocatedId mode)) 0 := by
  have hwaiting := waiting_retain h.passes (entry.payload no) (entry.preallocatedId mode)
  have hbook := retain_byId s (entry.payload no) (entry.preallocatedId mode)
  refine { h with held := ?_, taken := fun e he => isTaken_retain (h.taken e he), booked := ?_, waiting := ?_, passes := ?_ }
  · change (s.retainOwnedExecution (entry.payload no) (entry.preallocatedId mode)).held + 0 = numbered s.entries
    rw [← h.held]
    simp only [OwnedExecutions.held, hwaiting, hbook, List.filterMap_append, ← Multiset.coe_add, List.filterMap_cons,
      entry.payload_share, List.filterMap_nil, Multiset.coe_singleton]
    simp only [retainOwnedExecution]
    abel
  · intro pos hpos
    rw [hbook] at hpos
    exact h.booked pos hpos
  · intro kept hkept
    rw [hwaiting] at hkept
    rcases List.mem_append.mp hkept with hkept | hkept
    · exact h.waiting kept hkept
    · rw [List.mem_singleton.mp hkept]
      exact ⟨no, entry, hentry, rfl, rfl⟩
  · exact OnePass.retain h.passes _ _

variable {openings : List OpeningTrade}

theorem Accounted.open {opening : OpeningTrade} (h : Accounted mode s {(opening.no, opening.entry.confirmed)})
    (hentry : s.entries[opening.no]? = some opening.entry) (hpayload : opening.payload = opening.entry.payload opening.no)
    (hid : opening.preallocatedId = opening.entry.preallocatedId mode)
    (hperm : openings.Perm (opening :: s.openings)) : Accounted mode { s with openings } 0 := by
  refine { h with held := ?_, openings := ?_ }
  · have hshares := Multiset.coe_eq_coe.mpr (hperm.filterMap fun opening => opening.payload.share)
    rw [List.filterMap_cons, hpayload, opening.entry.payload_share, ← Multiset.cons_coe, ← Multiset.singleton_add] at hshares
    rw [← h.held]
    simp only [OwnedExecutions.held, OwnedExecutions.waiting, pending, hshares]
    abel
  · intro other hother
    rcases List.mem_cons.mp (hperm.mem_iff.mp hother) with rfl | hother
    · exact ⟨hentry, hpayload, hid⟩
    · exact h.openings other hother

theorem Accounted.takeOpening (h : Accounted mode s 0) {opening : OpeningTrade}
    (hperm : s.openings.Perm (opening :: openings)) :
    Accounted mode { s with openings } {(opening.no, opening.entry.confirmed)} := by
  obtain ⟨-, hpayload, -⟩ := h.openings opening (hperm.mem_iff.mpr (.head _))
  refine { h with held := ?_, openings := fun other hother => h.openings other (hperm.mem_iff.mpr (.tail _ hother)) }
  have hshares := Multiset.coe_eq_coe.mpr (hperm.filterMap fun opening => opening.payload.share)
  rw [List.filterMap_cons, hpayload, opening.entry.payload_share, ← Multiset.cons_coe, ← Multiset.singleton_add] at hshares
  rw [← h.held]
  simp only [OwnedExecutions.held, OwnedExecutions.waiting, pending, hshares]
  abel

/-! ## One step at a time -/

theorem Accounted.confirm (h : Accounted mode s 0) (hfresh : ∀ id ∈ entry.preallocatedId mode, s.IdsFresh mode id)
    {positions : PositionBook BoxTradePayload} (hreserve : s.positions.reserve entry.candidate.key = some positions) :
    Accounted mode { s with entries := s.entries ++ [entry], positions } {(s.entries.length, entry.confirmed)} := by
  have hold : ∀ {no : ℕ} {e : FilledEntry}, s.entries[no]? = some e → (s.entries ++ [entry])[no]? = some e :=
    fun he => Run.getElem?_snoc.mpr (.inl he)
  have htaken := isTaken_reserve hreserve
  have hfree : s.positions.isTaken entry.candidate.key = false := by
    by_contra htaken
    rw [Bool.not_eq_false] at htaken
    simp [PositionBook.reserve, htaken] at hreserve
  -- a reservation takes the key and books nothing
  have hbook : positions.byId = s.positions.byId := by
    unfold PositionBook.reserve at hreserve
    split at hreserve <;> cases hreserve
    rfl
  constructor
  case held =>
    rw [numbered_snoc, ← Multiset.coe_add, ← h.held]
    simp only [OwnedExecutions.held, OwnedExecutions.waiting, pending, hbook, Multiset.coe_singleton]
    abel
  case ids =>
    intro i j e e' id hi hj hid hid'
    rcases Run.getElem?_snoc.mp hi with hi | ⟨rfl, rfl⟩ <;> rcases Run.getElem?_snoc.mp hj with hj | ⟨rfl, rfl⟩
    · exact h.ids i j e e' id hi hj hid hid'
    · exact absurd hid ((hfresh id hid').1 e (List.mem_of_getElem? hi))
    · exact absurd hid' ((hfresh id hid).1 e' (List.mem_of_getElem? hj))
    · rfl
  case keys =>
    rw [List.map_append, List.nodup_append]
    refine ⟨h.keys, by simp, ?_⟩
    rintro key hkey key' hkey' rfl
    obtain ⟨e, he, rfl⟩ := List.mem_map.mp hkey
    have hsame : e.candidate.key = entry.candidate.key := by simpa using hkey'
    rw [← hsame, h.taken e he] at hfree
    cases hfree
  case taken =>
    intro e he
    rcases List.mem_append.mp he with he | he
    · exact (htaken _).mpr (.inr (h.taken e he))
    · exact (htaken _).mpr (.inl (by rw [List.mem_singleton.mp he]))
  case storeIds => exact h.storeIds
  case rows =>
    intro row hrow no hno
    obtain ⟨e, he, hpayload⟩ := h.rows row hrow no hno
    exact ⟨e, hold he, hpayload⟩
  case named =>
    intro row hrow no e he hid
    rcases Run.getElem?_snoc.mp he with he | ⟨rfl, rfl⟩
    · exact h.named row hrow no e he hid
    · exact absurd rfl ((hfresh _ hid).2 row hrow)
  case booked =>
    intro pos hpos
    rw [hbook] at hpos
    exact h.booked pos hpos
  case openings =>
    intro opening hopening
    obtain ⟨he, hrest⟩ := h.openings opening hopening
    exact ⟨hold he, hrest⟩
  case waiting =>
    intro kept hkept
    obtain ⟨no, e, he, hrest⟩ := h.waiting kept hkept
    exact ⟨no, e, hold he, hrest⟩
  case recordings =>
    intro attempt hattempt
    obtain ⟨hne, e, he, hkey⟩ := h.recordings attempt hattempt
    exact ⟨hne, e, hold he, hkey⟩
  case residuals =>
    intro residual hresidual
    refine (h.residuals residual hresidual).imp_right ?_
    rintro ⟨no, e, now, hno, he, hid⟩
    exact ⟨no, e, now, hno, hold he, hid⟩
  case passes => exact h.passes

theorem Accounted.fill (h : Accounted mode s 0) (entry : FilledEntry) (now : Number)
    (hpossible : s.Possible mode (.filled entry now)) (hleaves : s.LeavesOne mode (.filled entry now)) :
    Accounted mode (s.fill mode entry now) 0 := by
  unfold OwnedExecutions.fill
  cases hreserve : s.positions.reserve entry.candidate.key with
  | none => exact h
  | some positions =>
    have hhand := h.confirm hpossible hreserve
    have hentry : (s.entries ++ [entry])[s.entries.length]? = some entry := Run.getElem?_snoc.mpr (.inr ⟨rfl, rfl⟩)
    have hrefused : ¬ Insertable entry → Accounted mode (OwnedExecutions.retainUnrecorded
        { s with entries := s.entries ++ [entry], positions } s.entries.length entry now) 0 := by
      intro hnot
      refine hhand.handOver hentry ?_ now
      by_contra hnone
      simp only [LeavesOne, hnone] at hleaves
      exact hnot hleaves
    simp only [finalizeOpen]
    split
    · rename_i hbuild
      refine hrefused fun hinsertable => ?_
      have hsome := hinsertable.1
      simp [hbuild] at hsome
    · rename_i legs hbuild
      unfold openPaperTrade
      split
      · rename_i hguard
        refine hrefused fun hinsertable => ?_
        rcases hguard with hguard | hguard
        · simp [hinsertable.2.1] at hguard
        · simp [hinsertable.2.2] at hguard
      · rename_i hguard
        rw [not_or, Bool.not_eq_true, Option.isSome_eq_false_iff, Option.isNone_iff_eq_none, Bool.not_eq_false] at hguard
        have hinsertable : Insertable entry := ⟨by rw [hbuild]; rfl, hguard.1, hguard.2⟩
        split
        · rename_i hlive
          have hnone : entry.legging.isSome = false := by
            by_contra hsome
            simp only [LeavesOne, Bool.not_eq_false] at hleaves hsome
            rw [if_pos hsome] at hleaves
            have hid := hleaves hinsertable hlive.1
            simp [hlive.2] at hid
          have hretained := hhand.retain hentry
          rw [hlive.2] at hretained
          rw [Option.isSome_eq_false_iff, Option.isNone_iff_eq_none] at hnone
          simpa only [retainUnrecorded, hnone] using hretained
        · exact hhand.open hentry rfl rfl (List.perm_append_singleton _ _)

theorem Accounted.inserted (h : Accounted mode s 0) (no : ℕ) (allocated : String) (answer : InsertAnswer) (now : Number)
    (hpossible : s.Possible mode (.inserted no allocated answer now))
    (hleaves : s.LeavesOne mode (.inserted no allocated answer now)) :
    Accounted mode (s.inserted no allocated answer now) 0 := by
  unfold OwnedExecutions.inserted
  cases htake : Keyed.take? OpeningTrade.no no s.openings with
  | none => exact h
  | some found =>
    obtain ⟨opening, openings⟩ := found
    have hperm := Keyed.take?_perm htake
    have hmem : opening ∈ s.openings := hperm.mem_iff.mpr (.head _)
    obtain ⟨hentry, hpayload, hid⟩ := h.openings opening hmem
    have hallowed := hleaves opening hmem (Keyed.take?_key htake)
    rw [hpayload, hid] at hallowed
    have hfresh : OwnedExecutions.IdsFresh { s with openings } mode allocated := hpossible
    obtain ⟨hstored, hrow⟩ := (h.takeOpening hperm).insert hentry hfresh answer
    simp only [hpayload, hid]
    cases hresult : (insertBoxTrade s.store (opening.entry.payload opening.no) (opening.entry.preallocatedId mode) allocated
        answer).2 with
    | error _ =>
      simp only
      split
      · let retried : OpeningTrade := ⟨opening.no, opening.entry, opening.entry.payload opening.no,
          opening.entry.preallocatedId mode, opening.attempt + 1⟩
        have hopen : ∀ t : OwnedExecutions, Accounted mode t {(retried.no, retried.entry.confirmed)} →
            t.entries[retried.no]? = some retried.entry → Accounted mode { t with openings := retried :: t.openings } 0 :=
          fun t ht he => ht.open he rfl rfl (List.Perm.refl _)
        exact hopen _ hstored hentry
      · rename_i hlast
        have hnone : opening.entry.legging.isSome = false := by
          by_contra hsome
          rw [Bool.not_eq_false] at hsome
          rw [if_pos hsome] at hallowed
          exact hallowed (not_lt.mp hlast) hresult
        have hretained := hstored.retain hentry
        rw [Option.isSome_eq_false_iff, Option.isNone_iff_eq_none] at hnone
        simpa only [retainUnrecorded, hnone] using hretained
    | ok row =>
      cases row with
      | none =>
        simp only
        refine hstored.handOver hentry ?_ now
        by_contra hnone
        rw [if_neg hnone, hresult] at hallowed
        exact hallowed rfl
      | some row =>
        obtain ⟨hmem, hsame⟩ := hrow row hresult
        exact hstored.book hmem hsame

theorem Accounted.same_key (h : Accounted mode s hand) {i j : ℕ} {e e' : FilledEntry} (hi : s.entries[i]? = some e)
    (hj : s.entries[j]? = some e') (hkey : e.candidate.key = e'.candidate.key) : i = j := by
  have hi' : (s.entries.map fun entry => entry.candidate.key)[i]? = some e.candidate.key := by simp [hi]
  have hj' : (s.entries.map fun entry => entry.candidate.key)[j]? = some e.candidate.key := by simp [hj, hkey]
  have hlt : i < (s.entries.map fun entry => entry.candidate.key).length := (List.getElem?_eq_some_iff.mp hi').1
  exact (List.getElem?_inj hlt h.keys).mp (hi'.trans hj'.symm)

theorem Accounted.takeRecording (h : Accounted mode s 0) {attempt : RecordingAttempt} {recordings : List RecordingAttempt}
    (hperm : s.recordings.Perm (attempt :: recordings)) (stored : List String) :
    Accounted mode { s with recordings, attemptRows := s.attemptRows ++ stored } {attempt.share} := by
  refine { h with held := ?_, recordings := ?_, residuals := ?_ }
  · have hshares := Multiset.coe_eq_coe.mpr (hperm.map RecordingAttempt.share)
    rw [List.map_cons, ← Multiset.cons_coe, ← Multiset.singleton_add] at hshares
    rw [← h.held]
    simp only [OwnedExecutions.held, OwnedExecutions.waiting, pending, hshares]
    abel
  · exact fun other hother => h.recordings other (hperm.mem_iff.mpr (.tail _ hother))
  · intro residual hresidual
    refine (h.residuals residual hresidual).imp_left ?_
    rintro ⟨id, hid, heq⟩
    exact ⟨id, List.mem_append_left _ hid, heq⟩

theorem Accounted.register {attempt : RecordingAttempt} (h : Accounted mode s {attempt.share}) {id : AttemptId}
    (hnew : ∀ residual ∈ s.residualByAttempt, residual.id ≠ id)
    (hid : (∃ stored ∈ s.attemptRows, id = .stored stored) ∨
      ∃ (entry : FilledEntry) (now : Number), s.entries[attempt.no]? = some entry ∧ id = .unstored entry.candidate.key now) :
    Accounted mode { s with
      residualByAttempt := Keyed.put RegisteredResidual.id s.residualByAttempt ⟨id, some attempt.no, attempt.residual⟩ } 0 := by
  have hput : Keyed.put RegisteredResidual.id s.residualByAttempt ⟨id, some attempt.no, attempt.residual⟩ =
      s.residualByAttempt ++ [⟨id, some attempt.no, attempt.residual⟩] := by
    rw [Keyed.put, if_neg]
    intro hmem
    obtain ⟨residual, hresidual, heq⟩ := List.mem_map.mp hmem
    exact hnew residual hresidual heq
  rw [hput]
  refine { h with held := ?_, residuals := ?_ }
  · rw [← h.held]
    simp only [OwnedExecutions.held, OwnedExecutions.waiting, pending, List.filterMap_append, ← Multiset.coe_add,
      List.filterMap_cons, RegisteredResidual.share, RecordingAttempt.share, Option.map_some, List.filterMap_nil,
      Multiset.coe_singleton]
    abel
  · intro residual hresidual
    rcases List.mem_append.mp hresidual with hresidual | hresidual
    · exact h.residuals residual hresidual
    · rw [List.mem_singleton.mp hresidual]
      refine hid.imp_right ?_
      rintro ⟨entry, now, hentry, heq⟩
      exact ⟨attempt.no, entry, now, rfl, hentry, heq⟩

theorem Accounted.recorded (h : Accounted mode s 0) (no : ℕ) (attemptId : Option String) (now : Number) :
    Accounted mode (s.recorded no attemptId now) 0 := by
  unfold OwnedExecutions.recorded
  cases htake : Keyed.take? RecordingAttempt.no no s.recordings with
  | none => exact h
  | some found =>
    obtain ⟨attempt, recordings⟩ := found
    have hperm := Keyed.take?_perm htake
    obtain ⟨hne, entry, hentry, hkey⟩ := h.recordings attempt (hperm.mem_iff.mpr (.head _))
    have hhand := h.takeRecording hperm (attemptId.filter fun id => id ∉ s.attemptRows).toList
    simp only [if_neg hne]
    cases hstored : attemptId.filter fun id => id ∉ s.attemptRows with
    | none =>
      rw [hstored] at hhand
      refine hhand.register ?_ (.inr ⟨entry, now, hentry, by rw [hkey]; rfl⟩)
      intro residual hresidual heq
      rcases h.residuals residual hresidual with ⟨id, -, hid⟩ | ⟨no', entry', now', hno', hentry', hid⟩
      · cases hid.symm.trans heq
      · have hkeys : entry'.candidate.key = entry.candidate.key := by
          rw [← hkey]
          exact (AttemptId.unstored.inj (hid.symm.trans heq)).1
        have hsame := h.same_key hentry' hentry hkeys
        refine hhand.not_held (q := residualQuantities residual.residual) ?_
        have hshare : residual.share = some (attempt.no, residualQuantities residual.residual) := by
          rw [RegisteredResidual.share, hno', hsame]
          rfl
        simp only [OwnedExecutions.held, Multiset.mem_add, Multiset.mem_coe]
        exact .inr (List.mem_filterMap.mpr ⟨residual, hresidual, hshare⟩)
    | some id =>
      rw [hstored] at hhand
      refine hhand.register ?_ (.inl ⟨id, by simp, rfl⟩)
      have hfresh : id ∉ s.attemptRows := by
        have hmatch := (Option.filter_eq_some_iff.mp hstored).2
        simpa using hmatch
      intro residual hresidual heq
      rcases h.residuals residual hresidual with ⟨id', hid', hstored'⟩ | ⟨no', entry', now', -, -, hid⟩
      · rw [← AttemptId.stored.inj (hstored'.symm.trans heq)] at hfresh
        exact hfresh hid'
      · cases hid.symm.trans heq

theorem Accounted.drain (h : Accounted mode s 0) (hleaves : s.LeavesOne mode .drain) : Accounted mode s.drain 0 := by
  unfold OwnedExecutions.drain
  split
  · exact h
  · rename_i hpending
    have hnone := hleaves hpending
    have hwaiting : ({ s with passes := s.passes ++ [⟨s.pendingPersists, 0, []⟩] } : OwnedExecutions).waiting = s.waiting := by
      simp [OwnedExecutions.waiting, hnone, pending]
    refine { h with held := ?_, waiting := ?_, passes := ?_ }
    · rw [← h.held]
      simp only [OwnedExecutions.held, hwaiting]
    · rw [hwaiting]
      exact h.waiting
    · exact .inr ⟨⟨s.pendingPersists, 0, []⟩, by simp [hnone], rfl, Nat.zero_le _⟩

/-! ## A pass over the retained payloads -/

variable {pass : DrainPass}

theorem Accounted.comeTo (h : Accounted mode s 0) (hpass : s.passes = [pass])
    (harray : pass.array = s.pendingPersists) {kept : RetainedExecution} (hkept : s.pending[pass.index]? = some kept) :
    ∃ (no : ℕ) (entry : FilledEntry), s.entries[no]? = some entry ∧ kept.payload = entry.payload no ∧
      kept.preallocatedId = entry.preallocatedId mode ∧
      Accounted mode { s with passes := [{ pass with index := pass.index + 1 }] } {(no, entry.confirmed)} := by
  obtain ⟨hindex, hget⟩ := List.getElem?_eq_some_iff.mp hkept
  have hlive : s.arrays pass.array = s.pending := by rw [harray, pending]
  have hwaiting : s.waiting = pass.still ++ kept :: s.pending.drop (pass.index + 1) := by
    simp only [OwnedExecutions.waiting, hpass, hlive]
    rw [List.drop_eq_getElem_cons hindex, hget]
  obtain ⟨no, entry, hentry, hpayload, hid⟩ := h.waiting kept (by rw [hwaiting]; simp)
  have hrest : ({ s with passes := [{ pass with index := pass.index + 1 }] } : OwnedExecutions).waiting =
      pass.still ++ s.pending.drop (pass.index + 1) := by
    simp only [OwnedExecutions.waiting, hlive]
  refine ⟨no, entry, hentry, hpayload, hid, { h with held := ?_, waiting := ?_, passes := ?_ }⟩
  · rw [← h.held]
    simp only [OwnedExecutions.held, hwaiting, hrest, List.filterMap_append, ← Multiset.coe_add, List.filterMap_cons,
      hpayload, entry.payload_share, ← Multiset.cons_coe, ← Multiset.singleton_add]
    abel
  · intro other hother
    rw [hrest] at hother
    refine h.waiting other ?_
    rw [hwaiting]
    exact (List.mem_append.mp hother).elim (List.mem_append_left _) fun hmem =>
      List.mem_append_right _ (.tail _ hmem)
  · exact .inr ⟨_, rfl, harray, hindex⟩

theorem Accounted.setAside (h : Accounted mode s {(no, entry.confirmed)}) (hpass : s.passes = [pass])
    (hentry : s.entries[no]? = some entry) {kept : RetainedExecution} (hpayload : kept.payload = entry.payload no)
    (hid : kept.preallocatedId = entry.preallocatedId mode) :
    Accounted mode { s with passes := [{ pass with still := pass.still ++ [kept] }] } 0 := by
  have hwaiting : s.waiting = pass.still ++ (s.arrays pass.array).drop pass.index := by
    simp only [OwnedExecutions.waiting, hpass]
  have hperm : (({ s with passes := [{ pass with still := pass.still ++ [kept] }] } : OwnedExecutions).waiting).Perm
      (kept :: s.waiting) := by
    rw [hwaiting]
    simp only [OwnedExecutions.waiting, List.append_assoc, List.singleton_append]
    exact List.perm_middle
  refine { h with held := ?_, waiting := ?_, passes := ?_ }
  · have hshares := Multiset.coe_eq_coe.mpr (hperm.filterMap fun kept => kept.payload.share)
    rw [List.filterMap_cons, hpayload, entry.payload_share, ← Multiset.cons_coe, ← Multiset.singleton_add] at hshares
    rw [← h.held]
    simp only [OwnedExecutions.held, hshares]
    abel
  · intro other hother
    rcases List.mem_cons.mp (hperm.mem_iff.mp hother) with rfl | hother
    · exact ⟨no, entry, hentry, hpayload, hid⟩
    · exact h.waiting other hother
  · rcases h.passes with hnone | ⟨pass', hpass', harray, hindex⟩
    · simp [hpass] at hnone
    · rw [hpass, List.cons.injEq] at hpass'
      rw [← hpass'.1] at harray hindex
      exact .inr ⟨_, rfl, harray, hindex⟩

theorem Accounted.advance {pass pass' : DrainPass} (h : Accounted mode { s with passes := [pass'] } hand)
    (hpass : s.passes = [pass]) : Accounted mode (s.advance 0 pass') hand := by
  unfold OwnedExecutions.advance
  split
  · simpa only [hpass, List.set_cons_zero] using h
  · rename_i hover
    have hwaiting : ({ s with
        passes := s.passes.eraseIdx 0, arrays := Function.update s.arrays s.allocated pass'.still,
        pendingPersists := s.allocated, allocated := s.allocated + 1 } : OwnedExecutions).waiting =
        ({ s with passes := [pass'] } : OwnedExecutions).waiting := by
      simp [OwnedExecutions.waiting, hpass, pending, List.drop_eq_nil_of_le (not_lt.mp hover)]
    refine { h with held := ?_, waiting := ?_, passes := ?_ }
    · rw [← h.held]
      simp only [OwnedExecutions.held, hwaiting]
    · rw [hwaiting]
      exact h.waiting
    · exact .inl (by simp [hpass])

theorem Accounted.drained (h : Accounted mode s 0) (n : ℕ) (allocated : String) (answer : InsertAnswer)
    (hpossible : s.Possible mode (.drained n allocated answer)) (hleaves : s.LeavesOne mode (.drained n allocated answer)) :
    Accounted mode (s.drained n allocated answer) 0 := by
  unfold OwnedExecutions.drained
  rcases h.passes with hnone | ⟨pass, hpass, harray, -⟩
  · simpa [hnone] using h
  · cases n with
    | succ n => simpa [hpass] using h
    | zero =>
      have hget : s.passes[0]? = some pass := by simp [hpass]
      have hlive : s.arrays pass.array = s.pending := by rw [harray, pending]
      cases hkept : s.pending[pass.index]? with
      | none => simpa [hget, hlive, hkept] using h
      | some kept =>
        obtain ⟨no, entry, hentry, hpayload, hid, hhand⟩ := h.comeTo hpass harray hkept
        have hallowed := hleaves pass hget kept (by rw [hlive, hkept]; rfl)
        have hfresh : OwnedExecutions.IdsFresh { s with passes := [{ pass with index := pass.index + 1 }] } mode allocated :=
          hpossible
        obtain ⟨hstored, hrow⟩ := hhand.insert hentry hfresh answer
        rw [hpayload, hid] at hallowed
        simp only [hget, hlive, hkept, hpayload, hid]
        cases hresult : (insertBoxTrade s.store (entry.payload no) (entry.preallocatedId mode) allocated answer).2 with
        | error _ =>
          have haside := hstored.setAside rfl hentry hpayload hid
          exact Accounted.advance (s := { s with
            store := (insertBoxTrade s.store (entry.payload no) (entry.preallocatedId mode) allocated answer).1 })
            haside hpass
        | ok row =>
          cases row with
          | none => exact absurd hresult hallowed
          | some row =>
            obtain ⟨hmem, hsame⟩ := hrow row hresult
            have hbooked := hstored.book hmem hsame
            simp only [hsame]
            exact Accounted.advance (s := { s with
              store := (insertBoxTrade s.store (entry.payload no) (entry.preallocatedId mode) allocated answer).1
              positions := s.positions.add ⟨row.id, (entry.payload no).key, entry.payload no⟩ }) hbooked hpass

/-! ## Runs -/

theorem Accounted.step (h : Accounted mode s 0) (event : OwnershipEvent) (hpossible : s.Possible mode event)
    (hleaves : s.LeavesOne mode event) : Accounted mode (s.step mode event).1 0 := by
  cases event with
  | filled entry now => exact h.fill entry now hpossible hleaves
  | inserted no allocated answer now => exact h.inserted no allocated answer now hpossible hleaves
  | recorded no attemptId now => exact h.recorded no attemptId now
  | drain => exact h.drain hleaves
  | drained n allocated answer => exact h.drained n allocated answer hpossible hleaves

theorem Booted.accounted (h : s.Booted) : Accounted mode s 0 := by
  have hwaiting : s.waiting = [] := by rw [OwnedExecutions.waiting, h.quiet.passes]; exact h.pending
  have hbook : s.positions.byId.filterMap (fun pos => pos.position.share) = [] := by
    rw [List.filterMap_eq_nil_iff]
    intro pos hpos
    obtain ⟨row, -, -, hentry⟩ := h.booked pos hpos
    rw [BoxTradePayload.share, hentry]
    rfl
  have hresiduals : s.residualByAttempt.filterMap RegisteredResidual.share = [] := by
    rw [List.filterMap_eq_nil_iff]
    intro residual hresidual
    rw [RegisteredResidual.share, (h.residuals residual hresidual).1]
    rfl
  constructor
  case held => simp [OwnedExecutions.held, h.quiet.openings, h.quiet.recordings, hwaiting, hbook, hresiduals, h.entries, numbered]
  case storeIds => exact h.storeIds
  case rows =>
    intro row hrow no hno
    rw [h.rows row hrow] at hno
    cases hno
  case booked =>
    intro pos hpos
    obtain ⟨row, hrow, hid, hentry⟩ := h.booked pos hpos
    exact ⟨row, hrow, hid, by rw [h.rows row hrow, hentry]⟩
  case residuals => exact fun residual hresidual => .inl (h.residuals residual hresidual).2
  case passes => exact .inl h.quiet.passes
  all_goals simp [h.entries, h.quiet.openings, h.quiet.recordings, hwaiting]

theorem Accounted.owners (h : Accounted mode s 0) (hquiet : s.Quiet) (hentry : s.entries[no]? = some entry) :
    s.owners no = [entry.confirmed] := by
  have hshares : (s.shares : Multiset Share) = numbered s.entries := by
    rw [← h.held]
    simp [OwnedExecutions.held, shares, OwnedExecutions.waiting, hquiet.openings, hquiet.recordings, hquiet.passes,
      ← Multiset.coe_add, add_assoc]
  have hperm := ((Multiset.coe_eq_coe.mp hshares).filter fun share => share.1 = no).map Prod.snd
  rw [numbered_of hentry] at hperm
  exact List.perm_singleton.mp hperm

end OwnedExecutions

/-- **Every filled entry has exactly one owner** at rest. -/
theorem one_owner (mode : ExecutionMode) (s : OwnedExecutions) (hs : s.Booted) (events : List OwnershipEvent)
    (h : Run.Guarded (OwnedExecutions.step mode) (fun s event => s.Possible mode event ∧ s.LeavesOne mode event) s events)
    (hquiet : (Run.finish (OwnedExecutions.step mode) s events).Quiet) (no : ℕ) (entry : FilledEntry)
    (hentry : (Run.finish (OwnedExecutions.step mode) s events).entries[no]? = some entry) :
    (Run.finish (OwnedExecutions.step mode) s events).owners no = [entry.confirmed] := by
  have haccounted : OwnedExecutions.Accounted mode (Run.finish (OwnedExecutions.step mode) s events) 0 :=
    h.invariant (fun s => OwnedExecutions.Accounted mode s 0)
      (fun s event hs hevent => hs.step event hevent.1 hevent.2) hs.accounted
  exact haccounted.owners hquiet hentry

/-! ## A fill with two owners -/

def paperEntry : FilledEntry where
  candidate := paperCandidate
  evaluation := paperEvaluation
  legging := some paperLegging
  confirmed _ := .fin 75
  whole _ := ⟨by decide, by decide⟩
  legs record hrecord := by
    rw [← Option.mem_some_iff.mp hrecord]
    exact List.Perm.refl _
  byRole record hrecord role := by
    rw [← Option.mem_some_iff.mp hrecord]
    rfl
  nothingLeft record hrecord := by
    rw [← Option.mem_some_iff.mp hrecord]
    rfl
  oneLot hnone := nomatch hnone

def bootedEngine : OwnedExecutions where
  entries := []
  positions := ⟨[], fun _ => none, ∅⟩
  store := []
  attemptRows := []
  openings := []
  recordings := []
  arrays _ := []
  pendingPersists := 0
  allocated := 1
  passes := []
  residualByAttempt := []

theorem bootedEngine_booted : bootedEngine.Booted := by
  refine ⟨rfl, ⟨rfl, rfl, rfl⟩, rfl, ?_, ?_, ?_, ?_⟩ <;> simp [bootedEngine]

def openedAfterRetry : List OwnershipEvent :=
  [.filled paperEntry (.fin 0), .inserted 0 "t1" .failedBefore (.fin 1), .inserted 0 "t2" .stored (.fin 2)]

theorem one_owner_opened :
    (Run.finish (OwnedExecutions.step .paperLegging) bootedEngine openedAfterRetry).owners 0 = [paperEntry.confirmed] := by
  have hpaper : paperEntry.preallocatedId .paperLegging = none := rfl
  have hfresh : ∀ s : OwnedExecutions, s.entries = [paperEntry] → s.store = [] → ∀ id, s.IdsFresh .paperLegging id := by
    intro s hentries hstore id
    constructor <;> simp [hentries, hstore, hpaper]
  have hearly : ∀ s : OwnedExecutions, (∃ opening, s.openings = [opening] ∧ opening.entry = paperEntry ∧ opening.attempt < 3) →
      ∀ no id answer now, s.LeavesOne .paperLegging (.inserted no id answer now) := by
    rintro s ⟨only, hopenings, hentry, hattempt⟩ no id answer now opening hopening -
    rw [hopenings, List.mem_singleton] at hopening
    have hlegged : paperEntry.legging.isSome = true := rfl
    rw [hopening, hentry, if_pos hlegged]
    exact fun hlast => absurd hlast (not_le.mpr hattempt)
  refine one_owner .paperLegging bootedEngine bootedEngine_booted openedAfterRetry ?_ ⟨rfl, rfl, rfl⟩ 0 paperEntry rfl
  refine ⟨⟨fun id hid => ?_, ?_⟩, ⟨hfresh _ rfl rfl _, hearly _ ⟨_, rfl, rfl, by decide⟩ _ _ _ _⟩,
    ⟨hfresh _ rfl rfl _, hearly _ ⟨_, rfl, rfl, by decide⟩ _ _ _ _⟩, trivial⟩
  · rw [hpaper] at hid
    cases hid
  · exact fun _ hlive => by cases hlive

def lostInserts : List OwnershipEvent :=
  [.filled paperEntry (.fin 0), .inserted 0 "t1" .failedBefore (.fin 1), .inserted 0 "t2" .failedBefore (.fin 2),
    .inserted 0 "t3" .failedBefore (.fin 3), .recorded 0 (some "a1") (.fin 4)]

theorem fill_owned_twice : bootedEngine.Booted ∧
    let s := Run.finish (OwnedExecutions.step .paperLegging) bootedEngine lostInserts
    s.Quiet ∧ s.entries[0]? = some paperEntry ∧ (s.owners 0).length = 2 := by
  refine ⟨bootedEngine_booted, ⟨rfl, rfl, rfl⟩, rfl, rfl⟩

end BoxEngine
