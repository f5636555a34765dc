import BoxEngine.OwnershipSound
import BoxEngine.RetainedRetries

/-!
# Retained payloads are kept, and adopted once

While one pass runs at a time a retained payload is to be inserted, set aside, or inserted. Two passes over one array
adopt a payload twice and drop what was retained meanwhile.
-/

namespace BoxEngine

open Js BoxScanner

def ReturnedInsert.no (returned : ReturnedInsert) : Option ℕ := returned.retained.payload.entry

def RetainedExecution.no (retained : RetainedExecution) : Option ℕ := retained.payload.entry

namespace OwnedExecutions

def live (s : OwnedExecutions) : Multiset ℕ := s.openings.map OpeningTrade.no + s.waiting.filterMap RetainedExecution.no

theorem pending_retain (s : OwnedExecutions) (payload : BoxTradePayload) (preallocatedId : Option String) :
    (s.retainOwnedExecution payload preallocatedId).pending = s.pending ++ [⟨payload, preallocatedId⟩] := by
  simp [pending, retainOwnedExecution]

end OwnedExecutions

namespace RetriedExecutions

def numbers (s : RetriedExecutions) : Multiset ℕ := s.engine.live + s.returned.filterMap ReturnedInsert.no

def Kept (s : RetriedExecutions) (kept : RetainedExecution) : Prop :=
  kept ∈ s.engine.waiting ∨ kept ∈ s.returned.map ReturnedInsert.retained

/-- No number and no preallocated id stands for two executions, and each one is where it is looked for. -/
structure Intact (mode : ExecutionMode) (s : RetriedExecutions) (hand : Multiset ℕ) (aside : List RetainedExecution) :
    Prop where
  ids : ∀ (i j : ℕ) (e e' : FilledEntry) (id : String), s.engine.entries[i]? = some e → s.engine.entries[j]? = some e' →
    e.preallocatedId mode = some id → e'.preallocatedId mode = some id → i = j
  numbers : (s.numbers + hand).Nodup
  bounded : ∀ no ∈ s.numbers + hand, no < s.engine.entries.length
  openings : ∀ opening ∈ s.engine.openings, s.engine.entries[opening.no]? = some opening.entry ∧
    opening.payload = opening.entry.payload opening.no ∧ opening.preallocatedId = opening.entry.preallocatedId mode
  waiting : ∀ kept ∈ s.engine.waiting, ∃ (no : ℕ) (entry : FilledEntry), s.engine.entries[no]? = some entry ∧
    kept.payload = entry.payload no ∧ kept.preallocatedId = entry.preallocatedId mode
  absent : ∀ no ∈ s.engine.live + hand, ∀ entry id, s.engine.entries[no]? = some entry →
    entry.preallocatedId mode = some id → id ∉ s.engine.positions.byId.map Booked.id ∧ id ∉ s.closed
  booked : ∀ id ∈ s.engine.positions.byId.map Booked.id, id ∈ s.engine.store.map BoxTradeRow.id
  closed : ∀ id ∈ s.closed, id ∈ s.engine.store.map BoxTradeRow.id
  pass : s.engine.OnePass
  pending : ∀ kept ∈ s.engine.pending, s.Kept kept ∨ kept ∈ aside
  kept : ∀ kept ∈ s.engine.waiting, kept ∈ s.engine.pending
  named : ∀ returned ∈ s.returned, returned.no.isSome = true
  adopted : ∀ returned ∈ s.returned, ∀ adoption ∈ returned.adopted, adoption.replaced = none ∧ adoption.rowOpen = true

variable {mode : ExecutionMode} {s : RetriedExecutions} {hand : Multiset ℕ} {aside : List RetainedExecution}

/-! ## One number at a time -/

variable {no : ℕ} {entry : FilledEntry}

section

variable (h : Intact mode s hand aside)
include h

theorem Intact.insert (hno : no ∈ s.engine.live + hand) (hentry : s.engine.entries[no]? = some entry)
    {allocated : String} (hfresh : s.engine.IdsFresh mode allocated) (answer : InsertAnswer) :
    let inserted := insertBoxTrade s.engine.store (entry.payload no) (entry.preallocatedId mode) allocated answer
    Intact mode { s with engine := { s.engine with store := inserted.1 } } hand aside ∧
      ∀ row, inserted.2 = .ok (some row) → row.id ∈ inserted.1.map BoxTradeRow.id ∧
        row.id ∉ s.engine.positions.byId.map Booked.id ∧ row.id ∉ s.closed ∧
        ∀ no' entry', s.engine.entries[no']? = some entry' → entry'.preallocatedId mode = some row.id → no' = no := by
  intro inserted
  have hgrow : ∀ id ∈ s.engine.store.map BoxTradeRow.id, id ∈ inserted.1.map BoxTradeRow.id := by
    intro id hid
    rcases OwnedExecutions.insertBoxTrade_cases s.engine.store (entry.payload no)
        (entry.preallocatedId mode) allocated answer with
      ⟨hstore, -⟩ | ⟨hstore, -, -⟩
    · simpa only [inserted, hstore] using hid
    · simp only [inserted, hstore, List.map_append]
      exact List.mem_append_left _ hid
  refine ⟨{ h with
    booked := fun id hid => hgrow id (h.booked id hid), closed := fun id hid => hgrow id (h.closed id hid) }, ?_⟩
  intro row hrow
  rcases OwnedExecutions.insertBoxTrade_cases s.engine.store (entry.payload no) (entry.preallocatedId mode) allocated answer with
    ⟨hstore, hfound⟩ | ⟨hstore, hnew, hfound⟩
  · obtain ⟨hmem, hid⟩ := hfound row hrow
    obtain ⟨hbook, hclosed⟩ := h.absent no hno entry row.id hentry hid
    refine ⟨hgrow _ (List.mem_map_of_mem hmem), hbook, hclosed, ?_⟩
    intro no' entry' hentry' hid'
    exact h.ids no' no entry' entry row.id hentry' hentry hid' hid
  · have hid : row.id = (entry.preallocatedId mode).getD allocated := by rw [hfound row hrow]
    have habsent : row.id ∉ s.engine.store.map BoxTradeRow.id := by
      intro hmem
      obtain ⟨other, hother, heq⟩ := List.mem_map.mp hmem
      exact hnew other hother (heq.trans hid)
    refine ⟨?_, fun hmem => habsent (h.booked _ hmem), fun hmem => habsent (h.closed _ hmem), ?_⟩
    · rw [hid]
      simp [inserted, hstore]
    · intro no' entry' hentry' hid'
      cases hpre : entry.preallocatedId mode with
      | none =>
        rw [hid, hpre] at hid'
        exact absurd hid' (hfresh.1 entry' (List.mem_of_getElem? hentry'))
      | some id =>
        rw [hid, hpre] at hid'
        exact h.ids no' no entry' entry id hentry' hentry hid' hpre

theorem Intact.book (pos : Booked BoxTradePayload) (hstored : pos.id ∈ s.engine.store.map BoxTradeRow.id)
    (howner : ∀ no ∈ s.engine.live + hand, ∀ entry, s.engine.entries[no]? = some entry →
      entry.preallocatedId mode ≠ some pos.id) :
    Intact mode { s with engine := { s.engine with positions := s.engine.positions.add pos } } hand aside := by
  have hids : ∀ id ∈ (s.engine.positions.add pos).byId.map Booked.id,
      id = pos.id ∨ id ∈ s.engine.positions.byId.map Booked.id := by
    intro id hid
    obtain ⟨other, hother, rfl⟩ := List.mem_map.mp hid
    rw [PositionBook.add_byId] at hother
    rcases Keyed.mem_put hother with rfl | hother
    · exact .inl rfl
    · exact .inr (List.mem_map_of_mem hother)
  refine { h with absent := ?_, booked := ?_ }
  · intro no hno entry id hentry hid
    obtain ⟨hbook, hclosed⟩ := h.absent no hno entry id hentry hid
    refine ⟨?_, hclosed⟩
    intro hmem
    rcases hids id hmem with rfl | hmem
    · exact howner no hno entry hentry hid
    · exact hbook hmem
  · intro id hid
    rcases hids id hid with rfl | hmem
    · exact hstored
    · exact h.booked id hmem

theorem Intact.letGo : Intact mode s 0 aside := by
  refine { h with numbers := ?_, bounded := ?_, absent := ?_ }
  · rw [add_zero]
    exact (Multiset.nodup_add.mp h.numbers).1
  · intro no hno
    rw [add_zero] at hno
    exact h.bounded no (Multiset.mem_add.mpr (.inl hno))
  · intro no hno
    rw [add_zero] at hno
    exact h.absent no (Multiset.mem_add.mpr (.inl hno))

end

theorem Intact.adopt (h : Intact mode s {no} aside) {pos : Booked BoxTradePayload}
    (hstored : pos.id ∈ s.engine.store.map BoxTradeRow.id)
    (howner : ∀ no' entry, s.engine.entries[no']? = some entry → entry.preallocatedId mode = some pos.id → no' = no) :
    Intact mode { s with engine := { s.engine with positions := s.engine.positions.add pos } } 0 aside := by
  refine h.letGo.book pos hstored ?_
  intro no' hlive entry hentry hid
  rw [howner no' entry hentry hid, add_zero] at hlive
  have hnodup := h.numbers
  rw [RetriedExecutions.numbers, add_comm, Multiset.singleton_add, Multiset.nodup_cons, Multiset.mem_add, not_or] at hnodup
  exact hnodup.1.1 hlive

theorem Intact.retain (h : Intact mode s {no} aside) (hentry : s.engine.entries[no]? = some entry) :
    Intact mode { s with engine := s.engine.retainOwnedExecution (entry.payload no) (entry.preallocatedId mode) } 0 aside := by
  have hwaiting := OwnedExecutions.waiting_retain h.pass (entry.payload no) (entry.preallocatedId mode)
  have hpending := OwnedExecutions.pending_retain s.engine (entry.payload no) (entry.preallocatedId mode)
  have hbook := OwnedExecutions.retain_byId s.engine (entry.payload no) (entry.preallocatedId mode)
  have hlive : (s.engine.retainOwnedExecution (entry.payload no) (entry.preallocatedId mode)).live = s.engine.live + {no} := by
    rw [OwnedExecutions.live, OwnedExecutions.live, hwaiting, List.filterMap_append, ← Multiset.coe_add, ← add_assoc]
    rfl
  have hnumbers : RetriedExecutions.numbers
      { s with engine := s.engine.retainOwnedExecution (entry.payload no) (entry.preallocatedId mode) } + 0 =
      s.numbers + {no} := by
    simp only [RetriedExecutions.numbers, hlive]
    abel
  constructor
  case ids => exact h.ids
  case numbers => exact hnumbers ▸ h.numbers
  case bounded => exact hnumbers ▸ h.bounded
  case openings => exact h.openings
  case waiting =>
    intro kept hkept
    rw [hwaiting] at hkept
    rcases List.mem_append.mp hkept with hkept | hkept
    · exact h.waiting kept hkept
    · rw [List.mem_singleton.mp hkept]
      exact ⟨no, entry, hentry, rfl, rfl⟩
  case absent =>
    intro no' hno' entry' id hentry' hid
    rw [add_zero, hlive] at hno'
    rw [hbook]
    exact h.absent no' hno' entry' id hentry' hid
  case booked =>
    rw [hbook]
    exact h.booked
  case closed => exact h.closed
  case pass => exact h.pass.retain _ _
  case pending =>
    intro kept hkept
    rw [hpending] at hkept
    rcases List.mem_append.mp hkept with hkept | hkept
    · refine (h.pending kept hkept).imp_left fun hkept => hkept.imp_left ?_
      intro hmem
      rw [hwaiting]
      exact List.mem_append_left _ hmem
    · refine .inl (.inl ?_)
      rw [hwaiting]
      exact List.mem_append_right _ hkept
  case kept =>
    intro kept hkept
    rw [hwaiting] at hkept
    rw [hpending]
    rcases List.mem_append.mp hkept with hkept | hkept
    · exact List.mem_append_left _ (h.kept kept hkept)
    · exact List.mem_append_right _ hkept
  case named => exact h.named
  case adopted => exact h.adopted

theorem Intact.recording (h : Intact mode s hand aside) (no : ℕ) (entry : FilledEntry) (now : Number) :
    Intact mode { s with engine := s.engine.retainUnrecorded no entry now } hand aside := by
  unfold OwnedExecutions.retainUnrecorded
  split
  · exact h
  · exact { h with }

variable {openings : List OpeningTrade}

theorem Intact.open {opening : OpeningTrade} (h : Intact mode s {opening.no} aside)
    (hentry : s.engine.entries[opening.no]? = some opening.entry)
    (hpayload : opening.payload = opening.entry.payload opening.no)
    (hid : opening.preallocatedId = opening.entry.preallocatedId mode)
    (hperm : openings.Perm (opening :: s.engine.openings)) :
    Intact mode { s with engine := { s.engine with openings } } 0 aside := by
  have hlive : OwnedExecutions.live { s.engine with openings } = s.engine.live + {opening.no} := by
    have hnos : (openings.map OpeningTrade.no : Multiset ℕ) = opening.no ::ₘ s.engine.openings.map OpeningTrade.no :=
      Multiset.coe_eq_coe.mpr (hperm.map OpeningTrade.no)
    rw [← Multiset.singleton_add] at hnos
    simp only [OwnedExecutions.live, OwnedExecutions.waiting, OwnedExecutions.pending, hnos]
    abel
  have hnumbers : RetriedExecutions.numbers { s with engine := { s.engine with openings } } + 0 = s.numbers + {opening.no} := by
    simp only [RetriedExecutions.numbers, hlive]
    abel
  refine { h with numbers := hnumbers ▸ h.numbers, bounded := hnumbers ▸ h.bounded, openings := ?_, absent := ?_ }
  · intro other hother
    rcases List.mem_cons.mp (hperm.mem_iff.mp hother) with rfl | hother
    · exact ⟨hentry, hpayload, hid⟩
    · exact h.openings other hother
  · rw [hlive, add_zero]
    exact h.absent

theorem Intact.takeOpening (h : Intact mode s 0 aside) {opening : OpeningTrade}
    (hperm : s.engine.openings.Perm (opening :: openings)) :
    Intact mode { s with engine := { s.engine with openings } } {opening.no} aside := by
  have hlive : OwnedExecutions.live { s.engine with openings } + {opening.no} = s.engine.live + 0 := by
    have hnos : (s.engine.openings.map OpeningTrade.no : Multiset ℕ) = opening.no ::ₘ openings.map OpeningTrade.no :=
      Multiset.coe_eq_coe.mpr (hperm.map OpeningTrade.no)
    rw [← Multiset.singleton_add] at hnos
    simp only [OwnedExecutions.live, OwnedExecutions.waiting, OwnedExecutions.pending, hnos]
    abel
  have hnumbers : RetriedExecutions.numbers { s with engine := { s.engine with openings } } + {opening.no} = s.numbers + 0 := by
    simp only [RetriedExecutions.numbers]
    rw [add_right_comm, hlive]
    abel
  refine { h with numbers := hnumbers ▸ h.numbers, bounded := hnumbers ▸ h.bounded, openings := ?_, absent := ?_ }
  · exact fun other hother => h.openings other (hperm.mem_iff.mpr (.tail _ hother))
  · rw [hlive]
    exact h.absent

/-! ## Fills and their inserts -/

theorem Intact.confirm (h : Intact mode s 0 aside)
    (hfresh : ∀ id ∈ entry.preallocatedId mode, s.engine.IdsFresh mode id) {positions : PositionBook BoxTradePayload}
    (hbook : positions.byId = s.engine.positions.byId) :
    Intact mode { s with engine := { s.engine with entries := s.engine.entries ++ [entry], positions } }
      {s.engine.entries.length} aside := by
  have hold : ∀ {no : ℕ} {e : FilledEntry}, s.engine.entries[no]? = some e →
      (s.engine.entries ++ [entry])[no]? = some e := fun he => Run.getElem?_snoc.mpr (.inl he)
  have hnew : s.engine.entries.length ∉ s.numbers := by
    intro hmem
    exact lt_irrefl _ (h.bounded _ (by rwa [add_zero]))
  constructor
  case ids =>
    intro i j e e' id hi hj hid hid'
    rcases Run.getElem?_snoc.mp hi with hi | ⟨rfl, rfl⟩ <;>
      rcases Run.getElem?_snoc.mp hj with hj | ⟨rfl, rfl⟩
    · exact h.ids i j e e' id hi hj hid hid'
    · exact absurd hid ((hfresh id hid').1 e (List.mem_of_getElem? hi))
    · exact absurd hid' ((hfresh id hid).1 e' (List.mem_of_getElem? hj))
    · rfl
  case numbers =>
    have hnodup := h.numbers
    rw [add_zero] at hnodup
    rw [add_comm, Multiset.singleton_add, Multiset.nodup_cons]
    exact ⟨hnew, hnodup⟩
  case bounded =>
    intro no hno
    rw [List.length_append, List.length_singleton]
    rcases Multiset.mem_add.mp hno with hno | hno
    · exact Nat.lt_succ_of_lt (h.bounded no (Multiset.mem_add.mpr (.inl hno)))
    · rw [Multiset.mem_singleton.mp hno]
      exact Nat.lt_succ_self _
  case openings =>
    intro opening hopening
    obtain ⟨he, hrest⟩ := h.openings opening hopening
    exact ⟨hold he, hrest⟩
  case waiting =>
    intro kept hkept
    obtain ⟨no, e, he, hrest⟩ := h.waiting kept hkept
    exact ⟨no, e, hold he, hrest⟩
  case absent =>
    intro no hno e id he hid
    simp only [hbook]
    rcases Run.getElem?_snoc.mp he with he | ⟨rfl, rfl⟩
    · refine h.absent no ?_ e id he hid
      rcases Multiset.mem_add.mp hno with hno | hno
      · exact Multiset.mem_add.mpr (.inl hno)
      · rw [Multiset.mem_singleton.mp hno, List.getElem?_eq_none le_rfl] at he
        cases he
    · have habsent : id ∉ s.engine.store.map BoxTradeRow.id := by
        intro hmem
        obtain ⟨row, hrow, hrowId⟩ := List.mem_map.mp hmem
        exact (hfresh id hid).2 row hrow hrowId
      exact ⟨fun hmem => habsent (h.booked id hmem), fun hmem => habsent (h.closed id hmem)⟩
  case booked =>
    simp only [hbook]
    exact h.booked
  case closed => exact h.closed
  case pass => exact h.pass
  case pending => exact h.pending
  case kept => exact h.kept
  case named => exact h.named
  case adopted => exact h.adopted

theorem reserve_byId {book positions : PositionBook BoxTradePayload} {key : String} (h : book.reserve key = some positions) :
    positions.byId = book.byId := by
  unfold PositionBook.reserve at h
  split at h <;> cases h
  rfl

theorem Intact.fill (h : Intact mode s 0 aside) (entry : FilledEntry) (now : Number)
    (hpossible : s.engine.Possible mode (.filled entry now)) :
    Intact mode { s with engine := s.engine.fill mode entry now } 0 aside := by
  unfold OwnedExecutions.fill
  cases hreserve : s.engine.positions.reserve entry.candidate.key with
  | none => exact h
  | some positions =>
    have hhand := h.confirm hpossible (reserve_byId hreserve)
    have hentry : (s.engine.entries ++ [entry])[s.engine.entries.length]? = some entry :=
      Run.getElem?_snoc.mpr (.inr ⟨rfl, rfl⟩)
    simp only [OwnedExecutions.finalizeOpen]
    split
    · exact (hhand.letGo).recording _ entry now
    · unfold OwnedExecutions.openPaperTrade
      split
      · exact (hhand.letGo).recording _ entry now
      · split
        · rename_i hlive
          have hretained := hhand.retain hentry
          rw [hlive.2] at hretained
          exact hretained.recording _ entry now
        · let opening : OpeningTrade :=
            ⟨s.engine.entries.length, entry, entry.payload s.engine.entries.length, entry.preallocatedId mode, 1⟩
          have hopen : ∀ t : RetriedExecutions, Intact mode t {opening.no} aside → t.engine.entries[opening.no]? = some entry →
              Intact mode { t with engine := { t.engine with openings := t.engine.openings ++ [opening] } } 0 aside :=
            fun t ht he => ht.open he rfl rfl (List.perm_append_singleton _ _)
          exact hopen _ hhand hentry

theorem Intact.inserted (h : Intact mode s 0 aside) (no : ℕ) (allocated : String) (answer : InsertAnswer) (now : Number)
    (hpossible : s.engine.Possible mode (.inserted no allocated answer now)) :
    Intact mode { s with engine := s.engine.inserted no allocated answer now } 0 aside := by
  unfold OwnedExecutions.inserted
  cases htake : Keyed.take? OpeningTrade.no no s.engine.openings with
  | none => exact h
  | some found =>
    obtain ⟨opening, openings⟩ := found
    have hperm := Keyed.take?_perm htake
    obtain ⟨hentry, hpayload, hid⟩ := h.openings opening (hperm.mem_iff.mpr (.head _))
    have hhand := h.takeOpening hperm
    have hfresh : OwnedExecutions.IdsFresh { s.engine with openings } mode allocated := hpossible
    obtain ⟨hstored, hrow⟩ := hhand.insert (Multiset.mem_add.mpr (.inr (Multiset.mem_singleton_self _))) hentry hfresh answer
    simp only [hpayload, hid]
    cases hresult : (insertBoxTrade s.engine.store (opening.entry.payload opening.no)
        (opening.entry.preallocatedId mode) allocated answer).2 with
    | error _ =>
      simp only
      split
      · let retried : OpeningTrade := ⟨opening.no, opening.entry, opening.entry.payload opening.no,
          opening.entry.preallocatedId mode, opening.attempt + 1⟩
        have hopen : ∀ t : RetriedExecutions, Intact mode t {retried.no} aside →
            t.engine.entries[retried.no]? = some retried.entry →
            Intact mode { t with engine := { t.engine with openings := retried :: t.engine.openings } } 0 aside :=
          fun t ht he => ht.open he rfl rfl (List.Perm.refl _)
        exact hopen _ hstored hentry
      · exact (hstored.retain hentry).recording _ _ now
    | ok row =>
      cases row with
      | none => exact (hstored.letGo).recording _ _ now
      | some row =>
        obtain ⟨hmem, -, -, howner⟩ := hrow row hresult
        exact hstored.adopt hmem howner

theorem Intact.recorded (h : Intact mode s hand aside) (no : ℕ) (attemptId : Option String) (now : Number) :
    Intact mode { s with engine := s.engine.recorded no attemptId now } hand aside := by
  unfold OwnedExecutions.recorded
  split
  · exact h
  · simp only
    split <;> exact { h with }

/-! ## A pass over the retained payloads -/

theorem Intact.drain (h : Intact mode s 0 []) (hone : s.engine.pending ≠ [] → s.engine.passes = []) :
    Intact mode { s with engine := s.engine.drain } 0 [] := by
  unfold OwnedExecutions.drain
  split
  · exact h
  · rename_i hpending
    have hnone := hone hpending
    have hwaiting : ({ s.engine with passes := s.engine.passes ++ [⟨s.engine.pendingPersists, 0, []⟩] } :
        OwnedExecutions).waiting = s.engine.waiting := by
      simp [OwnedExecutions.waiting, hnone, OwnedExecutions.pending]
    have hlive : ({ s.engine with passes := s.engine.passes ++ [⟨s.engine.pendingPersists, 0, []⟩] } :
        OwnedExecutions).live = s.engine.live := by
      simp only [OwnedExecutions.live, hwaiting]
    refine { h with numbers := ?_, bounded := ?_, waiting := ?_, absent := ?_, pass := ?_, pending := ?_, kept := ?_ }
    · rw [RetriedExecutions.numbers, hlive]
      exact h.numbers
    · rw [RetriedExecutions.numbers, hlive]
      exact h.bounded
    · rw [hwaiting]
      exact h.waiting
    · rw [hlive]
      exact h.absent
    · exact .inr ⟨⟨s.engine.pendingPersists, 0, []⟩, by simp [hnone], rfl, Nat.zero_le _⟩
    · intro kept hkept
      rw [Kept, hwaiting]
      exact h.pending kept hkept
    · rw [hwaiting]
      exact h.kept

variable {pass : DrainPass} {kept : RetainedExecution}

theorem Intact.comeTo (h : Intact mode s 0 []) (hpass : s.engine.passes = [pass])
    (harray : pass.array = s.engine.pendingPersists) (hkept : s.engine.pending[pass.index]? = some kept) :
    ∃ (no : ℕ) (entry : FilledEntry), s.engine.entries[no]? = some entry ∧ kept.payload = entry.payload no ∧
      kept.preallocatedId = entry.preallocatedId mode ∧
      Intact mode { s with engine := { s.engine with passes := [{ pass with index := pass.index + 1 }] } } {no} [kept] := by
  obtain ⟨hindex, hget⟩ := List.getElem?_eq_some_iff.mp hkept
  have harrayed : s.engine.arrays pass.array = s.engine.pending := by rw [harray, OwnedExecutions.pending]
  have hwaiting : s.engine.waiting = pass.still ++ kept :: s.engine.pending.drop (pass.index + 1) := by
    simp only [OwnedExecutions.waiting, hpass, harrayed]
    rw [List.drop_eq_getElem_cons hindex, hget]
  obtain ⟨no, entry, hentry, hpayload, hid⟩ := h.waiting kept (by rw [hwaiting]; simp)
  have hno : kept.no = some no := by rw [RetainedExecution.no, hpayload]; rfl
  have hrest : ({ s.engine with passes := [{ pass with index := pass.index + 1 }] } : OwnedExecutions).waiting =
      pass.still ++ s.engine.pending.drop (pass.index + 1) := by
    simp only [OwnedExecutions.waiting, harrayed]
  have hlive : ({ s.engine with passes := [{ pass with index := pass.index + 1 }] } : OwnedExecutions).live + {no} =
      s.engine.live + 0 := by
    simp only [OwnedExecutions.live, hrest, hwaiting, List.filterMap_append, List.filterMap_cons, hno, ← Multiset.coe_add,
      ← Multiset.cons_coe, ← Multiset.singleton_add]
    abel
  have hnumbers : RetriedExecutions.numbers
      { s with engine := { s.engine with passes := [{ pass with index := pass.index + 1 }] } } + {no} = s.numbers + 0 := by
    simp only [RetriedExecutions.numbers]
    rw [add_right_comm, hlive]
    abel
  have hsub : ∀ other ∈ pass.still ++ s.engine.pending.drop (pass.index + 1), other ∈ s.engine.waiting := by
    intro other hother
    rw [hwaiting]
    exact (List.mem_append.mp hother).elim (List.mem_append_left _) fun hmem =>
      List.mem_append_right _ (.tail _ hmem)
  refine ⟨no, entry, hentry, hpayload, hid, { h with
    numbers := hnumbers ▸ h.numbers, bounded := hnumbers ▸ h.bounded, waiting := ?_, absent := hlive ▸ h.absent,
    pass := .inr ⟨_, rfl, harray, hindex⟩, pending := ?_, kept := ?_ }⟩
  · rw [hrest]
    exact fun other hother => h.waiting other (hsub other hother)
  · intro other hother
    rw [Kept, hrest, List.mem_singleton]
    rcases h.pending other hother with (hwait | hreturned) | hnone
    · rw [hwaiting] at hwait
      rcases List.mem_append.mp hwait with hmem | hmem
      · exact .inl (.inl (List.mem_append_left _ hmem))
      · rcases List.mem_cons.mp hmem with rfl | hmem
        · exact .inr rfl
        · exact .inl (.inl (List.mem_append_right _ hmem))
    · exact .inl (.inr hreturned)
    · cases hnone
  · rw [hrest]
    exact fun other hother => h.kept other (hsub other hother)

theorem Intact.setAside (h : Intact mode s {no} [kept]) (hpass : s.engine.passes = [pass])
    (hentry : s.engine.entries[no]? = some entry) (hpayload : kept.payload = entry.payload no)
    (hid : kept.preallocatedId = entry.preallocatedId mode) (hmem : kept ∈ s.engine.pending) :
    Intact mode { s with engine := { s.engine with passes := [{ pass with still := pass.still ++ [kept] }] } } 0 [] := by
  have hno : kept.no = some no := by rw [RetainedExecution.no, hpayload]; rfl
  have hwaiting : s.engine.waiting = pass.still ++ (s.engine.arrays pass.array).drop pass.index := by
    simp only [OwnedExecutions.waiting, hpass]
  have hperm : (({ s.engine with passes := [{ pass with still := pass.still ++ [kept] }] } : OwnedExecutions).waiting).Perm
      (kept :: s.engine.waiting) := by
    rw [hwaiting]
    simp only [OwnedExecutions.waiting, List.append_assoc, List.singleton_append]
    exact List.perm_middle
  have hlive : ({ s.engine with passes := [{ pass with still := pass.still ++ [kept] }] } : OwnedExecutions).live + 0 =
      s.engine.live + {no} := by
    have hnos := Multiset.coe_eq_coe.mpr (hperm.filterMap RetainedExecution.no)
    rw [List.filterMap_cons_some hno, ← Multiset.cons_coe, ← Multiset.singleton_add] at hnos
    simp only [OwnedExecutions.live, hnos]
    abel
  have hnumbers : RetriedExecutions.numbers
      { s with engine := { s.engine with passes := [{ pass with still := pass.still ++ [kept] }] } } + 0 =
      s.numbers + {no} := by
    simp only [RetriedExecutions.numbers]
    rw [add_right_comm, hlive]
    abel
  refine { h with
    numbers := hnumbers ▸ h.numbers, bounded := hnumbers ▸ h.bounded, waiting := ?_, absent := hlive ▸ h.absent,
    pass := ?_, pending := ?_, kept := ?_ }
  · intro other hother
    rcases List.mem_cons.mp (hperm.mem_iff.mp hother) with rfl | hother
    · exact ⟨no, entry, hentry, hpayload, hid⟩
    · exact h.waiting other hother
  · rcases h.pass with hnone | ⟨pass', hpass', harray, hindex⟩
    · simp [hpass] at hnone
    · rw [hpass, List.cons.injEq] at hpass'
      rw [← hpass'.1] at harray hindex
      exact .inr ⟨_, rfl, harray, hindex⟩
  · intro other hother
    refine .inl ?_
    rw [Kept, hperm.mem_iff]
    rcases h.pending other hother with (hwait | hreturned) | haside
    · exact .inl (.tail _ hwait)
    · exact .inr hreturned
    · exact .inl (List.mem_singleton.mp haside ▸ List.mem_cons_self ..)
  · intro other hother
    rcases List.mem_cons.mp (hperm.mem_iff.mp hother) with rfl | hother
    · exact hmem
    · exact h.kept other hother

theorem Intact.return (h : Intact mode s {no} [kept]) (hno : kept.no = some no) (adopted : Option Adoption)
    (hadopted : ∀ adoption ∈ adopted, adoption.replaced = none ∧ adoption.rowOpen = true) :
    Intact mode { s with returned := s.returned ++ [⟨kept, adopted⟩] } 0 [] ∧ no ∉ s.engine.live := by
  have hnumbers : RetriedExecutions.numbers { s with returned := s.returned ++ [⟨kept, adopted⟩] } + 0 = s.numbers + {no} := by
    have hlast : [(⟨kept, adopted⟩ : ReturnedInsert)].filterMap ReturnedInsert.no = [no] := by
      rw [List.filterMap_cons_some (show ReturnedInsert.no ⟨kept, adopted⟩ = some no from hno), List.filterMap_nil]
    simp only [RetriedExecutions.numbers, List.filterMap_append, hlast, ← Multiset.coe_add, Multiset.coe_singleton]
    abel
  constructor
  · refine { h with
      numbers := hnumbers ▸ h.numbers, bounded := hnumbers ▸ h.bounded, absent := ?_, pending := ?_, named := ?_,
      adopted := ?_ }
    · intro no' hno'
      rw [add_zero] at hno'
      exact h.absent no' (Multiset.mem_add.mpr (.inl hno'))
    · intro other hother
      rw [Kept, List.map_append, List.mem_append]
      rcases h.pending other hother with (hwait | hreturned) | haside
      · exact .inl (.inl hwait)
      · exact .inl (.inr (.inl hreturned))
      · exact .inl (.inr (.inr haside))
    · intro returned hreturned
      rcases List.mem_append.mp hreturned with hreturned | hreturned
      · exact h.named returned hreturned
      · rw [List.mem_singleton.mp hreturned, ReturnedInsert.no]
        exact Option.isSome_of_eq_some hno
    · intro returned hreturned
      rcases List.mem_append.mp hreturned with hreturned | hreturned
      · exact h.adopted returned hreturned
      · rw [List.mem_singleton.mp hreturned]
        exact hadopted
  · intro hlive
    have hnodup := h.numbers
    rw [RetriedExecutions.numbers, add_comm, Multiset.singleton_add, Multiset.nodup_cons, Multiset.mem_add, not_or] at hnodup
    exact hnodup.1.1 hlive

theorem Intact.advance {pass pass' : DrainPass}
    (h : Intact mode { s with engine := { s.engine with passes := [pass'] } } 0 []) (hpass : s.engine.passes = [pass]) :
    Intact mode { s with engine := s.engine.advance 0 pass' } 0 [] ∧
      ∀ kept ∈ s.engine.pending, kept ∈ (s.engine.advance 0 pass').pending ∨ kept ∈ s.returned.map ReturnedInsert.retained := by
  unfold OwnedExecutions.advance
  split
  · exact ⟨by simpa only [hpass, List.set_cons_zero] using h, fun kept hkept => .inl hkept⟩
  · rename_i hover
    have hstill : ({ s.engine with passes := [pass'] } : OwnedExecutions).waiting = pass'.still := by
      simp [OwnedExecutions.waiting, List.drop_eq_nil_of_le (not_lt.mp hover)]
    have hpending : ({ s.engine with
        passes := s.engine.passes.eraseIdx 0, arrays := Function.update s.engine.arrays s.engine.allocated pass'.still,
        pendingPersists := s.engine.allocated, allocated := s.engine.allocated + 1 } : OwnedExecutions).pending =
        pass'.still := by simp [OwnedExecutions.pending]
    have hwaiting : ({ s.engine with
        passes := s.engine.passes.eraseIdx 0, arrays := Function.update s.engine.arrays s.engine.allocated pass'.still,
        pendingPersists := s.engine.allocated, allocated := s.engine.allocated + 1 } : OwnedExecutions).waiting =
        ({ s.engine with passes := [pass'] } : OwnedExecutions).waiting := by
      rw [hstill]
      simp [OwnedExecutions.waiting, hpass, OwnedExecutions.pending]
    have hlive : ({ s.engine with
        passes := s.engine.passes.eraseIdx 0, arrays := Function.update s.engine.arrays s.engine.allocated pass'.still,
        pendingPersists := s.engine.allocated, allocated := s.engine.allocated + 1 } : OwnedExecutions).live =
        ({ s.engine with passes := [pass'] } : OwnedExecutions).live := by
      simp only [OwnedExecutions.live, hwaiting]
    refine ⟨{ h with
      numbers := ?_, bounded := ?_, waiting := ?_, absent := ?_, pass := ?_, pending := ?_, kept := ?_ }, ?_⟩
    · rw [RetriedExecutions.numbers, hlive]
      exact h.numbers
    · rw [RetriedExecutions.numbers, hlive]
      exact h.bounded
    · rw [hwaiting]
      exact h.waiting
    · rw [hlive]
      exact h.absent
    · exact .inl (by simp [hpass])
    · intro kept hkept
      rw [hpending] at hkept
      exact .inl (.inl (by rw [hwaiting, hstill]; exact hkept))
    · intro kept hkept
      rw [hwaiting, hstill] at hkept
      rw [hpending]
      exact hkept
    · intro kept hkept
      rw [hpending]
      rcases h.pending kept hkept with (hwait | hreturned) | hnone
      · rw [hstill] at hwait
        exact .inl hwait
      · exact .inr hreturned
      · cases hnone

theorem Intact.release (h : Intact mode s hand aside) (key : String) :
    Intact mode { s with engine := { s.engine with positions := s.engine.positions.release key } } hand aside := { h with }

section

variable (h : Intact mode s 0 [])
include h

theorem Intact.drained (n : ℕ) (allocated : String) (answer : InsertAnswer)
    (hpossible : s.engine.Possible mode (.drained n allocated answer)) :
    Intact mode { s with
      engine := s.engine.drained n allocated answer
      returned := s.returned ++ s.returns (.drained n allocated answer) } 0 [] ∧
      ∀ kept ∈ s.engine.pending, kept ∈ (s.engine.drained n allocated answer).pending ∨
        kept ∈ (s.returned ++ s.returns (.drained n allocated answer)).map ReturnedInsert.retained := by
  unfold OwnedExecutions.drained RetriedExecutions.returns OwnedExecutions.answered
  rcases h.pass with hnone | ⟨pass, hpass, harray, -⟩
  · exact ⟨by simpa [hnone] using h, fun kept hkept => .inl (by simpa [hnone] using hkept)⟩
  -- passes do not overlap here, so only the first one can be answered
  · cases n with
    | succ n => exact ⟨by simpa [hpass] using h, fun kept hkept => .inl (by simpa [hpass] using hkept)⟩
    | zero =>
      have hget : s.engine.passes[0]? = some pass := by simp [hpass]
      have harrayed : s.engine.arrays pass.array = s.engine.pending := by rw [harray, OwnedExecutions.pending]
      cases hkept : s.engine.pending[pass.index]? with
      | none => exact ⟨by simpa [hget, harrayed, hkept] using h, fun kept hmem => .inl
          (by simpa [hget, harrayed, hkept] using hmem)⟩
      | some kept =>
        obtain ⟨no, entry, hentry, hpayload, hid, hhand⟩ := h.comeTo hpass harray hkept
        have hno : kept.no = some no := by rw [RetainedExecution.no, hpayload]; rfl
        have hfresh : OwnedExecutions.IdsFresh
            { s.engine with passes := [{ pass with index := pass.index + 1 }] } mode allocated := hpossible
        obtain ⟨hstored, hrow⟩ :=
          hhand.insert (Multiset.mem_add.mpr (.inr (Multiset.mem_singleton_self _))) hentry hfresh answer
        simp only [hget, Option.bind_some, harrayed, hkept, Option.map_some, hpayload, hid]
        -- an insert that failed is set aside, one that returned leaves the array
        cases hresult : (insertBoxTrade s.engine.store (entry.payload no) (entry.preallocatedId mode) allocated answer).2 with
        | error _ =>
          have haside := hstored.setAside rfl hentry hpayload hid (List.mem_of_getElem? hkept)
          have hover := Intact.advance (s := { s with engine := { s.engine with
            store := (insertBoxTrade s.engine.store (entry.payload no) (entry.preallocatedId mode) allocated answer).1 } })
            haside hpass
          simp only [List.append_nil]
          exact hover
        | ok row =>
          cases row with
          | none =>
            obtain ⟨hreturned, -⟩ := hstored.return hno none (by simp)
            exact Intact.advance (s := {
              engine := { s.engine with
                store := (insertBoxTrade s.engine.store (entry.payload no) (entry.preallocatedId mode) allocated answer).1
                positions := s.engine.positions.release (entry.payload no).key }
              closed := s.closed
              returned := s.returned ++ [⟨kept, none⟩] }) (hreturned.release (entry.payload no).key) hpass
          | some row =>
            obtain ⟨hmem, hbook, hclosed, howner⟩ := hrow row hresult
            have hadopted : ∀ adoption ∈ some (s.adoption row), adoption.replaced = none ∧ adoption.rowOpen = true := by
              intro adoption hadoption
              rw [← Option.mem_some_iff.mp hadoption]
              exact ⟨PositionBook.get_eq_none.mpr hbook, decide_eq_true hclosed⟩
            obtain ⟨hreturned, hlive⟩ := hstored.return hno (some (s.adoption row)) hadopted
            have hbooked := hreturned.book ⟨row.id, row.payload.key, row.payload⟩ hmem (by
              intro no' hno' entry' hentry' hid'
              rw [howner no' entry' hentry' hid', add_zero] at hno'
              exact hlive hno')
            exact Intact.advance (s := {
              engine := { s.engine with
                store := (insertBoxTrade s.engine.store (entry.payload no) (entry.preallocatedId mode) allocated answer).1
                positions := s.engine.positions.add ⟨row.id, row.payload.key, row.payload⟩ }
              closed := s.closed
              returned := s.returned ++ [⟨kept, some (s.adoption row)⟩] }) hbooked hpass

variable (id : String)

theorem Intact.writeRow (remaining : RoleQuantities) :
    Intact mode { s with engine := s.engine.writeRow id remaining } 0 [] := by
  have hids : (s.engine.writeRow id remaining).store.map BoxTradeRow.id = s.engine.store.map BoxTradeRow.id := by
    simp only [OwnedExecutions.writeRow, List.map_map]
    refine List.map_congr_left ?_
    intro row _
    by_cases hrow : row.id = id <;> simp [hrow]
  refine { h with booked := ?_, closed := ?_ }
  · rw [hids]
    exact h.booked
  · rw [hids]
    exact h.closed

theorem Intact.exit (remaining : RoleQuantities) :
    Intact mode { s with engine := s.engine.exit id remaining } 0 [] := by
  have hids : (s.engine.exit id remaining).positions.byId.map Booked.id = s.engine.positions.byId.map Booked.id :=
    PositionBook.modify_ids ..
  refine { h with absent := ?_, booked := ?_ }
  · rw [hids]
    exact h.absent
  · rw [hids]
    exact h.booked

theorem Intact.close {id : String} (hbooked : s.booked id = true) :
    Intact mode { s with closed := s.closed ++ [id] } 0 [] := by
  have hmem : id ∈ s.engine.positions.byId.map Booked.id := by
    by_contra hnot
    rw [RetriedExecutions.booked, PositionBook.get_eq_none.mpr hnot] at hbooked
    cases hbooked
  refine { h with absent := ?_, closed := ?_ }
  · intro no hno entry id' hentry hid
    obtain ⟨hbook, hclosed⟩ := h.absent no hno entry id' hentry hid
    refine ⟨hbook, ?_⟩
    intro hlast
    rcases List.mem_append.mp hlast with hlast | hlast
    · exact hclosed hlast
    · rw [List.mem_singleton.mp hlast] at hbook
      exact hbook hmem
  · intro id' hid'
    rcases List.mem_append.mp hid' with hid' | hid'
    · exact h.closed id' hid'
    · rw [List.mem_singleton.mp hid']
      exact h.booked id hmem

theorem Intact.remove : Intact mode { s with engine := s.engine.remove id } 0 [] := by
  have hsub : ∀ id' ∈ (s.engine.remove id).positions.byId.map Booked.id, id' ∈ s.engine.positions.byId.map Booked.id := by
    intro id' hid'
    obtain ⟨pos, hpos, rfl⟩ := List.mem_map.mp hid'
    exact List.mem_map_of_mem (PositionBook.mem_remove hpos)
  refine { h with absent := ?_, booked := fun id' hid' => h.booked id' (hsub id' hid') }
  intro no hno entry id' hentry hid
  obtain ⟨hbook, hclosed⟩ := h.absent no hno entry id' hentry hid
  exact ⟨fun hmem => hbook (hsub id' hmem), hclosed⟩

end

/-! ## Runs -/

def Possible (mode : ExecutionMode) (s : RetriedExecutions) : RetryEvent → Prop
  | .owned event => s.engine.Possible mode event
  | _ => True

def Apart (s : RetriedExecutions) : RetryEvent → Prop
  | .owned .drain => s.engine.pending ≠ [] → s.engine.passes = []
  | _ => True

variable (e : OwnedExecutions)

theorem pending_retainUnrecorded (no : ℕ) (entry : FilledEntry) (now : Number) :
    (e.retainUnrecorded no entry now).pending = e.pending := by
  unfold OwnedExecutions.retainUnrecorded
  split <;> rfl

theorem pending_fill (entry : FilledEntry) (now : Number) :
    ∀ kept ∈ e.pending, kept ∈ (e.fill mode entry now).pending := by
  intro kept hkept
  unfold OwnedExecutions.fill
  split
  · exact hkept
  · simp only [OwnedExecutions.finalizeOpen]
    split
    · rw [pending_retainUnrecorded]
      exact hkept
    · unfold OwnedExecutions.openPaperTrade
      split
      · rw [pending_retainUnrecorded]
        exact hkept
      · split
        · rw [pending_retainUnrecorded, OwnedExecutions.pending_retain]
          exact List.mem_append_left _ hkept
        · exact hkept

theorem pending_inserted (no : ℕ) (allocated : String) (answer : InsertAnswer) (now : Number) :
    ∀ kept ∈ e.pending, kept ∈ (e.inserted no allocated answer now).pending := by
  intro kept hkept
  unfold OwnedExecutions.inserted
  split
  · exact hkept
  · simp only
    split
    · split
      · exact hkept
      · rw [pending_retainUnrecorded, OwnedExecutions.pending_retain]
        exact List.mem_append_left _ hkept
    · rw [pending_retainUnrecorded]
      exact hkept
    · exact hkept

theorem pending_recorded (no : ℕ) (attemptId : Option String) (now : Number) :
    (e.recorded no attemptId now).pending = e.pending := by
  unfold OwnedExecutions.recorded
  split
  · rfl
  · simp only
    split <;> rfl

theorem pending_drain : e.drain.pending = e.pending := by
  unfold OwnedExecutions.drain
  split <;> rfl

theorem Intact.stays (h : Intact mode s 0 []) (event : RetryEvent) (hpossible : s.Possible mode event) :
    ∀ kept ∈ s.engine.pending, kept ∈ (s.step mode event).1.engine.pending ∨
      kept ∈ (s.step mode event).1.returned.map ReturnedInsert.retained := by
  intro kept hkept
  cases event with
  | owned event =>
    cases event with
    | filled entry now => exact .inl (pending_fill s.engine entry now kept hkept)
    | inserted no allocated answer now => exact .inl (pending_inserted s.engine no allocated answer now kept hkept)
    | recorded no attemptId now => exact .inl ((pending_recorded s.engine no attemptId now).symm ▸ hkept)
    | drain => exact .inl ((pending_drain s.engine).symm ▸ hkept)
    | drained n allocated answer => exact (h.drained n allocated answer hpossible).2 kept hkept
  | exitStored id remaining =>
    simp only [RetriedExecutions.step]
    split <;> exact .inl hkept
  | exited id remaining => exact .inl hkept
  | closed id | removed id =>
    simp only [RetriedExecutions.step]
    split <;> exact .inl hkept

theorem Intact.step (h : Intact mode s 0 []) (event : RetryEvent) (hpossible : s.Possible mode event) (hapart : s.Apart event) :
    Intact mode (s.step mode event).1 0 [] := by
  cases event with
  | owned event =>
    cases event with
    | filled entry now => simpa only [RetriedExecutions.step, OwnedExecutions.step, returns,
        List.append_nil] using h.fill entry now hpossible
    | inserted no allocated answer now =>
      simpa only [RetriedExecutions.step, OwnedExecutions.step, returns,
          List.append_nil] using h.inserted no allocated answer now hpossible
    | recorded no attemptId now =>
      simpa only [RetriedExecutions.step, OwnedExecutions.step, returns, List.append_nil] using h.recorded no attemptId now
    | drain => simpa only [RetriedExecutions.step, OwnedExecutions.step, returns, List.append_nil] using h.drain hapart
    | drained n allocated answer => exact (h.drained n allocated answer hpossible).1
  | exitStored id remaining =>
    simp only [RetriedExecutions.step]
    split
    · exact h.writeRow id remaining
    · exact h
  | exited id remaining => exact h.exit id remaining
  | closed id =>
    simp only [RetriedExecutions.step]
    split
    · rename_i hbooked
      exact h.close hbooked.1
    · exact h
  | removed id =>
    simp only [RetriedExecutions.step]
    split
    · exact h.remove id
    · exact h

structure Booted (s : RetriedExecutions) : Prop where
  entries : s.engine.entries = []
  quiet : s.engine.Quiet
  pending : s.engine.pending = []
  booked : ∀ pos ∈ s.engine.positions.byId, ∃ row ∈ s.engine.store, row.id = pos.id
  closed : ∀ id ∈ s.closed, ∃ row ∈ s.engine.store, row.id = id
  returned : s.returned = []

theorem Booted.intact (h : s.Booted) : Intact mode s 0 [] := by
  have hwaiting : s.engine.waiting = [] := by rw [OwnedExecutions.waiting, h.quiet.passes]; exact h.pending
  have hnumbers : s.numbers = 0 := by
    simp [RetriedExecutions.numbers, OwnedExecutions.live, h.quiet.openings, hwaiting, h.returned]
  constructor
  case booked =>
    intro id hid
    obtain ⟨pos, hpos, rfl⟩ := List.mem_map.mp hid
    obtain ⟨row, hrow, hsame⟩ := h.booked pos hpos
    exact List.mem_map.mpr ⟨row, hrow, hsame⟩
  case closed =>
    intro id hid
    obtain ⟨row, hrow, hsame⟩ := h.closed id hid
    exact List.mem_map.mpr ⟨row, hrow, hsame⟩
  case pass => exact .inl h.quiet.passes
  all_goals simp [h.entries, h.quiet.openings, hwaiting, hnumbers, OwnedExecutions.live, h.pending, h.returned]

def adoptions (s : RetriedExecutions) : List (Option ℕ) :=
  (s.returned.filter fun returned => returned.adopted.isSome).map ReturnedInsert.no

/-- No row is adopted twice, and none in the place of another. -/
structure AdoptedOnce (s : RetriedExecutions) : Prop where
  once : s.adoptions.Nodup
  replaced : ∀ returned ∈ s.returned, ∀ adoption ∈ returned.adopted, adoption.replaced = none
  rowOpen : ∀ returned ∈ s.returned, ∀ adoption ∈ returned.adopted, adoption.rowOpen = true

theorem map_some_filterMap {α β : Type} {f : α → Option β} {l : List α} (h : ∀ a ∈ l, (f a).isSome = true) :
    l.map f = (l.filterMap f).map some := by
  induction l with
  | nil => rfl
  | cons a l ih =>
    obtain ⟨b, hb⟩ := Option.isSome_iff_exists.mp (h a (.head _))
    rw [List.map_cons, List.filterMap_cons_some hb, List.map_cons, hb, ih fun c hc => h c (.tail _ hc)]

theorem Intact.adoptedOnce (h : Intact mode s 0 []) : s.AdoptedOnce := by
  have hnodup : (s.returned.map ReturnedInsert.no).Nodup := by
    rw [map_some_filterMap h.named]
    refine List.Nodup.map (Option.some_injective ℕ) ?_
    have hnumbers := h.numbers
    rw [add_zero, RetriedExecutions.numbers] at hnumbers
    exact Multiset.coe_nodup.mp (Multiset.nodup_add.mp hnumbers).2.1
  exact {
    once := hnodup.sublist (List.Sublist.map _ List.filter_sublist)
    replaced := fun returned hreturned adoption hadoption => (h.adopted returned hreturned adoption hadoption).1
    rowOpen := fun returned hreturned adoption hadoption => (h.adopted returned hreturned adoption hadoption).2 }

def Proper (mode : ExecutionMode) (s : RetriedExecutions) (event : RetryEvent) : Prop := s.Possible mode event ∧ s.Apart event

theorem Intact.run (h : Intact mode s 0 []) {events : List RetryEvent}
    (hguarded : Run.Guarded (RetriedExecutions.step mode) (Proper mode) s events) :
    Intact mode (Run.finish (RetriedExecutions.step mode) s events) 0 [] :=
  hguarded.invariant (fun s => Intact mode s 0 []) (fun _ event hs hevent => hs.step event hevent.1 hevent.2) h

theorem returned_step (s : RetriedExecutions) (event : RetryEvent) :
    ∀ returned ∈ s.returned, returned ∈ (s.step mode event).1.returned := by
  intro returned hreturned
  cases event with
  | owned event => exact List.mem_append_left _ hreturned
  | exited id remaining => exact hreturned
  | exitStored id remaining | closed id | removed id =>
    simp only [RetriedExecutions.step]
    split <;> exact hreturned

theorem Intact.stays_run (h : Intact mode s 0 []) {events : List RetryEvent}
    (hguarded : Run.Guarded (RetriedExecutions.step mode) (Proper mode) s events)
    (hkept : kept ∈ s.engine.pending ∨ kept ∈ s.returned.map ReturnedInsert.retained) :
    kept ∈ (Run.finish (RetriedExecutions.step mode) s events).engine.pending ∨
      kept ∈ (Run.finish (RetriedExecutions.step mode) s events).returned.map ReturnedInsert.retained := by
  induction events generalizing s with
  | nil => exact hkept
  | cons event events ih =>
    refine ih (h.step event hguarded.1.1 hguarded.1.2) hguarded.2 ?_
    rcases hkept with hkept | hkept
    · exact h.stays event hguarded.1.1 kept hkept
    · obtain ⟨returned, hreturned, rfl⟩ := List.mem_map.mp hkept
      exact .inr (List.mem_map_of_mem (returned_step s event returned hreturned))

end RetriedExecutions

/-- **A retained payload is neither forgotten nor adopted twice** where no tick finds a pass running. -/
theorem retained_kept (mode : ExecutionMode) (s : RetriedExecutions) (hs : s.Booted) (before after : List RetryEvent)
    (h : Run.Guarded (RetriedExecutions.step mode) (RetriedExecutions.Proper mode) s (before ++ after)) :
    (∀ kept ∈ (Run.finish (RetriedExecutions.step mode) s before).engine.pending,
      kept ∈ (Run.finish (RetriedExecutions.step mode) s (before ++ after)).engine.pending ∨
        kept ∈ (Run.finish (RetriedExecutions.step mode) s (before ++ after)).returned.map ReturnedInsert.retained) ∧
      (Run.finish (RetriedExecutions.step mode) s (before ++ after)).AdoptedOnce := by
  have hbefore := hs.intact.run h.append.1
  refine ⟨?_, (hs.intact.run h).adoptedOnce⟩
  intro kept hkept
  rw [Run.finish_append]
  exact hbefore.stays_run h.append.2 (.inl hkept)

/-! ## Two passes over one array -/

section

variable (mode : ExecutionMode)

instance (s : OwnedExecutions) (id : String) : Decidable (s.IdsFresh mode id) := inferInstanceAs (Decidable (_ ∧ _))

instance (s : OwnedExecutions) (event : OwnershipEvent) : Decidable (s.Possible mode event) :=
  match event with
  | .filled entry _ => inferInstanceAs (Decidable (∀ id ∈ entry.preallocatedId mode, s.IdsFresh mode id))
  | .inserted _ allocated _ _ => inferInstanceAs (Decidable (s.IdsFresh mode allocated))
  | .drained _ allocated _ => inferInstanceAs (Decidable (s.IdsFresh mode allocated))
  | .recorded .. | .drain => instDecidableTrue

instance (s : RetriedExecutions) (event : RetryEvent) : Decidable (s.Possible mode event) :=
  match event with
  | .owned event => inferInstanceAs (Decidable (s.engine.Possible mode event))
  | .exitStored .. | .exited .. | .closed _ | .removed _ => instDecidableTrue

instance (s : RetriedExecutions) (event : RetryEvent) : Decidable (s.Apart event) :=
  match event with
  | .owned .drain => inferInstanceAs (Decidable (s.engine.pending ≠ [] → s.engine.passes = []))
  | .owned (.filled ..) | .owned (.inserted ..) | .owned (.recorded ..) | .owned (.drained ..) | .exitStored ..
  | .exited .. | .closed _ | .removed _ => instDecidableTrue

instance (s : RetriedExecutions) (event : RetryEvent) : Decidable (s.Proper mode event) :=
  inferInstanceAs (Decidable (_ ∧ _))

end

def liveEntry (key id : String) : FilledEntry :=
  let record : PaperLeggingExecutionRecord := { paperLegging with tradeId := some id }
  { candidate := { paperCandidate with key := key }
    evaluation := paperEvaluation
    legging := some record
    confirmed := fun _ => .fin 75
    whole := paperEntry.whole
    legs := by
      intro other hother
      rw [← Option.mem_some_iff.mp hother]
      exact List.Perm.refl _
    byRole := by
      intro other hother role
      rw [← Option.mem_some_iff.mp hother]
      rfl
    nothingLeft := by
      intro other hother
      rw [← Option.mem_some_iff.mp hother]
      rfl
    oneLot := fun hnone => nomatch hnone }

def bootedRetries : RetriedExecutions := ⟨bootedEngine, [], []⟩

theorem bootedRetries_booted : bootedRetries.Booted := by
  refine ⟨rfl, ⟨rfl, rfl, rfl⟩, rfl, ?_, ?_, rfl⟩ <;> simp [bootedRetries, bootedEngine]

def retainedFill (no : ℕ) (key id : String) : List RetryEvent :=
  [.owned (.filled (liveEntry key id) (.fin 0)), .owned (.inserted no "t1" .failedBefore (.fin 1)),
    .owned (.inserted no "t2" .failedBefore (.fin 2)), .owned (.inserted no "t3" .failedBefore (.fin 3))]

def adoptedOnSecondPass : List RetryEvent :=
  [.owned .drain, .owned (.drained 0 "t4" .failedAfter), .owned .drain, .owned (.drained 0 "t5" .stored), .closed "box",
    .removed "box"]

def overlappedPasses : List RetryEvent :=
  retainedFill 0 "first" "box" ++
    [.owned .drain, .owned .drain, .owned (.drained 0 "t4" .stored), .exited "box" fun _ => .fin 0] ++
    retainedFill 1 "second" "other"

theorem retained_kept_second_pass :
    (∀ kept ∈ (Run.finish (RetriedExecutions.step .live) bootedRetries (retainedFill 0 "first" "box")).engine.pending,
      kept ∈ (Run.finish (RetriedExecutions.step .live) bootedRetries
        (retainedFill 0 "first" "box" ++ adoptedOnSecondPass)).engine.pending ∨
        kept ∈ (Run.finish (RetriedExecutions.step .live) bootedRetries
          (retainedFill 0 "first" "box" ++ adoptedOnSecondPass)).returned.map ReturnedInsert.retained) ∧
      (Run.finish (RetriedExecutions.step .live) bootedRetries
        (retainedFill 0 "first" "box" ++ adoptedOnSecondPass)).AdoptedOnce := by
  refine retained_kept .live bootedRetries bootedRetries_booted (retainedFill 0 "first" "box") adoptedOnSecondPass ?_
  decide +kernel

theorem retained_payload_lost :
    let early := Run.finish (RetriedExecutions.step .live) bootedRetries overlappedPasses
    let late := Run.finish (RetriedExecutions.step .live) bootedRetries
      (overlappedPasses ++ [.owned (.drained 0 "t4" .duplicate)])
    bootedRetries.Booted ∧
      Run.Guarded (RetriedExecutions.step .live) (RetriedExecutions.Possible .live) bootedRetries
        (overlappedPasses ++ [.owned (.drained 0 "t4" .duplicate)]) ∧
      (early.engine.pending.map RetainedExecution.no = [some 1] ∧ late.engine.pending = [] ∧
        late.returned.map ReturnedInsert.no = [some 0, some 0]) ∧
      late.adoptions = [some 0, some 0] ∧ ¬ late.AdoptedOnce := by
  refine ⟨bootedRetries_booted, ?_, ⟨rfl, rfl, rfl⟩, rfl, ?_⟩
  · decide +kernel
  · intro h
    have honce := h.once
    revert honce
    decide +kernel

end BoxEngine
