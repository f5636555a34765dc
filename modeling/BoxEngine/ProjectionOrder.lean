import BoxEngine.ProjectorFrames

/-!
# The order of a projection

Where a claim may take the earlier rows along and no row is committed under a later one claimed and not written, each
event is first written after the earlier ones.
-/

namespace BoxEngine

open Js

namespace Outbox

variable {ι : Type} {cfg : ProjectorConfig} {s s' : Outbox ι} {i : ι} {p : ProjectorPass}

/-- What a step writes first is a committed event whose predecessors are written or dead-lettered. -/
def FirstInOrder [DecidableEq ι] (cfg : ProjectorConfig) (s : Outbox ι) (e : OutboxStep ι) : Prop :=
  ∀ eventId, ¬s.Written eventId → (s.after cfg e).Written eventId → ∃ row ∈ s.rows, row.eventId = eventId ∧
    ∀ row' ∈ s.rows, row'.SameAggregate row → row'.sequence < row.sequence →
      s.Written row'.eventId ∨ row'.deadLetteredAt ≠ none

def OfEvents : OutboxStep ι → Prop
  | .enqueue kind _ => kind = .event
  | _ => True

/-- A claimed row finds the pending ones before it due and unlocked, and no row is committed under a later claimed
one. -/
def Orderly [DecidableEq ι] (cfg : ProjectorConfig) (s : Outbox ι) : OutboxStep ι → Prop
  | .claim i now => s.pass? i = none → ∀ row ∈ s.claimed cfg now, ¬s.Written row.eventId →
      ∀ row' ∈ s.rows, row'.SameAggregate row → row'.sequence < row.sequence → row'.pending = true →
        ¬s.Written row'.eventId → row' ∈ s.claimable now
  | .commitTx j => ∀ tx row, s.txs[j]? = some tx → tx.state = .inserted row → ∀ q ∈ s.passes, ∀ g ∈ q.2.groups,
      ∀ row' ∈ g, row.SameAggregate row' → row.sequence < row'.sequence → s.Written row'.eventId
  | _ => True

/-! ## The invariant -/

structure PassOrdered (s : Outbox ι) (p : ProjectorPass) : Prop where
  copies : ∀ g ∈ p.groups, ∀ row ∈ g, ∃ row' ∈ s.rows, row'.SameEvent row
  ahead : ∀ before row after_, before ++ row :: after_ ∈ p.groups → ¬s.Written row.eventId →
    ∀ row' ∈ s.rows, row'.SameAggregate row → row'.sequence < row.sequence →
      s.Written row'.eventId ∨ row'.deadLetteredAt ≠ none ∨ row'.eventId ∈ before.map OutboxRow.eventId
  routed : p.stage = .writing → ∀ row, p.row? = some row → startOf row = .writing
  marking : p.stage = .marking → ∀ row, p.row? = some row → s.Written row.eventId
  marks : ∀ eventId now, .published eventId now ∈ p.marks → s.Written eventId

structure Ordered (s : Outbox ι) : Prop where
  tables : Tables s
  events : ∀ (j : ℕ) (tx : WriterTx), s.txs[j]? = some tx →
    tx.kind = .event ∧ ∀ sequence now, tx.state ≠ .updated sequence now
  published : ∀ row ∈ s.rows, row.publishedAt ≠ none → s.Written row.eventId
  passes : ∀ q ∈ s.passes, PassOrdered s q.2

structure GoesOn (s s' : Outbox ι) : Prop where
  written : ∀ eventId, s.Written eventId → s'.Written eventId
  forth : ∀ row ∈ s.rows, ∃ row' ∈ s'.rows, row'.SameEvent row
  back : ∀ row' ∈ s'.rows, ∃ row ∈ s.rows, row'.SameEvent row ∧ (row.deadLetteredAt ≠ none → row'.deadLetteredAt ≠ none)

theorem GoesOn.of_rows (hrows : s'.rows = s.rows) (hwritten : ∀ eventId, s.Written eventId → s'.Written eventId) :
    GoesOn s s' where
  written := hwritten
  forth := by
    rw [hrows]
    exact fun row hrow => ⟨row, hrow, .refl row⟩
  back := by
    rw [hrows]
    exact fun row hrow => ⟨row, hrow, .refl row, id⟩

theorem GoesOn.same (hrows : s'.rows = s.rows) (hdocs : s'.docs = s.docs) : GoesOn s s' := by
  apply GoesOn.of_rows hrows
  unfold Written
  rw [hdocs]
  exact fun _ h => h

theorem GoesOn.replaceOne {row : OutboxRow} {now : ℚ} (hrows : s'.rows = s.rows)
    (hdocs : s'.docs = replaceOne s.docs row now) : GoesOn s s' := by
  apply GoesOn.of_rows hrows
  unfold Written
  rw [hdocs]
  exact fun _ h => written_replaceOne h

theorem GoesOn.marked {marks : List Mark} (hrows : s'.rows = marks.foldl Mark.apply s.rows) (hdocs : s'.docs = s.docs) :
    GoesOn s s' := by
  rw [Mark.foldl_apply] at hrows
  constructor
  case written =>
    unfold Written
    rw [hdocs]
    exact fun _ h => h
  case forth =>
    intro row hrow
    have hsame := Mark.sameEvent_setAll marks row
    refine ⟨Mark.setAll marks row, hrows ▸ List.mem_map_of_mem hrow, hsame.eventId.symm, ?_, hsame.sequence.symm⟩
    exact ⟨hsame.aggregate.1.symm, hsame.aggregate.2.symm⟩
  case back =>
    intro row' hrow'
    rw [hrows] at hrow'
    obtain ⟨row, hrow, rfl⟩ := List.mem_map.mp hrow'
    have hsame := Mark.sameEvent_setAll marks row
    refine ⟨row, hrow, ⟨hsame.eventId.symm, ⟨hsame.aggregate.1.symm, hsame.aggregate.2.symm⟩, hsame.sequence.symm⟩, ?_⟩
    exact Mark.deadLettered_setAll

theorem PassOrdered.goesOn (h : PassOrdered s p) (hon : GoesOn s s') : PassOrdered s' p where
  copies := by
    intro g hg row hrow
    obtain ⟨row', hrow', hsame⟩ := h.copies g hg row hrow
    obtain ⟨row'', hrow'', hsame'⟩ := hon.forth row' hrow'
    exact ⟨row'', hrow'', hsame'.eventId.trans hsame.eventId,
      ⟨hsame'.aggregate.1.trans hsame.aggregate.1, hsame'.aggregate.2.trans hsame.aggregate.2⟩,
      hsame'.sequence.trans hsame.sequence⟩
  ahead := by
    intro before row after_ hg hunwritten row' hrow' hagg hlt
    obtain ⟨old, hold, hsame, hdead⟩ := hon.back row' hrow'
    have hagg' : old.SameAggregate row :=
      ⟨hsame.aggregate.1.symm.trans hagg.1, hsame.aggregate.2.symm.trans hagg.2⟩
    rw [hsame.eventId]
    rcases h.ahead before row after_ hg (fun hw => hunwritten (hon.written _ hw)) old hold hagg' (hsame.sequence ▸ hlt) with
      hwritten | hdeadOld | hbefore
    · exact .inl (hon.written _ hwritten)
    · exact .inr (.inl (hdead hdeadOld))
    · exact .inr (.inr hbefore)
  routed := h.routed
  marking := fun hstage row hrow => hon.written _ (h.marking hstage row hrow)
  marks := fun eventId now hmark => hon.written _ (h.marks eventId now hmark)

/-! ## The pass itself -/

theorem PassOrdered.started (hstage : p.stage = stageOf p.groups)
    (hcopies : ∀ g ∈ p.groups, ∀ row ∈ g, ∃ row' ∈ s.rows, row'.SameEvent row)
    (hahead : ∀ before row after_, before ++ row :: after_ ∈ p.groups → ¬s.Written row.eventId →
      ∀ row' ∈ s.rows, row'.SameAggregate row → row'.sequence < row.sequence →
        s.Written row'.eventId ∨ row'.deadLetteredAt ≠ none ∨ row'.eventId ∈ before.map OutboxRow.eventId)
    (hmarks : ∀ eventId now, .published eventId now ∈ p.marks → s.Written eventId) : PassOrdered s p where
  copies := hcopies
  ahead := hahead
  routed := (stageOf_eq hstage).1
  marking := fun hmarking => absurd hmarking (stageOf_eq hstage).2
  marks := hmarks

theorem PassOrdered.at (h : PassOrdered s p) {stage : PassStage} {tx : PassTx} (hwriting : stage ≠ .writing)
    (hmarking : stage = .marking → ∀ row, p.row? = some row → s.Written row.eventId) :
    PassOrdered s { p with stage, tx } where
  copies := h.copies
  ahead := h.ahead
  routed := fun hstage => absurd hstage hwriting
  marking := hmarking
  marks := h.marks

theorem PassOrdered.published (h : PassOrdered s p) {row : OutboxRow} (hrow : p.row? = some row)
    (hstage : p.stage = .marking) (now : ℚ) :
    PassOrdered s (p.onward (.published row.eventId now) (afterPublished p.groups)) := by
  obtain ⟨rest, groups, hgroups⟩ := ProjectorPass.row?_eq_some hrow
  have hwritten : s.Written row.eventId := h.marking hstage row hrow
  have hmem : ∀ g ∈ afterPublished p.groups, g = rest ∨ g ∈ p.groups := by
    intro g hg
    rw [hgroups] at hg ⊢
    exact (mem_afterPublished hg).imp_right (.tail _)
  have hhead : row :: rest ∈ p.groups := hgroups ▸ List.mem_cons_self ..
  apply PassOrdered.started rfl
  · intro g hg c hc
    rcases hmem g hg with rfl | hold
    · exact h.copies _ hhead c (.tail _ hc)
    · exact h.copies g hold c hc
  · intro before c after_ hg hunwritten row' hrow' hagg hlt
    rcases hmem _ hg with heq | hold
    · have hlonger : row :: before ++ c :: after_ ∈ p.groups := by
        rw [List.cons_append, heq]
        exact hhead
      rcases h.ahead (row :: before) c after_ hlonger hunwritten row' hrow' hagg hlt with hw | hdead | hbefore
      · exact .inl hw
      · exact .inr (.inl hdead)
      · rcases List.mem_cons.mp hbefore with hid | hbefore
        · exact .inl (hid ▸ hwritten)
        · exact .inr (.inr hbefore)
    · exact h.ahead before c after_ hold hunwritten row' hrow' hagg hlt
  · intro eventId at_ hmark
    rcases List.mem_append.mp hmark with hmark | hmark
    · exact h.marks eventId at_ hmark
    · cases List.mem_singleton.mp hmark
      exact hwritten

theorem PassOrdered.failed (h : PassOrdered s p) {mark : Mark} (hmark : ∀ eventId now, mark ≠ .published eventId now) :
    PassOrdered s (p.onward mark (afterFailure p.groups)) := by
  apply PassOrdered.started rfl
  · exact fun g hg => h.copies g (List.mem_of_mem_tail hg)
  · exact fun before c after_ hg => h.ahead before c after_ (List.mem_of_mem_tail hg)
  · intro eventId at_ hmem
    rcases List.mem_append.mp hmem with hmem | hmem
    · exact h.marks eventId at_ hmem
    · exact absurd (List.mem_singleton.mp hmem).symm (hmark eventId at_)

theorem failureMark_ne (cfg : ProjectorConfig) (row : OutboxRow) (error : ProjectionError) (now : ℚ) (eventId : String)
    (at_ : ℚ) : failureMark cfg row error now ≠ .published eventId at_ := by
  unfold failureMark
  split <;> simp

theorem PassOrdered.ofClaim (h : Ordered s) {now : ℚ}
    (horderly : ∀ row ∈ s.claimed cfg now, ¬s.Written row.eventId → ∀ row' ∈ s.rows, row'.SameAggregate row →
      row'.sequence < row.sequence → row'.pending = true → ¬s.Written row'.eventId → row' ∈ s.claimable now) :
    PassOrdered s (.ofClaim (s.claimed cfg now)) := by
  have hmem : ∀ g ∈ groupByAggregate (s.claimed cfg now), ∀ row ∈ g, row ∈ s.claimed cfg now := by
    intro g hg row hrow
    obtain ⟨key, hspec, -⟩ := group_spec hg
    exact ((hspec row).mp hrow).1
  apply PassOrdered.started rfl
  · intro g hg row hrow
    exact ⟨row, (mem_claimable.mp (claimable_of_claimed (hmem g hg row hrow))).1, .refl row⟩
  · intro before row after_ hg hunwritten row' hrow' hagg hlt
    have hrow : row ∈ s.claimed cfg now := hmem _ hg row (by simp)
    by_cases hwritten : s.Written row'.eventId
    · exact .inl hwritten
    · by_cases hdead : row'.deadLetteredAt = none
      · -- A pending predecessor is claimed too, and so stands before the row in its group.
        have hunpublished : row'.publishedAt = none := by
          by_contra hpublished
          exact hwritten (h.published row' hrow' hpublished)
        have hpending : row'.pending = true := by simp [OutboxRow.pending, hunpublished, hdead]
        have hclaimed : row' ∈ s.claimed cfg now :=
          claimed_of_lt hrow (horderly row hrow hunwritten row' hrow' hagg hlt hpending hwritten) hlt
        obtain ⟨key, hspec, hsorted⟩ := group_spec hg
        have hkey : row'.aggregateKey = key := by
          have hrowKey := ((hspec row).mp (by simp)).2
          rw [← hrowKey, OutboxRow.aggregateKey, OutboxRow.aggregateKey, hagg.1, hagg.2]
        have hbefore : row' ∈ before := mem_before hsorted ((hspec row').mpr ⟨hclaimed, hkey⟩) hlt
        exact .inr (.inr (List.mem_map_of_mem hbefore))
      · exact .inr (.inl hdead)
  · intro eventId at_ hmark
    cases hmark

/-! ## Steps -/

theorem Ordered.new : Ordered (new : Outbox ι) where
  tables := .new
  events := by simp [Outbox.new]
  published := by simp [Outbox.new]
  passes := by simp [Outbox.new]

theorem Ordered.goesOn (h : Ordered s) (hon : GoesOn s s') (htables : Tables s') (htxs : s'.txs = s.txs)
    (hpublished : ∀ row ∈ s'.rows, row.publishedAt ≠ none → s'.Written row.eventId)
    (hpasses : ∀ q ∈ s'.passes, q ∈ s.passes ∨ PassOrdered s' q.2) : Ordered s' where
  tables := htables
  events := htxs ▸ h.events
  published := hpublished
  passes := by
    intro q hq
    rcases hpasses q hq with hold | hnew
    · exact (h.passes q hold).goesOn hon
    · exact hnew

section

variable (h : Ordered s)
include h

theorem Ordered.withPass [DecidableEq ι] (hp : PassOrdered s p) : Ordered (s.withPass i p) := by
  have hon : GoesOn s (s.withPass i p) := .same rfl rfl
  apply h.goesOn hon (h.tables.frame rfl rfl) rfl h.published
  intro q hq
  rcases mem_withPass hq with rfl | hold
  · exact .inr (hp.goesOn hon)
  · exact .inl hold

theorem Ordered.endPass [DecidableEq ι] : Ordered (s.endPass i) :=
  h.goesOn (.same rfl rfl) (h.tables.frame rfl rfl) rfl h.published fun _ hq => .inl (mem_endPass hq).1

theorem Ordered.enqueue {kind : EnqueueKind} (hkind : kind = .event) (event : OutboxEvent) :
    Ordered (s.enqueue kind event) := by
  have htables := h.tables.enqueue kind event
  unfold Outbox.enqueue at htables ⊢
  split at htables
  · exact h
  · refine { tables := htables, published := h.published, events := ?_, passes := ?_ }
    · intro j tx hj
      rcases Run.getElem?_snoc.mp hj with hj' | ⟨-, rfl⟩
      · exact h.events j tx hj'
      · exact ⟨hkind, by simp⟩
    · exact fun q hq => (h.passes q hq).goesOn (.same rfl rfl)

variable {j : ℕ} {tx : WriterTx}

theorem Ordered.withTx {state : WriterState} (hj : s.txs[j]? = some tx) (htables : Tables (s.withTx j tx state))
    (hstate : ∀ sequence now, state ≠ .updated sequence now) :
    Ordered (s.withTx j tx state) where
  tables := htables
  events := by
    intro k tx' hk
    rcases get_withTx hj hk with ⟨-, rfl⟩ | ⟨-, hk'⟩
    · exact ⟨(h.events j tx hj).1, hstate⟩
    · exact h.events k tx' hk'
  published := h.published
  passes := fun q hq => (h.passes q hq).goesOn (.same rfl rfl)

theorem Ordered.settle (hj : s.txs[j]? = some tx) (now : ℚ) : Ordered (s.settle j tx now) := by
  apply settle_cases now h
  · exact fun _ => h.withTx hj (h.tables.withTx hj (by simp)) (by simp)
  · intro hkind
    rw [(h.events j tx hj).1] at hkind
    cases hkind
  · exact fun sequence hinserting hstored => h.withTx hj (h.tables.insert hj hinserting hstored) (by simp)

variable [DecidableEq ι]

theorem Ordered.commitTx (hj : s.txs[j]? = some tx) (horderly : s.Orderly cfg (.commitTx j)) :
    Ordered (s.commitTx j tx) := by
  have hover : Ordered (s.withTx j tx .ended) := h.withTx hj (h.tables.withTx hj (by simp)) (by simp)
  have hsame : tx.commit s.rows = s.rows → Ordered (s.commitTx j tx) := by
    intro hrows
    have heq : s.commitTx j tx = s.withTx j tx .ended := by rw [Outbox.commitTx, hrows]; rfl
    exact heq ▸ hover
  cases hstate : tx.state with
  | inserted row =>
    have hrows : (s.commitTx j tx).rows = s.rows ++ [row] := by simp [Outbox.commitTx, WriterTx.commit, hstate]
    obtain ⟨-, -, hunpublished⟩ := h.tables.fresh j tx row hj hstate
    constructor
    case tables => exact h.tables.commitTx hj
    case events => exact hover.events
    case published =>
      rw [hrows]
      exact Run.forall_mem_snoc h.published fun hpublished => absurd hunpublished hpublished
    case passes =>
      intro q hq
      have hold := h.passes q hq
      constructor
      case copies =>
        intro g hg c hc
        obtain ⟨c', hc', hsameEvent⟩ := hold.copies g hg c hc
        exact ⟨c', hrows ▸ List.mem_append_left _ hc', hsameEvent⟩
      case ahead =>
        intro before c after_ hg hunwritten row' hrow' hagg hlt
        rw [hrows] at hrow'
        rcases List.mem_append.mp hrow' with hrow' | hrow'
        · exact hold.ahead before c after_ hg hunwritten row' hrow' hagg hlt
        · rw [List.mem_singleton.mp hrow'] at hagg hlt
          exact absurd (horderly tx row hj hstate q hq _ hg c (by simp) hagg hlt) hunwritten
      case routed => exact hold.routed
      case marking => exact hold.marking
      case marks => exact hold.marks
  | updated sequence now => exact absurd hstate ((h.events j tx hj).2 sequence now)
  | waiting sequence | ignored | ended => exact hsame (by simp [WriterTx.commit, hstate])

section

variable (hp : s.pass? i = some p)

include hp

theorem Ordered.mongo (now : ℚ) (outcome : MongoOutcome) : Ordered (s.mongo i p now outcome) := by
  have hpass : PassOrdered s p := h.passes _ (mem_of_pass? hp)
  apply mongo_cases i p now outcome h
  · intro row hstage hrow
    have hon : GoesOn s { s.withPass i { p with stage := .marking } with docs := replaceOne s.docs row now } :=
      .replaceOne rfl rfl
    have hwritten : Written { s.withPass i { p with stage := .marking } with docs := replaceOne s.docs row now }
        row.eventId := by
      have hrouted := hpass.routed hstage row hrow
      unfold startOf at hrouted
      split at hrouted
      · cases hrouted
      next collection hcollection => exact ⟨_, self_mem_replaceOne hcollection, rfl⟩
    apply h.goesOn hon (h.tables.frame rfl rfl) rfl (fun row' hrow' hpub => hon.written _ (h.published row' hrow' hpub))
    intro q hq
    rcases mem_withPass hq with rfl | hold
    · refine .inr ((hpass.goesOn hon).at (by simp) ?_)
      intro _ row' hrow'
      rw [hrow] at hrow'
      cases hrow'
      exact hwritten
    · exact .inl hold
  · intro row error docs hstage hrow hdocs
    have hon : GoesOn s { s.withPass i { p with stage := .recording (.other error) } with docs } := by
      rcases hdocs with rfl | rfl
      · exact .same rfl rfl
      · exact .replaceOne rfl rfl
    apply h.goesOn hon (h.tables.frame rfl rfl) rfl (fun row' hrow' hpub => hon.written _ (h.published row' hrow' hpub))
    intro q hq
    rcases mem_withPass hq with rfl | hold
    · exact .inr ((hpass.goesOn hon).at (by simp) (by simp))
    · exact .inl hold

theorem Ordered.mark (now : ℚ) (failure : Option String) : Ordered (s.mark i p now failure) := by
  have hpass : PassOrdered s p := h.passes _ (mem_of_pass? hp)
  apply mark_cases i p now failure h
  · exact fun row hstage hrow _ => h.withPass (hpass.published hrow hstage now)
  · exact fun error _ => h.withPass (hpass.at (by simp) (by simp))

theorem Ordered.record (now : ℚ) (fails : Bool) : Ordered (s.record cfg i p now fails) := by
  have hpass : PassOrdered s p := h.passes _ (mem_of_pass? hp)
  apply record_cases i p now fails h
  · exact fun row error _ _ _ => h.withPass (hpass.failed (failureMark_ne cfg row error now))
  · exact h.endPass

theorem Ordered.commit (fails : Bool) : Ordered (s.commit i p fails) := by
  have hpass : PassOrdered s p := h.passes _ (mem_of_pass? hp)
  apply commit_cases i p fails h
  · intro _
    have hon : GoesOn s { s.endPass i with rows := p.marks.foldl Mark.apply s.rows } := .marked rfl rfl
    apply h.goesOn hon (h.tables.frame (rows_commit p.marks s.rows) rfl) rfl
    · intro row' hrow' hpublished
      have hmapped : row' ∈ s.rows.map (Mark.setAll p.marks) := Mark.foldl_apply p.marks s.rows ▸ hrow'
      obtain ⟨row, hrow, rfl⟩ := List.mem_map.mp hmapped
      rw [← (Mark.sameEvent_setAll p.marks row).eventId]
      rcases Mark.published_setAll hpublished with hold | ⟨now, hmark⟩
      · exact h.published row hrow hold
      · exact hpass.marks row.eventId now hmark
    · exact fun q hq => .inl (mem_endPass hq).1
  · exact h.endPass

end

theorem Ordered.crash (now : ℚ) (landed : Bool) : Ordered (s.crash i p now landed) := by
  apply crash_cases i p now landed
  · intro row _ _
    have hon : GoesOn s { s.endPass i with docs := replaceOne s.docs row now } := .replaceOne rfl rfl
    exact h.goesOn hon (h.tables.frame rfl rfl) rfl (fun row' hrow' hpub => hon.written _ (h.published row' hrow' hpub))
      fun q hq => .inl (mem_endPass hq).1
  · exact h.endPass

theorem Ordered.step {e : OutboxStep ι} (hevents : OfEvents e) (horderly : s.Orderly cfg e) : Ordered (s.after cfg e) := by
  apply step_cases e h
  case henqueue =>
    rintro kind event rfl
    exact h.enqueue hevents event
  case hsettle => exact fun j tx now hj => h.settle hj now
  case hcommitTx =>
    rintro j tx rfl hj
    exact h.commitTx hj horderly
  case hrollBackTx => exact fun j tx hj => h.withTx hj (h.tables.withTx hj (by simp)) (by simp)
  case hclaim =>
    rintro i now rfl
    exact claim_cases i now h fun hnone => h.withPass (.ofClaim h (horderly hnone))
  case hmongo => exact fun i p now outcome hp => h.mongo hp now outcome
  case hmark => exact fun i p now failure hp => h.mark hp now failure
  case hrecord => exact fun i p now fails hp => h.record hp now fails
  case hcommit => exact fun i p fails hp => h.commit hp fails
  case hlose =>
    intro i p hp
    have hpass : PassOrdered s p := h.passes _ (mem_of_pass? hp)
    exact h.withPass { hpass with }
  case hcrash => exact fun i p now landed _ => h.crash now landed

end

/-! ## First writes -/

variable [DecidableEq ι]

def FromRow (s : Outbox ι) (eventId : String) (s' : Outbox ι) : Prop :=
  s'.Written eventId → ∃ i p row, s.pass? i = some p ∧ p.row? = some row ∧ row.eventId = eventId

section

variable {eventId : String} (hunwritten : ¬s.Written eventId)
include hunwritten

theorem fromRow_same (hdocs : s'.docs = s.docs) : FromRow s eventId s' := by
  intro hwritten
  unfold Written at hwritten
  rw [hdocs] at hwritten
  exact absurd hwritten hunwritten

theorem fromRow_replaceOne {row : OutboxRow} {now : ℚ} (hp : s.pass? i = some p) (hrow : p.row? = some row)
    (hdocs : s'.docs = replaceOne s.docs row now) : FromRow s eventId s' := by
  intro hwritten
  unfold Written at hwritten
  rw [hdocs] at hwritten
  obtain ⟨d, hd, hid⟩ := hwritten
  rcases mem_replaceOne hd with ⟨-, hdoc⟩ | ⟨hold, -⟩
  · exact ⟨i, p, row, hp, hrow, by rw [← hid, hdoc]; rfl⟩
  · exact absurd ⟨d, hold, hid⟩ hunwritten

theorem fromRow_after (e : OutboxStep ι) : FromRow s eventId (s.after cfg e) := by
  have hsame : FromRow s eventId s := fromRow_same hunwritten rfl
  apply step_cases e hsame
  case henqueue =>
    intro kind event _
    unfold Outbox.enqueue
    split
    · exact hsame
    · exact fromRow_same hunwritten rfl
  case hsettle =>
    intro j tx now hj
    apply settle_cases now hsame
    · exact fun _ => fromRow_same hunwritten rfl
    · exact fun _ _ _ => fromRow_same hunwritten rfl
    · exact fun _ _ _ => fromRow_same hunwritten rfl
  case hcommitTx => exact fun j tx _ _ => fromRow_same hunwritten rfl
  case hrollBackTx => exact fun j tx _ => fromRow_same hunwritten rfl
  case hclaim => exact fun i now _ => claim_cases i now hsame fun _ => fromRow_same hunwritten rfl
  case hmongo =>
    intro i p now outcome hp
    apply mongo_cases i p now outcome hsame
    · exact fun row _ hrow => fromRow_replaceOne hunwritten hp hrow rfl
    · intro row error docs _ hrow hdocs
      rcases hdocs with rfl | rfl
      · exact fromRow_same hunwritten rfl
      · exact fromRow_replaceOne hunwritten hp hrow rfl
  case hmark =>
    intro i p now failure _
    apply mark_cases i p now failure hsame
    · exact fun _ _ _ _ => fromRow_same hunwritten rfl
    · exact fun _ _ => fromRow_same hunwritten rfl
  case hrecord =>
    intro i p now fails _
    apply record_cases i p now fails hsame
    · exact fun _ _ _ _ _ => fromRow_same hunwritten rfl
    · exact fromRow_same hunwritten rfl
  case hcommit =>
    intro i p fails _
    apply commit_cases i p fails hsame
    · exact fun _ => fromRow_same hunwritten rfl
    · exact fromRow_same hunwritten rfl
  case hlose => exact fun i p _ => fromRow_same hunwritten rfl
  case hcrash =>
    intro i p now landed hp
    apply crash_cases i p now landed
    · exact fun row _ hrow => fromRow_replaceOne hunwritten hp hrow rfl
    · exact fromRow_same hunwritten rfl

end

theorem Ordered.firstInOrder (h : Ordered s) (e : OutboxStep ι) : FirstInOrder cfg s e := by
  intro eventId hunwritten hwritten
  obtain ⟨i, p, row, hp, hrow, rfl⟩ := fromRow_after hunwritten e hwritten
  obtain ⟨rest, groups, hgroups⟩ := ProjectorPass.row?_eq_some hrow
  have hpass : PassOrdered s p := h.passes _ (mem_of_pass? hp)
  have hhead : row :: rest ∈ p.groups := hgroups ▸ List.mem_cons_self ..
  obtain ⟨stored, hstored, hsame⟩ := hpass.copies _ hhead row (.head _)
  refine ⟨stored, hstored, hsame.eventId, ?_⟩
  intro row' hrow' hagg hlt
  have hagg' : row'.SameAggregate row := ⟨hagg.1.trans hsame.aggregate.1, hagg.2.trans hsame.aggregate.2⟩
  rcases hpass.ahead [] row rest hhead hunwritten row' hrow' hagg' (hsame.sequence ▸ hlt) with hw | hdead | hbefore
  · exact .inl hw
  · exact .inr hdead
  · simp at hbefore

/-- In an orderly run every event is first written after the earlier ones of its aggregate. -/
theorem firstInOrder_run (cfg : ProjectorConfig) {events : List (OutboxStep ι)} (hevents : ∀ e ∈ events, OfEvents e)
    (h : Run.Guarded (step cfg) (Orderly cfg) new events) :
    ∀ earlier e later, events = earlier ++ e :: later → FirstInOrder cfg (Run.finish (step cfg) new earlier) e := by
  rintro earlier e later rfl
  have hall : ∀ (earlier : List (OutboxStep ι)) (s : Outbox ι), Ordered s → (∀ e ∈ earlier, OfEvents e) →
      Run.Guarded (step cfg) (Orderly cfg) s earlier → Ordered (Run.finish (step cfg) s earlier) := by
    intro earlier
    induction earlier with
    | nil => exact fun s hs _ _ => hs
    | cons e earlier ih =>
      intro s hs he hguard
      exact ih _ (hs.step (he e (.head _)) hguard.1) (fun e' he' => he e' (.tail _ he')) hguard.2
  have hordered := hall earlier new .new (fun e he => hevents e (List.mem_append_left _ he)) h.append.1
  exact hordered.firstInOrder e

/-! ## A row that waits is overtaken -/

def defaults : ProjectorConfig := ⟨100, 60000, 10⟩

def trade (eventId eventType : String) : OutboxEvent :=
  ⟨eventId, "box_trade", "T1", eventType, none, .obj [("status", .str eventType)]⟩

def opened : List (OutboxStep Unit) := [.enqueue .event (trade "T1-opened" "trade_opened"), .settle 0 1, .commitTx 0]

def closed : List (OutboxStep Unit) := [.enqueue .event (trade "T1-closed" "trade_closed"), .settle 1 2, .commitTx 1]

def delivers : List (OutboxStep Unit) := opened ++ closed ++ [.claim () 10, .mongo () 11 .written, .mark () 12 none]

def delivered (events : List (OutboxStep Unit)) : List String :=
  (Run.finish (step defaults) new events).docs.map fun d => d.doc.id

/-- One pass claims both events of the trade and writes them in order. -/
theorem firstInOrder_run_delivers :
    delivered delivers = ["T1-opened"] ∧ delivered (delivers ++ [.mongo () 13 .written]) = ["T1-opened", "T1-closed"] ∧
      FirstInOrder defaults (Run.finish (step defaults) new delivers) (.mongo () 13 .written) := by
  refine ⟨by decide +kernel, by decide +kernel,
    @firstInOrder_run _ _ defaults (delivers ++ [.mongo () 13 .written]) ?_ ?_ _ _ [] rfl⟩
  · intro e he
    simp only [delivers, opened, closed, List.cons_append, List.nil_append, List.mem_cons, List.not_mem_nil, or_false] at he
    rcases he with rfl | rfl | rfl | rfl | rfl | rfl | rfl | rfl | rfl | rfl <;> simp [OfEvents]
  · refine ⟨trivial, trivial, ?_, trivial, trivial, ?_, ?_, trivial, trivial, trivial, trivial⟩
    · intro tx row _ _ q hq
      cases hq
    · intro tx row _ _ q hq
      cases hq
    · intro _ row _ _ row' hrow' _ _ _ _
      -- both rows are due and unlocked
      have hlength : ((Run.finish (step defaults) new (opened ++ closed)).claimable 10).length =
          (Run.finish (step defaults) new (opened ++ closed)).rows.length := by decide +kernel
      have hall : (Run.finish (step defaults) new (opened ++ closed)).claimable 10 =
          (Run.finish (step defaults) new (opened ++ closed)).rows := List.filter_sublist.eq_of_length hlength
      exact (congrArg (row' ∈ ·) hall).mpr hrow'

def overtakes : List (OutboxStep Unit) :=
  opened ++ closed ++ [.claim () 10, .mongo () 11 (.rejected false "timeout"), .record () 12 false, .commit () false,
    .claim () 20]

def place (row : OutboxRow) : String × (String × String) × ℕ × Option ℚ :=
  (row.eventId, (row.aggregateType, row.aggregateId), row.sequence, row.deadLetteredAt)

theorem overtaken : ¬FirstInOrder defaults (Run.finish (step defaults) new overtakes) (.mongo () 21 .written) := by
  intro h
  have hdocs : (Run.finish (step defaults) new overtakes).docs.length = 0 := by decide +kernel
  have hdocs' : ((Run.finish (step defaults) new overtakes).after defaults (.mongo () 21 .written)).docs.map
      (fun d => d.doc.id) = ["T1-closed"] := by decide +kernel
  have hrows : (Run.finish (step defaults) new overtakes).rows.map place =
      [("T1-opened", ("box_trade", "T1"), 1, none), ("T1-closed", ("box_trade", "T1"), 2, none)] := by decide +kernel
  have hnone : ∀ eventId, ¬(Run.finish (step defaults) new overtakes).Written eventId := by
    rintro eventId ⟨d, hd, -⟩
    rw [List.length_eq_zero_iff.mp hdocs] at hd
    cases hd
  have hnow : ((Run.finish (step defaults) new overtakes).after defaults (.mongo () 21 .written)).Written "T1-closed" :=
    List.mem_map.mp (hdocs' ▸ List.mem_singleton_self "T1-closed")
  obtain ⟨row, hrow, hid, hearlier⟩ := h "T1-closed" (hnone _) hnow
  have hmem : ("T1-opened", ("box_trade", "T1"), 1, none) ∈ (Run.finish (step defaults) new overtakes).rows.map place := by
    rw [hrows]
    exact .head _
  obtain ⟨row', hrow', hplace'⟩ := List.mem_map.mp hmem
  have hplace : place row ∈ (Run.finish (step defaults) new overtakes).rows.map place := List.mem_map_of_mem hrow
  rw [hrows] at hplace
  simp only [place, hid, List.mem_cons, Prod.mk.injEq, List.not_mem_nil, or_false] at hplace
  simp only [place, Prod.mk.injEq] at hplace'
  rcases hplace with ⟨hwrong, -⟩ | ⟨-, ⟨htype, haggregate⟩, hsequence, -⟩
  · exact absurd hwrong (by decide)
  · obtain ⟨-, ⟨htype', haggregate'⟩, hsequence', hdead'⟩ := hplace'
    have hlt : row'.sequence < row.sequence := by omega
    rcases hearlier row' hrow' ⟨htype'.trans htype.symm, haggregate'.trans haggregate.symm⟩ hlt with hw | hdead
    · exact hnone _ hw
    · exact hdead hdead'

end Outbox

end BoxEngine
