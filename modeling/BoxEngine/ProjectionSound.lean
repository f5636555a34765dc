import BoxEngine.ProjectorFrames

/-!
# The effect of a projection

With one projector a published row has the one document of its values, no document stands for an uncommitted event,
and a committed row stays until it is published or dead-lettered.
-/

namespace BoxEngine

open Js

def OutboxRow.Mirrored (row : OutboxRow) (docs : List MongoDoc) : Prop :=
  ∃ d ∈ docs, collectionForAggregate row.aggregateType = some d.collection ∧ d.doc = row.document d.doc.projectedAt

namespace Outbox

variable {cfg : ProjectorConfig} {s s' : Outbox Unit} {p : ProjectorPass}

/-- A published row has one document, and it is the row's. -/
structure ExactlyOnce (s : Outbox Unit) : Prop where
  ids : (s.rows.map OutboxRow.eventId).Nodup
  document : ∀ row ∈ s.rows, row.publishedAt ≠ none → ∃ d, s.docs.filter (fun d => d.doc.id = row.eventId) = [d] ∧
    collectionForAggregate row.aggregateType = some d.collection ∧ d.doc = row.document d.doc.projectedAt
  committed : ∀ d ∈ s.docs, ∃ row ∈ s.rows, row.eventId = d.doc.id
  claimable : s.passes = [] → ∀ row ∈ s.rows, row.publishedAt ≠ none ∨ row.deadLetteredAt ≠ none ∨
    ∀ now, row.nextAttemptAt ≤ now → s.updating row.eventId = false → row ∈ s.claimable now

structure PassExact (s : Outbox Unit) (p : ProjectorPass) : Prop where
  claimed : ∀ g ∈ p.groups, ∀ row ∈ g, row.eventId ∈ p.claimed
  stored : ∀ g ∈ p.groups, ∀ row ∈ g, ∃ row' ∈ s.rows, row'.eventId = row.eventId ∧ row'.aggregateType = row.aggregateType
  known : ∀ eventId ∈ p.claimed, eventId ∈ s.rows.map OutboxRow.eventId
  unpublished : ∀ row ∈ s.rows, row.eventId ∈ p.claimed → row.publishedAt = none
  copies : p.tx ≠ .lost → ∀ g ∈ p.groups, ∀ row ∈ g, row ∈ s.rows
  routed : p.stage = .writing → ∀ row, p.row? = some row → startOf row = .writing
  marking : p.stage = .marking → ∀ row, p.row? = some row → row.Mirrored s.docs
  marks : ∀ mark ∈ p.marks, mark.eventId ∈ p.claimed
  published : p.tx ≠ .lost → ∀ eventId now, .published eventId now ∈ p.marks →
    ∀ row ∈ s.rows, row.eventId = eventId → row.Mirrored s.docs

/-- What makes it so at every step: the tables, the documents and the passes under way. -/
structure Exact (s : Outbox Unit) : Prop where
  tables : Tables s
  keys : (s.docs.map MongoDoc.key).Nodup
  docs : ∀ d ∈ s.docs, ∃ row ∈ s.rows, row.eventId = d.doc.id ∧ collectionForAggregate row.aggregateType = some d.collection
  published : ∀ row ∈ s.rows, row.publishedAt ≠ none → row.Mirrored s.docs
  exclusive : ∀ (j : ℕ) (tx : WriterTx), s.txs[j]? = some tx → ∀ q ∈ s.passes, q.2.tx ≠ .lost → ∀ eventId,
    tx.updating eventId = true → eventId ∉ q.2.claimed
  passes : ∀ q ∈ s.passes, PassExact s q.2

theorem mem_withPass_unit {q : Unit × ProjectorPass} (h : q ∈ (s.withPass () p).passes) : q = ((), p) := by
  rcases Keyed.mem_put_ne h with heq | ⟨-, hne⟩
  · exact heq
  · exact absurd rfl hne

theorem passes_endPass_unit : (s.endPass ()).passes = [] := by
  simp [endPass]

section

variable {docs : List MongoDoc} {row row' : OutboxRow} {now : ℚ}

theorem mirrored_replaceOne_of_ne (h : row'.Mirrored docs) (hne : row'.eventId ≠ row.eventId) :
    row'.Mirrored (replaceOne docs row now) := by
  obtain ⟨d, hd, hcollection, hdoc⟩ := h
  refine ⟨d, mem_replaceOne_of_ne hd ?_, hcollection, hdoc⟩
  rw [hdoc]
  exact hne

theorem mirrored_replaceOne_self (h : startOf row = .writing) : row.Mirrored (replaceOne docs row now) := by
  unfold startOf at h
  split at h
  · cases h
  next collection hcollection => exact ⟨_, self_mem_replaceOne hcollection, hcollection, rfl⟩

theorem nodup_replaceOne (h : (docs.map MongoDoc.key).Nodup) : ((replaceOne docs row now).map MongoDoc.key).Nodup := by
  unfold replaceOne
  split
  · exact Keyed.nodup_put h _
  · exact h

end

theorem document_setAll (marks : List Mark) (row : OutboxRow) (now : ℚ) :
    (Mark.setAll marks row).document now = row.document now := by
  refine Mark.setAll_keeps (P := fun r => r.document now = row.document now) rfl ?_
  intro mark _ row' h
  rw [← h]
  cases mark <;> rfl

theorem mirrored_setAll {docs : List MongoDoc} {marks : List Mark} {row : OutboxRow} (h : row.Mirrored docs) :
    (Mark.setAll marks row).Mirrored docs := by
  obtain ⟨d, hd, hcollection, hdoc⟩ := h
  refine ⟨d, hd, ?_, hdoc.trans (document_setAll marks row _).symm⟩
  rw [← (Mark.sameEvent_setAll marks row).aggregate.1]
  exact hcollection

/-! ## The pass itself -/

theorem PassExact.frame (h : PassExact s p) (hrows : s'.rows = s.rows) (hdocs : s'.docs = s.docs) : PassExact s' p where
  claimed := h.claimed
  stored := by rw [hrows]; exact h.stored
  known := by rw [hrows]; exact h.known
  unpublished := by rw [hrows]; exact h.unpublished
  copies := by rw [hrows]; exact h.copies
  routed := h.routed
  marking := by rw [hdocs]; exact h.marking
  marks := h.marks
  published := by rw [hrows, hdocs]; exact h.published

theorem PassExact.at (h : PassExact s p) {stage : PassStage} {tx : PassTx} (htx : tx ≠ .lost → p.tx ≠ .lost)
    (hrouted : stage = .writing → ∀ row, p.row? = some row → startOf row = .writing)
    (hmarking : stage = .marking → ∀ row, p.row? = some row → row.Mirrored s.docs) : PassExact s { p with stage, tx } where
  claimed := h.claimed
  stored := h.stored
  known := h.known
  unpublished := h.unpublished
  copies := fun hlive => h.copies (htx hlive)
  routed := hrouted
  marking := hmarking
  marks := h.marks
  published := fun hlive => h.published (htx hlive)

theorem PassExact.onward (h : PassExact s p) {mark : Mark} {groups : List (List OutboxRow)}
    (hgroups : ∀ g ∈ groups, ∀ row ∈ g, ∃ g' ∈ p.groups, row ∈ g') (hmark : mark.eventId ∈ p.claimed)
    (hpublished : p.tx ≠ .lost → ∀ eventId now, mark = .published eventId now →
      ∀ row ∈ s.rows, row.eventId = eventId → row.Mirrored s.docs) : PassExact s (p.onward mark groups) where
  claimed := by
    intro g hg row hrow
    obtain ⟨g', hg', hrow'⟩ := hgroups g hg row hrow
    exact h.claimed g' hg' row hrow'
  stored := by
    intro g hg row hrow
    obtain ⟨g', hg', hrow'⟩ := hgroups g hg row hrow
    exact h.stored g' hg' row hrow'
  known := h.known
  unpublished := h.unpublished
  copies := by
    intro hlive g hg row hrow
    obtain ⟨g', hg', hrow'⟩ := hgroups g hg row hrow
    exact h.copies hlive g' hg' row hrow'
  routed := (stageOf_eq (p := p.onward mark groups) rfl).1
  marking := fun hstage => absurd hstage (stageOf_eq (p := p.onward mark groups) rfl).2
  marks := Run.forall_mem_snoc h.marks hmark
  published := by
    intro hlive eventId now hmem
    rcases List.mem_append.mp hmem with hmem | hmem
    · exact h.published hlive eventId now hmem
    · exact hpublished hlive eventId now (List.mem_singleton.mp hmem).symm

theorem PassExact.ofClaim (htables : Tables s) (now : ℚ) : PassExact s (.ofClaim (s.claimed cfg now)) := by
  have hmem : ∀ g ∈ groupByAggregate (s.claimed cfg now), ∀ row ∈ g, row ∈ s.claimed cfg now := by
    intro g hg row hrow
    obtain ⟨key, hspec, -⟩ := group_spec hg
    exact ((hspec row).mp hrow).1
  have hstored : ∀ row ∈ s.claimed cfg now, row ∈ s.rows ∧ row.due now = true := by
    intro row hrow
    have hclaimable := mem_claimable.mp (claimable_of_claimed hrow)
    exact ⟨hclaimable.1, hclaimable.2.1⟩
  constructor
  case claimed => exact fun g hg row hrow => List.mem_map_of_mem (hmem g hg row hrow)
  case stored => exact fun g hg row hrow => ⟨row, (hstored row (hmem g hg row hrow)).1, rfl, rfl⟩
  case known =>
    intro eventId hid
    obtain ⟨row, hrow, rfl⟩ := List.mem_map.mp hid
    exact List.mem_map_of_mem (hstored row hrow).1
  case unpublished =>
    intro row hrow hid
    obtain ⟨row', hrow', heq⟩ := List.mem_map.mp hid
    obtain rfl : row' = row := eq_of_eventId htables.ids (hstored row' hrow').1 hrow heq
    have hdue := (hstored row' hrow').2
    simp only [OutboxRow.due, OutboxRow.pending, Bool.and_eq_true, Option.isNone_iff_eq_none] at hdue
    exact hdue.1.1
  case copies => exact fun _ g hg row hrow => (hstored row (hmem g hg row hrow)).1
  case routed => exact (stageOf_eq (p := .ofClaim (s.claimed cfg now)) rfl).1
  case marking => exact fun hstage => absurd hstage (stageOf_eq (p := .ofClaim (s.claimed cfg now)) rfl).2
  case marks => simp [ProjectorPass.ofClaim]
  case published => simp [ProjectorPass.ofClaim]

theorem eventId_failureMark (cfg : ProjectorConfig) (row : OutboxRow) (error : ProjectionError) (now : ℚ) :
    (failureMark cfg row error now).eventId = row.eventId := by
  unfold failureMark
  split <;> rfl

theorem PassExact.at_row (h : PassExact s p) {row : OutboxRow} (hrow : p.row? = some row) :
    ∃ g ∈ p.groups, row ∈ g ∧ row.eventId ∈ p.claimed := by
  obtain ⟨rest, groups, hgroups⟩ := ProjectorPass.row?_eq_some hrow
  have hg : row :: rest ∈ p.groups := hgroups ▸ List.mem_cons_self ..
  exact ⟨row :: rest, hg, List.mem_cons_self .., h.claimed _ hg row (.head _)⟩

/-! ## Steps -/

theorem Exact.new : Exact (new : Outbox Unit) where
  tables := .new
  keys := by simp [Outbox.new]
  docs := by simp [Outbox.new]
  published := by simp [Outbox.new]
  exclusive := by simp [Outbox.new]
  passes := by simp [Outbox.new]

section

variable (h : Exact s)
include h

theorem Exact.withPass (hp : PassExact s p)
    (hexclusive : ∀ (j : ℕ) (tx : WriterTx), s.txs[j]? = some tx → p.tx ≠ .lost → ∀ eventId, tx.updating eventId = true →
      eventId ∉ p.claimed) : Exact (s.withPass () p) where
  tables := h.tables.frame rfl rfl
  keys := h.keys
  docs := h.docs
  published := h.published
  exclusive := by
    intro j tx hj q hq
    rw [mem_withPass_unit hq]
    exact hexclusive j tx hj
  passes := by
    intro q hq
    rw [mem_withPass_unit hq]
    exact hp.frame rfl rfl

theorem Exact.endPass : Exact (s.endPass ()) where
  tables := h.tables.frame rfl rfl
  keys := h.keys
  docs := h.docs
  published := h.published
  exclusive := by simp [passes_endPass_unit]
  passes := by simp [passes_endPass_unit]

variable {j : ℕ} {tx : WriterTx}

theorem Exact.withTx {state : WriterState} (hj : s.txs[j]? = some tx) (htables : Tables (s.withTx j tx state))
    (hstate : ∀ eventId, WriterTx.updating { tx with state } eventId = false) :
    Exact (s.withTx j tx state) where
  tables := htables
  keys := h.keys
  docs := h.docs
  published := h.published
  exclusive := by
    intro k tx' hk q hq hlive eventId hupdating
    rcases get_withTx hj hk with ⟨-, rfl⟩ | ⟨-, hk'⟩
    · rw [hstate] at hupdating
      cases hupdating
    · exact h.exclusive k tx' hk' q hq hlive eventId hupdating
  passes := fun q hq => (h.passes q hq).frame rfl rfl

theorem Exact.enqueue (kind : EnqueueKind) (event : OutboxEvent) : Exact (s.enqueue kind event) := by
  have htables := h.tables.enqueue kind event
  unfold Outbox.enqueue at htables ⊢
  split at htables
  · exact h
  · constructor
    case tables => exact htables
    case keys => exact h.keys
    case docs => exact h.docs
    case published => exact h.published
    case exclusive =>
      intro j tx hj
      rcases Run.getElem?_snoc.mp hj with hj' | ⟨-, rfl⟩
      · exact h.exclusive j tx hj'
      · simp [WriterTx.updating]
    case passes => exact fun q hq => (h.passes q hq).frame rfl rfl

theorem Exact.settle (hj : s.txs[j]? = some tx) (now : ℚ) : Exact (s.settle j tx now) := by
  apply settle_cases now h
  · exact fun _ => h.withTx hj (h.tables.withTx hj (by simp)) (by simp [WriterTx.updating])
  · intro _ hlocked _
    -- The row the statement updates is locked by no pass.
    constructor
    case tables => exact (h.tables.withTx hj (by simp)).frame rfl rfl
    case keys => exact h.keys
    case docs => exact h.docs
    case published => exact h.published
    case passes => exact fun q hq => (h.passes q hq).frame rfl rfl
    case exclusive =>
      intro k tx' hk q hq hlive eventId hupdating
      rcases get_withTx hj hk with ⟨-, rfl⟩ | ⟨-, hk'⟩
      · have hid : tx.event.eventId = eventId := by simpa [WriterTx.updating] using hupdating
        have hnot := List.any_eq_false.mp hlocked q hq
        rw [← hid]
        simpa [ProjectorPass.locks, hlive] using hnot
      · exact h.exclusive k tx' hk' q hq hlive eventId hupdating
  · exact fun _ hinserting hstored => h.withTx hj (h.tables.insert hj hinserting hstored) (by simp [WriterTx.updating])

variable {row : OutboxRow}

theorem Exact.insertRow (hj : s.txs[j]? = some tx) (hstate : tx.state = .inserted row) : Exact (s.commitTx j tx) := by
  have hover : Exact (s.withTx j tx .ended) := h.withTx hj (h.tables.withTx hj (by simp)) (by simp [WriterTx.updating])
  have hrows : (s.commitTx j tx).rows = s.rows ++ [row] := by simp [Outbox.commitTx, WriterTx.commit, hstate]
  obtain ⟨-, hnew, hunpublished⟩ := h.tables.fresh j tx row hj hstate
  constructor
  case tables => exact h.tables.commitTx hj
  case keys => exact h.keys
  case docs =>
    intro d hd
    obtain ⟨row', hrow', hdoc⟩ := h.docs d hd
    exact ⟨row', hrows ▸ List.mem_append_left _ hrow', hdoc⟩
  case published =>
    rw [hrows]
    exact Run.forall_mem_snoc h.published fun hpublished => absurd hunpublished hpublished
  case exclusive => exact hover.exclusive
  case passes =>
    intro q hq
    have hold := h.passes q hq
    constructor
    case claimed => exact hold.claimed
    case stored =>
      intro g hg c hc
      obtain ⟨c', hc', hsame⟩ := hold.stored g hg c hc
      exact ⟨c', hrows ▸ List.mem_append_left _ hc', hsame⟩
    case known =>
      intro eventId hid
      rw [hrows, List.map_append]
      exact List.mem_append_left _ (hold.known eventId hid)
    case unpublished =>
      rw [hrows]
      exact Run.forall_mem_snoc hold.unpublished fun _ => hunpublished
    case copies => exact fun hlive g hg c hc => hrows ▸ List.mem_append_left _ (hold.copies hlive g hg c hc)
    case routed => exact hold.routed
    case marking => exact hold.marking
    case marks => exact hold.marks
    case published =>
      intro hlive eventId now hmark
      rw [hrows]
      apply Run.forall_mem_snoc (hold.published hlive eventId now hmark)
      rintro rfl
      exact absurd (hold.known _ (hold.marks _ hmark)) hnew

theorem Exact.reviveRow {sequence : ℕ} {now : ℚ} (hj : s.txs[j]? = some tx)
    (hstate : tx.state = .updated sequence now) : Exact (s.commitTx j tx) := by
  have hover : Exact (s.withTx j tx .ended) := h.withTx hj (h.tables.withTx hj (by simp)) (by simp [WriterTx.updating])
  have hrows : (s.commitTx j tx).rows =
      s.rows.map fun row => if row.eventId = tx.event.eventId then row.revive tx.event sequence now else row := by
    simp [Outbox.commitTx, WriterTx.commit, hstate]
  have hids : (s.commitTx j tx).rows.map OutboxRow.eventId = s.rows.map OutboxRow.eventId := by
    rw [hrows]
    apply map_eventId_map
    intro row
    split <;> rfl
  have hforth : ∀ row ∈ s.rows, ∃ row' ∈ (s.commitTx j tx).rows, row'.eventId = row.eventId ∧
      row'.aggregateType = row.aggregateType := by
    intro row hrow
    refine ⟨if row.eventId = tx.event.eventId then row.revive tx.event sequence now else row, ?_, ?_⟩
    · rw [hrows]
      exact List.mem_map_of_mem hrow
    · split <;> exact ⟨rfl, rfl⟩
  -- a row after the commit waits for delivery or was there before
  have hback : ∀ row' ∈ (s.commitTx j tx).rows, row'.publishedAt = none ∨ (row' ∈ s.rows) := by
    intro row' hrow'
    rw [hrows] at hrow'
    obtain ⟨row, hrow, rfl⟩ := List.mem_map.mp hrow'
    split
    · exact .inl rfl
    · exact .inr hrow
  have hkept : ∀ row ∈ s.rows, row.eventId ≠ tx.event.eventId → row ∈ (s.commitTx j tx).rows := by
    intro row hrow hne
    rw [hrows]
    exact List.mem_map.mpr ⟨row, hrow, if_neg hne⟩
  constructor
  case tables => exact h.tables.commitTx hj
  case keys => exact h.keys
  case docs =>
    intro d hd
    obtain ⟨row, hrow, hid, hcollection⟩ := h.docs d hd
    obtain ⟨row', hrow', hid', htype⟩ := hforth row hrow
    exact ⟨row', hrow', hid'.trans hid, by rw [htype, hcollection]⟩
  case published =>
    intro row' hrow' hpublished
    rcases hback row' hrow' with hnone | hold
    · exact absurd hnone hpublished
    · exact h.published row' hold hpublished
  case exclusive => exact hover.exclusive
  case passes =>
    intro q hq
    have hold := h.passes q hq
    have hfree : q.2.tx ≠ .lost → tx.event.eventId ∉ q.2.claimed :=
      fun hlive => h.exclusive j tx hj q hq hlive _ (by simp [WriterTx.updating, hstate])
    constructor
    case claimed => exact hold.claimed
    case stored =>
      intro g hg c hc
      obtain ⟨row, hrow, hid, htype⟩ := hold.stored g hg c hc
      obtain ⟨row', hrow', hid', htype'⟩ := hforth row hrow
      exact ⟨row', hrow', hid'.trans hid, htype'.trans htype⟩
    case known =>
      rw [hids]
      exact hold.known
    case unpublished =>
      intro row' hrow' hid
      rcases hback row' hrow' with hnone | hrow
      · exact hnone
      · exact hold.unpublished row' hrow hid
    case copies =>
      intro hlive g hg c hc
      apply hkept c (hold.copies hlive g hg c hc)
      intro heq
      exact hfree hlive (heq ▸ hold.claimed g hg c hc)
    case routed => exact hold.routed
    case marking => exact hold.marking
    case marks => exact hold.marks
    case published =>
      intro hlive eventId at_ hmark row' hrow' hid
      have hclaimed : eventId ∈ q.2.claimed := hold.marks _ hmark
      rw [hrows] at hrow'
      obtain ⟨row, hrow, rfl⟩ := List.mem_map.mp hrow'
      split at hid
      next heq => exact absurd (heq ▸ hid ▸ hclaimed) (hfree hlive)
      next hne =>
        rw [if_neg hne]
        exact hold.published hlive eventId at_ hmark row hrow hid

theorem Exact.commitTx (hj : s.txs[j]? = some tx) : Exact (s.commitTx j tx) := by
  have hsame : tx.commit s.rows = s.rows → Exact (s.commitTx j tx) := by
    intro hrows
    have heq : s.commitTx j tx = s.withTx j tx .ended := by rw [Outbox.commitTx, hrows]; rfl
    exact heq ▸ h.withTx hj (h.tables.withTx hj (by simp)) (by simp [WriterTx.updating])
  cases hstate : tx.state with
  | inserted row => exact h.insertRow hj hstate
  | updated sequence now => exact h.reviveRow hj hstate
  | waiting sequence | ignored | ended => exact hsame (by simp [WriterTx.commit, hstate])

theorem Exact.replaceOne (hp : PassExact s p) (hrow : p.row? = some row) {now : ℚ} {t : Outbox Unit}
    (hrows : t.rows = s.rows) (htxs : t.txs = s.txs) (hdocs : t.docs = BoxEngine.replaceOne s.docs row now)
    (hpasses : ∀ q ∈ t.passes, PassExact t q.2 ∧ q.2.claimed = p.claimed ∧ (q.2.tx ≠ .lost → p.tx ≠ .lost))
    (hexclusive : ∀ (j : ℕ) (tx : WriterTx), s.txs[j]? = some tx → p.tx ≠ .lost → ∀ eventId,
      tx.updating eventId = true → eventId ∉ p.claimed) :
    Exact t := by
  obtain ⟨g, hg, hmem, hclaimed⟩ := hp.at_row hrow
  constructor
  case tables => exact h.tables.frame (congrArg _ hrows) htxs
  case keys =>
    rw [hdocs]
    exact nodup_replaceOne h.keys
  case docs =>
    rw [hdocs, hrows]
    intro d hd
    rcases mem_replaceOne hd with ⟨hcollection, hdoc⟩ | ⟨hold, -⟩
    · obtain ⟨row', hrow', hid, htype⟩ := hp.stored g hg row hmem
      exact ⟨row', hrow', by rw [hid, hdoc]; rfl, by rw [htype, hcollection]⟩
    · exact h.docs d hold
  case published =>
    rw [hdocs, hrows]
    intro row' hrow' hpublished
    apply mirrored_replaceOne_of_ne (h.published row' hrow' hpublished)
    exact fun hid => hpublished (hp.unpublished row' hrow' (hid ▸ hclaimed))
  case exclusive =>
    rw [htxs]
    intro j tx hj q hq hlive
    obtain ⟨-, heq, hlost⟩ := hpasses q hq
    rw [heq]
    exact hexclusive j tx hj (hlost hlive)
  case passes => exact fun q hq => (hpasses q hq).1

theorem PassExact.written (hp : PassExact s p) (hrow : p.row? = some row) (hstage : p.stage = .writing) (now : ℚ)
    {t : Outbox Unit} (hrows : t.rows = s.rows) (hdocs : t.docs = BoxEngine.replaceOne s.docs row now)
    {stage : PassStage} (hwriting : stage ≠ .writing) : PassExact t { p with stage } where
  claimed := hp.claimed
  stored := by rw [hrows]; exact hp.stored
  known := by rw [hrows]; exact hp.known
  unpublished := by rw [hrows]; exact hp.unpublished
  copies := by rw [hrows]; exact hp.copies
  routed := fun heq => absurd heq hwriting
  marking := by
    intro _ row' hrow'
    have heq : row = row' := Option.some_inj.mp (hrow.symm.trans hrow')
    rw [hdocs, ← heq]
    exact mirrored_replaceOne_self (hp.routed hstage row hrow)
  marks := hp.marks
  published := by
    rw [hrows, hdocs]
    intro hlive eventId at_ hmark row' hrow' hid
    obtain ⟨g, hg, hmem, -⟩ := hp.at_row hrow
    by_cases heq : row'.eventId = row.eventId
    · obtain rfl : row' = row := eq_of_eventId h.tables.ids hrow' (hp.copies hlive g hg row hmem) heq
      exact mirrored_replaceOne_self (hp.routed hstage row' hrow)
    · exact mirrored_replaceOne_of_ne (hp.published hlive eventId at_ hmark row' hrow' hid) heq

section

variable (hp : s.pass? () = some p)
include hp

theorem Exact.pass : PassExact s p ∧ ∀ (j : ℕ) (tx : WriterTx), s.txs[j]? = some tx → p.tx ≠ .lost → ∀ eventId,
    tx.updating eventId = true → eventId ∉ p.claimed :=
  ⟨h.passes _ (mem_of_pass? hp), fun j tx hj => h.exclusive j tx hj _ (mem_of_pass? hp)⟩

variable (now : ℚ)

theorem Exact.mongo (outcome : MongoOutcome) : Exact (s.mongo () p now outcome) := by
  obtain ⟨hpass, hexclusive⟩ := h.pass hp
  apply mongo_cases () p now outcome h
  · intro row hstage hrow
    refine h.replaceOne (t := { s.withPass () { p with stage := .marking } with docs := BoxEngine.replaceOne s.docs row now })
      hpass hrow rfl rfl rfl ?_ hexclusive
    intro q hq
    rw [mem_withPass_unit hq]
    refine ⟨hpass.written h hrow hstage now ?_ ?_ ?_, rfl, id⟩ <;> simp [Outbox.withPass]
  · intro row error docs hstage hrow hdocs
    rcases hdocs with rfl | rfl
    · exact h.withPass (hpass.at id (by simp) (by simp)) hexclusive
    · refine h.replaceOne (t := { s.withPass () { p with stage := .recording (.other error) } with
        docs := BoxEngine.replaceOne s.docs row now }) hpass hrow rfl rfl rfl ?_ hexclusive
      intro q hq
      rw [mem_withPass_unit hq]
      refine ⟨hpass.written h hrow hstage now ?_ ?_ ?_, rfl, id⟩ <;> simp [Outbox.withPass]

theorem Exact.mark (failure : Option String) : Exact (s.mark () p now failure) := by
  obtain ⟨hpass, hexclusive⟩ := h.pass hp
  apply mark_cases () p now failure h
  · intro row hstage hrow hlive
    obtain ⟨g, hg, hmem, hclaimed⟩ := hpass.at_row hrow
    refine h.withPass (hpass.onward ?_ hclaimed ?_) hexclusive
    · intro g' hg' row' hrow'
      obtain ⟨rest, groups, hgroups⟩ := ProjectorPass.row?_eq_some hrow
      rw [hgroups] at hg' ⊢
      rcases mem_afterPublished hg' with rfl | hold
      · exact ⟨row :: g', List.mem_cons_self .., .tail _ hrow'⟩
      · exact ⟨g', .tail _ hold, hrow'⟩
    · intro hnotLost eventId at_ hmark row' hrow' hid
      cases hmark
      obtain rfl : row' = row := eq_of_eventId h.tables.ids hrow' (hpass.copies hnotLost g hg row hmem) hid
      exact hpass.marking hstage row' hrow
  · intro error hstage
    have hlost : (p.failMark error).tx ≠ .lost → p.tx ≠ .lost := by
      intro hnot hlost
      exact hnot (by simp [ProjectorPass.failMark, hlost])
    exact h.withPass (hpass.at hlost (by simp) (by simp)) fun j tx hj hnot => hexclusive j tx hj (hlost hnot)

theorem Exact.record (fails : Bool) : Exact (s.record cfg () p now fails) := by
  obtain ⟨hpass, hexclusive⟩ := h.pass hp
  apply record_cases () p now fails h
  · intro row error _ hrow _
    obtain ⟨g, hg, hmem, hclaimed⟩ := hpass.at_row hrow
    refine h.withPass (hpass.onward ?_ ?_ ?_) hexclusive
    · exact fun g' hg' row' hrow' => ⟨g', List.mem_of_mem_tail hg', hrow'⟩
    · rw [eventId_failureMark]
      exact hclaimed
    · intro _ eventId at_ hmark
      unfold failureMark at hmark
      split at hmark <;> cases hmark
  · exact h.endPass

theorem Exact.commit (fails : Bool) : Exact (s.commit () p fails) := by
  obtain ⟨hpass, hexclusive⟩ := h.pass hp
  apply commit_cases () p fails h
  · intro hlive
    have hnotLost : p.tx ≠ .lost := by simp [hlive]
    constructor
    case tables => exact h.tables.frame (rows_commit p.marks s.rows) rfl
    case keys => exact h.keys
    case docs =>
      intro d hd
      obtain ⟨row, hrow, hid, hcollection⟩ := h.docs d hd
      have hsame := Mark.sameEvent_setAll p.marks row
      refine ⟨Mark.setAll p.marks row, ?_, hsame.eventId.symm.trans hid, hsame.aggregate.1 ▸ hcollection⟩
      rw [Mark.foldl_apply]
      exact List.mem_map_of_mem hrow
    case published =>
      intro row' hrow' hpublished
      have hmapped : row' ∈ s.rows.map (Mark.setAll p.marks) := Mark.foldl_apply p.marks s.rows ▸ hrow'
      obtain ⟨row, hrow, rfl⟩ := List.mem_map.mp hmapped
      apply mirrored_setAll
      rcases Mark.published_setAll hpublished with hold | ⟨now, hmark⟩
      · exact h.published row hrow hold
      · exact hpass.published hnotLost row.eventId now hmark row hrow rfl
    case exclusive => simp [passes_endPass_unit]
    case passes => simp [passes_endPass_unit]
  · exact h.endPass

theorem Exact.lose : Exact (s.lose () p) := by
  obtain ⟨hpass, hexclusive⟩ := h.pass hp
  have hlost : PassExact s { p with tx := .lost } := hpass.at (by simp) hpass.routed hpass.marking
  exact h.withPass hlost fun j tx hj hnot => absurd rfl hnot

theorem Exact.crash (landed : Bool) : Exact (s.crash () p now landed) := by
  obtain ⟨hpass, hexclusive⟩ := h.pass hp
  apply crash_cases () p now landed
  · intro row _ hrow
    refine h.replaceOne (t := { s.endPass () with docs := BoxEngine.replaceOne s.docs row now }) hpass hrow rfl rfl rfl ?_
      hexclusive
    simp [passes_endPass_unit]
  · exact h.endPass

end

theorem Exact.step (e : OutboxStep Unit) : Exact (s.after cfg e) := by
  apply step_cases e h
  case henqueue => exact fun kind event _ => h.enqueue kind event
  case hsettle => exact fun j tx now hj => h.settle hj now
  case hcommitTx => exact fun j tx _ hj => h.commitTx hj
  case hrollBackTx => exact fun j tx hj => h.withTx hj (h.tables.withTx hj (by simp)) (by simp [WriterTx.updating])
  case hclaim =>
    intro i now _
    apply claim_cases () now h
    intro hnone
    apply h.withPass (.ofClaim h.tables now)
    intro j tx hj _ eventId hupdating hclaimed
    obtain ⟨row, hrow, rfl⟩ := List.mem_map.mp hclaimed
    have hfree := (mem_claimable.mp (claimable_of_claimed hrow)).2.2.2
    exact List.any_eq_false.mp hfree tx (List.mem_of_getElem? hj) hupdating
  case hmongo => exact fun i p now outcome hp => h.mongo hp now outcome
  case hmark => exact fun i p now failure hp => h.mark hp now failure
  case hrecord => exact fun i p now fails hp => h.record hp now fails
  case hcommit => exact fun i p fails hp => h.commit hp fails
  case hlose => exact fun i p hp => h.lose hp
  case hcrash => exact fun i p now landed hp => h.crash hp now landed

theorem Exact.exactlyOnce : ExactlyOnce s where
  ids := h.tables.ids
  document := by
    intro row hrow hpublished
    obtain ⟨d, hd, hcollection, hdoc⟩ := h.published row hrow hpublished
    have hid : d.doc.id = row.eventId := congrArg ProjectionDocument.id hdoc
    refine ⟨d, ?_, hcollection, hdoc⟩
    rw [← Keyed.filter_of_mem h.keys hd]
    apply List.filter_congr
    intro d' hd'
    -- Documents of one id are of one row, so in one collection.
    have hsame : d'.doc.id = row.eventId ↔ d'.key = d.key := by
      constructor
      · intro hid'
        obtain ⟨row', hrow', hrowId, hcollection'⟩ := h.docs d' hd'
        obtain rfl : row' = row := eq_of_eventId h.tables.ids hrow' hrow (hrowId.trans hid')
        rw [hcollection, Option.some_inj] at hcollection'
        exact Prod.ext hcollection'.symm (hid'.trans hid.symm)
      · exact fun hkey => (congrArg Prod.snd hkey).trans hid
    exact decide_eq_decide.mpr hsame
  committed := by
    intro d hd
    obtain ⟨row, hrow, hid, -⟩ := h.docs d hd
    exact ⟨row, hrow, hid⟩
  claimable := by
    intro hpasses row hrow
    by_cases hpublished : row.publishedAt = none
    · by_cases hdead : row.deadLetteredAt = none
      · refine .inr (.inr fun now hnow hfree => mem_claimable.mpr ⟨hrow, ?_, ?_, hfree⟩)
        · simp [OutboxRow.due, OutboxRow.pending, hpublished, hdead, hnow]
        · simp [locked, hpasses]
      · exact .inr (.inl hdead)
    · exact .inl hpublished

end

/-! ## Runs -/

def Kept {ι : Type} (row : OutboxRow) (s : Outbox ι) : Prop :=
  ∃ row' ∈ s.rows, row'.eventId = row.eventId ∧ row'.SameAggregate row

section

variable {ι : Type} [DecidableEq ι] {s : Outbox ι} {row : OutboxRow}

omit [DecidableEq ι] in
theorem kept_map {t : Outbox ι} {f : OutboxRow → OutboxRow} (h : row ∈ s.rows) (hrows : t.rows = s.rows.map f)
    (hf : (f row).eventId = row.eventId ∧ (f row).SameAggregate row) : Kept row t :=
  ⟨f row, hrows ▸ List.mem_map_of_mem h, hf⟩

omit [DecidableEq ι] in
theorem kept_commitTx (h : row ∈ s.rows) (j : ℕ) (tx : WriterTx) : Kept row (s.commitTx j tx) := by
  have hsame : tx.commit s.rows = s.rows → Kept row (s.commitTx j tx) := by
    intro hrows
    refine ⟨row, ?_, rfl, rfl, rfl⟩
    rw [Outbox.commitTx, hrows]
    exact h
  cases hstate : tx.state with
  | inserted row' =>
    refine ⟨row, ?_, rfl, rfl, rfl⟩
    simp only [Outbox.commitTx, WriterTx.commit, hstate]
    exact List.mem_append_left _ h
  | updated sequence now =>
    apply kept_map h (f := fun row' => if row'.eventId = tx.event.eventId then row'.revive tx.event sequence now else row')
    · simp [Outbox.commitTx, WriterTx.commit, hstate]
    · split <;> exact ⟨rfl, rfl, rfl⟩
  | waiting sequence | ignored | ended => exact hsame (by simp [WriterTx.commit, hstate])

theorem kept_after (e : OutboxStep ι) (h : row ∈ s.rows) : Kept row (s.after cfg e) := by
  have hsame : Kept row s := ⟨row, h, rfl, rfl, rfl⟩
  apply step_cases (P := Kept row) e hsame
  case henqueue =>
    intro kind event _
    unfold Outbox.enqueue
    split <;> exact hsame
  case hsettle => exact fun j tx now hj => settle_cases now hsame (fun _ => hsame) (fun _ _ _ => hsame) fun _ _ _ => hsame
  case hcommitTx => exact fun j tx _ _ => kept_commitTx h j tx
  case hrollBackTx => exact fun _ _ _ => hsame
  case hclaim => exact fun i now _ => claim_cases i now hsame fun _ => hsame
  case hmongo =>
    intro i p now outcome _
    exact mongo_cases i p now outcome hsame (fun _ _ _ => hsame) fun _ _ _ _ _ _ => hsame
  case hmark => exact fun i p now failure _ => mark_cases i p now failure hsame (fun _ _ _ _ => hsame) fun _ _ => hsame
  case hrecord => exact fun i p now fails _ => record_cases i p now fails hsame (fun _ _ _ _ _ => hsame) hsame
  case hcommit =>
    intro i p fails _
    apply commit_cases i p fails hsame _ hsame
    intro _
    have hevent := Mark.sameEvent_setAll p.marks row
    exact kept_map h (Mark.foldl_apply p.marks s.rows) ⟨hevent.eventId.symm, hevent.aggregate.1.symm, hevent.aggregate.2.symm⟩
  case hlose => exact fun _ _ _ => hsame
  case hcrash => exact fun i p now landed _ => crash_cases i p now landed (fun _ _ _ => hsame) hsame

theorem kept_run (events : List (OutboxStep ι)) (h : row ∈ s.rows) : Kept row (Run.finish (step cfg) s events) := by
  induction events generalizing s row with
  | nil => exact ⟨row, h, rfl, rfl, rfl⟩
  | cons e events ih =>
    obtain ⟨row₁, h₁, hid₁, hsame₁⟩ := kept_after e h
    obtain ⟨row₂, h₂, hid₂, hsame₂⟩ := ih h₁
    exact ⟨row₂, h₂, hid₂.trans hid₁, hsame₂.1.trans hsame₁.1, hsame₂.2.trans hsame₁.2⟩

end

theorem Exact.run (h : Exact s) (events : List (OutboxStep Unit)) : Exact (Run.finish (Outbox.step cfg) s events) := by
  induction events generalizing s with
  | nil => exact h
  | cons e events ih => exact ih (h.step e)

/-- With one projector, after any writers' transactions, failures, lost connections and crashes. -/
theorem exactlyOnce_run (cfg : ProjectorConfig) (events : List (OutboxStep Unit)) :
    ExactlyOnce (Run.finish (step cfg) new events) ∧
      ∀ earlier later, events = earlier ++ later → ∀ row ∈ (Run.finish (step cfg) (new : Outbox Unit) earlier).rows,
        Kept row (Run.finish (step cfg) new events) := by
  constructor
  · exact (Exact.new.run events).exactlyOnce
  · rintro earlier later rfl row hrow
    rw [Run.finish_append]
    exact kept_run later hrow

end Outbox

end BoxEngine
