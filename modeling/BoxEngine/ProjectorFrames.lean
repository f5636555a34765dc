import BoxEngine.Lib.Run
import BoxEngine.Projector

/-!
# What the steps of the outbox leave alone

An id stands in one row. The marks of a pass change the delivery of their rows alone; a step writes at most the
document of its row.
-/

namespace BoxEngine

open Js

/-! ## Rows -/

def OutboxRow.SameAggregate (row row' : OutboxRow) : Prop :=
  row.aggregateType = row'.aggregateType ∧ row.aggregateId = row'.aggregateId

/-- The rows agree but for their delivery. -/
structure OutboxRow.SameEvent (row row' : OutboxRow) : Prop where
  eventId : row.eventId = row'.eventId
  aggregate : row.SameAggregate row'
  sequence : row.sequence = row'.sequence

variable (row : OutboxRow)

theorem OutboxRow.SameEvent.refl : row.SameEvent row := ⟨rfl, ⟨rfl, rfl⟩, rfl⟩

namespace Mark

variable {rows : List OutboxRow} {row : OutboxRow} {mark : Mark} {marks : List Mark}

theorem sameEvent_set (mark : Mark) (row : OutboxRow) : row.SameEvent (mark.set row) := by
  cases mark <;> exact ⟨rfl, ⟨rfl, rfl⟩, rfl⟩

def setAll (marks : List Mark) (row : OutboxRow) : OutboxRow :=
  marks.foldl (fun row mark => if row.eventId = mark.eventId then mark.set row else row) row

theorem foldl_apply (marks : List Mark) (rows : List OutboxRow) : marks.foldl apply rows = rows.map (setAll marks) := by
  induction marks generalizing rows with
  | nil => exact (List.map_id' rows).symm
  | cons mark marks ih =>
    rw [List.foldl_cons, ih, apply, List.map_map]
    rfl

theorem setAll_keeps {P : OutboxRow → Prop} (h : P row) (hset : ∀ mark ∈ marks, ∀ row, P row → P (mark.set row)) :
    P (setAll marks row) := by
  induction marks generalizing row with
  | nil => exact h
  | cons mark marks ih =>
    have hrest : ∀ mark ∈ marks, ∀ row, P row → P (mark.set row) := fun m hm => hset m (.tail _ hm)
    unfold setAll at ih ⊢
    rw [List.foldl_cons]
    split
    · exact ih (hset mark (.head _) row h) hrest
    · exact ih h hrest

theorem sameEvent_setAll (marks : List Mark) (row : OutboxRow) : row.SameEvent (setAll marks row) := by
  apply setAll_keeps (OutboxRow.SameEvent.refl row)
  intro mark _ row' h
  have hset := sameEvent_set mark row'
  exact ⟨h.eventId.trans hset.eventId, ⟨h.aggregate.1.trans hset.aggregate.1, h.aggregate.2.trans hset.aggregate.2⟩,
    h.sequence.trans hset.sequence⟩

theorem deadLettered_setAll (h : row.deadLetteredAt ≠ none) : (setAll marks row).deadLetteredAt ≠ none := by
  refine setAll_keeps (P := fun row => row.deadLetteredAt ≠ none) h ?_
  intro mark _ row' h'
  cases mark with
  | deadLettered eventId attempts error now => simp [set]
  | _ => exact h'

theorem published_setAll (h : (setAll marks row).publishedAt ≠ none) :
    row.publishedAt ≠ none ∨ ∃ now, .published row.eventId now ∈ marks := by
  induction marks generalizing row with
  | nil => exact .inl h
  | cons mark marks ih =>
    unfold setAll at h ih
    rw [List.foldl_cons] at h
    split at h
    next heq =>
      cases mark with
      | published eventId now => exact .inr ⟨now, List.mem_cons.mpr (.inl (congrArg (Mark.published · now) heq))⟩
      | retry eventId attempts error now | deadLettered eventId attempts error now =>
        rcases ih h with hold | ⟨at_, hmem⟩
        · exact .inl hold
        · exact .inr ⟨at_, .tail _ hmem⟩
    next =>
      rcases ih h with hold | ⟨at_, hmem⟩
      · exact .inl hold
      · exact .inr ⟨at_, .tail _ hmem⟩

end Mark

theorem map_eventId_map {f : OutboxRow → OutboxRow} (h : ∀ row, (f row).eventId = row.eventId) (rows : List OutboxRow) :
    (rows.map f).map OutboxRow.eventId = rows.map OutboxRow.eventId := by
  rw [List.map_map]
  exact List.map_congr_left fun row _ => h row

namespace Outbox

variable {ι : Type} {cfg : ProjectorConfig} {s : Outbox ι} {i : ι} {p : ProjectorPass}

/-- MongoDB holds a document of the event. -/
def Written (s : Outbox ι) (eventId : String) : Prop := ∃ d ∈ s.docs, d.doc.id = eventId

theorem eq_of_eventId (hids : (s.rows.map OutboxRow.eventId).Nodup) {row row' : OutboxRow} (h : row ∈ s.rows)
    (h' : row' ∈ s.rows) (heq : row.eventId = row'.eventId) : row = row' :=
  List.inj_on_of_nodup_map hids h h' heq

theorem mem_of_pass? [DecidableEq ι] (h : s.pass? i = some p) : (i, p) ∈ s.passes := by
  obtain ⟨q, hq, rfl⟩ := Option.map_eq_some_iff.mp h
  have hkey : q.1 = i := by simpa using List.find?_some hq
  rw [← hkey]
  exact List.mem_of_find?_eq_some hq

theorem mem_withPass [DecidableEq ι] {q : ι × ProjectorPass} (h : q ∈ (s.withPass i p).passes) :
    q = (i, p) ∨ q ∈ s.passes := Keyed.mem_put h

theorem mem_endPass [DecidableEq ι] {q : ι × ProjectorPass} (h : q ∈ (s.endPass i).passes) : q ∈ s.passes ∧ q.1 ≠ i := by
  simpa [endPass] using h

variable {docs : List MongoDoc} {row : OutboxRow} {now : ℚ}

theorem mem_replaceOne {d : MongoDoc} (h : d ∈ replaceOne docs row now) :
    (collectionForAggregate row.aggregateType = some d.collection ∧ d.doc = row.document now) ∨
      (d ∈ docs ∧ (collectionForAggregate row.aggregateType = some d.collection → d.doc.id ≠ row.eventId)) := by
  unfold replaceOne at h
  split at h
  next collection hcollection =>
    rcases Keyed.mem_put_ne h with rfl | ⟨hmem, hkey⟩
    · exact .inl ⟨hcollection, rfl⟩
    · refine .inr ⟨hmem, ?_⟩
      intro hsame hid
      rw [hcollection, Option.some_inj] at hsame
      exact hkey (Prod.ext hsame.symm hid)
  next hcollection => exact .inr ⟨h, by simp [hcollection]⟩

theorem mem_replaceOne_of_ne {d : MongoDoc} (h : d ∈ docs) (hne : d.doc.id ≠ row.eventId) : d ∈ replaceOne docs row now := by
  unfold replaceOne
  split
  · exact Keyed.mem_put_of_ne h fun hkey => hne (congrArg Prod.snd hkey)
  · exact h

theorem self_mem_replaceOne {collection : String} (h : collectionForAggregate row.aggregateType = some collection) :
    ⟨collection, row.document now⟩ ∈ replaceOne docs row now := by
  unfold replaceOne
  rw [h]
  exact Keyed.self_mem_put _ _

theorem written_replaceOne {eventId : String} (h : ∃ d ∈ docs, d.doc.id = eventId) :
    ∃ d ∈ replaceOne docs row now, d.doc.id = eventId := by
  obtain ⟨d, hd, rfl⟩ := h
  unfold replaceOne
  split
  next collection _ =>
    by_cases hkey : d.key = MongoDoc.key ⟨collection, row.document now⟩
    · exact ⟨_, Keyed.self_mem_put _ _, congrArg Prod.snd hkey.symm⟩
    · exact ⟨d, Keyed.mem_put_of_ne hd hkey, rfl⟩
  next => exact ⟨d, hd, rfl⟩

/-! ## Transactions -/

theorem get_withTx {j k : ℕ} {tx tx' : WriterTx} {state : WriterState} (hj : s.txs[j]? = some tx)
    (hk : (s.withTx j tx state).txs[k]? = some tx') :
    (k = j ∧ tx' = { tx with state }) ∨ (k ≠ j ∧ s.txs[k]? = some tx') :=
  Run.getElem?_set_cases hj hk

/-- Ids are unique among the rows and the rows that open transactions insert. -/
structure Tables (s : Outbox ι) : Prop where
  ids : (s.rows.map OutboxRow.eventId).Nodup
  fresh : ∀ (j : ℕ) (tx : WriterTx) (row : OutboxRow), s.txs[j]? = some tx → tx.state = .inserted row →
    row.eventId = tx.event.eventId ∧ row.eventId ∉ s.rows.map OutboxRow.eventId ∧ row.publishedAt = none
  apart : ∀ (j k : ℕ) (tx tx' : WriterTx) (row row' : OutboxRow), s.txs[j]? = some tx → s.txs[k]? = some tx' → j ≠ k →
    tx.state = .inserted row → tx'.state = .inserted row' → row.eventId ≠ row'.eventId

theorem Tables.new : Tables (new : Outbox ι) := by
  constructor <;> simp [Outbox.new]

theorem Tables.frame (h : Tables s) {s' : Outbox ι} (hrows : s'.rows.map OutboxRow.eventId = s.rows.map OutboxRow.eventId)
    (htxs : s'.txs = s.txs) : Tables s' where
  ids := hrows ▸ h.ids
  fresh := by
    rw [hrows, htxs]
    exact h.fresh
  apart := by
    rw [htxs]
    exact h.apart

theorem Tables.enqueue (h : Tables s) (kind : EnqueueKind) (event : OutboxEvent) : Tables (s.enqueue kind event) := by
  unfold Outbox.enqueue
  split
  · exact h
  · constructor
    case ids => exact h.ids
    case fresh =>
      intro j tx row hj hstate
      rcases Run.getElem?_snoc.mp hj with hj' | ⟨-, rfl⟩
      · exact h.fresh j tx row hj' hstate
      · cases hstate
    case apart =>
      intro j k tx tx' row row' hj hk hne hstate hstate'
      rcases Run.getElem?_snoc.mp hj with hj' | ⟨-, rfl⟩
      · rcases Run.getElem?_snoc.mp hk with hk' | ⟨-, rfl⟩
        · exact h.apart j k tx tx' row row' hj' hk' hne hstate hstate'
        · cases hstate'
      · cases hstate

section

variable {j : ℕ} {tx : WriterTx} (hj : s.txs[j]? = some tx)
include hj

theorem Tables.withTx (h : Tables s) {state : WriterState} (hstate : ∀ row, state ≠ .inserted row) :
    Tables (s.withTx j tx state) where
  ids := h.ids
  fresh := by
    intro k tx' row hk hinserted
    rcases get_withTx hj hk with ⟨-, rfl⟩ | ⟨-, hk'⟩
    · exact absurd hinserted (hstate row)
    · exact h.fresh k tx' row hk' hinserted
  apart := by
    intro k l tx₁ tx₂ row row' hk hl hne hinserted hinserted'
    rcases get_withTx hj hk with ⟨-, rfl⟩ | ⟨-, hk'⟩
    · exact absurd hinserted (hstate row)
    · rcases get_withTx hj hl with ⟨-, rfl⟩ | ⟨-, hl'⟩
      · exact absurd hinserted' (hstate row')
      · exact h.apart k l tx₁ tx₂ row row' hk' hl' hne hinserted hinserted'

theorem Tables.insert (h : Tables s) {sequence : ℕ} {now : ℚ} (hinserting : s.inserting tx.event.eventId = false)
    (hstored : s.stored tx.event.eventId = false) :
    Tables (s.withTx j tx (.inserted (.ofEvent tx.event sequence now))) := by
  have hother : ∀ (k : ℕ) (tx' : WriterTx) (row : OutboxRow), s.txs[k]? = some tx' → tx'.state = .inserted row →
      row.eventId ≠ tx.event.eventId := by
    intro k tx' row hk hinserted heq
    unfold Outbox.inserting at hinserting
    have hnot := List.any_eq_false.mp hinserting tx' (List.mem_of_getElem? hk)
    apply hnot
    simp only [WriterTx.inserting, hinserted, decide_eq_true_eq]
    rw [← (h.fresh k tx' row hk hinserted).1, heq]
  constructor
  case ids => exact h.ids
  case fresh =>
    intro k tx' row hk hinserted
    rcases get_withTx hj hk with ⟨-, rfl⟩ | ⟨-, hk'⟩
    · cases hinserted
      exact ⟨rfl, of_decide_eq_false hstored, rfl⟩
    · exact h.fresh k tx' row hk' hinserted
  case apart =>
    intro k l tx₁ tx₂ row row' hk hl hne hinserted hinserted'
    rcases get_withTx hj hk with ⟨rfl, rfl⟩ | ⟨-, hk'⟩
    · rcases get_withTx hj hl with ⟨rfl, -⟩ | ⟨-, hl'⟩
      · exact absurd rfl hne
      · cases hinserted
        exact (hother l tx₂ row' hl' hinserted').symm
    · rcases get_withTx hj hl with ⟨-, rfl⟩ | ⟨-, hl'⟩
      · cases hinserted'
        exact hother k tx₁ row hk' hinserted
      · exact h.apart k l tx₁ tx₂ row row' hk' hl' hne hinserted hinserted'

omit hj in
theorem settle_cases {P : Outbox ι → Prop} (now : ℚ) (hsame : P s) (hignored : tx.kind = .event → P (s.withTx j tx .ignored))
    (hupdated : tx.kind = .snapshot → s.locked tx.event.eventId = false → s.updating tx.event.eventId = false →
      P { s.withTx j tx (.updated s.nextval now) with nextval := s.nextval + 1 })
    (hinserted : ∀ sequence, s.inserting tx.event.eventId = false → s.stored tx.event.eventId = false →
      P (s.withTx j tx (.inserted (.ofEvent tx.event sequence now)))) : P (s.settle j tx now) := by
  unfold Outbox.settle
  split
  next sequence _ =>
    split
    · exact hsame
    next hblocked =>
      simp only [blocked, Bool.or_eq_true, Bool.and_eq_true, decide_eq_true_eq, not_or, not_and, Bool.not_eq_true] at hblocked
      split
      · split
        next hkind => exact hignored hkind
        next hkind =>
          obtain ⟨hupdating, hlocked⟩ := hblocked.2 hkind
          exact hupdated hkind hlocked hupdating
      next hstored => exact hinserted sequence hblocked.1 (by simpa using hstored)
  next => exact hsame

theorem Tables.commitTx (h : Tables s) : Tables (s.commitTx j tx) := by
  have hover : Tables (s.withTx j tx .ended) := h.withTx hj (by simp)
  cases hstate : tx.state with
  | inserted row =>
    obtain ⟨hid, hnew, -⟩ := h.fresh j tx row hj hstate
    have hrows : (s.commitTx j tx).rows = s.rows ++ [row] := by simp [Outbox.commitTx, WriterTx.commit, hstate]
    constructor
    case ids =>
      rw [hrows, List.map_append]
      refine List.nodup_append.mpr ⟨h.ids, List.nodup_singleton _, ?_⟩
      intro a ha b hb heq
      rw [List.map_singleton, List.mem_singleton] at hb
      exact hnew (hb ▸ heq ▸ ha)
    case fresh =>
      intro k tx' row' hk hinserted
      rcases get_withTx hj hk with ⟨-, rfl⟩ | ⟨hne, hk'⟩
      · cases hinserted
      · obtain ⟨hid', hnew', hpublished⟩ := h.fresh k tx' row' hk' hinserted
        refine ⟨hid', ?_, hpublished⟩
        rw [hrows, List.map_append, List.mem_append, not_or]
        refine ⟨hnew', ?_⟩
        rw [List.map_singleton, List.mem_singleton]
        exact h.apart k j tx' tx row' row hk' hj hne hinserted hstate
    case apart => exact hover.apart
  | updated sequence now =>
    refine hover.frame ?_ rfl
    have hrows : (s.commitTx j tx).rows =
        s.rows.map fun row => if row.eventId = tx.event.eventId then row.revive tx.event sequence now else row := by
      simp [Outbox.commitTx, WriterTx.commit, hstate]
    rw [hrows]
    apply map_eventId_map
    intro row
    split <;> rfl
  | waiting sequence | ignored
  | ended => exact hover.frame (by simp [Outbox.commitTx, WriterTx.commit, hstate, Outbox.withTx]) rfl

end

/-! ## Steps -/

variable [DecidableEq ι]

theorem getD_map_cases {α σ : Type*} {P : σ → Prop} {o : Option α} {f : α → σ} {t : σ} (hnone : P t)
    (hsome : ∀ a, o = some a → P (f a)) : P ((o.map f).getD t) := by
  cases o with
  | none => exact hnone
  | some a => exact hsome a rfl

/-- One case for each step of the outbox, from what it finds. -/
theorem step_cases {P : Outbox ι → Prop} (e : OutboxStep ι) (hsame : P s)
    (henqueue : ∀ kind event, e = .enqueue kind event → P (s.enqueue kind event))
    (hsettle : ∀ j tx now, s.txs[j]? = some tx → P (s.settle j tx now))
    (hcommitTx : ∀ j tx, e = .commitTx j → s.txs[j]? = some tx → P (s.commitTx j tx))
    (hrollBackTx : ∀ j tx, s.txs[j]? = some tx → P (s.withTx j tx .ended))
    (hclaim : ∀ i now, e = .claim i now → P (s.claim cfg i now))
    (hmongo : ∀ i p now outcome, s.pass? i = some p → P (s.mongo i p now outcome))
    (hmark : ∀ i p now failure, s.pass? i = some p → P (s.mark i p now failure))
    (hrecord : ∀ i p now fails, s.pass? i = some p → P (s.record cfg i p now fails))
    (hcommit : ∀ i p fails, s.pass? i = some p → P (s.commit i p fails))
    (hlose : ∀ i p, s.pass? i = some p → P (s.lose i p))
    (hcrash : ∀ i p now landed, s.pass? i = some p → P (s.crash i p now landed)) : P (s.after cfg e) := by
  cases e with
  | enqueue kind event => exact henqueue kind event rfl
  | claim i now => exact hclaim i now rfl
  | settle j now => exact getD_map_cases hsame fun tx htx => hsettle j tx now htx
  | commitTx j => exact getD_map_cases hsame fun tx htx => hcommitTx j tx rfl htx
  | rollBackTx j => exact getD_map_cases hsame fun tx htx => hrollBackTx j tx htx
  | mongo i now outcome => exact getD_map_cases hsame fun p hp => hmongo i p now outcome hp
  | mark i now failure => exact getD_map_cases hsame fun p hp => hmark i p now failure hp
  | record i now fails => exact getD_map_cases hsame fun p hp => hrecord i p now fails hp
  | commit i fails => exact getD_map_cases hsame fun p hp => hcommit i p fails hp
  | lose i => exact getD_map_cases hsame fun p hp => hlose i p hp
  | crash i now landed => exact getD_map_cases hsame fun p hp => hcrash i p now landed hp

section

variable (i : ι) (p : ProjectorPass) (now : ℚ)
variable {P : Outbox ι → Prop}

theorem mongo_cases (outcome : MongoOutcome) (hsame : P s)
    (hwritten : ∀ row, p.stage = .writing → p.row? = some row → P
      { s.withPass i { p with stage := .marking } with docs := replaceOne s.docs row now })
    (hrejected : ∀ row error docs, p.stage = .writing → p.row? = some row →
      (docs = s.docs ∨ docs = replaceOne s.docs row now) → P { s.withPass i { p with stage := .recording (.other error) } with docs }) :
    P (s.mongo i p now outcome) := by
  unfold mongo
  split
  next row hstage hrow =>
    split
    · exact hwritten row hstage hrow
    next landed error =>
      apply hrejected row error _ hstage hrow
      cases landed
      · exact .inl rfl
      · exact .inr rfl
  next => exact hsame

theorem mark_cases (failure : Option String) (hsame : P s)
    (hdone : ∀ row, p.stage = .marking → p.row? = some row → p.tx = .live → P
      (s.withPass i (p.onward (.published row.eventId now) (afterPublished p.groups))))
    (hfailed : ∀ error, p.stage = .marking → P (s.withPass i (p.failMark error))) : P (s.mark i p now failure) := by
  unfold mark
  split
  next row hstage hrow =>
    split
    · exact hfailed _ hstage
    · split
      next hlive => exact hdone row hstage hrow hlive
      next => exact hfailed _ hstage
  next => exact hsame

theorem record_cases {P : Outbox ι → Prop} (fails : Bool) (hsame : P s)
    (hdone : ∀ row error, p.stage = .recording error → p.row? = some row → p.tx = .live →
      P (s.withPass i (p.onward (failureMark cfg row error now) (afterFailure p.groups))))
    (hover : P (s.endPass i)) : P (s.record cfg i p now fails) := by
  unfold record
  split
  next error row hstage hrow =>
    split
    next hok => exact hdone row error hstage hrow hok.2.1
    next => exact hover
  next => exact hsame

omit now in
theorem commit_cases (fails : Bool) (hsame : P s)
    (hdone : p.tx = .live → P { s.endPass i with rows := p.marks.foldl Mark.apply s.rows }) (hover : P (s.endPass i)) :
    P (s.commit i p fails) := by
  unfold commit
  split
  · split
    next hok => exact hdone hok.2
    next => exact hover
  · exact hsame

theorem crash_cases (landed : Bool)
    (hlanded : ∀ row, p.stage = .writing → p.row? = some row → P { s.endPass i with docs := replaceOne s.docs row now })
    (hover : P (s.endPass i)) : P (s.crash i p now landed) := by
  unfold crash
  split
  next row hstage hrow =>
    cases landed
    · exact hover
    · exact hlanded row hstage hrow
  next => exact hover

omit p in
theorem claim_cases (hsame : P s) (hclaimed : s.pass? i = none → P (s.withPass i (.ofClaim (s.claimed cfg now)))) :
    P (s.claim cfg i now) := by
  unfold claim
  split
  · exact hsame
  next hnone =>
    split
    · exact hsame
    · exact hclaimed hnone

end

theorem rows_commit (marks : List Mark) (rows : List OutboxRow) :
    (marks.foldl Mark.apply rows).map OutboxRow.eventId = rows.map OutboxRow.eventId := by
  rw [Mark.foldl_apply]
  exact map_eventId_map (fun row => (Mark.sameEvent_setAll marks row).eventId.symm) rows

end Outbox

/-! ## Groups -/

theorem ProjectorPass.row?_eq_some {p : ProjectorPass} {row : OutboxRow} (h : p.row? = some row) :
    ∃ rest groups, p.groups = (row :: rest) :: groups := by
  unfold ProjectorPass.row? at h
  cases hgroups : p.groups with
  | nil => simp [hgroups] at h
  | cons g groups =>
    cases g with
    | nil => simp [hgroups] at h
    | cons row' rest =>
      obtain rfl : row' = row := by simpa [hgroups] using h
      exact ⟨rest, groups, rfl⟩

theorem startOf_ne_marking : startOf row ≠ .marking := by
  unfold startOf
  repeat' split
  all_goals simp

theorem stageOf_eq {p : ProjectorPass} (h : p.stage = stageOf p.groups) :
    (p.stage = .writing → ∀ row, p.row? = some row → startOf row = .writing) ∧ p.stage ≠ .marking := by
  constructor
  · intro hstage row hrow
    obtain ⟨rest, groups, hgroups⟩ := ProjectorPass.row?_eq_some hrow
    rw [h, hgroups] at hstage
    exact hstage
  · intro hstage
    rw [h] at hstage
    unfold stageOf at hstage
    split at hstage
    · exact startOf_ne_marking _ hstage
    · cases hstage

theorem mem_afterPublished {row : OutboxRow} {rest : List OutboxRow} {groups : List (List OutboxRow)} {g : List OutboxRow}
    (h : g ∈ afterPublished ((row :: rest) :: groups)) : g = rest ∨ g ∈ groups := by
  cases rest with
  | nil => exact .inr h
  | cons row' rest => simpa [afterPublished] using h

/-- The groups are the rows by aggregate, in the order of the rows. -/
structure Grouped (rows : List OutboxRow) (groups : List (String × List OutboxRow)) : Prop where
  members : ∀ g ∈ groups, ∀ row, row ∈ g.2 ↔ row ∈ rows ∧ row.aggregateKey = g.1
  cover : ∀ row ∈ rows, row.aggregateKey ∈ groups.map Prod.fst

variable {rows : List OutboxRow}
variable {groups : List (String × List OutboxRow)}

theorem Grouped.snoc (h : Grouped rows groups) (row : OutboxRow) :
    Grouped (rows ++ [row]) (addToGroup groups row) := by
  unfold addToGroup
  -- the row joins the group of its aggregate, or begins one
  split
  next hmem =>
    constructor
    case members =>
      intro g hg row'
      obtain ⟨g', hg', rfl⟩ := List.mem_map.mp hg
      have hold := h.members g' hg' row'
      split
      next hkey =>
        rw [List.mem_append, List.mem_append, hold, List.mem_singleton]
        constructor
        · rintro (⟨hrow, hrowKey⟩ | rfl)
          · exact ⟨.inl hrow, hrowKey⟩
          · exact ⟨.inr rfl, hkey.symm⟩
        · rintro ⟨hrow | rfl, hrowKey⟩
          · exact .inl ⟨hrow, hrowKey⟩
          · exact .inr rfl
      next hkey =>
        rw [hold, List.mem_append, List.mem_singleton]
        constructor
        · exact fun hrow => ⟨.inl hrow.1, hrow.2⟩
        · rintro ⟨hrow | rfl, hrowKey⟩
          · exact ⟨hrow, hrowKey⟩
          · exact absurd hrowKey.symm hkey
    case cover =>
      have hkeys : ((groups.map fun g => if g.1 = row.aggregateKey then (g.1, g.2 ++ [row]) else g).map Prod.fst) =
          groups.map Prod.fst := by
        rw [List.map_map]
        refine List.map_congr_left ?_
        intro g _
        rw [Function.comp_apply]
        split <;> rfl
      rw [hkeys]
      exact Run.forall_mem_snoc h.cover hmem
  next hnew =>
    constructor
    case members =>
      intro g hg row'
      rw [List.mem_append, List.mem_singleton]
      rcases List.mem_append.mp hg with hold | hadded
      · rw [h.members g hold row']
        constructor
        · exact fun hrow => ⟨.inl hrow.1, hrow.2⟩
        · rintro ⟨hrow | rfl, hrowKey⟩
          · exact ⟨hrow, hrowKey⟩
          · exact absurd (hrowKey ▸ List.mem_map_of_mem hold) hnew
      · rw [List.mem_singleton.mp hadded, List.mem_singleton]
        constructor
        · rintro rfl
          exact ⟨.inr rfl, rfl⟩
        · rintro ⟨hrow | rfl, hrowKey⟩
          · have hkey : row'.aggregateKey = row.aggregateKey := hrowKey
            exact absurd (hkey ▸ h.cover row' hrow) hnew
          · rfl
    case cover =>
      rw [List.map_append]
      apply Run.forall_mem_snoc
      · exact fun row' hrow' => List.mem_append_left _ (h.cover row' hrow')
      · exact List.mem_append_right _ (List.mem_singleton_self _)

theorem grouped_foldl {rows rows' : List OutboxRow} (h : Grouped rows groups) :
    Grouped (rows ++ rows') (rows'.foldl addToGroup groups) := by
  induction rows' generalizing rows groups with
  | nil => simpa using h
  | cons row rows' ih =>
    rw [List.foldl_cons, ← List.singleton_append, ← List.append_assoc]
    exact ih (h.snoc row)

theorem group_spec {g : List OutboxRow} (h : g ∈ groupByAggregate rows) :
    ∃ key, (∀ row, row ∈ g ↔ row ∈ rows ∧ row.aggregateKey = key) ∧ g.Pairwise bySequence := by
  unfold groupByAggregate at h
  obtain ⟨group, hgroup, rfl⟩ := List.mem_map.mp h
  have hnil : Grouped [] [] := ⟨by simp, by simp⟩
  have hgrouped : Grouped rows (rows.foldl addToGroup []) := grouped_foldl hnil
  refine ⟨group.1, ?_, ?_⟩
  · intro row
    rw [List.mem_insertionSort, hgrouped.members group hgroup]
  · have htotal : Std.Total bySequence := ⟨fun row row' => Nat.le_total row.sequence row'.sequence⟩
    have htrans : IsTrans OutboxRow bySequence := ⟨fun _ _ _ hab hbc => Nat.le_trans hab hbc⟩
    exact List.pairwise_insertionSort bySequence group.2

theorem mem_before {before after_ : List OutboxRow} {row row' : OutboxRow} (h : (before ++ row :: after_).Pairwise bySequence)
    (hmem : row' ∈ before ++ row :: after_) (hlt : row'.sequence < row.sequence) : row' ∈ before := by
  rcases List.mem_append.mp hmem with hbefore | hrest
  · exact hbefore
  · rcases List.mem_cons.mp hrest with rfl | hafter
    · exact absurd hlt (Nat.lt_irrefl _)
    · have hle : row.sequence ≤ row'.sequence :=
        (List.pairwise_cons.mp (List.pairwise_append.mp h).2.1).1 row' hafter
      exact absurd hle (Nat.not_le.mpr hlt)

namespace Outbox

variable {ι : Type} {cfg : ProjectorConfig} {s : Outbox ι} {now : ℚ} {row row' : OutboxRow}

theorem mem_claimable : row ∈ s.claimable now ↔
    row ∈ s.rows ∧ row.due now = true ∧ s.locked row.eventId = false ∧ s.updating row.eventId = false := by
  simp [claimable, and_assoc]

theorem claimable_of_claimed (h : row ∈ s.claimed cfg now) : row ∈ s.claimable now :=
  List.mem_insertionSort _ |>.mp (List.mem_of_mem_take h)

/-- A claim takes the rows of lower sequence first. -/
theorem claimed_of_lt (h : row ∈ s.claimed cfg now) (h' : row' ∈ s.claimable now) (hlt : row'.sequence < row.sequence) :
    row' ∈ s.claimed cfg now := by
  unfold claimed at h ⊢
  have htotal : Std.Total bySequence := ⟨fun row row' => Nat.le_total row.sequence row'.sequence⟩
  have htrans : IsTrans OutboxRow bySequence := ⟨fun _ _ _ hab hbc => Nat.le_trans hab hbc⟩
  have hsorted := List.pairwise_insertionSort bySequence (s.claimable now)
  rw [← List.take_append_drop cfg.batchSize ((s.claimable now).insertionSort bySequence)] at hsorted
  have hmem : row' ∈ (s.claimable now).insertionSort bySequence := (List.mem_insertionSort _).mpr h'
  rw [← List.take_append_drop cfg.batchSize ((s.claimable now).insertionSort bySequence)] at hmem
  rcases List.mem_append.mp hmem with htake | hdrop
  · exact htake
  · have hle : row.sequence ≤ row'.sequence := (List.pairwise_append.mp hsorted).2.2 row h row' hdrop
    exact absurd hle (Nat.not_le.mpr hlt)

end Outbox

end BoxEngine
