import BoxEngine.FenceSound

/-!
# Leases along a run of the deployment

What every store operation keeps of the authority, every event of the deployment keeps.
-/

namespace BoxEngine

open Tickets DurableInstrumentReservations

variable {db : Authority}

theorem Fate.settle_keeps {α : Type} (fate : Fate) {done : α × Authority} (P : Authority → Prop) (hdb : P db)
    (hdone : P done.2) : P (fate.settle db done).2 := by
  cases fate with
  | answered => exact hdone
  | refused error => exact hdb
  | lost error => exact hdone

namespace Authority

/-- No two documents of the table share a contract. -/
def Exclusive (db : Authority) : Prop :=
  db.docs.Pairwise fun doc doc' => doc.owner ≠ doc'.owner ∧ ¬ doc.Clash doc'

variable {db : Authority}

/-- The unique index turns away the document that would share one. -/
theorem insert_exclusive (h : db.Exclusive) (doc : DurableReservationDoc) : (db.insert doc).2.Exclusive := by
  unfold insert
  split
  · rename_i hadm
    unfold admission at hadm
    split at hadm
    · cases hadm
    · rename_i howner
      split at hadm
      · cases hadm
      · rename_i hkeys
        refine List.pairwise_append.mpr ⟨h, List.pairwise_singleton _ _, ?_⟩
        intro d hd d' hd'
        obtain rfl := List.mem_singleton.mp hd'
        simp only [List.any_eq_true, not_exists, not_and, beq_iff_eq] at howner hkeys
        exact ⟨howner d hd, fun hclash => hkeys d hd ((d.overlaps_iff_clash d').mpr hclash)⟩
  · exact h

theorem delete_exclusive (h : db.Exclusive) (gone : DurableReservationDoc → Bool) :
    (db.delete gone).2.Exclusive := List.Pairwise.filter _ h

theorem renewOwned_exclusive (h : db.Exclusive) (args : RenewFilter) (expiresAt : ℚ) :
    (db.renewOwned args expiresAt).2.Exclusive := by
  refine List.pairwise_map.mpr (List.Pairwise.imp ?_ h)
  intro doc doc' hpair
  split <;> split <;> exact hpair

/-! ## Invariants of the authority -/

/-- A property of the table that every statement of the store keeps. -/
structure Kept (P : Authority → Prop) : Prop where
  nextFence : ∀ {db}, P db → ∀ deployment, P (db.nextFence deployment).2
  insert : ∀ {db}, P db → ∀ doc, P (db.insert doc).2
  delete : ∀ {db}, P db → ∀ gone, P (db.delete gone).2
  renewOwned : ∀ {db}, P db → ∀ args expiresAt, P (db.renewOwned args expiresAt).2

theorem exclusive_kept : Kept Exclusive where
  nextFence h _ := h
  insert := insert_exclusive
  delete := delete_exclusive
  renewOwned := renewOwned_exclusive

end Authority

theorem serveCount_keeps {P : Authority → Prop} {fate : Fate} {done : ℕ × Authority} (hdb : P db) (hdone : P done.2)
    (phase : CountPhase) : P (serveCount fate db done phase).2 := by
  unfold serveCount
  split
  · exact fate.settle_keeps P hdb hdone
  · exact hdb

theorem Operation.serve_keeps {P : Authority → Prop} (hP : Authority.Kept P) (op : Operation)
    (w : DurableInstrumentReservations) (fate : Fate) (h : P db) : P (op.serve w fate db).2 := by
  cases op with
  | acquire a phase =>
    simp only [serve, serveAcquire]
    split
    · exact fate.settle_keeps P h (hP.nextFence h _)
    · exact fate.settle_keeps P h (hP.insert h _)
    · exact fate.settle_keeps P h (hP.delete h _)
    · exact fate.settle_keeps P h (hP.delete h _)
    · exact fate.settle_keeps P h h
    · exact h
  | release args phase | clear phase
  | reapExpired deployment notAfter phase => exact serveCount_keeps h (hP.delete h _) phase
  | renew r phase =>
    simp only [serve, serveRenew]
    split
    · exact fate.settle_keeps P h (hP.renewOwned h _ _)
    · exact fate.settle_keeps P h h
    · exact h
  | verify v phase =>
    simp only [serve, serveVerify]
    split
    · exact fate.settle_keeps P h h
    · exact h

namespace Deployment

/-- What every statement keeps, every event of the deployment keeps. -/
theorem step_keeps {P : Authority → Prop} (hP : Authority.Kept P) {s : Deployment} (h : P s.authority) (e : Event) :
    P (s.step e).1.authority := by
  cases e with
  | serve task fate =>
    simp only [step, serve]
    split
    · exact h
    · split
      · exact h
      · exact Operation.serve_keeps hP _ _ fate h
  | _ => rwa [step_authority s (by simp)]

end Deployment

end BoxEngine
