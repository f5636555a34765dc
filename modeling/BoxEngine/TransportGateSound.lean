import BoxEngine.LiveEntry
import BoxEngine.OrderExecution

/-!
# The gates and their legs

How the gates of the entry attempts stand to the legs that are queued, on their way or parked, and what
each change of one of them keeps.
-/

namespace BoxEngine

open Js

def EntrySubmissionSlot.guard (direction : BoxDirection) (slot : EntrySubmissionSlot) : LiveEntryTransportGuard :=
  ⟨slot.rank, slot.hedge, ((entrySubmissionOrder direction).filter EntrySubmissionSlot.hedge).length⟩

/-- The guard of a slot of the entry's own submission order. -/
def LiveEntryTransportGuard.Planned (guard : LiveEntryTransportGuard) : Prop :=
  ∃ direction, ∃ slot ∈ entrySubmissionOrder direction, guard = slot.guard direction

namespace LiveEntryTransportGuard.Planned

variable {guard : LiveEntryTransportGuard}

theorem cases (h : guard.Planned) : guard.hedgeCount = 2 ∧ (guard.hedge = true ↔ guard.transportRank < 2) := by
  obtain ⟨direction, slot, hslot, rfl⟩ := h
  have hall : ∀ slot ∈ entrySubmissionOrder direction,
      (slot.guard direction).hedgeCount = 2 ∧ ((slot.guard direction).hedge = true ↔
        (slot.guard direction).transportRank < 2) := by
    cases direction <;> decide
  exact hall slot hslot

theorem count (h : guard.Planned) : guard.hedgeCount = 2 := h.cases.1

theorem dependent (h : guard.Planned) (hedge : guard.hedge = false) : 2 ≤ guard.transportRank := by
  by_contra hlt
  have := h.cases.2.mpr (Nat.lt_of_not_le hlt)
  rw [hedge] at this
  cases this

end LiveEntryTransportGuard.Planned

namespace EntryTransportGate

variable {gate : EntryTransportGate} {guard : LiveEntryTransportGuard} {request : BrokerOrderRequest}
  {outcome : TransportOutcome} {reason : Option String} {order : Option BrokerOrder}

theorem hasDecided_iff {rank : ℕ} : gate.hasDecided rank = true ↔ rank ∈ gate.decided.map Prod.fst := decide_eq_true_iff

theorem hasDecided_decide (rank : ℕ) :
    (gate.decide request guard outcome reason order).hasDecided rank = true ↔
      rank = guard.transportRank ∨ gate.hasDecided rank = true := by
  rw [hasDecided_iff]
  by_cases hdecided : gate.hasDecided guard.transportRank = true
  · rw [show (gate.decide request guard outcome reason order).decided = gate.decided from if_pos hdecided,
      ← hasDecided_iff]
    constructor
    · exact .inr
    · rintro (rfl | h)
      · exact hdecided
      · exact h
  · rw [show (gate.decide request guard outcome reason order).decided = _ from if_neg hdecided, List.map_append,
      List.mem_append, ← hasDecided_iff, or_comm]
    simp

theorem mem_register (rank : ℕ) :
    rank ∈ (gate.register guard request).registered ↔ rank = guard.transportRank ∨ rank ∈ gate.registered := by
  unfold register
  by_cases hmem : guard.transportRank ∈ gate.registered
  · simp only [if_pos hmem]
    constructor
    · exact .inr
    · rintro (rfl | h)
      · exact hmem
      · exact h
  · simp only [if_neg hmem]
    simp [or_comm]

theorem entryHedgesDecided_iff {rank : ℕ} (h : gate.hedgeCount ≤ rank) :
    gate.entryHedgesDecided rank = true ↔ ∀ hedge < gate.hedgeCount, gate.hasDecided hedge = true := by
  unfold entryHedgesDecided
  simp [Nat.not_lt_of_le h]

end EntryTransportGate

/-! ## Legs and gates -/

def SubmitAction.attemptId (leg : SubmitAction) : String := leg.order.request.attemptId

structure GateStands (live parked : SubmitAction → Prop) (attempt : String) (gate : EntryTransportGate) : Prop where
  count : gate.hedgeCount = 2
  recorded : ∀ rank, gate.hasDecided rank = true → rank ∈ gate.registered
  enrolled : ∀ leg, live leg → leg.attemptId = attempt → ∀ guard ∈ leg.entry,
    guard.transportRank ∈ gate.registered ∧ ¬ gate.hasDecided guard.transportRank = true
  waiting : ∀ waiter ∈ gate.waiters, ∃ leg, parked leg ∧ leg.attemptId = attempt ∧ leg.sequence = waiter.leg ∧
    ∃ guard ∈ leg.entry, guard.transportRank = waiter.rank
  barred : ∀ waiter ∈ gate.waiters, ¬ gate.entryHedgesDecided waiter.rank = true
  behind : gate.waiters ≠ [] → ∀ rank < 2, rank ∈ gate.registered

structure Barred (disposed : Bool) (gates : String → Option EntryTransportGate) (live parked : SubmitAction → Prop) :
    Prop where
  planned : ∀ leg, live leg → ∀ guard ∈ leg.entry, guard.Planned
  bySequence : ∀ a b, live a → live b → a.sequence = b.sequence → a = b
  byRank : ∀ a b, live a → live b → a.attemptId = b.attemptId → ∀ guard ∈ a.entry, ∀ guard' ∈ b.entry,
    guard.transportRank = guard'.transportRank → a = b
  manned : ∀ leg, live leg → leg.entry ≠ none → gates leg.attemptId = none → disposed = true
  stands : ∀ attempt gate, gates attempt = some gate → GateStands live parked attempt gate
  undecided : ∀ attempt gate, gates attempt = some gate → ∃ rank ∈ gate.registered, ¬ gate.hasDecided rank = true
  parks : ∀ leg, parked leg → live leg ∧ ∃ guard ∈ leg.entry, guard.hedge = false ∧
    ∃ gate, gates leg.attemptId = some gate ∧ ⟨guard.transportRank, leg.sequence⟩ ∈ gate.waiters

namespace Barred

variable {disposed : Bool} {gates : String → Option EntryTransportGate} {live parked : SubmitAction → Prop}
  {attempt : String} {gate : EntryTransportGate} {guard : LiveEntryTransportGuard}

section

variable (h : Barred disposed gates live parked)
include h

variable {live' : SubmitAction → Prop}

theorem leave (hsub : ∀ leg, live' leg → live leg)
    (hparked : ∀ leg, parked leg → live' leg) : Barred disposed gates live' parked where
  planned leg hleg := h.planned leg (hsub leg hleg)
  bySequence a b ha hb := h.bySequence a b (hsub a ha) (hsub b hb)
  byRank a b ha hb := h.byRank a b (hsub a ha) (hsub b hb)
  manned leg hleg := h.manned leg (hsub leg hleg)
  stands attempt gate hgate :=
    { h.stands attempt gate hgate with
      enrolled := fun leg hleg => (h.stands attempt gate hgate).enrolled leg (hsub leg hleg) }
  undecided := h.undecided
  parks leg hleg := ⟨hparked leg hleg, (h.parks leg hleg).2⟩

theorem clear (hsub : ∀ leg, live' leg → live leg) : Barred true (fun _ => none) live' fun _ => False where
  planned leg hleg := h.planned leg (hsub leg hleg)
  bySequence a b ha hb := h.bySequence a b (hsub a ha) (hsub b hb)
  byRank a b ha hb := h.byRank a b (hsub a ha) (hsub b hb)
  manned _ _ _ _ := rfl
  stands := by rintro _ _ ⟨⟩
  undecided := by rintro _ _ ⟨⟩
  parks := by rintro _ ⟨⟩

theorem join {leg : SubmitAction} (hplanned : ∀ guard ∈ leg.entry, guard.Planned)
    (hsequence : ∀ other, live other → other.sequence ≠ leg.sequence)
    (hgate : leg.entry ≠ none → gates leg.attemptId ≠ none)
    (hrank : ∀ guard ∈ leg.entry, ∀ gate, gates leg.attemptId = some gate → guard.transportRank ∈ gate.registered ∧
      ¬ gate.hasDecided guard.transportRank = true)
    (hunique : ∀ other, live other → other.attemptId = leg.attemptId → ∀ guard ∈ other.entry, ∀ guard' ∈ leg.entry,
      guard.transportRank ≠ guard'.transportRank) :
    Barred disposed gates (fun other => other = leg ∨ live other) parked where
  planned := by
    rintro other (rfl | hother)
    · exact hplanned
    · exact h.planned other hother
  bySequence := by
    rintro a b (rfl | ha) (rfl | hb) heq
    · rfl
    · exact absurd heq.symm (hsequence b hb)
    · exact absurd heq (hsequence a ha)
    · exact h.bySequence a b ha hb heq
  byRank := by
    rintro a b (rfl | ha) (rfl | hb) hattempt guard hguard guard' hguard' heq
    · rfl
    · exact absurd heq.symm (hunique b hb hattempt.symm guard' hguard' guard hguard)
    · exact absurd heq (hunique a ha hattempt guard hguard guard' hguard')
    · exact h.byRank a b ha hb hattempt guard hguard guard' hguard' heq
  manned := by
    rintro other (rfl | hother) hentry hnone
    · exact absurd hnone (hgate hentry)
    · exact h.manned other hother hentry hnone
  stands := by
    intro attempt gate hsome
    refine { h.stands attempt gate hsome with enrolled := ?_ }
    rintro other (rfl | hother) hattempt guard hguard
    · exact hrank guard hguard gate (hattempt ▸ hsome)
    · exact (h.stands attempt gate hsome).enrolled other hother hattempt guard hguard
  undecided := h.undecided
  parks leg hleg := ⟨.inr (h.parks leg hleg).1, (h.parks leg hleg).2⟩

theorem register (hplanned : guard.Planned) (request : BrokerOrderRequest) (accountKey : String)
    (hempty : disposed = true → ∀ leg, live leg → leg.attemptId = attempt → leg.entry = none)
    (hnew : ∀ gate, gates attempt = some gate → guard.transportRank ∉ gate.registered) :
    Barred disposed
      (Function.update gates attempt
        (some (((gates attempt).getD (.new attempt guard accountKey)).register guard request))) live parked := by
  have hstood : GateStands live parked attempt ((gates attempt).getD (.new attempt guard accountKey)) ∧
      guard.transportRank ∉ ((gates attempt).getD (.new attempt guard accountKey)).registered := by
    cases hgate : gates attempt with
    | some gate => exact ⟨h.stands attempt gate hgate, hnew gate hgate⟩
    | none =>
      refine ⟨⟨hplanned.count, ?_, ?_, ?_, ?_, ?_⟩, ?_⟩
      · intro rank hrank
        simp [EntryTransportGate.new, EntryTransportGate.hasDecided] at hrank
      · intro leg hleg hattempt guard hguard
        have hentry : leg.entry ≠ none := by
          intro hnone
          rw [hnone] at hguard
          cases hguard
        exact absurd (hempty (h.manned leg hleg hentry (hattempt ▸ hgate)) leg hleg hattempt) hentry
      · intro waiter hwaiter
        cases hwaiter
      · intro waiter hwaiter
        cases hwaiter
      · intro hwaiters
        exact absurd rfl hwaiters
      · exact List.not_mem_nil
  have hfound : ∀ gate, gates attempt = some gate → (gates attempt).getD (.new attempt guard accountKey) = gate := by
    intro gate hgate
    rw [hgate]
    rfl
  generalize (gates attempt).getD (.new attempt guard accountKey) = gate at hstood hfound ⊢
  obtain ⟨hstands, hfresh⟩ := hstood
  have hdecided : ∀ rank, (gate.register guard request).hasDecided rank = gate.hasDecided rank := fun _ => rfl
  have hcount : (gate.register guard request).hedgeCount = gate.hedgeCount := by
    change max gate.hedgeCount guard.hedgeCount = gate.hedgeCount
    rw [hstands.count, hplanned.count]
    rfl
  have hbarred : ∀ rank, (gate.register guard request).entryHedgesDecided rank = gate.entryHedgesDecided rank := by
    intro rank
    unfold EntryTransportGate.entryHedgesDecided
    rw [hcount]
    rfl
  refine ⟨h.planned, h.bySequence, h.byRank, ?_, ?_, ?_, ?_⟩
  · intro leg hleg hentry hnone
    by_cases hattempt : leg.attemptId = attempt
    · rw [hattempt, Function.update_self] at hnone
      cases hnone
    · rw [Function.update_of_ne hattempt] at hnone
      exact h.manned leg hleg hentry hnone
  · intro other gate' hsome
    by_cases hattempt : other = attempt
    · rw [hattempt, Function.update_self] at hsome
      obtain rfl := Option.some_inj.mp hsome
      rw [hattempt]
      refine ⟨hcount.trans hstands.count, ?_, ?_, hstands.waiting, ?_, ?_⟩
      · intro rank hrank
        exact (EntryTransportGate.mem_register rank).mpr (.inr (hstands.recorded rank hrank))
      · intro leg hleg hleg' guard' hguard'
        have hin := hstands.enrolled leg hleg hleg' guard' hguard'
        exact ⟨(EntryTransportGate.mem_register _).mpr (.inr hin.1), hin.2⟩
      · intro waiter hwaiter
        rw [hbarred]
        exact hstands.barred waiter hwaiter
      · intro hwaiters rank hrank
        exact (EntryTransportGate.mem_register rank).mpr (.inr (hstands.behind hwaiters rank hrank))
    · rw [Function.update_of_ne hattempt] at hsome
      exact h.stands other gate' hsome
  · intro other gate' hsome
    by_cases hattempt : other = attempt
    · rw [hattempt, Function.update_self] at hsome
      obtain rfl := Option.some_inj.mp hsome
      refine ⟨guard.transportRank, (EntryTransportGate.mem_register _).mpr (.inl rfl), ?_⟩
      intro hrank
      exact hfresh (hstands.recorded _ hrank)
    · rw [Function.update_of_ne hattempt] at hsome
      exact h.undecided other gate' hsome
  · intro leg hleg
    obtain ⟨hlive, guard', hguard', hdependent, gate', hgate', hwaiter⟩ := h.parks leg hleg
    refine ⟨hlive, guard', hguard', hdependent, ?_⟩
    by_cases hattempt : leg.attemptId = attempt
    · rw [hattempt] at hgate' ⊢
      rw [Function.update_self]
      refine ⟨_, rfl, ?_⟩
      rw [hfound gate' hgate']
      exact hwaiter
    · rw [Function.update_of_ne hattempt]
      exact ⟨gate', hgate', hwaiter⟩

theorem register_undecided (request : BrokerOrderRequest) (accountKey : String)
    (hnew : ∀ gate, gates attempt = some gate → guard.transportRank ∉ gate.registered) :
    ¬ (((gates attempt).getD (.new attempt guard accountKey)).register guard request).hasDecided guard.transportRank =
      true := by
  cases hgate : gates attempt with
  | none => simp [EntryTransportGate.new, EntryTransportGate.register, EntryTransportGate.hasDecided]
  | some gate =>
    intro hdecided
    exact hnew gate hgate ((h.stands attempt gate hgate).recorded _ hdecided)

theorem decided (hgate : gates attempt = some gate) (guard : LiveEntryTransportGuard) (request : BrokerOrderRequest)
    (outcome : TransportOutcome) (reason : Option String) (order : Option BrokerOrder)
    (hregistered : guard.transportRank ∈ gate.registered)
    (hleft : ∀ leg, live leg → leg.attemptId = attempt → ∀ other ∈ leg.entry, other.transportRank ≠ guard.transportRank) :
    Barred disposed
      (Function.update gates attempt
        (if (gate.decide request guard outcome reason order).wakeReady.droppable then none
          else some (gate.decide request guard outcome reason order).wakeReady))
      live fun leg => parked leg ∧
        leg.sequence ∉ (gate.decide request guard outcome reason order).ready.map EntryTransportWaiter.leg := by
  have hstands := h.stands attempt gate hgate
  have hdecide : ∀ rank, (gate.decide request guard outcome reason order).hasDecided rank = true ↔
      rank = guard.transportRank ∨ gate.hasDecided rank = true := EntryTransportGate.hasDecided_decide
  have hregisters : (gate.decide request guard outcome reason order).registered = gate.registered := rfl
  have hwaits : (gate.decide request guard outcome reason order).waiters = gate.waiters := rfl
  have hcounts : (gate.decide request guard outcome reason order).hedgeCount = gate.hedgeCount := rfl
  generalize gate.decide request guard outcome reason order = decided at hdecide hregisters hwaits hcounts ⊢
  -- a leg that is woken is one of this attempt
  have hwoken : ∀ leg, parked leg → leg.sequence ∈ decided.ready.map EntryTransportWaiter.leg →
      leg.attemptId = attempt ∧ ∃ other ∈ leg.entry, decided.entryHedgesDecided other.transportRank = true := by
    intro leg hleg hmem
    obtain ⟨waiter, hwaiter, heq⟩ := List.mem_map.mp hmem
    obtain ⟨hin, hready⟩ := List.mem_filter.mp hwaiter
    obtain ⟨other, hother, hattempt, hsequence, guard', hguard', hrank⟩ := hstands.waiting waiter (hwaits ▸ hin)
    obtain rfl := h.bySequence leg other (h.parks leg hleg).1 (h.parks other hother).1 (heq ▸ hsequence.symm)
    exact ⟨hattempt, guard', hguard', hrank ▸ hready⟩
  have henrolled : ∀ leg, live leg → leg.attemptId = attempt → ∀ other ∈ leg.entry,
      other.transportRank ∈ decided.registered ∧ ¬ decided.hasDecided other.transportRank = true := by
    intro leg hleg hattempt other hother
    have hin := hstands.enrolled leg hleg hattempt other hother
    refine ⟨hregisters ▸ hin.1, ?_⟩
    rw [hdecide]
    rintro (heq | hdone)
    · exact hleft leg hleg hattempt other hother heq
    · exact hin.2 hdone
  -- what may not be dropped has a rank that is still to be decided
  have hopen : decided.wakeReady.droppable = false → ∃ rank ∈ decided.registered, ¬ decided.hasDecided rank = true := by
    intro hkept
    by_cases hempty : decided.wakeReady.waiters = []
    · have hall : decided.entryAllRanksDecided = false := by
        rw [EntryTransportGate.droppable, hempty] at hkept
        exact hkept
      simpa [EntryTransportGate.entryAllRanksDecided] using hall
    · obtain ⟨waiter, hwaiter⟩ := List.exists_mem_of_ne_nil _ hempty
      obtain ⟨leg, hleg, hattempt, -, other, hother, -⟩ :=
        hstands.waiting waiter (hwaits ▸ List.mem_of_mem_filter hwaiter)
      exact ⟨_, henrolled leg (h.parks leg hleg).1 hattempt other hother⟩
  have hkeep : ∀ leg, live leg → leg.attemptId = attempt → leg.entry ≠ none → decided.wakeReady.droppable = false := by
    intro leg hleg hattempt hentry
    obtain ⟨other, hother⟩ := Option.ne_none_iff_exists'.mp hentry
    have hin := henrolled leg hleg hattempt other hother
    by_contra hdrop
    simp only [Bool.not_eq_false, EntryTransportGate.droppable, Bool.and_eq_true] at hdrop
    exact hin.2 (List.all_eq_true.mp hdrop.2 _ hin.1)
  -- only the gate of this attempt changes, and only woken legs leave it
  refine ⟨h.planned, h.bySequence, h.byRank, ?_, ?_, ?_, ?_⟩
  · intro leg hleg hentry hnone
    by_cases hattempt : leg.attemptId = attempt
    · rw [hattempt, Function.update_self, hkeep leg hleg hattempt hentry] at hnone
      cases hnone
    · rw [Function.update_of_ne hattempt] at hnone
      exact h.manned leg hleg hentry hnone
  · intro other gate' hsome
    by_cases hattempt : other = attempt
    · rw [hattempt, Function.update_self] at hsome
      split at hsome
      · cases hsome
      · obtain rfl := Option.some_inj.mp hsome
        rw [hattempt]
        refine ⟨hcounts.trans hstands.count, ?_, henrolled, ?_, ?_, ?_⟩
        · intro rank hrank
          change rank ∈ decided.registered
          rw [hregisters]
          rcases (hdecide rank).mp hrank with rfl | hrank
          · exact hregistered
          · exact hstands.recorded rank hrank
        · intro waiter hwaiter
          obtain ⟨hin, hwaits'⟩ := List.mem_filter.mp hwaiter
          obtain ⟨leg, hleg, hleg', hsequence, guard', hguard', hrank⟩ := hstands.waiting waiter (hwaits ▸ hin)
          refine ⟨leg, ⟨hleg, ?_⟩, hleg', hsequence, guard', hguard', hrank⟩
          intro hmem
          obtain ⟨-, other, hother, hready⟩ := hwoken leg hleg hmem
          obtain rfl := Option.mem_unique hguard' hother
          rw [hrank] at hready
          simp [hready] at hwaits'
        · intro waiter hwaiter
          change ¬ decided.entryHedgesDecided waiter.rank = true
          simpa using (List.mem_filter.mp hwaiter).2
        · intro hwaiters
          change ∀ rank < 2, rank ∈ decided.registered
          rw [hregisters]
          refine hstands.behind ?_
          intro hnil
          refine hwaiters ?_
          simp [EntryTransportGate.wakeReady, hwaits, hnil]
    · rw [Function.update_of_ne hattempt] at hsome
      refine { h.stands other gate' hsome with waiting := ?_ }
      intro waiter hwaiter
      obtain ⟨leg, hleg, hleg', hrest⟩ := (h.stands other gate' hsome).waiting waiter hwaiter
      refine ⟨leg, ⟨hleg, ?_⟩, hleg', hrest⟩
      intro hmem
      exact hattempt (hleg'.symm.trans (hwoken leg hleg hmem).1)
  · intro other gate' hsome
    by_cases hattempt : other = attempt
    · rw [hattempt, Function.update_self] at hsome
      split at hsome
      · cases hsome
      · rename_i hkept
        obtain rfl := Option.some_inj.mp hsome
        exact hopen (by simpa using hkept)
    · rw [Function.update_of_ne hattempt] at hsome
      exact h.undecided other gate' hsome
  · rintro leg ⟨hleg, hasleep⟩
    obtain ⟨hlive, guard', hguard', hdependent, gate', hgate', hwaiter⟩ := h.parks leg hleg
    refine ⟨hlive, guard', hguard', hdependent, ?_⟩
    by_cases hattempt : leg.attemptId = attempt
    · have hentry : leg.entry ≠ none := by
        intro hnone
        rw [hnone] at hguard'
        cases hguard'
      rw [hattempt] at hgate' ⊢
      obtain rfl := Option.some_inj.mp (hgate.symm.trans hgate')
      rw [Function.update_self, hkeep leg hlive hattempt hentry]
      refine ⟨_, rfl, List.mem_filter.mpr ⟨hwaits ▸ hwaiter, ?_⟩⟩
      rw [decide_eq_true_eq]
      intro hready
      exact hasleep (List.mem_map.mpr ⟨_, List.mem_filter.mpr ⟨hwaits ▸ hwaiter, hready⟩, rfl⟩)
    · rw [Function.update_of_ne hattempt]
      exact ⟨gate', hgate', hwaiter⟩

theorem park {leg : SubmitAction} (hlive : live leg) (hguard : guard ∈ leg.entry) (hdependent : guard.hedge = false)
    (hgate : gates leg.attemptId = some gate) (hbarred : ¬ gate.entryHedgesDecided guard.transportRank = true)
    (hbehind : ∀ rank < 2, rank ∈ gate.registered) :
    Barred disposed
      (Function.update gates leg.attemptId
        (some { gate with waiters := gate.waiters ++ [⟨guard.transportRank, leg.sequence⟩] }))
      live fun other => other = leg ∨ parked other := by
  have hstands := h.stands _ gate hgate
  -- the gate gains one waiter, whose hedges are still undecided
  refine ⟨h.planned, h.bySequence, h.byRank, ?_, ?_, ?_, ?_⟩
  · intro other hother hentry hnone
    by_cases hattempt : other.attemptId = leg.attemptId
    · rw [hattempt, Function.update_self] at hnone
      cases hnone
    · rw [Function.update_of_ne hattempt] at hnone
      exact h.manned other hother hentry hnone
  · intro attempt gate' hsome
    by_cases hattempt : attempt = leg.attemptId
    · rw [hattempt, Function.update_self] at hsome
      obtain rfl := Option.some_inj.mp hsome
      rw [hattempt]
      refine ⟨hstands.count, hstands.recorded, hstands.enrolled, ?_, ?_, fun _ => hbehind⟩
      · intro waiter hwaiter
        rcases List.mem_append.mp hwaiter with hwaiter | hwaiter
        · obtain ⟨other, hother, hrest⟩ := hstands.waiting waiter hwaiter
          exact ⟨other, .inr hother, hrest⟩
        · rw [List.mem_singleton.mp hwaiter]
          exact ⟨leg, .inl rfl, rfl, rfl, guard, hguard, rfl⟩
      · intro waiter hwaiter
        rcases List.mem_append.mp hwaiter with hwaiter | hwaiter
        · exact hstands.barred waiter hwaiter
        · rw [List.mem_singleton.mp hwaiter]
          exact hbarred
    · rw [Function.update_of_ne hattempt] at hsome
      refine { h.stands attempt gate' hsome with waiting := ?_ }
      intro waiter hwaiter
      obtain ⟨other, hother, hrest⟩ := (h.stands attempt gate' hsome).waiting waiter hwaiter
      exact ⟨other, .inr hother, hrest⟩
  · intro attempt gate' hsome
    by_cases hattempt : attempt = leg.attemptId
    · rw [hattempt, Function.update_self] at hsome
      obtain rfl := Option.some_inj.mp hsome
      exact h.undecided _ gate hgate
    · rw [Function.update_of_ne hattempt] at hsome
      exact h.undecided attempt gate' hsome
  · rintro other (rfl | hother)
    · refine ⟨hlive, guard, hguard, hdependent, _, Function.update_self .., ?_⟩
      exact List.mem_append_right _ (List.mem_singleton_self _)
    · obtain ⟨hother', guard', hguard', hdependent', gate', hgate', hwaiter⟩ := h.parks other hother
      refine ⟨hother', guard', hguard', hdependent', ?_⟩
      by_cases hattempt : other.attemptId = leg.attemptId
      · rw [hattempt] at hgate' ⊢
        obtain rfl := Option.some_inj.mp (hgate.symm.trans hgate')
        rw [Function.update_self]
        exact ⟨_, rfl, List.mem_append_left _ hwaiter⟩
      · rw [Function.update_of_ne hattempt]
        exact ⟨gate', hgate', hwaiter⟩

end

end Barred

end BoxEngine
