import BoxEngine.Lib.Run
import BoxEngine.Lib.Toggle
import BoxEngine.Subscriptions

/-!
# Subscription counts

What the loops of the coordinator do to the counts, token by token, and how the counts say what the transport hears.
-/

namespace BoxEngine

open Js

theorem mem_tokenSet {tokens : List Number} {token : Number} : token ∈ tokenSet tokens ↔ token ∈ tokens := by
  simp [tokenSet]

theorem nodup_tokenSet (tokens : List Number) : (tokenSet tokens).Nodup :=
  List.nodup_reverse.mpr (List.nodup_dedup _)

namespace TokenCounts

variable {entry : TokenCounts} {owner : SubscriptionOwner}

def Adds (entry : TokenCounts) : Prop := entry.total = (subscriptionOwners.map entry.of).sum

theorem adds_empty (token : Number) : (empty token).Adds := by
  simp [Adds, empty, subscriptionOwners]

theorem Adds.raise (h : entry.Adds) (owner : SubscriptionOwner) : (entry.raise owner).Adds := by
  unfold Adds at h ⊢
  cases owner <;> simp [TokenCounts.raise, subscriptionOwners] at h ⊢ <;> omega

theorem Adds.lower (h : entry.Adds) (hheld : 1 ≤ entry.of owner) : (entry.lower owner).Adds := by
  unfold Adds at h ⊢
  cases owner <;> simp [TokenCounts.lower, subscriptionOwners] at h ⊢ <;> omega

theorem Adds.le (h : entry.Adds) (owner : SubscriptionOwner) : entry.of owner ≤ entry.total := by
  unfold Adds at h
  cases owner <;> simp [subscriptionOwners] at h <;> omega

theorem Adds.eq_empty (h : entry.Adds) (hzero : entry.total = 0) : entry = empty entry.token := by
  have hof : entry.of = fun _ => 0 := by
    funext owner
    have := h.le owner
    omega
  cases entry
  simp_all [empty]

end TokenCounts

namespace SubscriptionCoordinator

variable {counts : List TokenCounts} {owner : SubscriptionOwner} {tokens : List Number} {token : Number}

theorem countsOf_token (counts : List TokenCounts) (token : Number) : (countsOf counts token).token = token := by
  unfold countsOf
  cases h : countsEntry counts token with
  | none => rfl
  | some entry => simpa using List.find?_some h

theorem countsOf_put (entry : TokenCounts) (token : Number) :
    countsOf (Keyed.put TokenCounts.token counts entry) token =
      if token = entry.token then entry else countsOf counts token := by
  unfold countsOf countsEntry
  rw [Keyed.find?_put]
  split <;> rfl

theorem countsOf_delete (dropped token : Number) :
    countsOf (counts.filter fun other => other.token ≠ dropped) token =
      if token = dropped then .empty token else countsOf counts token := by
  unfold countsOf countsEntry
  rw [List.find?_filter]
  by_cases h : token = dropped
  · subst h
    rw [if_pos rfl, List.find?_eq_none.mpr (by simp)]
    rfl
  · rw [if_neg h]
    have hsame : ∀ other : TokenCounts, (decide (other.token ≠ dropped) = true ∧ decide (other.token = token) = true) ↔
        other.token = token := fun other => by
      simp only [decide_eq_true_eq, and_iff_right_iff_imp]
      rintro rfl
      exact h
    simp only [hsame]

/-! ## Loops -/

theorem addToken_loop (hnodup : tokens.Nodup) (counts : List TokenCounts) (sent : List Number) :
    let r := tokens.foldl (addToken owner) (counts, sent)
    (∀ token, countsOf r.1 token =
      if token ∈ tokens then (countsOf counts token).raise owner else countsOf counts token) ∧
    r.2 = sent ++ tokens.filter fun token => (countsOf counts token).total = 0 := by
  induction tokens generalizing counts sent with
  | nil => simp
  | cons first rest ih =>
    rw [List.nodup_cons] at hnodup
    obtain ⟨hcounts, hsent⟩ := ih hnodup.2 (addToken owner (counts, sent) first).1 (addToken owner (counts, sent) first).2
    have hone : ∀ token, countsOf (addToken owner (counts, sent) first).1 token =
        if token = first then (countsOf counts first).raise owner else countsOf counts token := fun token => by
      rw [addToken, countsOf_put]
      simp [TokenCounts.raise, countsOf_token]
    refine ⟨fun token => ?_, ?_⟩
    · rw [List.foldl_cons, hcounts, hone]
      by_cases htoken : token = first
      · subst htoken
        simp [hnodup.1]
      · simp [htoken]
    · rw [List.foldl_cons, hsent]
      have hrest : (rest.filter fun token => (countsOf (addToken owner (counts, sent) first).1 token).total = 0) =
          rest.filter fun token => (countsOf counts token).total = 0 := by
        refine List.filter_congr fun token htoken => ?_
        rw [hone, if_neg fun heq : token = first => hnodup.1 (heq ▸ htoken)]
      rw [hrest, List.filter_cons]
      by_cases hzero : (countsOf counts first).total = 0 <;> simp [addToken, hzero]

theorem dropToken_one (sent : List Number) (hheld : 1 ≤ (countsOf counts token).of owner)
    (hadds : (countsOf counts token).Adds) :
    (∀ other, countsOf (dropToken owner (counts, sent) token).1 other =
      if other = token then (countsOf counts token).lower owner else countsOf counts other) ∧
    (dropToken owner (counts, sent) token).2 = sent ++ if (countsOf counts token).total = 1 then [token] else [] := by
  have hle := hadds.le owner
  cases hentry : countsEntry counts token with
  | none =>
    have hempty : countsOf counts token = .empty token := by rw [countsOf, hentry]; rfl
    rw [hempty] at hheld
    exact absurd hheld (by simp [TokenCounts.empty])
  | some entry =>
    have hcounts : countsOf counts token = entry := by rw [countsOf, hentry]; rfl
    have htoken : entry.token = token := by rw [← hcounts, countsOf_token]
    rw [hcounts] at hheld hadds hle ⊢
    simp only [dropToken, hentry]
    by_cases hlast : (entry.lower owner).total = 0
    · have hone : entry.total = 1 := by
        have : entry.total - 1 = 0 := hlast
        omega
      rw [if_pos hlast, if_pos hone]
      refine ⟨fun other => ?_, rfl⟩
      rw [countsOf_delete, (hadds.lower hheld).eq_empty hlast]
      by_cases hother : other = token
      · simp [hother, TokenCounts.lower, htoken]
      · simp [hother]
    · have hmore : entry.total ≠ 1 := by
        have : entry.total - 1 ≠ 0 := hlast
        omega
      rw [if_neg hlast, if_neg hmore, List.append_nil]
      refine ⟨fun other => ?_, rfl⟩
      rw [countsOf_put]
      simp [TokenCounts.lower, htoken]

theorem dropToken_loop (hnodup : tokens.Nodup) (counts : List TokenCounts) (sent : List Number)
    (hheld : ∀ token ∈ tokens, 1 ≤ (countsOf counts token).of owner ∧ (countsOf counts token).Adds) :
    let r := tokens.foldl (dropToken owner) (counts, sent)
    (∀ token, countsOf r.1 token =
      if token ∈ tokens then (countsOf counts token).lower owner else countsOf counts token) ∧
    r.2 = sent ++ tokens.filter fun token => (countsOf counts token).total = 1 := by
  induction tokens generalizing counts sent with
  | nil => simp
  | cons first rest ih =>
    rw [List.nodup_cons] at hnodup
    obtain ⟨hfirst, hadds⟩ := hheld first (.head _)
    obtain ⟨hone, hsent⟩ := dropToken_one sent hfirst hadds
    have hother : ∀ token ∈ rest, countsOf (dropToken owner (counts, sent) first).1 token = countsOf counts token :=
      fun token htoken => by rw [hone, if_neg fun heq : token = first => hnodup.1 (heq ▸ htoken)]
    obtain ⟨hcounts, hrest⟩ := ih hnodup.2 (dropToken owner (counts, sent) first).1
      (dropToken owner (counts, sent) first).2 fun token htoken => by
        rw [hother token htoken]
        exact hheld token (.tail _ htoken)
    refine ⟨fun token => ?_, ?_⟩
    · rw [List.foldl_cons, hcounts, hone]
      by_cases htoken : token = first
      · subst htoken
        simp [hnodup.1]
      · simp [htoken]
    · rw [List.foldl_cons, hrest, hsent, List.append_assoc, List.filter_cons]
      have hsame : (rest.filter fun token => (countsOf (dropToken owner (counts, sent) first).1 token).total = 1) =
          rest.filter fun token => (countsOf counts token).total = 1 :=
        List.filter_congr fun token htoken => by rw [hother token htoken]
      rw [hsame]
      by_cases hlast : (countsOf counts first).total = 1 <;> simp [hlast]

end SubscriptionCoordinator

/-! ## Subscriptions are the leases -/

def TransportCall.events (token : Number) : TransportCall → List Bool
  | .subscribeTokens tokens => (tokens.filter (· = token)).map fun _ => true
  | .unsubscribeTokens tokens => (tokens.filter (· = token)).map fun _ => false

structure SubscriptionLane where
  coordinator : SubscriptionCoordinator
  heard : List TransportCall

namespace SubscriptionLane

def new : SubscriptionLane := ⟨.new, []⟩

def step (lane : SubscriptionLane) (op : SubscriptionOp) : SubscriptionLane × Unit :=
  let (coordinator, calls) := lane.coordinator.step op
  (match op with
    | .resetForBrokerSwitch => ⟨coordinator, []⟩
    | _ => ⟨coordinator, lane.heard ++ calls⟩, ())

end SubscriptionLane

namespace SubscriptionCoordinator

variable {s : SubscriptionCoordinator} {owner : SubscriptionOwner} {tokens : List Number} {token : Number}

def held (leases : List SubscriptionLease) (owner : SubscriptionOwner) (token : Number) : ℕ :=
  leases.countP fun lease => lease.owner = owner ∧ token ∈ lease.tokens

def live (leases : List SubscriptionLease) (token : Number) : Bool := leases.any fun lease => token ∈ lease.tokens

/-- Each count is what the leases hold. -/
structure Counted (s : SubscriptionCoordinator) : Prop where
  of : ∀ owner token, (countsOf s.counts token).of owner = held s.leases owner token
  total : ∀ token, (countsOf s.counts token).Adds

structure Regular (s : SubscriptionCoordinator) : Prop where
  ids : (s.leases.map SubscriptionLease.leaseId).Nodup
  numbered : ∀ lease ∈ s.leases, ∀ owner seq, lease.leaseId = .numbered owner seq → seq ≤ s.leaseSeq
  set : ∀ lease ∈ s.leases, ∀ owner, lease.leaseId = .set owner → lease.owner = owner
  tokens : ∀ lease ∈ s.leases, lease.tokens.Nodup

def Single (s : SubscriptionCoordinator) (owner : SubscriptionOwner) : Prop :=
  ∀ token, held s.leases owner token ≤ 1

end SubscriptionCoordinator

namespace SubscriptionLane

/-- The counts add up, and the transport heard each token go on and off in turn. -/
structure Reconciled (lane : SubscriptionLane) : Prop where
  counted : lane.coordinator.Counted
  heard : ∀ token, Toggle.Alternates (lane.heard.flatMap (TransportCall.events token))
    (SubscriptionCoordinator.live lane.coordinator.leases token)

def Separate (lane : SubscriptionLane) : SubscriptionOp → Prop
  | .setOwnerTokens owner _ => lane.coordinator.Single owner
  | _ => True

end SubscriptionLane

namespace SubscriptionCoordinator

variable {s : SubscriptionCoordinator} {leases : List SubscriptionLease} {owner : SubscriptionOwner}
  {tokens : List Number} {token : Number}

/-! ## Leases -/

@[simp] theorem held_nil (owner : SubscriptionOwner) (token : Number) : held [] owner token = 0 := rfl

theorem held_append (leases leases' : List SubscriptionLease) (owner : SubscriptionOwner) (token : Number) :
    held (leases ++ leases') owner token = held leases owner token + held leases' owner token :=
  List.countP_append ..

theorem held_singleton (lease : SubscriptionLease) (owner : SubscriptionOwner) (token : Number) :
    held [lease] owner token = if lease.owner = owner ∧ token ∈ lease.tokens then 1 else 0 := by
  simp [held, List.countP_singleton]

theorem Counted.live_iff (h : s.Counted) (token : Number) :
    live s.leases token = decide (0 < (countsOf s.counts token).total) := by
  rw [Bool.eq_iff_iff, decide_eq_true_eq, live, List.any_eq_true]
  constructor
  · rintro ⟨lease, hlease, htoken⟩
    have hpos : 0 < held s.leases lease.owner token := List.countP_pos_iff.mpr ⟨lease, hlease, by simpa using htoken⟩
    have := (h.total token).le lease.owner
    rw [h.of] at this
    omega
  · intro hpos
    by_contra hnone
    have hzero : ∀ owner, (countsOf s.counts token).of owner = 0 := fun owner => by
      rw [h.of, held, List.countP_eq_zero]
      rintro lease hlease hboth
      exact hnone ⟨lease, hlease, by simpa using (of_decide_eq_true hboth).2⟩
    have hadds := h.total token
    simp only [TokenCounts.Adds, subscriptionOwners, List.map_cons, List.map_nil, hzero] at hadds
    simp [hadds] at hpos

theorem mem_previouslyHeld :
    token ∈ tokenSet ((leases.filter fun lease => lease.owner = owner).flatMap SubscriptionLease.tokens) ↔
      0 < held leases owner token := by
  rw [mem_tokenSet, List.mem_flatMap, held, List.countP_pos_iff]
  simp [and_assoc]

theorem held_filter_id (hids : (leases.map SubscriptionLease.leaseId).Nodup) {lease : SubscriptionLease}
    (hlease : lease ∈ leases) (owner : SubscriptionOwner) (token : Number) :
    held (leases.filter fun other => other.leaseId ≠ lease.leaseId) owner token +
      (if lease.owner = owner ∧ token ∈ lease.tokens then 1 else 0) = held leases owner token := by
  have hperm := (Keyed.perm_filter_ne hids hlease).countP_eq fun lease => lease.owner = owner ∧ token ∈ lease.tokens
  rw [List.countP_cons] at hperm
  simpa [held] using hperm.symm

theorem held_filter_owner (owner owner' : SubscriptionOwner) (token : Number) :
    held (leases.filter fun lease => lease.owner ≠ owner) owner' token =
      if owner' = owner then 0 else held leases owner' token := by
  unfold held
  rw [List.countP_filter]
  by_cases hsame : owner' = owner
  · rw [if_pos hsame, List.countP_eq_zero]
    intro lease _
    simp only [decide_eq_true_eq, not_and, Bool.and_eq_true]
    exact fun hboth hne => hne (hboth.1.trans hsame)
  · rw [if_neg hsame]
    refine List.countP_congr fun lease _ => ?_
    simp only [decide_eq_true_eq, Bool.and_eq_true]
    exact and_iff_left_of_imp fun hboth heq => hsame (hboth.1.symm.trans heq)

theorem Regular.handing (h : s.Regular) (releases : List LeaseRelease) : Regular { s with releases } :=
  ⟨h.ids, h.numbered, h.set, h.tokens⟩

theorem Counted.handing (h : s.Counted) (releases : List LeaseRelease) : Counted { s with releases } := ⟨h.of, h.total⟩

theorem filter_eq_token (hnodup : tokens.Nodup) (token : Number) :
    tokens.filter (· = token) = if token ∈ tokens then [token] else [] := by
  split
  · rename_i hmem
    simpa using Keyed.filter_of_mem (f := id) (by simpa using hnodup) hmem
  · rename_i hmem
    simpa using Keyed.filter_of_not_mem (f := id) (by simpa using hmem)

theorem events_subscribeCalls (hnodup : tokens.Nodup) (token : Number) :
    (subscribeCalls tokens).flatMap (TransportCall.events token) = if token ∈ tokens then [true] else [] := by
  cases tokens with
  | nil => rfl
  | cons first rest =>
    simp only [subscribeCalls, List.isEmpty_cons, Bool.false_eq_true, if_false, List.flatMap_singleton,
      TransportCall.events, filter_eq_token hnodup]
    split <;> rfl

theorem events_unsubscribeCalls (hnodup : tokens.Nodup) (token : Number) :
    (unsubscribeCalls tokens).flatMap (TransportCall.events token) = if token ∈ tokens then [false] else [] := by
  cases tokens with
  | nil => rfl
  | cons first rest =>
    simp only [unsubscribeCalls, List.isEmpty_cons, Bool.false_eq_true, if_false, List.flatMap_singleton,
      TransportCall.events, filter_eq_token hnodup]
    split <;> rfl

/-! ## Acquiring -/

section
variable (s) (owner) (tokens)

theorem acquire_counts (token : Number) : countsOf (s.acquire owner tokens).1.counts token =
    if token ∈ tokenSet (tokens.filter validToken) then (countsOf s.counts token).raise owner
    else countsOf s.counts token :=
  (addToken_loop (nodup_tokenSet _) s.counts []).1 token

theorem acquire_calls : (s.acquire owner tokens).2 = subscribeCalls
    ((tokenSet (tokens.filter validToken)).filter fun token => (countsOf s.counts token).total = 0) := by
  have hsent := (@addToken_loop owner _ (nodup_tokenSet (tokens.filter validToken)) s.counts []).2
  rw [List.nil_append] at hsent
  rw [← hsent]
  rfl

variable {s}

theorem Regular.acquire_leases (h : s.Regular) : (s.acquire owner tokens).1.leases =
    s.leases ++ [⟨.numbered owner (s.leaseSeq + 1), owner, tokenSet (tokens.filter validToken)⟩] := by
  refine if_neg fun hmem => ?_
  obtain ⟨lease, hlease, hid⟩ := List.mem_map.mp hmem
  have := h.numbered lease hlease owner (s.leaseSeq + 1) hid
  omega

theorem Regular.acquire (h : s.Regular) : (s.acquire owner tokens).1.Regular := by
  have hnew : ∀ lease ∈ s.leases, lease.leaseId ≠ .numbered owner (s.leaseSeq + 1) := fun lease hlease heq => by
    have := h.numbered lease hlease owner _ heq
    omega
  constructor
  · rw [h.acquire_leases, List.map_append, List.nodup_append]
    refine ⟨h.ids, List.nodup_singleton _, ?_⟩
    rintro id hid id' hid' rfl
    obtain ⟨lease, hlease, rfl⟩ := List.mem_map.mp hid
    exact hnew lease hlease (List.mem_singleton.mp hid')
  · rw [h.acquire_leases]
    intro lease hlease owner' seq hid
    change seq ≤ s.leaseSeq + 1
    rcases List.mem_append.mp hlease with hlease | hlease
    · exact (h.numbered lease hlease owner' seq hid).trans (Nat.le_succ _)
    · rw [List.mem_singleton.mp hlease] at hid
      cases hid
      exact le_rfl
  · rw [h.acquire_leases]
    intro lease hlease owner' hid
    rcases List.mem_append.mp hlease with hlease | hlease
    · exact h.set lease hlease owner' hid
    · rw [List.mem_singleton.mp hlease] at hid
      cases hid
  · rw [h.acquire_leases]
    intro lease hlease
    rcases List.mem_append.mp hlease with hlease | hlease
    · exact h.tokens lease hlease
    · rw [List.mem_singleton.mp hlease]
      exact nodup_tokenSet _

theorem Counted.acquire (h : s.Counted) (hregular : s.Regular) : (s.acquire owner tokens).1.Counted := by
  constructor
  · intro owner' token
    rw [acquire_counts, hregular.acquire_leases, held_append, held_singleton, ← h.of]
    split <;> rename_i hmem
    · by_cases howner : owner' = owner
      · simp [TokenCounts.raise, howner, hmem]
      · simp [TokenCounts.raise, howner, Ne.symm howner]
    · simp [hmem]
  · intro token
    rw [acquire_counts]
    split
    · exact (h.total token).raise owner
    · exact h.total token

theorem Counted.acquire_heard (h : s.Counted) (hregular : s.Regular) (token : Number) :
    (s.acquire owner tokens).2.flatMap (TransportCall.events token) =
      Toggle.change (live s.leases token) (live (s.acquire owner tokens).1.leases token) := by
  rw [acquire_calls, events_subscribeCalls ((nodup_tokenSet _).filter _), h.live_iff,
    (h.acquire owner tokens hregular).live_iff, acquire_counts]
  by_cases hmem : token ∈ tokenSet (tokens.filter validToken)
  · by_cases hzero : (countsOf s.counts token).total = 0
    · simp [hmem, hzero, TokenCounts.raise, Toggle.change]
    · simp [hmem, hzero, TokenCounts.raise, Toggle.change, Nat.pos_of_ne_zero hzero]
  · simp [hmem]

end

/-! ## Releasing -/

section
variable {lease : SubscriptionLease}

theorem releaseLease_of_find (hfind : s.leases.find? (fun other => other.leaseId = lease.leaseId) = some lease) :
    s.releaseLease lease.leaseId =
      ({ s with
          counts := (lease.tokens.foldl (dropToken lease.owner) (s.counts, [])).1
          leases := s.leases.filter fun other => other.leaseId ≠ lease.leaseId },
        unsubscribeCalls (lease.tokens.foldl (dropToken lease.owner) (s.counts, [])).2) := by
  simp only [releaseLease, hfind]

theorem Counted.of_lease (h : s.Counted) (hlease : lease ∈ s.leases) :
    ∀ token ∈ lease.tokens, 1 ≤ (countsOf s.counts token).of lease.owner ∧ (countsOf s.counts token).Adds := by
  intro token htoken
  refine ⟨?_, h.total token⟩
  rw [h.of]
  exact List.countP_pos_iff.mpr ⟨lease, hlease, by simpa using htoken⟩

theorem find_cases (s : SubscriptionCoordinator) (leaseId : LeaseId) :
    s.releaseLease leaseId = (s, []) ∨ ∃ lease ∈ s.leases, lease.leaseId = leaseId ∧
      s.leases.find? (fun other => other.leaseId = lease.leaseId) = some lease := by
  cases hfind : s.leases.find? fun other => other.leaseId = leaseId with
  | none =>
    left
    simp only [releaseLease, hfind]
  | some lease =>
    have hid : lease.leaseId = leaseId := by simpa using List.find?_some hfind
    exact .inr ⟨lease, List.mem_of_find?_eq_some hfind, hid, hid ▸ hfind⟩

theorem Regular.releaseLease (h : s.Regular) (leaseId : LeaseId) : (s.releaseLease leaseId).1.Regular := by
  obtain hsame | ⟨lease, -, rfl, hfind⟩ := find_cases s leaseId
  · rwa [hsame]
  · rw [releaseLease_of_find hfind]
    exact ⟨h.ids.sublist (List.filter_sublist.map _), fun _ hlease => h.numbered _ (List.mem_of_mem_filter hlease),
      fun _ hlease => h.set _ (List.mem_of_mem_filter hlease),
      fun _ hlease => h.tokens _ (List.mem_of_mem_filter hlease)⟩

theorem Counted.releaseLease (h : s.Counted) (hregular : s.Regular) (leaseId : LeaseId) :
    (s.releaseLease leaseId).1.Counted ∧ ∀ token,
      (s.releaseLease leaseId).2.flatMap (TransportCall.events token) =
        Toggle.change (live s.leases token) (live (s.releaseLease leaseId).1.leases token) := by
  obtain hsame | ⟨lease, hlease, rfl, hfind⟩ := find_cases s leaseId
  · rw [hsame]
    exact ⟨h, fun token => by simp⟩
  have hheld := h.of_lease hlease
  have hnodup := hregular.tokens lease hlease
  obtain ⟨hcounts, hsent⟩ := dropToken_loop hnodup s.counts [] hheld
  have hcounted : (s.releaseLease lease.leaseId).1.Counted := by
    rw [releaseLease_of_find hfind]
    constructor
    · intro owner token
      have hrest := held_filter_id hregular.ids hlease owner token
      rw [← h.of] at hrest
      change (countsOf (lease.tokens.foldl (dropToken lease.owner) (s.counts, [])).1 token).of owner =
        held (s.leases.filter fun other => other.leaseId ≠ lease.leaseId) owner token
      rw [hcounts]
      split <;> rename_i hmem
      · by_cases howner : owner = lease.owner
        · simp [hmem, howner] at hrest
          simp [TokenCounts.lower, howner]
          omega
        · simp [Ne.symm howner] at hrest
          simp [TokenCounts.lower, howner]
          omega
      · simp [hmem] at hrest
        simp
        omega
    · intro token
      change (countsOf (lease.tokens.foldl (dropToken lease.owner) (s.counts, [])).1 token).Adds
      rw [hcounts]
      split
      · rename_i hmem
        exact (h.total token).lower (hheld token hmem).1
      · exact h.total token
  refine ⟨hcounted, fun token => ?_⟩
  rw [h.live_iff, hcounted.live_iff, releaseLease_of_find hfind, hsent, List.nil_append,
    events_unsubscribeCalls (hnodup.filter _), hcounts]
  by_cases hmem : token ∈ lease.tokens
  · have hpos := (hheld token hmem).1.trans ((h.total token).le lease.owner)
    by_cases hlast : (countsOf s.counts token).total = 1
    · simp [hmem, hlast, TokenCounts.lower, Toggle.change]
    · have hmore : 0 < (countsOf s.counts token).total - 1 := by omega
      simp [hmem, hlast, TokenCounts.lower, Toggle.change, Nat.lt_of_lt_of_le Nat.zero_lt_one hpos, hmore]
  · simp [hmem]

end

/-! ## Replacing what an owner holds -/

section
variable (s) (owner) (tokens)

theorem setOwnerTokens_leases (h : s.Regular) : (s.setOwnerTokens owner tokens).1.leases =
    (s.leases.filter fun lease => lease.owner ≠ owner) ++
      if (tokenSet (tokens.filter validToken)).isEmpty then []
      else [⟨.set owner, owner, tokenSet (tokens.filter validToken)⟩] := by
  simp only [setOwnerTokens]
  split
  · simp
  · refine if_neg fun hmem => ?_
    obtain ⟨lease, hlease, hid⟩ := List.mem_map.mp hmem
    rw [List.mem_filter] at hlease
    exact of_decide_eq_true hlease.2 (h.set lease hlease.1 owner hid)

variable {s}

theorem held_setOwnerTokens (h : s.Regular) (owner' : SubscriptionOwner) (token : Number) :
    held (s.setOwnerTokens owner tokens).1.leases owner' token =
      if owner' = owner then if token ∈ tokenSet (tokens.filter validToken) then 1 else 0
      else held s.leases owner' token := by
  rw [setOwnerTokens_leases _ _ _ h, held_append, held_filter_owner]
  cases hwant : tokenSet (tokens.filter validToken) with
  | nil => by_cases howner : owner' = owner <;> simp [howner]
  | cons first rest =>
    simp only [List.isEmpty_cons, Bool.false_eq_true, if_false, held_singleton]
    by_cases howner : owner' = owner
    · simp [howner]
    · simp [howner, Ne.symm howner]

theorem Regular.setOwnerTokens (h : s.Regular) : (s.setOwnerTokens owner tokens).1.Regular := by
  have hkept : ∀ lease ∈ s.leases.filter (fun lease => lease.owner ≠ owner), lease ∈ s.leases ∧ lease.owner ≠ owner :=
    fun lease hlease => ⟨List.mem_of_mem_filter hlease, by simpa using List.of_mem_filter hlease⟩
  have hmem : ∀ lease ∈ (s.setOwnerTokens owner tokens).1.leases,
      lease ∈ s.leases ∨ lease = ⟨.set owner, owner, tokenSet (tokens.filter validToken)⟩ := by
    rw [setOwnerTokens_leases _ _ _ h]
    intro lease hlease
    rcases List.mem_append.mp hlease with hlease | hlease
    · exact .inl (hkept lease hlease).1
    · split at hlease
      · cases hlease
      · exact .inr (List.mem_singleton.mp hlease)
  constructor
  · rw [setOwnerTokens_leases _ _ _ h, List.map_append, List.nodup_append]
    refine ⟨h.ids.sublist (List.filter_sublist.map _), by split <;> simp, ?_⟩
    rintro id hid id' hid' rfl
    obtain ⟨lease, hlease, rfl⟩ := List.mem_map.mp hid
    split at hid'
    · cases hid'
    · exact (hkept lease hlease).2 (h.set lease (hkept lease hlease).1 owner (List.mem_singleton.mp hid'))
  · intro lease hlease owner' seq hid
    rcases hmem lease hlease with hlease | rfl
    · exact h.numbered lease hlease owner' seq hid
    · cases hid
  · intro lease hlease owner' hid
    rcases hmem lease hlease with hlease | rfl
    · exact h.set lease hlease owner' hid
    · cases hid
      rfl
  · intro lease hlease
    rcases hmem lease hlease with hlease | rfl
    · exact h.tokens lease hlease
    · exact nodup_tokenSet _

theorem Counted.setOwnerTokens_loops (h : s.Counted) :
    let want := tokenSet (tokens.filter validToken)
    let previouslyHeld := tokenSet ((s.leases.filter fun lease => lease.owner = owner).flatMap SubscriptionLease.tokens)
    (∀ token, countsOf (s.setOwnerTokens owner tokens).1.counts token =
      if token ∈ previouslyHeld then
        if token ∈ want then countsOf s.counts token else (countsOf s.counts token).lower owner
      else if token ∈ want then (countsOf s.counts token).raise owner else countsOf s.counts token) ∧
    (s.setOwnerTokens owner tokens).2 =
      unsubscribeCalls ((previouslyHeld.filter (· ∉ want)).filter fun token => (countsOf s.counts token).total = 1) ++
        subscribeCalls ((want.filter (· ∉ previouslyHeld)).filter fun token => (countsOf s.counts token).total = 0) := by
  intro want previouslyHeld
  have hheld : ∀ token ∈ previouslyHeld.filter (· ∉ want),
      1 ≤ (countsOf s.counts token).of owner ∧ (countsOf s.counts token).Adds := fun token htoken => by
    refine ⟨?_, h.total token⟩
    rw [h.of]
    exact mem_previouslyHeld.mp (List.mem_of_mem_filter htoken)
  have hprevious : (previouslyHeld.filter (· ∉ want)).Nodup := (nodup_tokenSet _).filter _
  have hwanted : (want.filter (· ∉ previouslyHeld)).Nodup := (nodup_tokenSet _).filter _
  obtain ⟨hdropped, hunsubscribe⟩ := dropToken_loop hprevious s.counts [] hheld
  obtain ⟨hadded, hsubscribe⟩ := @addToken_loop owner _ hwanted
    ((previouslyHeld.filter (· ∉ want)).foldl (dropToken owner) (s.counts, [])).1 []
  constructor
  · intro token
    refine (hadded token).trans ?_
    rw [hdropped]
    by_cases hprev : token ∈ previouslyHeld <;> by_cases hwant : token ∈ want <;> simp [hprev, hwant]
  · have hcalls : (s.setOwnerTokens owner tokens).2 =
        unsubscribeCalls ((previouslyHeld.filter (· ∉ want)).foldl (dropToken owner) (s.counts, [])).2 ++
          subscribeCalls ((want.filter (· ∉ previouslyHeld)).foldl (addToken owner)
            (((previouslyHeld.filter (· ∉ want)).foldl (dropToken owner) (s.counts, [])).1, [])).2 := rfl
    rw [hcalls, hunsubscribe, hsubscribe, List.nil_append, List.nil_append]
    congr 2
    refine List.filter_congr fun token htoken => ?_
    have hprev : token ∉ previouslyHeld := by simpa using List.of_mem_filter htoken
    rw [hdropped, if_neg fun hmem => hprev (List.mem_of_mem_filter hmem)]

theorem Counted.setOwnerTokens_iff (h : s.Counted) (hregular : s.Regular) :
    (s.setOwnerTokens owner tokens).1.Counted ↔ s.Single owner := by
  obtain ⟨hcounts, -⟩ := h.setOwnerTokens_loops owner tokens
  constructor
  · intro hcounted token
    have hafter := hcounted.of owner token
    rw [hcounts, held_setOwnerTokens _ _ hregular, if_pos rfl] at hafter
    have hbefore := h.of owner token
    simp only [mem_previouslyHeld] at hafter
    by_cases hheld : 0 < held s.leases owner token
    · by_cases hwant : token ∈ tokenSet (tokens.filter validToken)
      · simp only [hheld, hwant, if_true] at hafter
        omega
      · simp [hheld, hwant, TokenCounts.lower] at hafter
        omega
    · omega
  · intro hsingle
    constructor
    · intro owner' token
      rw [hcounts, held_setOwnerTokens _ _ hregular]
      simp only [mem_previouslyHeld]
      have hone := hsingle token
      have hbefore := h.of owner' token
      by_cases howner : owner' = owner
      · subst howner
        by_cases hheld : 0 < held s.leases owner' token <;>
          by_cases hwant : token ∈ tokenSet (tokens.filter validToken) <;>
          simp [hheld, hwant, TokenCounts.lower, TokenCounts.raise] <;> omega
      · by_cases hheld : 0 < held s.leases owner token <;>
          by_cases hwant : token ∈ tokenSet (tokens.filter validToken) <;>
          simp [hheld, hwant, TokenCounts.lower, TokenCounts.raise, howner, hbefore]
    · intro token
      rw [hcounts]
      have hadds := h.total token
      split
      · rename_i hmem
        split
        · exact hadds
        · refine hadds.lower ?_
          rw [h.of]
          exact mem_previouslyHeld.mp hmem
      · split
        · exact hadds.raise owner
        · exact hadds

theorem Counted.setOwnerTokens_heard (h : s.Counted) (hafter : (s.setOwnerTokens owner tokens).1.Counted)
    (token : Number) : (s.setOwnerTokens owner tokens).2.flatMap (TransportCall.events token) =
      Toggle.change (live s.leases token) (live (s.setOwnerTokens owner tokens).1.leases token) := by
  obtain ⟨hcounts, hcalls⟩ := h.setOwnerTokens_loops owner tokens
  rw [h.live_iff, hafter.live_iff, hcalls, List.flatMap_append,
    events_unsubscribeCalls (((nodup_tokenSet _).filter _).filter _),
    events_subscribeCalls (((nodup_tokenSet _).filter _).filter _), hcounts]
  have hpos : token ∈ tokenSet ((s.leases.filter fun lease => lease.owner = owner).flatMap SubscriptionLease.tokens) →
      0 < (countsOf s.counts token).total := fun hmem => by
    have hheld := mem_previouslyHeld.mp hmem
    rw [← h.of] at hheld
    exact hheld.trans_le ((h.total token).le owner)
  by_cases hprev : token ∈ tokenSet ((s.leases.filter fun lease => lease.owner = owner).flatMap SubscriptionLease.tokens)
  · have hheld := hpos hprev
    by_cases hwant : token ∈ tokenSet (tokens.filter validToken)
    · simp [hprev, hwant]
    · by_cases hlast : (countsOf s.counts token).total = 1
      · simp [hprev, hwant, hlast, TokenCounts.lower, Toggle.change]
      · have hmore : 0 < (countsOf s.counts token).total - 1 := by omega
        simp [hprev, hwant, hlast, TokenCounts.lower, Toggle.change, hheld, hmore]
  · by_cases hwant : token ∈ tokenSet (tokens.filter validToken)
    · by_cases hzero : (countsOf s.counts token).total = 0
      · simp [hprev, hwant, hzero, TokenCounts.raise, Toggle.change]
      · simp [hprev, hwant, hzero, TokenCounts.raise, Toggle.change, Nat.pos_of_ne_zero hzero]
    · simp [hprev, hwant]

end

end SubscriptionCoordinator

namespace SubscriptionLane

open SubscriptionCoordinator

variable {lane : SubscriptionLane}

theorem reconciled_new : Reconciled new := by
  refine ⟨⟨fun _ _ => rfl, TokenCounts.adds_empty⟩, fun _ => Toggle.alternates_nil⟩

theorem regular_new : SubscriptionLane.new.coordinator.Regular := by
  constructor <;> simp [new, SubscriptionCoordinator.new]

theorem regular_step (h : lane.coordinator.Regular) (op : SubscriptionOp) : (lane.step op).1.coordinator.Regular := by
  cases op with
  | acquire owner tokens => exact h.acquire owner tokens
  | release n =>
    simp only [step, SubscriptionCoordinator.step, SubscriptionCoordinator.release]
    split
    · exact h
    · split
      · exact h
      · exact (h.handing _).releaseLease _
  | setOwnerTokens owner tokens => exact h.setOwnerTokens owner tokens
  | resetForBrokerSwitch => constructor <;> simp [step, SubscriptionCoordinator.step, resetForBrokerSwitch]

theorem Reconciled.heard_append (h : lane.Reconciled) {s : SubscriptionCoordinator} {calls : List TransportCall}
    (hcounted : s.Counted) (hcalls : ∀ token, calls.flatMap (TransportCall.events token) =
      Toggle.change (live lane.coordinator.leases token) (live s.leases token)) :
    Reconciled ⟨s, lane.heard ++ calls⟩ := by
  refine ⟨hcounted, fun token => ?_⟩
  rw [List.flatMap_append, hcalls]
  exact (h.heard token).change _

theorem Reconciled.release (h : lane.Reconciled) (hregular : lane.coordinator.Regular) (n : ℕ) :
    (lane.step (.release n)).1.Reconciled := by
  have hsame : Reconciled ⟨lane.coordinator, lane.heard ++ []⟩ := by rwa [List.append_nil]
  simp only [step, SubscriptionCoordinator.step, SubscriptionCoordinator.release]
  split
  · exact hsame
  · split
    · exact hsame
    · rename_i handed _ _
      obtain ⟨hcounted, hcalls⟩ := (h.counted.handing
        (lane.coordinator.releases.set n { handed with released := true })).releaseLease (hregular.handing _) handed.leaseId
      exact h.heard_append hcounted hcalls

theorem reconciled_step (hregular : lane.coordinator.Regular) (h : lane.Reconciled) (op : SubscriptionOp) :
    (lane.step op).1.Reconciled ↔ lane.Separate op := by
  cases op with
  | acquire owner tokens =>
    exact iff_of_true (h.heard_append (h.counted.acquire owner tokens hregular)
      (h.counted.acquire_heard owner tokens hregular)) trivial
  | release n => exact iff_of_true (h.release hregular n) trivial
  | setOwnerTokens owner tokens =>
    rw [Separate, ← h.counted.setOwnerTokens_iff owner tokens hregular]
    exact ⟨Reconciled.counted, fun hcounted =>
      h.heard_append hcounted (h.counted.setOwnerTokens_heard owner tokens hcounted)⟩
  | resetForBrokerSwitch =>
    exact iff_of_true ⟨⟨fun _ _ => rfl, TokenCounts.adds_empty⟩, fun _ => Toggle.alternates_nil⟩ trivial

end SubscriptionLane

/-- The transport hears by turns exactly when no owner's leases are replaced while two of them share a token. -/
theorem subscriptions_reconciled (ops : List SubscriptionOp) :
    (∀ before, before <+: ops → (Run.finish SubscriptionLane.step .new before).Reconciled) ↔
      Run.Guarded SubscriptionLane.step SubscriptionLane.Separate .new ops :=
  Run.forall_prefix_iff (P := SubscriptionLane.Reconciled) (I := fun lane => lane.coordinator.Regular)
    (fun _ op h => SubscriptionLane.regular_step h op)
    (fun _ op hregular h => SubscriptionLane.reconciled_step hregular h op) SubscriptionLane.regular_new
    SubscriptionLane.reconciled_new ops

def leakedToken : List SubscriptionOp :=
  [.acquire .strategy [.fin 7], .acquire .strategy [.fin 7], .setOwnerTokens .strategy []]

theorem subscription_leaks :
    SubscriptionCoordinator.live (Run.finish SubscriptionLane.step .new leakedToken).coordinator.leases (.fin 7) = false ∧
      ¬(Run.finish SubscriptionLane.step .new leakedToken).Reconciled := by
  refine ⟨by decide, fun h => ?_⟩
  have hof := h.counted.of .strategy (.fin 7)
  revert hof
  decide

end BoxEngine
