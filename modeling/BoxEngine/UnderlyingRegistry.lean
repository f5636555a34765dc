import BoxEngine.UnderlyingClaims

/-!
# Owners of underlyings

An owner stands in one place only, the store has a claimed key under its owner, and each operation on the claims keeps
this.
-/

namespace BoxEngine

namespace Coordination

/-! ## Where an owner stands -/

/-- The claims, the acquisitions on their way, the owners being dropped and the counter of ids. -/
structure Registry where
  claims : List PositionUnderlyingClaim
  flying : List Acquiring
  drops : List MintedId
  seq : ℕ

namespace Registry

def owners (r : Registry) : List MintedId :=
  r.claims.map PositionUnderlyingClaim.owner ++ (r.flying.map Acquiring.owner ++ r.drops)

/-- Every owner stands in one place, and what the store granted is where it says. -/
structure Placed (store : String → Option KeyOwner) (decided : List (MintedId × Bool)) (r : Registry) : Prop where
  keyed : (r.claims.map PositionUnderlyingClaim.key).Nodup
  holders : ∀ claim ∈ r.claims, claim.holders ≠ []
  apart : r.owners.Nodup
  minted : ∀ owner ∈ r.owners, owner.seq ≤ r.seq
  decisions : ∀ owner ∈ decided.map Prod.fst, owner.seq ≤ r.seq
  claimed : ∀ claim ∈ r.claims, store claim.key = some (.here claim.owner)
  granted : ∀ acquiring ∈ r.flying, (acquiring.owner, true) ∈ decided → store acquiring.key = some (.here acquiring.owner)
  welcome : ∀ acquiring ∈ r.flying, ∀ dependant, acquiring.holder = .dependant dependant →
    (acquiring.owner, false) ∉ decided

variable {store : String → Option KeyOwner} {decided : List (MintedId × Bool)}
variable {claims : List PositionUnderlyingClaim} {flying : List Acquiring} {drops : List MintedId} {seq : ℕ}

namespace Placed

section

variable (h : Placed store decided ⟨claims, flying, drops, seq⟩)
include h

theorem of_sublist {flying' : List Acquiring} (hflying : flying'.Sublist flying) {drops' : List MintedId}
    (hdrops : drops'.Sublist drops) : Placed store decided ⟨claims, flying', drops', seq⟩ := by
  have howners : (owners ⟨claims, flying', drops', seq⟩).Sublist (owners ⟨claims, flying, drops, seq⟩) :=
    (List.Sublist.refl _).append ((hflying.map _).append hdrops)
  exact ⟨h.keyed, h.holders, h.apart.sublist howners, fun owner howner => h.minted owner (howners.subset howner),
    h.decisions, h.claimed, fun acquiring hacquiring => h.granted acquiring (hflying.subset hacquiring),
    fun acquiring hacquiring => h.welcome acquiring (hflying.subset hacquiring)⟩

theorem of_perm {flying' : List Acquiring} (hflying : flying'.Perm flying) :
    Placed store decided ⟨claims, flying', drops, seq⟩ := by
  have howners : (owners ⟨claims, flying', drops, seq⟩).Perm (owners ⟨claims, flying, drops, seq⟩) :=
    (List.Perm.refl _).append ((hflying.map _).append (List.Perm.refl _))
  exact ⟨h.keyed, h.holders, howners.nodup_iff.mpr h.apart, fun owner howner => h.minted owner (howners.subset howner),
    h.decisions, h.claimed, fun acquiring hacquiring => h.granted acquiring (hflying.subset hacquiring),
    fun acquiring hacquiring => h.welcome acquiring (hflying.subset hacquiring)⟩

theorem of_le {seq' : ℕ} (hle : seq ≤ seq') :
    Placed store decided ⟨claims, flying, drops, seq'⟩ where
  keyed := h.keyed
  holders := h.holders
  apart := h.apart
  minted := fun owner howner => (h.minted owner howner).trans hle
  decisions := fun owner howner => (h.decisions owner howner).trans hle
  claimed := h.claimed
  granted := h.granted
  welcome := h.welcome

end

variable {acquiring : Acquiring}

section

variable (h : Placed store decided ⟨claims, flying, drops, seq⟩)
include h

theorem mint (hseq : acquiring.owner.seq = seq + 1) :
    Placed store decided ⟨claims, acquiring :: flying, drops, seq + 1⟩ := by
  have hnew : acquiring.owner ∉ owners ⟨claims, flying, drops, seq⟩ := by
    intro hmem
    have hle : acquiring.owner.seq ≤ seq := h.minted _ hmem
    omega
  have hundecided : ∀ granted, (acquiring.owner, granted) ∉ decided := by
    intro granted hmem
    have hle : acquiring.owner.seq ≤ seq := h.decisions _ (List.mem_map_of_mem hmem)
    omega
  have hperm : (owners ⟨claims, acquiring :: flying, drops, seq + 1⟩).Perm
      (acquiring.owner :: owners ⟨claims, flying, drops, seq⟩) := List.perm_middle
  refine ⟨h.keyed, h.holders, ?_, ?_, ?_, h.claimed, ?_, ?_⟩
  · exact hperm.nodup_iff.mpr (List.nodup_cons.mpr ⟨hnew, h.apart⟩)
  · intro owner howner
    rcases List.mem_cons.mp (hperm.subset howner) with rfl | howner
    · exact le_of_eq hseq
    · exact (h.minted owner howner).trans (Nat.le_succ _)
  · exact fun owner howner => (h.decisions owner howner).trans (Nat.le_succ _)
  · intro other hother hgranted
    rcases List.mem_cons.mp hother with rfl | hother
    · exact absurd hgranted (hundecided true)
    · exact h.granted other hother hgranted
  · intro other hother dependant hholder
    rcases List.mem_cons.mp hother with rfl | hother
    · exact hundecided false
    · exact h.welcome other hother dependant hholder

theorem unclaimed (hflying : acquiring ∈ flying) (hgranted : (acquiring.owner, true) ∈ decided) :
    acquiring.key ∉ claims.map PositionUnderlyingClaim.key := by
  intro hmem
  obtain ⟨claim, hclaim, hkey⟩ := List.mem_map.mp hmem
  have hclaimed := h.claimed claim hclaim
  rw [hkey, h.granted acquiring hflying hgranted] at hclaimed
  have howner : acquiring.owner = claim.owner := KeyOwner.here.inj (Option.some.inj hclaimed)
  exact (List.nodup_append.mp h.apart).2.2 claim.owner (List.mem_map_of_mem hclaim) acquiring.owner
    (List.mem_append_left _ (List.mem_map_of_mem hflying)) howner.symm

end

/-- A granted acquisition becomes a claim. -/
theorem deliver {rest : List Acquiring} (h : Placed store decided ⟨claims, acquiring :: rest, drops, seq⟩)
    (hgranted : (acquiring.owner, true) ∈ decided) {claim : PositionUnderlyingClaim}
    (hkey : claim.key = acquiring.key) (howner : claim.owner = acquiring.owner) (hholders : claim.holders ≠ []) :
    Placed store decided ⟨claims ++ [claim], rest, drops, seq⟩ := by
  have hfree : claim.key ∉ claims.map PositionUnderlyingClaim.key :=
    hkey ▸ h.unclaimed List.mem_cons_self hgranted
  have hperm : (owners ⟨claims ++ [claim], rest, drops, seq⟩).Perm
      (owners ⟨claims, acquiring :: rest, drops, seq⟩) := by
    unfold owners
    rw [List.map_append, List.map_singleton, howner, List.append_assoc]
    rfl
  refine ⟨?_, ?_, hperm.nodup_iff.mpr h.apart, ?_, h.decisions, ?_, ?_, ?_⟩
  · rw [List.map_append, List.map_singleton, List.nodup_append]
    refine ⟨h.keyed, List.nodup_singleton _, ?_⟩
    rintro key hkeys _ hsingle rfl
    exact hfree (List.mem_singleton.mp hsingle ▸ hkeys)
  · intro other hother
    rcases List.mem_append.mp hother with hother | hother
    · exact h.holders other hother
    · rw [List.mem_singleton.mp hother]
      exact hholders
  · exact fun owner hmem => h.minted owner (hperm.subset hmem)
  · intro other hother
    rcases List.mem_append.mp hother with hother | hother
    · exact h.claimed other hother
    · rw [List.mem_singleton.mp hother, hkey, howner]
      exact h.granted acquiring List.mem_cons_self hgranted
  · exact fun other hother => h.granted other (.tail _ hother)
  · exact fun other hother => h.welcome other (.tail _ hother)

section

variable (h : Placed store decided ⟨claims, flying, drops, seq⟩)
include h

theorem map {f : PositionUnderlyingClaim → PositionUnderlyingClaim} (hkey : ∀ claim, (f claim).key = claim.key)
    (howner : ∀ claim, (f claim).owner = claim.owner) (hholders : ∀ claim ∈ claims, (f claim).holders ≠ []) :
    Placed store decided ⟨claims.map f, flying, drops, seq⟩ := by
  have howners : owners ⟨claims.map f, flying, drops, seq⟩ = owners ⟨claims, flying, drops, seq⟩ := by
    unfold owners
    rw [List.map_map, show PositionUnderlyingClaim.owner ∘ f = PositionUnderlyingClaim.owner from funext howner]
  refine ⟨?_, ?_, howners ▸ h.apart, howners ▸ h.minted, h.decisions, ?_, h.granted, h.welcome⟩
  · rw [List.map_map, show PositionUnderlyingClaim.key ∘ f = PositionUnderlyingClaim.key from funext hkey]
    exact h.keyed
  · intro claim hclaim
    obtain ⟨before, hbefore, rfl⟩ := List.mem_map.mp hclaim
    exact hholders before hbefore
  · intro claim hclaim
    obtain ⟨before, hbefore, rfl⟩ := List.mem_map.mp hclaim
    rw [hkey, howner]
    exact h.claimed before hbefore

/-- A claim without holders becomes a drop. -/
theorem release {claim : PositionUnderlyingClaim} (hclaim : claim ∈ claims) :
    Placed store decided ⟨claims.filter fun other => other.key ≠ claim.key, flying, drops ++ [claim.owner], seq⟩ := by
  have hkept : ∀ other ∈ claims.filter fun other => other.key ≠ claim.key, other ∈ claims :=
    fun other hother => (List.mem_filter.mp hother).1
  -- the claims are this one and the others
  have hclaims : ((claims.filter fun other => other.key ≠ claim.key).map PositionUnderlyingClaim.owner ++
      [claim.owner]).Perm (claims.map PositionUnderlyingClaim.owner) := by
    have hsplit : (claims.filter fun other => decide (other.key = claim.key)) = [claim] :=
      Keyed.filter_of_mem h.keyed hclaim
    have hperm := (List.filter_append_perm (fun other => decide (other.key = claim.key)) claims).map
      PositionUnderlyingClaim.owner
    rw [hsplit] at hperm
    simp only [decide_not] at hperm ⊢
    exact List.perm_append_comm.trans (by simpa using hperm)
  have hperm : (owners ⟨claims.filter fun other => other.key ≠ claim.key, flying, drops ++ [claim.owner], seq⟩).Perm
      (owners ⟨claims, flying, drops, seq⟩) := by
    unfold owners
    dsimp only
    rw [← List.append_assoc (flying.map _)]
    refine (List.Perm.append_left _ List.perm_append_comm).trans ?_
    rw [← List.append_assoc]
    exact hclaims.append_right _
  refine ⟨h.keyed.sublist (List.filter_sublist.map _), fun other hother => h.holders other (hkept other hother),
    hperm.nodup_iff.mpr h.apart, fun owner hmem => h.minted owner (hperm.subset hmem), h.decisions,
    fun other hother => h.claimed other (hkept other hother), h.granted, h.welcome⟩

end

/-! ### Steps of the store -/

variable {r : Registry}

section

variable (h : r.Placed store decided)
include h

theorem of_store {store' : String → Option KeyOwner}
    (hsame : ∀ key owner, owner ∉ r.drops → store key = some (.here owner) → store' key = some (.here owner)) :
    r.Placed store' decided where
  keyed := h.keyed
  holders := h.holders
  apart := h.apart
  minted := h.minted
  decisions := h.decisions
  claimed := by
    intro claim hclaim
    refine hsame _ _ ?_ (h.claimed claim hclaim)
    intro hdrop
    exact (List.nodup_append.mp h.apart).2.2 claim.owner (List.mem_map_of_mem hclaim) claim.owner
      (List.mem_append_right _ hdrop) rfl
  granted := by
    intro acquiring hacquiring hgranted
    refine hsame _ _ ?_ (h.granted acquiring hacquiring hgranted)
    intro hdrop
    exact (List.nodup_append.mp (List.nodup_append.mp h.apart).2.1).2.2 acquiring.owner
      (List.mem_map_of_mem hacquiring) acquiring.owner hdrop rfl
  welcome := h.welcome

theorem flying_eq {acquiring other : Acquiring} (hacquiring : acquiring ∈ r.flying) (hother : other ∈ r.flying)
    (howner : other.owner = acquiring.owner) : other = acquiring :=
  List.inj_on_of_nodup_map (List.nodup_append.mp (List.nodup_append.mp h.apart).2.1).1 hother hacquiring howner

theorem owner_le (hacquiring : acquiring ∈ r.flying) : acquiring.owner.seq ≤ r.seq :=
  h.minted _ (List.mem_append_right _ (List.mem_append_left _ (List.mem_map_of_mem hacquiring)))

end

theorem grant (h : r.Placed store decided) {acquiring : Acquiring} (hacquiring : acquiring ∈ r.flying)
    (hfree : store acquiring.key = none) :
    r.Placed (Function.update store acquiring.key (some (.here acquiring.owner)))
      ((acquiring.owner, true) :: decided) := by
  have hkeeps : ∀ key owner, store key = some owner →
      Function.update store acquiring.key (some (.here acquiring.owner)) key = some owner := by
    intro key owner hstore
    rw [Function.update_of_ne, hstore]
    rintro rfl
    rw [hfree] at hstore
    cases hstore
  refine ⟨h.keyed, h.holders, h.apart, h.minted, ?_, ?_, ?_, ?_⟩
  · intro owner howner
    rcases List.mem_cons.mp howner with rfl | howner
    · exact h.owner_le hacquiring
    · exact h.decisions owner howner
  · exact fun claim hclaim => hkeeps _ _ (h.claimed claim hclaim)
  · intro other hother hgranted
    rcases List.mem_cons.mp hgranted with heq | hgranted
    · rw [h.flying_eq hacquiring hother (Prod.mk.inj heq).1, Function.update_self]
    · exact hkeeps _ _ (h.granted other hother hgranted)
  · intro other hother dependant hholder hrefused
    rcases List.mem_cons.mp hrefused with heq | hrefused
    · cases (Prod.mk.inj heq).2
    · exact h.welcome other hother dependant hholder hrefused

theorem deny (h : r.Placed store decided) (hacquiring : acquiring ∈ r.flying)
    (hpipeline : ∀ dependant, acquiring.holder ≠ .dependant dependant) :
    r.Placed store ((acquiring.owner, false) :: decided) := by
  refine ⟨h.keyed, h.holders, h.apart, h.minted, ?_, h.claimed, ?_, ?_⟩
  · intro owner howner
    rcases List.mem_cons.mp howner with rfl | howner
    · exact h.owner_le hacquiring
    · exact h.decisions owner howner
  · intro other hother hgranted
    rcases List.mem_cons.mp hgranted with heq | hgranted
    · cases (Prod.mk.inj heq).2
    · exact h.granted other hother hgranted
  · intro other hother dependant hholder hrefused
    rcases List.mem_cons.mp hrefused with heq | hrefused
    · rw [h.flying_eq hacquiring hother (Prod.mk.inj heq).1] at hholder
      exact hpipeline dependant hholder
    · exact h.welcome other hother dependant hholder hrefused

end Placed

end Registry

namespace ExecutionCoordinator

variable {cfg : CoordinatorConfig} {s : ExecutionCoordinator}
variable {store : String → Option KeyOwner} {decided : List (MintedId × Bool)}

def registry (s : ExecutionCoordinator) : Registry := ⟨s.positionClaims, s.flying, s.drops, s.seq⟩

/-! ## Who holds a claim -/

variable {s' : ExecutionCoordinator}

theorem Held.of_claims {key : String} {holder : Holder} (h : s'.Held key holder)
    (hclaims : s'.positionClaims = s.positionClaims) : s.Held key holder := by
  obtain ⟨claim, hclaim, hheld⟩ := h
  exact ⟨claim, hclaims ▸ hclaim, hheld⟩

theorem held_congr (hclaims : s'.positionClaims = s.positionClaims) (key : String) (holder : Holder) :
    s'.Held key holder ↔ s.Held key holder :=
  ⟨fun h => h.of_claims hclaims, fun h => h.of_claims hclaims.symm⟩

theorem held_map {f : PositionUnderlyingClaim → PositionUnderlyingClaim} (hkey : ∀ claim, (f claim).key = claim.key)
    (hs' : s'.positionClaims = s.positionClaims.map f) (key : String) (holder : Holder) :
    s'.Held key holder ↔ ∃ claim ∈ s.positionClaims, claim.key = key ∧ holder ∈ (f claim).holders := by
  unfold Held
  rw [hs']
  constructor
  · rintro ⟨claim, hclaim, rfl, hheld⟩
    obtain ⟨before, hbefore, rfl⟩ := List.mem_map.mp hclaim
    exact ⟨before, hbefore, (hkey before).symm, hheld⟩
  · rintro ⟨claim, hclaim, rfl, hheld⟩
    exact ⟨f claim, List.mem_map_of_mem hclaim, hkey claim, hheld⟩

theorem held_addHolder {key' : String} {holder' : Holder} {claim : PositionUnderlyingClaim}
    (hclaim : s.positionClaim? key' = some claim) (key : String) (holder : Holder) :
    (s.addHolder key' holder').Held key holder ↔ s.Held key holder ∨ (key = key' ∧ holder = holder') := by
  have hmem : claim ∈ s.positionClaims := List.mem_of_find?_eq_some hclaim
  have hat : claim.key = key' := by simpa using List.find?_some hclaim
  have hkey : ∀ claim : PositionUnderlyingClaim, (if claim.key = key' then
      { claim with holders := if holder' ∈ claim.holders then claim.holders else claim.holders ++ [holder'] }
      else claim).key = claim.key := by
    intro claim
    split <;> rfl
  rw [held_map hkey rfl]
  constructor
  · rintro ⟨other, hother, rfl, hheld⟩
    split at hheld
    · rename_i hsame
      dsimp only at hheld
      split at hheld
      · exact .inl ⟨other, hother, rfl, hheld⟩
      · rcases List.mem_append.mp hheld with hheld | hheld
        · exact .inl ⟨other, hother, rfl, hheld⟩
        · exact .inr ⟨hsame, List.mem_singleton.mp hheld⟩
    · exact .inl ⟨other, hother, rfl, hheld⟩
  · rintro (⟨other, hother, rfl, hheld⟩ | ⟨rfl, rfl⟩)
    · refine ⟨other, hother, rfl, ?_⟩
      split
      · dsimp only
        split
        · exact hheld
        · exact List.mem_append_left _ hheld
      · exact hheld
    · refine ⟨claim, hmem, hat, ?_⟩
      rw [if_pos hat]
      dsimp only
      split
      · assumption
      · exact List.mem_append_right _ (List.mem_singleton_self _)

theorem held_renewClaim (owner : MintedId) (outcome : RenewOutcome) (key : String) (holder : Holder) :
    (s.renewClaim owner outcome).Held key holder ↔ s.Held key holder := by
  cases outcome
  all_goals
    rw [held_map (s := s) _ rfl]
    · refine exists_congr fun claim => and_congr_right fun _ => and_congr_right fun _ => ?_
      split <;> rfl
    · intro claim
      split <;> rfl

theorem held_dropUnderlyingHolder (hkeyed : (s.positionClaims.map PositionUnderlyingClaim.key).Nodup)
    (underlying : String) (holder' : Holder) (key : String) (holder : Holder) :
    (s.dropUnderlyingHolder cfg underlying holder').1.Held key holder ↔
      s.Held key holder ∧ ¬ (key = s.positionClaimKey cfg underlying ∧ holder = holder') := by
  unfold dropUnderlyingHolder
  dsimp only
  split
  · rename_i hnone
    refine ⟨fun h => ⟨h, ?_⟩, And.left⟩
    rintro ⟨rfl, _⟩
    obtain ⟨claim, hclaim, hkey, _⟩ := h
    exact absurd hkey (by simpa using List.find?_eq_none.mp hnone claim hclaim)
  · rename_i found hfound
    have hmem : found ∈ s.positionClaims := List.mem_of_find?_eq_some hfound
    have hkey : found.key = s.positionClaimKey cfg underlying := by simpa using List.find?_some hfound
    have honly : ∀ claim ∈ s.positionClaims, claim.key = s.positionClaimKey cfg underlying → claim = found :=
      fun claim hclaim hsame => List.inj_on_of_nodup_map hkeyed hclaim hmem (hsame.trans hkey.symm)
    split
    · rw [held_map (s := s) (fun claim => by split <;> rfl) rfl]
      constructor
      · rintro ⟨claim, hclaim, rfl, hheld⟩
        split at hheld
        · rename_i hsame
          obtain ⟨hheld, hne⟩ := List.mem_filter.mp hheld
          exact ⟨⟨found, hmem, by rw [honly claim hclaim hsame], hheld⟩, fun hboth => by simp [hboth.2] at hne⟩
        · rename_i hother
          exact ⟨⟨claim, hclaim, rfl, hheld⟩, fun hboth => hother hboth.1⟩
      · rintro ⟨⟨claim, hclaim, rfl, hheld⟩, hnot⟩
        refine ⟨claim, hclaim, rfl, ?_⟩
        split
        · rename_i hsame
          refine List.mem_filter.mpr ⟨honly claim hclaim hsame ▸ hheld, ?_⟩
          simpa using fun hholder => hnot ⟨hsame, hholder⟩
        · exact hheld
    · rename_i hlast
      rw [not_not, List.filter_eq_nil_iff] at hlast
      constructor
      · rintro ⟨claim, hclaim, rfl, hheld⟩
        obtain ⟨hclaim, hne⟩ := List.mem_filter.mp hclaim
        exact ⟨⟨claim, hclaim, rfl, hheld⟩, fun hboth => absurd hboth.1 (by simpa using hne)⟩
      · rintro ⟨⟨claim, hclaim, rfl, hheld⟩, hnot⟩
        refine ⟨claim, List.mem_filter.mpr ⟨hclaim, ?_⟩, rfl, hheld⟩
        rw [decide_eq_true_eq]
        intro hsame
        have hholder : holder = holder' := by simpa using hlast holder (honly claim hclaim hsame ▸ hheld)
        exact hnot ⟨hsame, hholder⟩

theorem positionClaims_underlyingAcquired {acquiring : Acquiring} {lease : Lease} {revalidated : Except String Unit}
    (hfree : acquiring.key ∉ s.positionClaims.map PositionUnderlyingClaim.key) :
    (s.underlyingAcquired acquiring (.acquire (.acquired lease) revalidated)).1.positionClaims =
      s.positionClaims ++ [⟨acquiring.key, acquiring.owner, lease, acquiring.context, acquiring.underlying,
        [acquiring.holder], false⟩] := if_neg hfree

theorem held_underlyingAcquired {acquiring : Acquiring}
    (hfree : acquiring.key ∉ s.positionClaims.map PositionUnderlyingClaim.key) (lease : Lease)
    (revalidated : Except String Unit) (key : String) (holder : Holder) :
    (s.underlyingAcquired acquiring (.acquire (.acquired lease) revalidated)).1.Held key holder ↔
      s.Held key holder ∨ (key = acquiring.key ∧ holder = acquiring.holder) := by
  unfold Held
  rw [positionClaims_underlyingAcquired hfree]
  simp only [List.mem_append, List.mem_singleton, or_and_right, exists_or, exists_eq_left]
  exact or_congr Iff.rfl (and_congr eq_comm Iff.rfl)

/-! ## What the operations keep -/

theorem registry_of_desk (hdesk : s'.desk = s.desk) : s'.registry = ⟨s'.positionClaims, s.flying, s'.drops, s.seq⟩ := by
  have hentries : s'.entries = s.entries := congrArg Desk.entries hdesk
  have hacquirings : s'.acquirings = s.acquirings := congrArg Desk.acquirings hdesk
  have hseq : s'.seq = s.seq := congrArg Desk.seq hdesk
  unfold registry flying
  rw [hentries, hacquirings, hseq]

theorem registry_congr (hclaims : s'.positionClaims = s.positionClaims) (hentries : s'.entries = s.entries)
    (hacquirings : s'.acquirings = s.acquirings) (hdrops : s'.drops = s.drops) (hseq : s'.seq = s.seq) :
    s'.registry = s.registry := by
  unfold registry flying
  rw [hclaims, hentries, hacquirings, hdrops, hseq]

theorem placed_addHolder (h : s.registry.Placed store decided) (key : String) (holder : Holder) :
    (s.addHolder key holder).registry.Placed store decided := by
  refine h.map ?_ ?_ ?_
  · intro claim
    split <;> rfl
  · intro claim
    split <;> rfl
  · intro claim hclaim
    split
    · dsimp only
      split
      · exact h.holders claim hclaim
      · exact List.append_ne_nil_of_right_ne_nil _ (List.cons_ne_nil _ _)
    · exact h.holders claim hclaim

theorem placed_renewClaim (h : s.registry.Placed store decided) (owner : MintedId) (outcome : RenewOutcome) :
    (s.renewClaim owner outcome).registry.Placed store decided := by
  cases outcome
  all_goals
    refine h.map ?_ ?_ ?_
    · intro claim
      split <;> rfl
    · intro claim
      split <;> rfl
    · intro claim hclaim
      split <;> exact h.holders claim hclaim

variable (cfg) in
theorem placed_dropUnderlyingHolder (h : s.registry.Placed store decided) (underlying : String) (holder : Holder) :
    (s.dropUnderlyingHolder cfg underlying holder).1.registry.Placed store decided := by
  unfold dropUnderlyingHolder
  dsimp only
  split
  · exact h
  · rename_i found hfound
    have hmem : found ∈ s.positionClaims := List.mem_of_find?_eq_some hfound
    have hkey : found.key = s.positionClaimKey cfg underlying := by simpa using List.find?_some hfound
    split
    · rename_i hleft
      refine h.map ?_ ?_ ?_
      · intro claim
        split <;> rfl
      · intro claim
        split <;> rfl
      · intro claim hclaim
        split
        · exact hleft
        · exact h.holders claim hclaim
    · exact hkey ▸ h.release hmem

end ExecutionCoordinator

end Coordination

end BoxEngine
