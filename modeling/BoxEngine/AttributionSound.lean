import BoxEngine.Projection
import BoxEngine.Lib.Run

/-!
# Attribution isolation

An observation reaches the ledger registered under its owner tag, else the one its broker id is bound to. The indexes
stay in step while no observation carries one order's tag with another's broker id.
-/

namespace BoxEngine

open Js Run

inductive ProjectionCall where
  | register (order : RegisteredOrder)
  | learnBrokerOrderId (clientOrderId : String) (brokerOrderId : Option String)
  | ingest (obs : NormalizedOrderObservation)

namespace OrderUpdateProjection

variable (p : OrderUpdateProjection)

def step : ProjectionCall → OrderUpdateProjection × Option IngestResult
  | .register order => (p.register order, none)
  | .learnBrokerOrderId clientOrderId brokerOrderId => (p.learnBrokerOrderId clientOrderId brokerOrderId, none)
  | .ingest obs => ((p.ingest obs).1, some (p.ingest obs).2)

def RegisteredUnder (calls : List ProjectionCall) (tag clientOrderId : String) : Prop :=
  ∃ order, .register order ∈ calls ∧ trim order.ownerTag = tag ∧ order.clientOrderId = clientOrderId

def GivenBrokerId (calls : List ProjectionCall) (id clientOrderId : String) : Prop :=
  (∃ order, .register order ∈ calls ∧ trimKey order.brokerOrderId = id ∧ order.clientOrderId = clientOrderId) ∨
    ∃ given, .learnBrokerOrderId clientOrderId given ∈ calls ∧ trimKey given = id

structure DistinctKeys (calls : List ProjectionCall) : Prop where
  tag_nonempty : ∀ c, ¬ RegisteredUnder calls "" c
  tag : ∀ t c c', RegisteredUnder calls t c → RegisteredUnder calls t c' → c = c'
  brokerId : ∀ id c c', id ≠ "" → GivenBrokerId calls id c → GivenBrokerId calls id c' → c = c'

/-- No tag of one order comes with another's broker id, unless under another account. -/
def KeysAgree : ProjectionCall → Prop
  | .ingest obs => obs.malformed = false → ∀ c c', p.byOwnerTag (trim obs.ownerTag) = some c →
      p.byBrokerOrderId (trimKey obs.brokerOrderId) = some c' → c = c' ∨ c ≠ "" ∧ p.namesForeignAccount obs c
  | _ => True

/-! ## What one observation can do -/

structure SameIndexes (p p' : OrderUpdateProjection) : Prop where
  ledgers : p'.ledgers = p.ledgers
  byOwnerTag : p'.byOwnerTag = p.byOwnerTag
  byBrokerOrderId : p'.byBrokerOrderId = p.byBrokerOrderId
  accountOf : p'.accountOf = p.accountOf

theorem SameIndexes.trans {p q r : OrderUpdateProjection} (h : SameIndexes p q) (h' : SameIndexes q r) :
    SameIndexes p r :=
  ⟨h'.1.trans h.1, h'.2.trans h.2, h'.3.trans h.3, h'.4.trans h.4⟩

theorem same_noteDelivery (obs : NormalizedOrderObservation) : SameIndexes p (p.noteDelivery obs) := by
  unfold noteDelivery
  split <;> exact ⟨rfl, rfl, rfl, rfl⟩

theorem same_noteUnverified (obs : NormalizedOrderObservation) (c : String) :
    SameIndexes p (p.noteUnverified obs c) := by
  unfold noteUnverified
  split <;> exact ⟨rfl, rfl, rfl, rfl⟩

variable {p p' : OrderUpdateProjection}

theorem SameIndexes.resolveOwner (h : SameIndexes p p') (obs : NormalizedOrderObservation) :
    p'.resolveOwner obs = p.resolveOwner obs := by
  rw [OrderUpdateProjection.resolveOwner, h.byOwnerTag, h.byBrokerOrderId]
  rfl

theorem SameIndexes.namesForeignAccount (h : SameIndexes p p') (obs : NormalizedOrderObservation) (c : String) :
    p'.namesForeignAccount obs c = p.namesForeignAccount obs c := by
  rw [OrderUpdateProjection.namesForeignAccount, h.accountOf]
  rfl

structure Learned (p : OrderUpdateProjection) (c : String) (given : Option String) (p' : OrderUpdateProjection) :
    Prop where
  byOwnerTag : p'.byOwnerTag = p.byOwnerTag
  accountOf : p'.accountOf = p.accountOf
  byBrokerOrderId : p'.byBrokerOrderId = p.byBrokerOrderId.set (trimKey given) c

inductive Delivered (p : OrderUpdateProjection) (obs : NormalizedOrderObservation) (c : String)
    (p' : OrderUpdateProjection) (r : IngestResult) : Prop where
  | unledgered (none : p.ledgers c = none) (same : p'.ledgers = p.ledgers)
      (result : r = rejected obs (some c) .unowned)
  | absent (ledger : CumulativeFillLedger) (held : p.ledgers c = some ledger) (quantity : obs.quantityAbsent = true)
      (same : p'.ledgers = p.ledgers) (result : r = accepted obs c none)
  | applied (ledger : CumulativeFillLedger) (held : p.ledgers c = some ledger) (quantity : obs.quantityAbsent = false)
      (moved : p'.ledgers = Function.update p.ledgers c (some (ledger.apply obs.toFillEvent).1))
      (result : r = accepted obs c (some (ledger.apply obs.toFillEvent).2))

theorem deliver_spec (p : OrderUpdateProjection) (obs : NormalizedOrderObservation) (c : String) :
    Delivered p obs c (p.deliver obs c).1 (p.deliver obs c).2 ∧ (p.deliver obs c).1.byOwnerTag = p.byOwnerTag ∧
      (p.deliver obs c).1.accountOf = p.accountOf ∧ (p.deliver obs c).1.byBrokerOrderId = p.byBrokerOrderId := by
  unfold deliver
  cases hl : p.ledgers c with
  | none => exact ⟨.unledgered hl rfl rfl, rfl, rfl, rfl⟩
  | some ledger =>
    cases hq : obs.quantityAbsent with
    | true => exact ⟨.absent ledger hl hq rfl rfl, rfl, rfl, rfl⟩
    | false => exact ⟨.applied ledger hl hq rfl rfl, rfl, rfl, rfl⟩

variable {obs : NormalizedOrderObservation} {c : String}

theorem Delivered.of_ledgers {p q p' : OrderUpdateProjection} {r : IngestResult} (h : Delivered q obs c p' r)
    (hq : q.ledgers = p.ledgers) : Delivered p obs c p' r := by
  cases h with
  | unledgered hnone same result => exact .unledgered (hq ▸ hnone) (hq ▸ same) result
  | absent ledger held quantity same result => exact .absent ledger (hq ▸ held) quantity (hq ▸ same) result
  | applied ledger held quantity moved result => exact .applied ledger (hq ▸ held) quantity (hq ▸ moved) result

def TurnedAway (p : OrderUpdateProjection) (obs : NormalizedOrderObservation) : Prop :=
  obs.malformed = true ∨ p.resolveOwner obs = none ∨
    ∃ c, p.resolveOwner obs = some c ∧ p.namesForeignAccount obs c = true

theorem ingest_cases (p : OrderUpdateProjection) (obs : NormalizedOrderObservation) :
    (TurnedAway p obs ∧ SameIndexes p (p.ingest obs).1 ∧ ∃ c why, (p.ingest obs).2 = rejected obs c why) ∨
    ∃ c, obs.malformed = false ∧ p.resolveOwner obs = some c ∧ p.namesForeignAccount obs c = false ∧
      Learned p c obs.brokerOrderId (p.ingest obs).1 ∧ Delivered p obs c (p.ingest obs).1 (p.ingest obs).2 := by
  have hn := same_noteDelivery p obs
  unfold ingest
  simp only [hn.resolveOwner, hn.namesForeignAccount]
  generalize p.noteDelivery obs = q at hn ⊢
  cases hm : obs.malformed with
  | true => exact .inl ⟨.inl hm, hn, none, .malformed, rfl⟩
  | false =>
    cases ho : p.resolveOwner obs with
    | none =>
      refine .inl ⟨.inr (.inl ho), hn.trans ?_, none, .unowned, rfl⟩
      exact ⟨rfl, rfl, rfl, rfl⟩
    | some c =>
      simp only [Bool.false_eq_true, if_false]
      cases hf : p.namesForeignAccount obs c with
      | true =>
        refine .inl ⟨.inr (.inr ⟨c, ho, hf⟩), hn.trans ?_, some c, .foreignAccount, rfl⟩
        exact ⟨rfl, rfl, rfl, rfl⟩
      | false =>
        refine .inr ⟨c, trivial, rfl, hf, ?_⟩
        have hu := hn.trans (same_noteUnverified q obs c)
        obtain ⟨hd, htag, haccount, hid⟩ :=
          deliver_spec ((q.noteUnverified obs c).learnBrokerOrderId c obs.brokerOrderId) obs c
        rw [learnBrokerOrderId_byOwnerTag] at htag
        rw [learnBrokerOrderId_accountOf] at haccount
        rw [learnBrokerOrderId_byBrokerOrderId, hu.byBrokerOrderId] at hid
        refine ⟨⟨htag.trans hu.byOwnerTag, haccount.trans hu.accountOf, hid⟩, hd.of_ledgers ?_⟩
        rw [learnBrokerOrderId_ledgers, hu.ledgers]

/-! ## The indexes and the calls behind them -/

def registeredAccount (calls : List ProjectionCall) (c : String) : Option String :=
  calls.foldl (fun account call => match call with
    | .register order => if order.clientOrderId = c then order.account else account
    | _ => account) none

structure Indexed (p : OrderUpdateProjection) (past : List ProjectionCall) : Prop where
  registered : ∀ tag c, p.byOwnerTag tag = some c → tag ≠ "" ∧ RegisteredUnder past tag c
  found : ∀ tag c, tag ≠ "" → RegisteredUnder past tag c → ∃ c', p.byOwnerTag tag = some c'
  brokerId : p.byBrokerOrderId "" = none
  account : ∀ c, p.accountOf c = registeredAccount past c

theorem indexed_new : Indexed new [] where
  registered := by simp [new]
  found := by simp [RegisteredUnder]
  brokerId := rfl
  account _ := rfl

variable {past : List ProjectionCall}

theorem registeredUnder_snoc {call : ProjectionCall} {tag c : String} :
    RegisteredUnder (past ++ [call]) tag c ↔ RegisteredUnder past tag c ∨ RegisteredUnder [call] tag c := by
  simp [RegisteredUnder, or_and_right, exists_or]

theorem registeredAccount_snoc (past : List ProjectionCall) (call : ProjectionCall) (c : String) :
    registeredAccount (past ++ [call]) c = match call with
      | .register order => if order.clientOrderId = c then order.account else registeredAccount past c
      | _ => registeredAccount past c := by
  rw [registeredAccount, List.foldl_append]
  rfl

theorem Indexed.same {call : ProjectionCall} (h : Indexed p past) (hcall : ∀ order, call ≠ .register order)
    (htag : p'.byOwnerTag = p.byOwnerTag) (haccount : p'.accountOf = p.accountOf) (hid : p'.byBrokerOrderId "" = none) :
    Indexed p' (past ++ [call]) := by
  have hnone : ∀ tag c, ¬ RegisteredUnder [call] tag c := by
    rintro tag c ⟨order, hmem, -⟩
    exact hcall order (List.mem_singleton.mp hmem).symm
  refine ⟨?_, ?_, hid, ?_⟩
  · intro tag c hc
    obtain ⟨hne, hreg⟩ := h.registered tag c (htag ▸ hc)
    exact ⟨hne, registeredUnder_snoc.mpr (.inl hreg)⟩
  · intro tag c hne hc
    rcases registeredUnder_snoc.mp hc with hc | hc
    · rw [htag]; exact h.found tag c hne hc
    · exact absurd hc (hnone tag c)
  · intro c
    rw [haccount, h.account, registeredAccount_snoc]
    cases call with
    | register order => exact absurd rfl (hcall order)
    | learnBrokerOrderId => rfl
    | ingest => rfl

theorem Indexed.register (h : Indexed p past) (order : RegisteredOrder) :
    Indexed (p.register order) (past ++ [.register order]) := by
  have hself : ∀ tag c, RegisteredUnder [.register order] tag c ↔ trim order.ownerTag = tag ∧ order.clientOrderId = c := by
    simp [RegisteredUnder]
  have htag : ∀ tag, (p.register order).byOwnerTag tag =
      if tag ≠ "" ∧ tag = trim order.ownerTag then some order.clientOrderId else p.byOwnerTag tag := by
    intro tag
    rw [register_byOwnerTag, Index.set_apply]
  refine ⟨?_, ?_, ?_, ?_⟩
  · intro tag c hc
    rw [htag] at hc
    rw [registeredUnder_snoc, hself]
    by_cases ht : tag ≠ "" ∧ tag = trim order.ownerTag
    · rw [if_pos ht] at hc
      exact ⟨ht.1, .inr ⟨ht.2.symm, Option.some.inj hc⟩⟩
    · rw [if_neg ht] at hc
      exact ⟨(h.registered tag c hc).1, .inl (h.registered tag c hc).2⟩
  · intro tag c hne hc
    rw [htag]
    by_cases ht : tag ≠ "" ∧ tag = trim order.ownerTag
    · rw [if_pos ht]
      exact ⟨_, rfl⟩
    · rw [if_neg ht]
      rcases registeredUnder_snoc.mp hc with hc | hc
      · exact h.found tag c hne hc
      · exact absurd ⟨hne, ((hself tag c).mp hc).1.symm⟩ ht
  · rw [register_byBrokerOrderId, Index.set_empty]
    exact h.brokerId
  · intro c
    rw [registeredAccount_snoc, ← h.account]
    by_cases hc : order.clientOrderId = c
    · subst hc; simp
    · simp [hc, Function.update_of_ne (Ne.symm hc)]

theorem Indexed.step (h : Indexed p past) (call : ProjectionCall) : Indexed (step p call).1 (past ++ [call]) := by
  cases call with
  | register order => exact h.register order
  | learnBrokerOrderId c given =>
    refine h.same (by simp) (by simp [OrderUpdateProjection.step]) (by simp [OrderUpdateProjection.step]) ?_
    rw [OrderUpdateProjection.step, learnBrokerOrderId_byBrokerOrderId, Index.set_empty]
    exact h.brokerId
  | ingest obs =>
    rcases ingest_cases p obs with ⟨-, hs, -⟩ | ⟨c, -, -, -, hl, -⟩
    · refine h.same (by simp) hs.byOwnerTag hs.accountOf ?_
      rw [OrderUpdateProjection.step, hs.byBrokerOrderId]
      exact h.brokerId
    · refine h.same (by simp) hl.byOwnerTag hl.accountOf ?_
      rw [OrderUpdateProjection.step, hl.byBrokerOrderId, Index.set_empty]
      exact h.brokerId

/-! ## Isolation -/

/-- The one registered under its owner tag or, when there is none, the one its broker id is bound to. -/
def OwnedBy (before : List ProjectionCall) (p : OrderUpdateProjection) (obs : NormalizedOrderObservation) (c : String) :
    Prop :=
  RegisteredUnder before (trim obs.ownerTag) c ∨
    (∀ c', ¬ RegisteredUnder before (trim obs.ownerTag) c') ∧ p.byBrokerOrderId (trimKey obs.brokerOrderId) = some c

structure Isolated (before : List ProjectionCall) (p : OrderUpdateProjection) (obs : NormalizedOrderObservation)
    (p' : OrderUpdateProjection) : Prop where
  oneLedger : ∀ c c', p'.ledgers c ≠ p.ledgers c → p'.ledgers c' ≠ p.ledgers c' → c = c'
  owner : ∀ c, p'.ledgers c ≠ p.ledgers c → OwnedBy before p obs c ∧ ∀ c', OwnedBy before p obs c' → c' = c
  account : ∀ c expected, OwnedBy before p obs c → registeredAccount before c = some expected →
    trimKey obs.account ≠ "" → trimKey obs.account ≠ expected → p'.ledgers = p.ledgers
  bindings : ∀ id c, p.byBrokerOrderId id = some c → p'.byBrokerOrderId id = some c

theorem keys_resolve (h : Indexed p past) (hagree : KeysAgree p (.ingest obs)) (hm : obs.malformed = false)
    (ho : p.resolveOwner obs = some c) (hf : p.namesForeignAccount obs c = false) :
    (∀ c', p.byOwnerTag (trim obs.ownerTag) = some c' → c' = c) ∧
      (∀ c', p.byBrokerOrderId (trimKey obs.brokerOrderId) = some c' → c' = c) ∧
      (p.byOwnerTag (trim obs.ownerTag) = none → p.byBrokerOrderId (trimKey obs.brokerOrderId) = some c) := by
  have hresolve : p.byOwnerTag.get (trim obs.ownerTag) = some c ∨
      p.byOwnerTag.get (trim obs.ownerTag) = none ∧ p.byBrokerOrderId.get (trimKey obs.brokerOrderId) = some c :=
    Option.or_eq_some_iff.mp ho
  have hagree' := hagree hm
  rcases hresolve with htag | ⟨htag, hid⟩
  · obtain ⟨-, htag, hne⟩ := Index.get_eq_some.mp htag
    refine ⟨fun c' hc' => Option.some.inj (hc'.symm.trans htag), ?_, fun hnone => ?_⟩
    · intro c' hc'
      rcases hagree' c c' htag hc' with rfl | ⟨-, hforeign⟩
      · rfl
      · rw [hf] at hforeign; cases hforeign
    · rw [hnone] at htag; cases htag
  · obtain ⟨-, hid, hne⟩ := Index.get_eq_some.mp hid
    refine ⟨?_, fun c' hc' => Option.some.inj (hc'.symm.trans hid), fun _ => hid⟩
    intro c' hc'
    rcases hagree' c' c hc' hid with rfl | ⟨hne', -⟩
    · rfl
    · -- a tag bound to a non-empty order would have been taken
      rcases Index.get_eq_none.mp htag with hempty | hempty
      · exact absurd hempty (h.registered _ _ hc').1
      · exact absurd (hempty c' hc') hne'

theorem owned_iff (h : Indexed p past) (hkeys : DistinctKeys past) (hagree : KeysAgree p (.ingest obs))
    (hm : obs.malformed = false) (ho : p.resolveOwner obs = some c) (hf : p.namesForeignAccount obs c = false)
    (c' : String) : OwnedBy past p obs c' ↔ c' = c := by
  obtain ⟨htag, hid, hnone⟩ := keys_resolve h hagree hm ho hf
  have hreg : ∀ c', RegisteredUnder past (trim obs.ownerTag) c' → c' = c := by
    intro c' hc'
    have hne : trim obs.ownerTag ≠ "" := fun he => hkeys.tag_nonempty c' (he ▸ hc')
    obtain ⟨d, hd⟩ := h.found _ c' hne hc'
    rw [hkeys.tag _ _ _ hc' (h.registered _ d hd).2]
    exact htag d hd
  constructor
  · rintro (hc' | ⟨-, hc'⟩)
    · exact hreg c' hc'
    · exact hid c' hc'
  · rintro rfl
    cases hindex : p.byOwnerTag (trim obs.ownerTag) with
    | none =>
      refine .inr ⟨?_, hnone hindex⟩
      intro d hd
      have hne : trim obs.ownerTag ≠ "" := fun he => hkeys.tag_nonempty d (he ▸ hd)
      obtain ⟨e, he⟩ := h.found _ d hne hd
      rw [hindex] at he; cases he
    | some d =>
      rw [← htag d hindex]
      exact .inl (h.registered _ d hindex).2

theorem Delivered.ledger {r : IngestResult} (h : Delivered p obs c p' r) {d : String}
    (hd : p'.ledgers d ≠ p.ledgers d) : d = c := by
  by_contra hne
  cases h with
  | unledgered _ same _ => exact hd (by rw [same])
  | absent _ _ _ same _ => exact hd (by rw [same])
  | applied _ _ _ moved _ => exact hd (by rw [moved, Function.update_of_ne hne])

theorem isolated_ingest (h : Indexed p past) (hkeys : DistinctKeys past) (hagree : KeysAgree p (.ingest obs)) :
    Isolated past p obs (p.ingest obs).1 := by
  rcases ingest_cases p obs with ⟨-, hs, -⟩ | ⟨c, hm, ho, hf, hl, hd⟩
  · -- turned away: nothing moves
    refine ⟨fun d _ hne _ => ?_, fun d hne => ?_, fun _ _ _ _ _ _ => hs.ledgers, fun id d hid => ?_⟩
    · exact absurd (by rw [hs.ledgers]) hne
    · exact absurd (by rw [hs.ledgers]) hne
    · rw [hs.byBrokerOrderId]; exact hid
  · have howned := owned_iff h hkeys hagree hm ho hf
    refine ⟨?_, ?_, ?_, ?_⟩
    · intro d d' hne hne'
      rw [hd.ledger hne, hd.ledger hne']
    · intro d hne
      obtain rfl := hd.ledger hne
      exact ⟨(howned d).mpr rfl, fun d' hd' => (howned d').mp hd'⟩
    · intro d expected hd' haccount hnamed hother
      obtain rfl := (howned d).mp hd'
      rw [namesForeignAccount, h.account, haccount] at hf
      simp [hnamed, hother] at hf
    · intro id d hid
      rw [hl.byBrokerOrderId, Index.set_apply]
      split
      · rename_i hid'
        rw [(keys_resolve h hagree hm ho hf).2.1 d (hid'.2 ▸ hid)]
      · exact hid

/-! ## Whole runs -/

variable {calls calls' : List ProjectionCall}

theorem RegisteredUnder.mono {t c : String} (hsub : ∀ x ∈ calls, x ∈ calls') :
    RegisteredUnder calls t c → RegisteredUnder calls' t c
  | ⟨order, hmem, rest⟩ => ⟨order, hsub _ hmem, rest⟩

theorem DistinctKeys.mono (hsub : ∀ x ∈ calls, x ∈ calls') (h : DistinctKeys calls') : DistinctKeys calls where
  tag_nonempty c hc := h.tag_nonempty c (hc.mono hsub)
  tag t c c' hc hc' := h.tag t c c' (hc.mono hsub) (hc'.mono hsub)
  brokerId id c c' hne hc hc' := by
    have lift : ∀ d, GivenBrokerId calls id d → GivenBrokerId calls' id d := by
      rintro d (⟨order, hmem, rest⟩ | ⟨given, hmem, rest⟩)
      · exact .inl ⟨order, hsub _ hmem, rest⟩
      · exact .inr ⟨given, hsub _ hmem, rest⟩
    exact h.brokerId id c c' hne (lift c hc) (lift c' hc')

/-- **Attribution isolation**, where no observation carries the keys of two orders. -/
theorem attribution_isolated (calls : List ProjectionCall) (hkeys : DistinctKeys calls)
    (hagree : Guarded step KeysAgree new calls) (before after : List ProjectionCall)
    (obs : NormalizedOrderObservation) (hcalls : calls = before ++ .ingest obs :: after) :
    Isolated before (finish step new before) obs ((finish step new before).ingest obs).1 := by
  subst hcalls
  have hbefore : Indexed (finish step new before) ([] ++ before) :=
    history (fun _ _ call h => h.step call) indexed_new before
  refine isolated_ingest hbefore (hkeys.mono ?_) hagree.append.2.1
  intro x hx
  exact List.mem_append_left _ hx

def leg (clientOrderId ownerTag : String) (brokerOrderId : Option String) : RegisteredOrder where
  clientOrderId
  requestedQty := .fin 75
  ownerTag
  brokerOrderId
  account := some "AB1234"

def postback (ownerTag : String) (brokerOrderId account : Option String) (cumulativeQty : Number) :
    NormalizedOrderObservation where
  ownerTag
  brokerOrderId
  account
  cumulativeQty
  quantityPresent := some true
  averagePrice := none
  rawStatus := some "OPEN"
  eventId := none
  sequence := none
  source := .postback
  observedAtMono := none
  observedAtWall := none

def twoLegs : List ProjectionCall := [.register (leg "A" "T1" none), .register (leg "B" "T2" (some "X"))]

theorem distinctKeys_twoLegs (obs : List NormalizedOrderObservation) :
    DistinctKeys (twoLegs ++ obs.map .ingest) := by
  have htrim : trim "T1" = "T1" ∧ trim "T2" = "T2" ∧ trimKey (some "X") = "X" ∧ trimKey none = "" := by decide
  have hreg : ∀ t c, RegisteredUnder (twoLegs ++ obs.map .ingest) t c → t = "T1" ∧ c = "A" ∨ t = "T2" ∧ c = "B" := by
    rintro t c ⟨order, hmem, rfl, rfl⟩
    simp only [twoLegs, List.cons_append, List.nil_append, List.mem_cons, ProjectionCall.register.injEq, List.mem_map,
      reduceCtorEq, and_false, exists_false, or_false] at hmem
    rcases hmem with rfl | rfl
    · exact .inl ⟨htrim.1, rfl⟩
    · exact .inr ⟨htrim.2.1, rfl⟩
  have hid : ∀ id c, id ≠ "" → GivenBrokerId (twoLegs ++ obs.map .ingest) id c → c = "B" := by
    rintro id c hne (⟨order, hmem, rfl, rfl⟩ | ⟨given, hmem, -⟩)
    · simp only [twoLegs, List.cons_append, List.nil_append, List.mem_cons, ProjectionCall.register.injEq, List.mem_map,
        reduceCtorEq, and_false, exists_false, or_false] at hmem
      rcases hmem with rfl | rfl
      · exact absurd htrim.2.2.2 hne
      · rfl
    · simp [twoLegs] at hmem
  refine ⟨?_, ?_, ?_⟩
  · intro c hc
    rcases hreg _ _ hc with ⟨ht, -⟩ | ⟨ht, -⟩ <;> simp at ht
  · intro t c c' hc hc'
    rcases hreg _ _ hc with ⟨rfl, rfl⟩ | ⟨rfl, rfl⟩ <;>
      rcases hreg _ _ hc' with ⟨ht, rfl⟩ | ⟨ht, rfl⟩ <;> simp_all
  · intro id c c' hne hc hc'
    rw [hid id c hne hc, hid id c' hne hc']

theorem attribution_isolated_twoLegs :
    Isolated twoLegs (finish step new twoLegs) (postback "T2" (some "Y") (some "AB1234") (.fin 25))
      ((finish step new twoLegs).ingest (postback "T2" (some "Y") (some "AB1234") (.fin 25))).1 := by
  have hunbound : (finish step new twoLegs).byBrokerOrderId (trimKey (some "Y")) = none := by decide +kernel
  have hagree : Guarded step KeysAgree new
      (twoLegs ++ [.ingest (postback "T2" (some "Y") (some "AB1234") (.fin 25))]) := by
    refine ⟨trivial, trivial, ?_, trivial⟩
    intro _ c c' _ hc'
    exact absurd (hunbound.symm.trans hc') (by simp)
  exact attribution_isolated _ (distinctKeys_twoLegs [_]) hagree twoLegs [] _ rfl

theorem attribution_not_isolated :
    ∃ calls before obs after, DistinctKeys calls ∧ calls = before ++ ProjectionCall.ingest obs :: after ∧
      ¬ Isolated before (finish step new before) obs ((finish step new before).ingest obs).1 := by
  refine ⟨twoLegs ++ [.ingest (postback "T1" (some "X") none (.fin 0))], twoLegs,
    postback "T1" (some "X") none (.fin 0), [], distinctKeys_twoLegs [_], rfl, ?_⟩
  intro h
  have hB : (finish step new twoLegs).byBrokerOrderId "X" = some "B" := by decide +kernel
  have hA : ((finish step new twoLegs).ingest (postback "T1" (some "X") none (.fin 0))).1.byBrokerOrderId "X" =
    some "A" := by decide +kernel
  have := h.bindings "X" "B" hB
  rw [hA] at this
  exact absurd this (by decide)

end OrderUpdateProjection

end BoxEngine
