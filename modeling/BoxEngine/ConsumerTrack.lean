import BoxEngine.AttributionSound
import BoxEngine.LedgerSound
import BoxEngine.StreamFrames

/-!
# What one call of the consumer does

An observation is forwarded when the ledger advanced or its label or price differs from the memo. The memo is written
whether or not the adapter was told a quantity, and whether or not it threw.
-/

namespace BoxEngine

open Js CumulativeFillLedger

namespace OrderStreamConsumer

/-! ## The label memo -/

def told (c : OrderStreamConsumer) (id : String) : Option String := (c.lastForwarded id).bind (·.status)

variable (c : OrderStreamConsumer)

theorem told_settleIfTerminal (id : String) (merged : Option BrokerOrderState) (result : IngestResult) (d : String) :
    (c.settleIfTerminal id merged result).told d = c.told d := by
  unfold settleIfTerminal told
  split
  · by_cases hd : d = id
    · subst hd
      simp only [Function.update_self]
      cases c.lastForwarded d <;> rfl
    · simp only [Function.update_of_ne hd]
  · split <;> rfl

theorem told_scheduleReconciliation (id d : String) : (c.scheduleReconciliation id).told d = c.told d := by
  unfold scheduleReconciliation
  split <;> rfl

theorem told_escalateWhen (condition : Bool) (id d : String) : (c.escalateWhen condition id).told d = c.told d := by
  unfold escalateWhen
  split
  · exact told_scheduleReconciliation c id d
  · rfl

section
variable (toUpperCase : String → String)
variable (c : OrderStreamConsumer) (id : String) (obs : NormalizedOrderObservation) (result : IngestResult)
  (now : Number) (reply : AdapterReply)

theorem told_noteForwarded (d : String) :
    (c.noteForwarded toUpperCase id obs).told d =
      if d = id then (normaliseStatusLabel toUpperCase obs.rawStatus).or (c.told id) else c.told d := by
  unfold noteForwarded told
  by_cases hd : d = id
  · subst hd
    simp only [Function.update_self, if_true]
    rfl
  · simp only [Function.update_of_ne hd, if_neg hd]

theorem statusChanged_iff :
    (c.classifyNonQuantityChange toUpperCase id obs).statusChanged = true ↔
      normaliseStatusLabel toUpperCase obs.rawStatus ≠ none ∧
        normaliseStatusLabel toUpperCase obs.rawStatus ≠ c.told id := by
  unfold classifyNonQuantityChange told
  cases c.lastForwarded id with
  | none => simp
  | some prior => simp

structure Forwards (c : OrderStreamConsumer) (id : String) (obs : NormalizedOrderObservation) (c' : OrderStreamConsumer)
    (forwarded : Option ExternalOrderUpdate) (absent : Bool) (now : Number) : Prop where
  told : ∀ d, c'.told d =
    if d = id then (normaliseStatusLabel toUpperCase obs.rawStatus).or (c.told id) else c.told d
  forwarded : c.opts.adapter = true → forwarded = some (externalUpdate id obs absent now)

theorem forward_spec (absent : Bool) (result : IngestResult) (now : Number) (reply : AdapterReply) :
    Forwards toUpperCase c id obs (c.forward toUpperCase id obs absent result now reply).1
      (c.forward toUpperCase id obs absent result now reply).2.forwarded absent now := by
  refine ⟨?_, ?_⟩
  · intro d
    unfold forward
    simp only
    rw [told_settleIfTerminal, told_noteForwarded]
  · intro hadapter
    unfold forward applyToAdapter
    simp only [hadapter, if_true]

/-! ## What one observation can do -/

structure Owned (c : OrderStreamConsumer) (obs : NormalizedOrderObservation) (id : String)
    (ledger : CumulativeFillLedger) : Prop where
  wellFormed : obs.malformed = false
  owner : c.proj.resolveOwner obs = some id
  account : c.proj.namesForeignAccount obs id = false
  ledger : c.proj.ledgers id = some ledger

/-- The ledger of the order after the observation, and what the consumer did about its label. -/
inductive Track (c : OrderStreamConsumer) (id : String) (ledger : CumulativeFillLedger)
    (obs : NormalizedOrderObservation) (now : Number) (c' : OrderStreamConsumer)
    (forwarded : Option ExternalOrderUpdate) : Prop
  | absent (quantity : obs.quantityAbsent = true) (ledgers : c'.proj.ledgers = c.proj.ledgers)
      (forwards : Forwards toUpperCase c id obs c' forwarded true now)
  | seen (quantity : obs.quantityAbsent = false) (seen : ledger.Seen obs.toFillEvent) (ledger' : CumulativeFillLedger)
      (ledgers : c'.proj.ledgers = Function.update c.proj.ledgers id (some ledger'))
      (cumulative : ledger'.cumulativeQty = ledger.cumulativeQty) (told : ∀ d, c'.told d = c.told d)
  | stale (quantity : obs.quantityAbsent = false) (fresh : ¬ ledger.Seen obs.toFillEvent) (observed : ℕ)
      (whole : wholeQuantity obs.cumulativeQty = some observed) (le : observed ≤ ledger.cumulativeQty)
      (ledger' : CumulativeFillLedger) (ledgers : c'.proj.ledgers = Function.update c.proj.ledgers id (some ledger'))
      (cumulative : ledger'.cumulativeQty = ledger.cumulativeQty)
      (label : Forwards toUpperCase c id obs c' forwarded false now ∨ (∀ d, c'.told d = c.told d) ∧
        (normaliseStatusLabel toUpperCase obs.rawStatus = none ∨
          normaliseStatusLabel toUpperCase obs.rawStatus = c.told id))
  | advanced (quantity : obs.quantityAbsent = false) (fresh : ¬ ledger.Seen obs.toFillEvent) (observed : ℕ)
      (whole : wholeQuantity obs.cumulativeQty = some observed) (lt : ledger.cumulativeQty < observed)
      (ledger' : CumulativeFillLedger) (ledgers : c'.proj.ledgers = Function.update c.proj.ledgers id (some ledger'))
      (cumulative : ledger'.cumulativeQty = observed)
      (forwards : Forwards toUpperCase c id obs c' forwarded false now)

theorem proj_forward (absent : Bool) (result : IngestResult) (now : Number) (reply : AdapterReply) :
    (c.forward toUpperCase id obs absent result now reply).1.proj = c.proj := by
  unfold forward settleIfTerminal
  simp only
  split
  · rfl
  · split <;> rfl

theorem proj_scheduleReconciliation : (c.scheduleReconciliation id).proj = c.proj := by
  unfold scheduleReconciliation
  split <;> rfl

theorem proj_escalateWhen (condition : Bool) (id : String) : (c.escalateWhen condition id).proj = c.proj := by
  unfold escalateWhen
  split
  · exact proj_scheduleReconciliation c id
  · rfl

theorem opts_escalateWhen (condition : Bool) (id : String) : (c.escalateWhen condition id).opts = c.opts :=
  (same_escalateWhen c condition id).opts

theorem proj_settleIfTerminal (merged : Option BrokerOrderState) (result : IngestResult) :
    (c.settleIfTerminal id merged result).proj = c.proj := by
  unfold settleIfTerminal
  split
  · rfl
  · split <;> rfl

theorem ingestConfirmed_spec (r : FillApplyResult) (now : Number) (reply : AdapterReply) (hr : result.apply = some r)
    (hvalid : r.outcome ≠ .invalid) :
    (c.ingestConfirmed toUpperCase id obs result now reply).1.proj = c.proj ∧
      (Forwards toUpperCase c id obs (c.ingestConfirmed toUpperCase id obs result now reply).1
          (c.ingestConfirmed toUpperCase id obs result now reply).2.forwarded false now ∧ r.outcome ≠ .duplicateEvent ∨
        (∀ d, (c.ingestConfirmed toUpperCase id obs result now reply).1.told d = c.told d) ∧
          (r.outcome = .duplicateEvent ∨ r.outcome ≠ .applied ∧ r.outcome ≠ .appliedOverfill ∧
            (normaliseStatusLabel toUpperCase obs.rawStatus = none ∨
              normaliseStatusLabel toUpperCase obs.rawStatus = c.told id))) := by
  unfold ingestConfirmed
  simp only [hr, Option.map_some, Option.some.injEq, if_neg hvalid]
  generalize hd : (c.escalateWhen (r.outcome = .appliedOverfill) id).escalateWhen
    (c.classifyNonQuantityChange toUpperCase id obs).contradictsTerminal id = d
  have hproj : d.proj = c.proj := by rw [← hd, proj_escalateWhen, proj_escalateWhen]
  have htold : ∀ x, d.told x = c.told x := by intro x; rw [← hd, told_escalateWhen, told_escalateWhen]
  have hopts : d.opts = c.opts := by rw [← hd, opts_escalateWhen, opts_escalateWhen]
  split
  · rename_i hforward
    refine ⟨(proj_forward toUpperCase d id obs false result now reply).trans hproj, .inl ⟨?_, ?_⟩⟩
    · have h := forward_spec toUpperCase d id obs false result now reply
      exact ⟨fun x => by rw [h.told, htold, htold], fun ha => h.forwarded (by rw [hopts]; exact ha)⟩
    · exact fun heq => hforward.1 (by rw [heq])
  · rename_i hkeep
    refine ⟨by rw [proj_settleIfTerminal, hproj], .inr ⟨fun x => by rw [told_settleIfTerminal, htold], ?_⟩⟩
    by_cases hdup : r.outcome = .duplicateEvent
    · exact .inl hdup
    · have hnew : ¬ ((r.outcome = .applied ∨ r.outcome = .appliedOverfill) ∨
          (c.classifyNonQuantityChange toUpperCase id obs).statusChanged = true ∨
          (c.classifyNonQuantityChange toUpperCase id obs).priceChanged = true) :=
        fun h => hkeep ⟨fun heq => hdup (Option.some.inj heq), h⟩
      rw [statusChanged_iff] at hnew
      refine .inr ⟨fun h => hnew (.inl (.inl h)), fun h => hnew (.inl (.inr h)), ?_⟩
      by_contra hboth
      exact hnew (.inr (.inl (not_or.mp hboth)))

theorem result_ingestOwned : (c.ingestOwned toUpperCase id obs result now reply).2.result = result := by
  unfold ingestOwned
  split
  · rfl
  · unfold ingestConfirmed
    simp only
    split
    · rfl
    · split <;> rfl

theorem ingestOwned_absent (habsent : result.quantityEvidence = .absent) :
    (c.ingestOwned toUpperCase id obs result now reply).1.proj = c.proj ∧
      Forwards toUpperCase c id obs (c.ingestOwned toUpperCase id obs result now reply).1
        (c.ingestOwned toUpperCase id obs result now reply).2.forwarded true now := by
  have h := forward_spec toUpperCase c id obs true result now reply
  unfold ingestOwned
  simp only [if_pos habsent]
  refine ⟨(proj_scheduleReconciliation _ id).trans (proj_forward toUpperCase c id obs true result now reply), ?_, ?_⟩
  · intro d
    rw [told_scheduleReconciliation, h.told]
  · exact h.forwarded

theorem ingestOwned_confirmed (hconfirmed : result.quantityEvidence ≠ .absent) :
    c.ingestOwned toUpperCase id obs result now reply = c.ingestConfirmed toUpperCase id obs result now reply := by
  rw [ingestOwned, if_neg hconfirmed]

theorem track_confirmed {c d : OrderStreamConsumer} {id : String} {o : NormalizedOrderObservation}
    {ledger : CumulativeFillLedger} {result : IngestResult} {now : Number} {reply : AdapterReply}
    (hm : o.malformed = false) (quantity : o.quantityAbsent = false)
    (moved : d.proj.ledgers = Function.update c.proj.ledgers id (some (ledger.apply o.toFillEvent).1))
    (htold : ∀ x, d.told x = c.told x)
    (lift : ∀ {e : OrderStreamConsumer} {forwarded : Option ExternalOrderUpdate} {absent : Bool},
      Forwards toUpperCase d id o e forwarded absent now → Forwards toUpperCase c id o e forwarded absent now)
    (hr : result.apply = some (ledger.apply o.toFillEvent).2) :
    Track toUpperCase c id ledger o now (d.ingestConfirmed toUpperCase id o result now reply).1
      (d.ingestConfirmed toUpperCase id o result now reply).2.forwarded := by
  obtain ⟨hnone, -⟩ | ⟨observed, hwhole, ⟨hseen, l', hn, happ⟩ | ⟨hfresh, hle, l', _, hn, happ⟩ |
    ⟨hfresh, hlt, noted, _, outcome, hn, hout, happ⟩⟩ := apply_cases ledger o.toFillEvent
  · have : wholeQuantity o.cumulativeQty = none := hnone
    simp [NormalizedOrderObservation.malformed, this] at hm
  · rw [happ] at hr moved
    obtain ⟨hp, ⟨-, hdup⟩ | ⟨hkeep, -⟩⟩ :=
      ingestConfirmed_spec toUpperCase d id o result _ now reply hr (by simp [CumulativeFillLedger.result])
    · exact absurd rfl hdup
    · exact .seen quantity hseen l' (by rw [hp, moved]) hn.cumulativeQty fun x => (hkeep x).trans (htold x)
  · rw [happ] at hr moved
    obtain ⟨hp, ⟨hf, -⟩ | ⟨hkeep, hlabel⟩⟩ :=
      ingestConfirmed_spec toUpperCase d id o result _ now reply hr (by simp [CumulativeFillLedger.result])
    · exact .stale quantity hfresh observed hwhole hle l' (by rw [hp, moved]) hn.cumulativeQty (.inl (lift hf))
    · refine .stale quantity hfresh observed hwhole hle l' (by rw [hp, moved]) hn.cumulativeQty
        (.inr ⟨fun x => (hkeep x).trans (htold x), ?_⟩)
      rcases hlabel with hdup | ⟨-, -, hlabel⟩
      · cases hdup
      · rwa [htold] at hlabel
  · rw [happ] at hr moved
    have hvalid : outcome ≠ .invalid := by rcases hout with rfl | rfl <;> simp
    obtain ⟨hp, ⟨hf, -⟩ | ⟨-, hlabel⟩⟩ := ingestConfirmed_spec toUpperCase d id o result _ now reply hr hvalid
    · exact .advanced quantity hfresh observed hwhole hlt _ (by rw [hp, moved]) rfl (lift hf)
    · -- an advance is always forwarded
      rcases hlabel with hdup | ⟨happlied, hover, -⟩
      · rcases hout with rfl | rfl <;> cases hdup
      · rcases hout with rfl | rfl
        · exact absurd rfl happlied
        · exact absurd rfl hover

theorem ingest_spec (source : FillEventSource) (now : Number) (reply : AdapterReply) :
    ((c.ingest toUpperCase obs source now reply).2.result.attributed = false ∧
        (∀ id ledger, ¬ Owned c (stamp obs source now) id ledger) ∧
        (c.ingest toUpperCase obs source now reply).1.proj.ledgers = c.proj.ledgers ∧
        ∀ d, (c.ingest toUpperCase obs source now reply).1.told d = c.told d) ∨
      ∃ id ledger, Owned c (stamp obs source now) id ledger ∧
        (c.ingest toUpperCase obs source now reply).2.result.clientOrderId = some id ∧
        Track toUpperCase c id ledger (stamp obs source now) now (c.ingest toUpperCase obs source now reply).1
          (c.ingest toUpperCase obs source now reply).2.forwarded := by
  have hproj : (c.observe (stamp obs source now)).1.proj = (c.proj.ingest (stamp obs source now)).1 := rfl
  have hresult : (c.observe (stamp obs source now)).2 = (c.proj.ingest (stamp obs source now)).2 := rfl
  have htold : ∀ d, (c.observe (stamp obs source now)).1.told d = c.told d := fun _ => rfl
  have hopts : (c.observe (stamp obs source now)).1.opts = c.opts := rfl
  have hcases := OrderUpdateProjection.ingest_cases c.proj (stamp obs source now)
  rw [← hproj, ← hresult] at hcases
  unfold ingest
  generalize stamp obs source now = o at *
  generalize c.observe o = observed at *
  obtain ⟨d, result⟩ := observed
  simp only at hproj hresult htold hopts hcases ⊢
  have lift : ∀ {e : OrderStreamConsumer} {id : String} {forwarded : Option ExternalOrderUpdate} {absent : Bool},
      Forwards toUpperCase d id o e forwarded absent now → Forwards toUpperCase c id o e forwarded absent now := by
    intro e id forwarded absent h
    exact ⟨fun x => by rw [h.told, htold, htold], fun ha => h.forwarded (by rw [hopts]; exact ha)⟩
  -- the projection kept the observation away, or it has an owner with a ledger
  rcases hcases with ⟨haway, hs, _, _, rfl⟩ | ⟨id, hm, ho, hf, -, hdel⟩
  · refine .inl ⟨rfl, ?_, hs.ledgers, htold⟩
    intro id ledger hown
    rcases haway with hm | hnone | ⟨id', ho, hf⟩
    · exact absurd (hm.symm.trans hown.wellFormed) (by decide)
    · rw [hown.owner] at hnone; cases hnone
    · obtain rfl := Option.some.inj (ho.symm.trans hown.owner)
      exact absurd (hf.symm.trans hown.account) (by decide)
  · cases hdel with
    | unledgered hnone same result =>
      subst result
      refine .inl ⟨rfl, ?_, same, htold⟩
      intro id' ledger hown
      obtain rfl := Option.some.inj (ho.symm.trans hown.owner)
      rw [hown.ledger] at hnone; cases hnone
    | absent ledger held quantity same result =>
      subst result
      have hevidence : (OrderUpdateProjection.accepted o id none).quantityEvidence = .absent := by
        simp [OrderUpdateProjection.accepted, OrderUpdateProjection.evidence, quantity]
      obtain ⟨hp, hf'⟩ := ingestOwned_absent toUpperCase d id o _ now reply hevidence
      refine .inr ⟨id, ledger, ⟨hm, ho, hf, held⟩, ?_, ?_⟩
      · exact congrArg IngestResult.clientOrderId (result_ingestOwned toUpperCase d id o _ now reply)
      · exact .absent quantity ((congrArg OrderUpdateProjection.ledgers hp).trans same) (lift hf')
    | applied ledger held quantity moved result =>
      subst result
      have hevidence : (OrderUpdateProjection.accepted o id (some (ledger.apply o.toFillEvent).2)).quantityEvidence ≠
          .absent := by
        simp [OrderUpdateProjection.accepted, OrderUpdateProjection.evidence, quantity]
      refine .inr ⟨id, ledger, ⟨hm, ho, hf, held⟩, ?_, ?_⟩
      · exact congrArg IngestResult.clientOrderId (result_ingestOwned toUpperCase d id o _ now reply)
      · simp only [OrderUpdateProjection.accepted] at hevidence ⊢
        rw [ingestOwned_confirmed toUpperCase d id o _ now reply hevidence]
        exact track_confirmed toUpperCase hm quantity moved htold lift rfl

end

end OrderStreamConsumer

/-! ## Calls that ingest nothing -/

def ConsumerCall.ingested : ConsumerCall → Option (NormalizedOrderObservation × AdapterReply)
  | .ingestStreamObservation obs _ reply => some (obs, reply)
  | .ingestRestObservation obs _ _ reply => some (obs, reply)
  | _ => none

namespace OrderStreamConsumer

section
variable (toUpperCase : String → String)
variable (c : OrderStreamConsumer)

theorem rest_eq_ingest (obs : NormalizedOrderObservation) (source : FillEventSource) (now : Number)
    (reply : AdapterReply) :
    (c.ingestRestObservation toUpperCase obs source now reply).2 = (c.ingest toUpperCase obs source now reply).2 ∧
      (c.ingestRestObservation toUpperCase obs source now reply).1.proj =
        (c.ingest toUpperCase obs source now reply).1.proj ∧
      ∀ d, (c.ingestRestObservation toUpperCase obs source now reply).1.told d =
        (c.ingest toUpperCase obs source now reply).1.told d := by
  unfold ingestRestObservation
  simp only
  split
  · split <;> exact ⟨rfl, rfl, fun _ => rfl⟩
  · exact ⟨rfl, rfl, fun _ => rfl⟩

/-- The call told nothing of any order. -/
structure Unheard (c c' : OrderStreamConsumer) : Prop where
  opts : c'.opts = c.opts
  told : ∀ d, c'.told d = c.told d
  ledgers : ∀ id ledger, c.proj.ledgers id = some ledger → c'.proj.ledgers id = some ledger

theorem unheard_executeSweep (g : ℕ) (verdict : SweepVerdict) (now : Number) :
    Unheard c (c.executeSweep g verdict now) := by
  have failed : ∀ reason, Unheard c (c.noteSweepFailure g reason now) := by
    intro reason
    unfold noteSweepFailure
    simp only
    split <;> exact ⟨rfl, fun _ => rfl, fun _ _ h => h⟩
  unfold executeSweep
  cases verdict with
  | threw message => exact failed _
  | returned outcome =>
    simp only
    split
    · exact ⟨rfl, fun _ => rfl, fun _ _ h => h⟩
    · split
      · exact failed _
      · split
        · refine ⟨rfl, fun _ => rfl, fun id ledger h => ?_⟩
          unfold OrderUpdateProjection.markReconciled
          split <;> exact h
        · exact ⟨rfl, fun _ => rfl, fun _ _ h => h⟩

theorem unheard_signal {c c' : OrderStreamConsumer} (hopts : c'.opts = c.opts) (htold : c'.lastForwarded = c.lastForwarded)
    (hledgers : c'.proj.ledgers = c.proj.ledgers) : Unheard c c' :=
  ⟨hopts, fun d => by rw [told, told, htold], fun id ledger h => by rw [hledgers]; exact h⟩

variable {id : String} {ledger : CumulativeFillLedger}

theorem ledgers_register (p : OrderUpdateProjection) (order : RegisteredOrder) (h : p.ledgers id = some ledger) :
    (p.register order).ledgers id = some ledger := by
  have heq : (p.register order).ledgers = Function.update p.ledgers order.clientOrderId
      (some ((p.ledgers order.clientOrderId).getD (.new order.clientOrderId order.requestedQty))) := by
    simp only [OrderUpdateProjection.register, OrderUpdateProjection.learnBrokerOrderId]
  rw [heq]
  by_cases hid : id = order.clientOrderId
  · subst hid
    rw [Function.update_self, h, Option.getD_some]
  · rw [Function.update_of_ne hid, h]

theorem unheard_runReconnectReconciliation : Unheard c c.runReconnectReconciliation := by
  unfold runReconnectReconciliation
  split
  · exact unheard_signal rfl rfl rfl
  · split
    · exact unheard_signal rfl rfl rfl
    · split <;> exact unheard_signal rfl rfl rfl

theorem unheard_onIdle : Unheard c c.onIdle := by
  refine unheard_signal rfl rfl ?_
  unfold onIdle OrderUpdateProjection.onStreamIdle
  split <;> rfl

theorem unheard_onConnecting : Unheard c c.onConnecting := by
  refine unheard_signal rfl rfl ?_
  unfold onConnecting OrderUpdateProjection.onStreamConnecting
  split <;> rfl

theorem unheard_onAuthenticated (evidence : OrderStreamAuthEvidence) (now : Number) :
    Unheard c (c.onAuthenticated evidence now) := by
  unfold onAuthenticated
  simp only
  split
  · exact unheard_signal rfl rfl rfl
  · refine unheard_signal rfl rfl ?_
    unfold OrderUpdateProjection.onStreamConnected
    split
    · rfl
    · split <;> rfl

theorem unheard_onDisconnected : Unheard c c.onDisconnected := by
  refine unheard_signal rfl rfl ?_
  unfold onDisconnected OrderUpdateProjection.onStreamDisconnected
  split <;> rfl

theorem Unheard.trans {c d e : OrderStreamConsumer} (h : Unheard c d) (h' : Unheard d e) : Unheard c e :=
  ⟨h'.opts.trans h.opts, fun x => (h'.told x).trans (h.told x),
    fun id ledger hl => h'.ledgers id ledger (h.ledgers id ledger hl)⟩

theorem Unheard.refl : Unheard c c := ⟨rfl, fun _ => rfl, fun _ _ h => h⟩

theorem unheard_driveQuoteSocketLifecycle (connected : Bool) (now : Number) :
    Unheard c (c.driveQuoteSocketLifecycle connected now) := by
  unfold driveQuoteSocketLifecycle
  split
  · exact Unheard.refl c
  · cases connected with
    | false => exact unheard_onDisconnected c
    | true =>
      have hopen : Unheard c.onConnecting c.onConnecting.onSocketOpen := unheard_signal rfl rfl rfl
      exact (((unheard_onConnecting c).trans hopen).trans (unheard_onAuthenticated _ _ now)).trans
        (unheard_runReconnectReconciliation _)

theorem unheard_call (x : ConsumerCall) (hx : x.ingested = none) :
    Unheard c (c.call toUpperCase x).1 ∧ (c.call toUpperCase x).2 = none := by
  cases x with
  | ingestStreamObservation obs now reply => cases hx
  | ingestRestObservation obs source now reply => cases hx
  | registerIntent args session =>
    exact ⟨⟨(same_registerIntent c args session).opts, fun _ => rfl, fun _ _ h => ledgers_register c.proj _ h⟩, rfl⟩
  | markOrderSettled id => exact ⟨unheard_signal rfl rfl rfl, rfl⟩
  | learnBrokerOrderId id given =>
    rw [call, learnBrokerOrderId]
    exact ⟨unheard_signal rfl rfl (OrderUpdateProjection.learnBrokerOrderId_ledgers c.proj id given), rfl⟩
  | onConnecting => exact ⟨unheard_onConnecting c, rfl⟩
  | onSocketOpen => exact ⟨unheard_signal rfl rfl rfl, rfl⟩
  | onAuthenticated evidence now => exact ⟨unheard_onAuthenticated c evidence now, rfl⟩
  | markSynchronized g =>
    refine ⟨unheard_signal rfl rfl ?_, rfl⟩
    rw [call, markSynchronized]
    simp only
    split
    · unfold OrderUpdateProjection.markReconciled
      split <;> rfl
    · rfl
  | noteRestVerifiedSession => exact ⟨unheard_signal rfl rfl rfl, rfl⟩
  | onIdle => exact ⟨unheard_onIdle c, rfl⟩
  | evaluateIdle now =>
    refine ⟨?_, rfl⟩
    rcases evaluateIdle_cases c now with heq | heq
    · rw [call, heq]; exact Unheard.refl c
    · rw [call, heq]; exact unheard_onIdle c
  | onDisconnected => exact ⟨unheard_onDisconnected c, rfl⟩
  | onSessionLost =>
    refine ⟨unheard_signal rfl rfl ?_, rfl⟩
    rw [call, onSessionLost, OrderUpdateProjection.onStreamSessionLost]
    split <;> rfl
  | setStreamEnabled enabled =>
    refine ⟨unheard_signal rfl rfl ?_, rfl⟩
    rw [call, setStreamEnabled, OrderUpdateProjection.setStreamEnabled]
    split
    · split <;> rfl
    · rfl
  | driveQuoteSocketLifecycle connected now => exact ⟨unheard_driveQuoteSocketLifecycle c connected now, rfl⟩
  | runReconnectReconciliation => exact ⟨unheard_runReconnectReconciliation c, rfl⟩
  | ensureReconciled now =>
    refine ⟨?_, rfl⟩
    rcases ensureReconciled_cases c now with heq | heq
    · rw [call, heq]; exact Unheard.refl c
    · rw [call, heq]; exact unheard_runReconnectReconciliation c
  | sweepEnded id verdict now =>
    refine ⟨?_, rfl⟩
    rw [call, sweepEnded]
    split
    · exact Unheard.refl c
    · have hsettled : Unheard c (c.settle id) := unheard_signal rfl rfl rfl
      exact hsettled.trans (unheard_executeSweep (c.settle id) _ verdict now)
  | sweepReleased id =>
    refine ⟨?_, rfl⟩
    rw [call, sweepReleased]
    split
    · exact Unheard.refl c
    · exact unheard_signal rfl rfl rfl

/-! ## Calls that ingest -/

variable {obs : NormalizedOrderObservation} {forwarded : Option ExternalOrderUpdate}
variable {now : Number}

theorem Forwards.congr {c e e' : OrderStreamConsumer} {absent : Bool}
    (h : Forwards toUpperCase c id obs e forwarded absent now) (htold : ∀ d, e'.told d = e.told d) :
    Forwards toUpperCase c id obs e' forwarded absent now :=
  ⟨fun d => (htold d).trans (h.told d), h.forwarded⟩

theorem Track.congr {c e e' : OrderStreamConsumer}
    (h : Track toUpperCase c id ledger obs now e forwarded) (hproj : e'.proj = e.proj)
    (htold : ∀ d, e'.told d = e.told d) : Track toUpperCase c id ledger obs now e' forwarded := by
  cases h with
  | absent quantity ledgers forwards => exact .absent quantity (by rw [hproj, ledgers]) (forwards.congr toUpperCase htold)
  | seen quantity seen ledger' ledgers cumulative told =>
    exact .seen quantity seen ledger' (by rw [hproj, ledgers]) cumulative fun d => (htold d).trans (told d)
  | stale quantity fresh observed whole le ledger' ledgers cumulative label =>
    refine .stale quantity fresh observed whole le ledger' (by rw [hproj, ledgers]) cumulative ?_
    rcases label with forwards | ⟨told, same⟩
    · exact .inl (forwards.congr toUpperCase htold)
    · exact .inr ⟨fun d => (htold d).trans (told d), same⟩
  | advanced quantity fresh observed whole lt ledger' ledgers cumulative forwards =>
    exact .advanced quantity fresh observed whole lt ledger' (by rw [hproj, ledgers]) cumulative
      (forwards.congr toUpperCase htold)

theorem Track.others {c e : OrderStreamConsumer} (h : Track toUpperCase c id ledger obs now e forwarded) :
    (∀ d, d ≠ id → e.told d = c.told d) ∧ ∀ d, d ≠ id → e.proj.ledgers d = c.proj.ledgers d := by
  have memo : ∀ {absent}, Forwards toUpperCase c id obs e forwarded absent now →
      ∀ d, d ≠ id → e.told d = c.told d := fun hf d hd => by rw [hf.told, if_neg hd]
  cases h with
  | absent _ ledgers forwards => exact ⟨memo forwards, fun d _ => by rw [ledgers]⟩
  | seen _ _ _ ledgers _ told => exact ⟨fun d _ => told d, fun d hd => by rw [ledgers, Function.update_of_ne hd]⟩
  | stale _ _ _ _ _ _ ledgers _ label =>
    refine ⟨?_, fun d hd => by rw [ledgers, Function.update_of_ne hd]⟩
    rcases label with forwards | ⟨told, -⟩
    · exact memo forwards
    · exact fun d _ => told d
  | advanced _ _ _ _ _ _ ledgers _ forwards =>
    exact ⟨memo forwards, fun d hd => by rw [ledgers, Function.update_of_ne hd]⟩

theorem Track.unstamp {c e : OrderStreamConsumer} {source : FillEventSource}
    (h : Track toUpperCase c id ledger (stamp obs source now) now e forwarded) :
    Track toUpperCase c id ledger obs now e forwarded := by
  have unstamp : ∀ {absent}, Forwards toUpperCase c id (stamp obs source now) e forwarded absent now →
      Forwards toUpperCase c id obs e forwarded absent now := fun h => ⟨h.told, h.forwarded⟩
  cases h with
  | absent quantity ledgers forwards => exact .absent quantity ledgers (unstamp forwards)
  | seen quantity seen ledger' ledgers cumulative told => exact .seen quantity seen ledger' ledgers cumulative told
  | stale quantity fresh observed whole le ledger' ledgers cumulative label =>
    refine .stale quantity fresh observed whole le ledger' ledgers cumulative ?_
    rcases label with forwards | same
    · exact .inl (unstamp forwards)
    · exact .inr same
  | advanced quantity fresh observed whole lt ledger' ledgers cumulative forwards =>
    exact .advanced quantity fresh observed whole lt ledger' ledgers cumulative (unstamp forwards)

theorem call_ingested {x : ConsumerCall} {reply : AdapterReply} (hx : x.ingested = some (obs, reply)) :
    ∃ out now, (c.call toUpperCase x).2 = some out ∧ (c.call toUpperCase x).1.opts = c.opts ∧
      ((out.result.attributed = false ∧ (∀ id ledger, ¬ Owned c obs id ledger) ∧
          (c.call toUpperCase x).1.proj.ledgers = c.proj.ledgers ∧
          ∀ d, (c.call toUpperCase x).1.told d = c.told d) ∨
        ∃ id ledger, Owned c obs id ledger ∧ out.result.clientOrderId = some id ∧
          Track toUpperCase c id ledger obs now (c.call toUpperCase x).1 out.forwarded) := by
  have unstamp : ∀ {source now id ledger}, Owned c (stamp obs source now) id ledger → Owned c obs id ledger :=
    fun h => ⟨h.wellFormed, h.owner, h.account, h.ledger⟩
  have restamp : ∀ {source now id ledger}, Owned c obs id ledger → Owned c (stamp obs source now) id ledger :=
    fun h => ⟨h.wellFormed, h.owner, h.account, h.ledger⟩
  cases x with
  | ingestStreamObservation obs' now reply' =>
    obtain ⟨rfl, rfl⟩ := Prod.mk.inj (Option.some.inj hx)
    refine ⟨_, now, rfl, (same_ingest toUpperCase c _ now _ .orderUpdate).opts, ?_⟩
    rcases ingest_spec toUpperCase c obs' .orderUpdate now reply' with
      ⟨hattr, hnot, h⟩ | ⟨id, ledger, hown, hid, htrack⟩
    · exact .inl ⟨hattr, fun id ledger hown => hnot id ledger (restamp hown), h⟩
    · exact .inr ⟨id, ledger, unstamp hown, hid, htrack.unstamp⟩
  | ingestRestObservation obs' source now reply' =>
    obtain ⟨rfl, rfl⟩ := Prod.mk.inj (Option.some.inj hx)
    obtain ⟨hout, hproj, htold⟩ := rest_eq_ingest toUpperCase c obs' source now reply'
    refine ⟨(c.ingest toUpperCase obs' source now reply').2, now, congrArg some hout,
      (same_ingestRestObservation toUpperCase c _ now _ source).opts, ?_⟩
    rcases ingest_spec toUpperCase c obs' source now reply' with
      ⟨hattr, hnot, hledgers, hkeep⟩ | ⟨id, ledger, hown, hid, htrack⟩
    · exact .inl ⟨hattr, fun id ledger hown => hnot id ledger (restamp hown),
        (congrArg OrderUpdateProjection.ledgers hproj).trans hledgers, fun d => (htold d).trans (hkeep d)⟩
    · exact .inr ⟨id, ledger, unstamp hown, hid, (htrack.congr toUpperCase hproj htold).unstamp⟩
  | _ => cases hx

end

end OrderStreamConsumer

end BoxEngine
