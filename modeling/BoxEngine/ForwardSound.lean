import BoxEngine.ConsumerTrack

/-!
# From the consumer to the adapter

As long as the memo of what was forwarded only ever records what the adapter was told, no confirmed
quantity and label is swallowed.
-/

namespace BoxEngine

open Js Run CumulativeFillLedger

namespace OrderStreamConsumer

section
variable (toUpperCase : String → String)

def deliver (c : OrderStreamConsumer) (x : ConsumerCall) : OrderStreamConsumer × Option ExternalOrderUpdate :=
  ((c.call toUpperCase x).1,
    if x.ingested.any (fun i => i.2 = .threw) then none else (c.call toUpperCase x).2.bind (·.forwarded))

variable (opts : OrderStreamConsumerOptions)

def deliveries (calls : List ConsumerCall) : List (Option ExternalOrderUpdate) :=
  answers (deliver toUpperCase) (new opts) calls

theorem deliveries_snoc (calls : List ConsumerCall) (x : ConsumerCall) :
    deliveries toUpperCase opts (calls ++ [x]) =
      deliveries toUpperCase opts calls ++ [(deliver toUpperCase (run toUpperCase opts calls) x).2] := by
  have hsame : finish (deliver toUpperCase) (new opts) calls = run toUpperCase opts calls := by
    apply finish_congr
    intro c x
    rfl
  rw [deliveries, answers_snoc, hsame]
  rfl

def Reached (updates : List (Option ExternalOrderUpdate)) (id : String) (quantity : Number) (label : String) : Prop :=
  ∃ u q, some u ∈ updates ∧ u.clientOrderId = id ∧ u.cumulativeQty = some q ∧ quantity ≤ q ∧
    normaliseStatusLabel toUpperCase u.rawStatus = some label

variable {id label : String} {quantity : Number}

variable {toUpperCase} in
theorem Reached.grow {updates updates' : List (Option ExternalOrderUpdate)}
    (h : Reached toUpperCase updates id quantity label) (hsub : ∀ u ∈ updates, u ∈ updates') :
    Reached toUpperCase updates' id quantity label := by
  obtain ⟨u, q, hu, rest⟩ := h
  exact ⟨u, q, hsub _ hu, rest⟩

variable {updates : List (Option ExternalOrderUpdate)}

variable {toUpperCase} in
theorem Reached.weaken {quantity quantity' : Number} (h : Reached toUpperCase updates id quantity label)
    (hle : quantity' ≤ quantity) : Reached toUpperCase updates id quantity' label := by
  obtain ⟨u, q, hu, hid, hq, hqle, hlabel⟩ := h
  exact ⟨u, q, hu, hid, hq, Number.le_trans hle hqle, hlabel⟩

def Advances (ledger : CumulativeFillLedger) (obs : NormalizedOrderObservation) : Prop :=
  Number.fin (ledger.cumulativeQty + 1) ≤ obs.cumulativeQty

structure CleanObservation (before : List ConsumerCall) (c : OrderStreamConsumer) (obs : NormalizedOrderObservation)
    (reply : AdapterReply) (id : String) (ledger : CumulativeFillLedger) : Prop where
  absent : obs.quantityAbsent = true → normaliseStatusLabel toUpperCase obs.rawStatus = none ∨
    normaliseStatusLabel toUpperCase obs.rawStatus = c.told id
  unlabelled : obs.quantityAbsent = false → ¬ ledger.Seen obs.toFillEvent → Advances ledger obs →
    normaliseStatusLabel toUpperCase obs.rawStatus = none → c.told id = none
  relabelled : obs.quantityAbsent = false → ¬ ledger.Seen obs.toFillEvent →
    normaliseStatusLabel toUpperCase obs.rawStatus ≠ none →
    normaliseStatusLabel toUpperCase obs.rawStatus ≠ c.told id → Number.fin ledger.cumulativeQty ≤ obs.cumulativeQty
  repeated : obs.quantityAbsent = false → ¬ ledger.Seen obs.toFillEvent → ¬ Advances ledger obs →
    normaliseStatusLabel toUpperCase obs.rawStatus ≠ none →
    normaliseStatusLabel toUpperCase obs.rawStatus = c.told id → obs.cumulativeQty ≤ Number.fin ledger.cumulativeQty
  threw : obs.quantityAbsent = false → ¬ ledger.Seen obs.toFillEvent → reply = .threw →
    normaliseStatusLabel toUpperCase obs.rawStatus ≠ none →
    normaliseStatusLabel toUpperCase obs.rawStatus = c.told id ∧ ¬ Advances ledger obs
  redelivered : obs.quantityAbsent = false → ledger.Seen obs.toFillEvent →
    ∀ label, normaliseStatusLabel toUpperCase obs.rawStatus = some label →
      ∃ before₁ x after₁ obs₁ reply₁ ledger₁,
        before = before₁ ++ x :: after₁ ∧ x.ingested = some (obs₁, reply₁) ∧
        Owned (run toUpperCase opts before₁) obs₁ id ledger₁ ∧ obs₁.quantityAbsent = false ∧
        normaliseStatusLabel toUpperCase obs₁.rawStatus = some label ∧ obs.cumulativeQty ≤ obs₁.cumulativeQty

def Clean (before : List ConsumerCall) (x : ConsumerCall) : Prop :=
  ∀ obs reply id ledger, x.ingested = some (obs, reply) → Owned (run toUpperCase opts before) obs id ledger →
    CleanObservation toUpperCase opts before (run toUpperCase opts before) obs reply id ledger

/-! ## The memo is what the adapter was told -/

structure Faithful (c : OrderStreamConsumer) (past : List ConsumerCall) : Prop where
  state : c = run toUpperCase opts past
  wired : c.opts = opts
  memo : ∀ id label, c.told id = some label → ∃ ledger, c.proj.ledgers id = some ledger ∧
    Reached toUpperCase (deliveries toUpperCase opts past) id (.fin ledger.cumulativeQty) label
  served : ∀ before x after obs reply id ledger label, past = before ++ x :: after →
    x.ingested = some (obs, reply) → Owned (run toUpperCase opts before) obs id ledger → obs.quantityAbsent = false →
    normaliseStatusLabel toUpperCase obs.rawStatus = some label →
    Reached toUpperCase (deliveries toUpperCase opts past) id obs.cumulativeQty label

theorem faithful_new : Faithful toUpperCase opts (new opts) [] where
  state := rfl
  wired := rfl
  memo id label h := by simp [told, new] at h
  served before x after obs reply id ledger label h := by simp at h

variable {ledger : CumulativeFillLedger} {obs : NormalizedOrderObservation}

theorem advances_iff {n : ℕ} (h : wholeQuantity obs.cumulativeQty = some n) :
    Advances ledger obs ↔ ledger.cumulativeQty < n := by
  obtain ⟨hle, hlt⟩ := wholeQuantity_bounds h
  unfold Advances
  cases hq : obs.cumulativeQty with
  | fin q =>
    rw [hq] at hle hlt
    simp only [Number.fin_le_fin, Number.fin_lt_fin] at hle hlt ⊢
    constructor
    · intro hadv
      have : (ledger.cumulativeQty : ℚ) + 1 < n + 1 := lt_of_le_of_lt hadv hlt
      exact_mod_cast (add_lt_add_iff_right (1 : ℚ)).mp this
    · intro hcum
      have : ((ledger.cumulativeQty + 1 : ℕ) : ℚ) ≤ n := by exact_mod_cast hcum
      push_cast at this
      exact this.trans hle
  | nan => rw [hq] at h; cases h
  | negInf => rw [hq] at h; cases h
  | posInf => rw [hq] at h; cases h

variable {forwarded : Option ExternalOrderUpdate}

theorem reached_forwarded {c c' : OrderStreamConsumer} {now : Number}
    (h : Forwards toUpperCase c id obs c' forwarded false now) (hadapter : c.opts.adapter = true)
    (htaken : forwarded ∈ updates) (hlabel : normaliseStatusLabel toUpperCase obs.rawStatus = some label)
    (hle : quantity ≤ obs.cumulativeQty) : Reached toUpperCase updates id quantity label :=
  ⟨externalUpdate id obs false now, obs.cumulativeQty, h.forwarded hadapter ▸ htaken, rfl, rfl, hle, hlabel⟩

structure AnsweredFor (updates : List (Option ExternalOrderUpdate)) (c : OrderStreamConsumer) (id : String)
    (obs : NormalizedOrderObservation) : Prop where
  memo : ∀ label, c.told id = some label → ∃ ledger, c.proj.ledgers id = some ledger ∧
    Reached toUpperCase updates id (.fin ledger.cumulativeQty) label
  observed : ∀ label, obs.quantityAbsent = false → normaliseStatusLabel toUpperCase obs.rawStatus = some label →
    Reached toUpperCase updates id obs.cumulativeQty label

section
variable {toUpperCase} {opts} {c c' : OrderStreamConsumer} {past : List ConsumerCall} {id : String}
  {ledger ledger' : CumulativeFillLedger} {obs : NormalizedOrderObservation} {reply : AdapterReply} {now : Number}
  {forwarded : Option ExternalOrderUpdate} {updates : List (Option ExternalOrderUpdate)}
  (held : ∀ label, c.told id = some label → Reached toUpperCase updates id (.fin ledger.cumulativeQty) label)
  (hclean : CleanObservation toUpperCase opts past c obs reply id ledger)
include held hclean

theorem answered_absent (hheld : c.proj.ledgers id = some ledger) (quantity : obs.quantityAbsent = true)
    (ledgers : c'.proj.ledgers = c.proj.ledgers) (forwards : Forwards toUpperCase c id obs c' forwarded true now) :
    AnsweredFor toUpperCase updates c' id obs := by
  refine ⟨?_, fun label hpresent => absurd (quantity.symm.trans hpresent) (by decide)⟩
  intro label hlabel
  have hsame : c'.told id = c.told id := by
    rw [forwards.told, if_pos rfl]
    rcases hclean.absent quantity with hnone | hsame
    · rw [hnone, Option.none_or]
    · rw [hsame, Option.or_self]
  exact ⟨ledger, by rw [ledgers, hheld], held label (hsame ▸ hlabel)⟩

theorem answered_seen (h : Faithful toUpperCase opts c past)
    (hgrow : ∀ u ∈ deliveries toUpperCase opts past, u ∈ updates) (quantity : obs.quantityAbsent = false)
    (seen : ledger.Seen obs.toFillEvent) (hledger' : c'.proj.ledgers id = some ledger')
    (cumulative : ledger'.cumulativeQty = ledger.cumulativeQty) (told : ∀ d, c'.told d = c.told d) :
    AnsweredFor toUpperCase updates c' id obs := by
  constructor
  · intro label hlabel
    rw [told] at hlabel
    exact ⟨ledger', hledger', by rw [cumulative]; exact held label hlabel⟩
  · intro label _ hlabel
    obtain ⟨before₁, x, after₁, obs₁, reply₁, ledger₁, hsplit, hx, hown₁, hpresent₁, hlabel₁, hle⟩ :=
      hclean.redelivered quantity seen label hlabel
    have hserved := h.served before₁ x after₁ obs₁ reply₁ id ledger₁ label hsplit hx hown₁ hpresent₁ hlabel₁
    exact (hserved.grow hgrow).weaken hle

theorem answered_stale (hadapter : c.opts.adapter = true) (htaken : reply ≠ .threw → forwarded ∈ updates)
    (quantity : obs.quantityAbsent = false) (fresh : ¬ ledger.Seen obs.toFillEvent) (hnot : ¬ Advances ledger obs)
    (hledger' : c'.proj.ledgers id = some ledger') (cumulative : ledger'.cumulativeQty = ledger.cumulativeQty)
    (label : Forwards toUpperCase c id obs c' forwarded false now ∨ (∀ d, c'.told d = c.told d) ∧
      (normaliseStatusLabel toUpperCase obs.rawStatus = none ∨
        normaliseStatusLabel toUpperCase obs.rawStatus = c.told id)) :
    AnsweredFor toUpperCase updates c' id obs := by
  -- a label the memo does not hold is forwarded, and the adapter takes it
  have hnew : ∀ new, normaliseStatusLabel toUpperCase obs.rawStatus = some new → some new ≠ c.told id →
      Reached toUpperCase updates id (.fin ledger.cumulativeQty) new ∧
        Reached toUpperCase updates id obs.cumulativeQty new := by
    intro new hlabel hne
    have hsome : normaliseStatusLabel toUpperCase obs.rawStatus ≠ none := by rw [hlabel]; simp
    have htook : forwarded ∈ updates := htaken fun hthrew => hne (hlabel ▸ (hclean.threw quantity fresh hthrew hsome).1)
    have hle := hclean.relabelled quantity fresh hsome (hlabel ▸ hne)
    rcases label with forwards | ⟨-, hnone | hsame⟩
    · exact ⟨reached_forwarded toUpperCase forwards hadapter htook hlabel hle,
        reached_forwarded toUpperCase forwards hadapter htook hlabel (Number.le_refl_of_fin_le hle)⟩
    · exact absurd hnone hsome
    · exact absurd (hlabel.symm.trans hsame) hne
  constructor
  · intro after hafter
    refine ⟨ledger', hledger', ?_⟩
    rw [cumulative]
    rcases label with forwards | ⟨hkeep, -⟩
    · rw [forwards.told, if_pos rfl] at hafter
      cases hlabel : normaliseStatusLabel toUpperCase obs.rawStatus with
      | none =>
        rw [hlabel, Option.none_or] at hafter
        exact held after hafter
      | some new =>
        rw [hlabel, Option.some_or] at hafter
        obtain rfl := Option.some.inj hafter
        by_cases htold : some new = c.told id
        · exact held new htold.symm
        · exact (hnew new hlabel htold).1
    · rw [hkeep] at hafter
      exact held after hafter
  · intro new _ hlabel
    by_cases htold : some new = c.told id
    · have hle := hclean.repeated quantity fresh hnot (by rw [hlabel]; simp) (hlabel.trans htold)
      exact (held new htold.symm).weaken hle
    · exact (hnew new hlabel htold).2

omit held in
theorem answered_advanced {n : ℕ} (hadapter : c.opts.adapter = true) (htaken : reply ≠ .threw → forwarded ∈ updates)
    (quantity : obs.quantityAbsent = false) (fresh : ¬ ledger.Seen obs.toFillEvent)
    (whole : wholeQuantity obs.cumulativeQty = some n) (lt : ledger.cumulativeQty < n)
    (hledger' : c'.proj.ledgers id = some ledger') (cumulative : ledger'.cumulativeQty = n)
    (forwards : Forwards toUpperCase c id obs c' forwarded false now) : AnsweredFor toUpperCase updates c' id obs := by
  have hadv : Advances ledger obs := (advances_iff whole).mpr lt
  have hbound := (wholeQuantity_bounds whole).1
  have htook : ∀ new, normaliseStatusLabel toUpperCase obs.rawStatus = some new → forwarded ∈ updates :=
    fun new hlabel => htaken fun hthrew => (hclean.threw quantity fresh hthrew (by rw [hlabel]; simp)).2 hadv
  constructor
  · intro after hafter
    refine ⟨ledger', hledger', ?_⟩
    rw [cumulative]
    rw [forwards.told, if_pos rfl] at hafter
    cases hlabel : normaliseStatusLabel toUpperCase obs.rawStatus with
    | none =>
      rw [hlabel, Option.none_or, hclean.unlabelled quantity fresh hadv hlabel] at hafter
      cases hafter
    | some new =>
      rw [hlabel, Option.some_or] at hafter
      obtain rfl := Option.some.inj hafter
      exact reached_forwarded toUpperCase forwards hadapter (htook new hlabel) hlabel hbound
  · intro new _ hlabel
    exact reached_forwarded toUpperCase forwards hadapter (htook new hlabel) hlabel (Number.le_refl_of_fin_le hbound)

end

variable {past : List ConsumerCall}

theorem owned_step {c c' : OrderStreamConsumer} {reply : AdapterReply} {now : Number}
    (h : Faithful toUpperCase opts c past) (hadapter : c.opts.adapter = true)
    (hown : Owned c obs id ledger) (hclean : CleanObservation toUpperCase opts past c obs reply id ledger)
    (htrack : Track toUpperCase c id ledger obs now c' forwarded)
    (hgrow : ∀ u ∈ deliveries toUpperCase opts past, u ∈ updates) (htaken : reply ≠ .threw → forwarded ∈ updates) :
    AnsweredFor toUpperCase updates c' id obs := by
  -- a label the memo already held was told with the ledger's quantity
  have held : ∀ label, c.told id = some label →
      Reached toUpperCase updates id (.fin ledger.cumulativeQty) label := by
    intro label hlabel
    obtain ⟨ledger', hledger', hreach⟩ := h.memo id label hlabel
    obtain rfl := Option.some.inj (hledger'.symm.trans hown.ledger)
    exact hreach.grow hgrow
  cases htrack with
  | absent quantity ledgers forwards => exact answered_absent held hclean hown.ledger quantity ledgers forwards
  | seen quantity seen ledger' ledgers cumulative told =>
    exact answered_seen held hclean h hgrow quantity seen (by rw [ledgers, Function.update_self]) cumulative told
  | stale quantity fresh observed whole le ledger' ledgers cumulative label =>
    exact answered_stale held hclean hadapter htaken quantity fresh (by rw [advances_iff whole]; omega)
      (by rw [ledgers, Function.update_self]) cumulative label
  | advanced quantity fresh observed whole lt ledger' ledgers cumulative forwards =>
    exact answered_advanced hclean hadapter htaken quantity fresh whole lt (by rw [ledgers, Function.update_self])
      cumulative forwards

theorem mem_deliveries_snoc {x : ConsumerCall} {u : Option ExternalOrderUpdate}
    (hu : u ∈ deliveries toUpperCase opts past) : u ∈ deliveries toUpperCase opts (past ++ [x]) := by
  rw [deliveries_snoc]
  exact List.mem_append_left _ hu

theorem taken_mem_deliveries {x : ConsumerCall} {reply : AdapterReply} {out : IngestOutput}
    (hx : x.ingested = some (obs, reply)) (hout : ((run toUpperCase opts past).call toUpperCase x).2 = some out)
    (hreply : reply ≠ .threw) : out.forwarded ∈ deliveries toUpperCase opts (past ++ [x]) := by
  rw [deliveries_snoc, deliver, hx, hout]
  simp [hreply]

theorem owned_unique {c : OrderStreamConsumer} {id id' : String} {ledger ledger' : CumulativeFillLedger}
    (h : Owned c obs id ledger) (h' : Owned c obs id' ledger') : id' = id ∧ ledger' = ledger := by
  obtain rfl := Option.some.inj (h'.owner.symm.trans h.owner)
  exact ⟨rfl, Option.some.inj (h'.ledger.symm.trans h.ledger)⟩

theorem Faithful.step (h : Faithful toUpperCase opts (run toUpperCase opts past) past)
    (hadapter : opts.adapter = true) (x : ConsumerCall) (hclean : Clean toUpperCase opts past x) :
    Faithful toUpperCase opts (run toUpperCase opts (past ++ [x])) (past ++ [x]) := by
  have hgrow : ∀ u ∈ deliveries toUpperCase opts past, u ∈ deliveries toUpperCase opts (past ++ [x]) :=
    fun _ hu => mem_deliveries_snoc toUpperCase opts hu
  have hnext := run_snoc toUpperCase opts past x
  cases hx : x.ingested with
  | none =>
    obtain ⟨hun, -⟩ := unheard_call toUpperCase (run toUpperCase opts past) x hx
    rw [← hnext] at hun
    refine ⟨rfl, hun.opts.trans h.wired, ?_, ?_⟩
    · intro id label hlabel
      rw [hun.told] at hlabel
      obtain ⟨ledger, hledger, hreach⟩ := h.memo id label hlabel
      exact ⟨ledger, hun.ledgers id ledger hledger, hreach.grow hgrow⟩
    · intro before y after obs reply id ledger label hsplit hy hown hpresent hlabel
      rcases split_snoc hsplit with ⟨-, rfl, -⟩ | ⟨after', -, hsplit'⟩
      · rw [hx] at hy; cases hy
      · exact (h.served before y after' obs reply id ledger label hsplit' hy hown hpresent hlabel).grow hgrow
  | some observed =>
    obtain ⟨obs, reply⟩ := observed
    obtain ⟨out, now, hout, hopts, hcase⟩ := call_ingested toUpperCase (run toUpperCase opts past) hx
    rw [← hnext] at hopts hcase
    have htaken : reply ≠ .threw → out.forwarded ∈ deliveries toUpperCase opts (past ++ [x]) :=
      taken_mem_deliveries toUpperCase opts hx hout
    have older : ∀ before y after' obs reply id ledger label, past = before ++ y :: after' →
        y.ingested = some (obs, reply) → Owned (run toUpperCase opts before) obs id ledger →
        obs.quantityAbsent = false → normaliseStatusLabel toUpperCase obs.rawStatus = some label →
        Reached toUpperCase (deliveries toUpperCase opts (past ++ [x])) id obs.cumulativeQty label :=
      fun before y after' obs reply id ledger label hsplit hy hown hpresent hlabel =>
        (h.served before y after' obs reply id ledger label hsplit hy hown hpresent hlabel).grow hgrow
    -- without an owner no ledger moves; with one, only the owner's does
    rcases hcase with ⟨-, hnot, hledgers, htold⟩ | ⟨id, ledger, hown, -, htrack⟩
    · refine ⟨rfl, hopts.trans h.wired, ?_, ?_⟩
      · intro id label hlabel
        rw [htold] at hlabel
        obtain ⟨ledger, hledger, hreach⟩ := h.memo id label hlabel
        exact ⟨ledger, by rw [hledgers]; exact hledger, hreach.grow hgrow⟩
      · intro before y after obs' reply' id ledger label hsplit hy hown hpresent hlabel
        rcases split_snoc hsplit with ⟨rfl, rfl, -⟩ | ⟨after', -, hsplit'⟩
        · rw [hx] at hy
          obtain ⟨rfl, rfl⟩ := Prod.mk.inj (Option.some.inj hy)
          exact absurd hown (hnot id ledger)
        · exact older before y after' obs' reply' id ledger label hsplit' hy hown hpresent hlabel
    · obtain ⟨hmemo, hserved⟩ := owned_step toUpperCase opts h (by rw [h.wired]; exact hadapter) hown
        (hclean obs reply id ledger hx hown) htrack hgrow htaken
      obtain ⟨hothers, hledgers⟩ := htrack.others
      refine ⟨rfl, hopts.trans h.wired, ?_, ?_⟩
      · intro d label hlabel
        by_cases hd : d = id
        · subst hd
          exact hmemo label hlabel
        · rw [hothers d hd] at hlabel
          obtain ⟨ledger', hledger', hreach⟩ := h.memo d label hlabel
          exact ⟨ledger', by rw [hledgers d hd]; exact hledger', hreach.grow hgrow⟩
      · intro before y after obs' reply' d ledger' label hsplit hy hown' hpresent hlabel
        rcases split_snoc hsplit with ⟨rfl, rfl, -⟩ | ⟨after', -, hsplit'⟩
        · rw [hx] at hy
          obtain ⟨rfl, rfl⟩ := Prod.mk.inj (Option.some.inj hy)
          obtain ⟨rfl, -⟩ := owned_unique hown hown'
          exact hserved label hpresent hlabel
        · exact older before y after' obs' reply' d ledger' label hsplit' hy hown' hpresent hlabel

theorem faithful_prefix (hadapter : opts.adapter = true) {calls : List ConsumerCall}
    (hclean : ∀ before x after, calls = before ++ x :: after → Clean toUpperCase opts before x)
    (past : List ConsumerCall) :
    ∀ rest, calls = past ++ rest → Faithful toUpperCase opts (run toUpperCase opts past) past := by
  induction past using List.reverseRecOn with
  | nil => exact fun _ _ => faithful_new toUpperCase opts
  | append_singleton past x ih =>
    intro rest hrest
    have hsplit : calls = past ++ x :: rest := by rw [hrest]; simp
    exact (ih _ hsplit).step toUpperCase opts hadapter x (hclean past x rest hsplit)

end

/-- **Nothing confirmed is swallowed**: an attributed quantity with a label has, once ingested, reached the adapter.
-/
theorem nothing_swallowed (toUpperCase : String → String) (opts : OrderStreamConsumerOptions)
    (hadapter : opts.adapter = true) (calls : List ConsumerCall)
    (hclean : ∀ before x after, calls = before ++ x :: after → Clean toUpperCase opts before x)
    (before : List ConsumerCall) (x : ConsumerCall) (after : List ConsumerCall) (hcalls : calls = before ++ x :: after)
    (obs : NormalizedOrderObservation) (reply : AdapterReply) (hx : x.ingested = some (obs, reply)) (out : IngestOutput)
    (hout : ((run toUpperCase opts before).call toUpperCase x).2 = some out) (hattributed : out.result.attributed = true)
    (id : String) (hid : out.result.clientOrderId = some id) (hpresent : obs.quantityAbsent = false) (label : String)
    (hlabel : normaliseStatusLabel toUpperCase obs.rawStatus = some label) :
    Reached toUpperCase (deliveries toUpperCase opts (before ++ [x])) id obs.cumulativeQty label := by
  have h : Faithful toUpperCase opts (run toUpperCase opts (before ++ [x])) (before ++ [x]) :=
    faithful_prefix toUpperCase opts hadapter hclean (before ++ [x]) after (by rw [hcalls]; simp)
  obtain ⟨out', now, hout', -, hcase⟩ := call_ingested toUpperCase (run toUpperCase opts before) hx
  obtain rfl := Option.some.inj (hout'.symm.trans hout)
  rcases hcase with ⟨hnot, -⟩ | ⟨id', ledger, hown, hid', -⟩
  · exact absurd (hnot.symm.trans hattributed) (by decide)
  · obtain rfl := Option.some.inj (hid'.symm.trans hid)
    exact h.served before x [] obs reply id' ledger label rfl hx hown hpresent hlabel

def registerLeg : ConsumerCall :=
  .registerIntent
    { clientOrderId := "A", ownerTag := "T1", account := some none, requestedQty := .fin 75, brokerOrderId := none } none

def frame (cumulativeQty : Number) (quantityPresent : Bool) (rawStatus : String) : NormalizedOrderObservation where
  ownerTag := "T1"
  brokerOrderId := none
  account := none
  cumulativeQty
  quantityPresent := some quantityPresent
  averagePrice := none
  rawStatus := some rawStatus
  eventId := none
  sequence := none
  source := .orderUpdate
  observedAtMono := none
  observedAtWall := none

def cancelled : List ConsumerCall :=
  [registerLeg, .ingestStreamObservation (frame (.fin 0) true "CANCELLED") (.fin 0) (.returned (some .cancelled))]

theorem clean_cancelled (before : List ConsumerCall) (x : ConsumerCall) (after : List ConsumerCall)
    (h : cancelled = before ++ x :: after) : Clean String.toUpper wired before x := by
  have howner : (run String.toUpper wired [registerLeg]).proj.resolveOwner (frame (.fin 0) true "CANCELLED") =
    some "A" := by decide +kernel
  have hheld : (run String.toUpper wired [registerLeg]).proj.ledgers "A" =
    some (CumulativeFillLedger.new "A" (.fin 75)) := by decide +kernel
  have hlabel : normaliseStatusLabel String.toUpper (some "CANCELLED") = some "CANCELLED" := by decide +kernel
  intro obs reply id ledger hx hown
  match before, h with
  | [], h =>
    obtain ⟨rfl, -⟩ := List.cons.inj h
    cases hx
  | [y], h =>
    simp only [cancelled, List.cons_append, List.nil_append, List.cons.injEq] at h
    obtain ⟨rfl, rfl, -⟩ := h
    obtain ⟨rfl, rfl⟩ := Prod.mk.inj (Option.some.inj hx)
    obtain rfl := Option.some.inj (howner.symm.trans hown.owner)
    obtain rfl := Option.some.inj (hheld.symm.trans hown.ledger)
    have hnot : ¬ (CumulativeFillLedger.new "A" (.fin 75)).Seen (frame (.fin 0) true "CANCELLED").toFillEvent := by
      rintro ⟨hne, -⟩
      exact hne (by decide)
    refine ⟨nofun, ?_, ?_, ?_, nofun, fun _ hseen => absurd hseen hnot⟩
    · intro _ _ _ hnone
      exact absurd (hlabel.symm.trans hnone) (by simp)
    · intro _ _ _ _
      exact Number.fin_le_fin.mpr (by simp [CumulativeFillLedger.new])
    · intro _ _ _ _ htold
      have hfresh : (run String.toUpper wired [registerLeg]).told "A" = none := rfl
      exact absurd (hlabel.symm.trans (htold.trans hfresh)) (by simp)
  | _ :: _ :: _, h => simp [cancelled] at h

theorem nothing_swallowed_cancelled :
    Reached String.toUpper (deliveries String.toUpper wired cancelled) "A" (.fin 0) "CANCELLED" := by
  have hout : ((run String.toUpper wired [registerLeg]).call String.toUpper
      (.ingestStreamObservation (frame (.fin 0) true "CANCELLED") (.fin 0) (.returned (some .cancelled)))).2.map
        (fun out => (out.result.attributed, out.result.clientOrderId)) = some (true, some "A") := by decide +kernel
  obtain ⟨out, hout, hresult⟩ := Option.map_eq_some_iff.mp hout
  obtain ⟨hattributed, hid⟩ := Prod.mk.inj hresult
  exact nothing_swallowed String.toUpper wired rfl cancelled clean_cancelled [registerLeg] _ [] rfl
    (frame (.fin 0) true "CANCELLED") (.returned (some .cancelled)) rfl out hout hattributed "A" hid rfl "CANCELLED"
    (by decide +kernel)

/-- The same cancellation behind a frame without a quantity never reaches the adapter. -/
theorem cancellation_swallowed :
    let before := [registerLeg, .ingestStreamObservation (frame (.fin 0) false "CANCELLED") (.fin 0) (.returned none)]
    let x := ConsumerCall.ingestStreamObservation (frame (.fin 0) true "CANCELLED") (.fin 0) (.returned none)
    (((run String.toUpper wired before).call String.toUpper x).2.map fun out =>
        (out.result.attributed, out.result.clientOrderId)) = some (true, some "A") ∧
      (frame (.fin 0) true "CANCELLED").quantityAbsent = false ∧
      normaliseStatusLabel String.toUpper (some "CANCELLED") = some "CANCELLED" ∧
      ¬ Reached String.toUpper (deliveries String.toUpper wired (before ++ [x])) "A" (.fin 0) "CANCELLED" := by
  intro before x
  have hquiet : ∀ u ∈ deliveries String.toUpper wired (before ++ [x]), u.all fun u => u.cumulativeQty = none := by
    decide +kernel
  refine ⟨by decide +kernel, rfl, by decide +kernel, ?_⟩
  rintro ⟨u, q, hu, -, hq, -⟩
  have := hquiet (some u) hu
  simp [hq] at this

end OrderStreamConsumer

end BoxEngine
