import BoxEngine.ExitSound

/-!
# The unwind of a partial entry keeps its cover
-/

namespace BoxEngine

open Js

/-- A partial entry as the gateway hands it over: every order trades its leg's entry side. -/
structure PartialEntry where
  direction : BoxDirection
  orders : List BrokerOrder
  sides : ∀ order ∈ orders, order.side = entrySideFor order.role direction

def entryFill (orders : List BrokerOrder) (role : BoxLegRole) : ℚ :=
  ((orders.filter fun order => order.role = role).map fun order => max 0 order.filledQuantity.value).sum

def PartialEntry.holding (entry : PartialEntry) : Holding where
  long role := if entrySideFor role entry.direction = .buy then entryFill entry.orders role else 0
  short role := if entrySideFor role entry.direction = .sell then entryFill entry.orders role else 0

/-! ## Confirmed exposure -/

variable (entry : PartialEntry) (ctx : UnwindContext) (orders : List BrokerOrder) (venue : BoxLegRole → UnwindVenue)
  (order : BrokerOrder)

theorem entryFill_snoc (role : BoxLegRole) :
    entryFill (orders ++ [order]) role =
      entryFill orders role + if order.role = role then max 0 order.filledQuantity.value else 0 := by
  unfold entryFill
  by_cases h : order.role = role <;> simp [List.filter_append, h]

theorem entryFill_nonneg (role : BoxLegRole) : 0 ≤ entryFill orders role := by
  refine List.sum_nonneg ?_
  intro x hx
  obtain ⟨order, -, rfl⟩ := List.mem_map.mp hx
  exact le_max_left _ _

theorem fill_skipped {filled : Number} (h : filled ≤ .fin 0) : max 0 filled.value = 0 := by
  cases filled with
  | fin q => simpa using h
  | _ => simp [Number.value]

def ExposureOf (orders : List BrokerOrder) (role : BoxLegRole) : Option ConfirmedExposure → Prop
  | none => entryFill orders role = 0
  | some item => item.order ∈ orders ∧ item.order.role = role ∧
      ∀ q, item.quantity = .fin q → q = entryFill orders role

variable {role : BoxLegRole}

theorem ExposureOf.quantity {orders : List BrokerOrder} {item : Option ConfirmedExposure}
    (h : ExposureOf orders role item) {q : ℚ} (hq : (item.map ConfirmedExposure.quantity).getD (.fin 0) = .fin q) :
    q = entryFill orders role := by
  cases item with
  | none =>
    cases hq
    exact h.symm
  | some item => exact h.2.2 q hq

theorem confirmedExposure_spec (role : BoxLegRole) : ExposureOf orders role (confirmedExposure orders role) := by
  induction orders using List.reverseRecOn generalizing role with
  | nil => rfl
  | append_singleton l order ih =>
    have hold := ih role
    unfold confirmedExposure at hold ih ⊢
    rw [List.foldl_append, List.foldl_cons, List.foldl_nil]
    set before := l.foldl _ _ with hbefore
    -- an order without a fill is skipped by the scan
    by_cases hskip : order.filledQuantity ≤ .fin 0
    · rw [if_pos hskip]
      have hfill : entryFill (l ++ [order]) role = entryFill l role := by
        rw [entryFill_snoc]
        split
        · rw [fill_skipped hskip, add_zero]
        · rw [add_zero]
      cases hrole : before role with
      | none =>
        rw [hrole] at hold
        exact hfill.trans hold
      | some item =>
        rw [hrole] at hold
        exact ⟨List.mem_append_left _ hold.1, hold.2.1, fun q hq => (hold.2.2 q hq).trans hfill.symm⟩
    · rw [if_neg hskip]
      by_cases hrole : role = order.role
      · subst hrole
        have hset : ∀ item, ByRole.set before order.role item order.role = some item := fun item => if_pos rfl
        rw [hset]
        refine ⟨by simp, rfl, ?_⟩
        intro q hq
        obtain ⟨x, y, hx, hy, rfl⟩ := Number.add_eq_fin hq
        rw [entryFill_snoc, if_pos rfl, ← hold.quantity hx, hy, Number.value_fin]
        rw [hy] at hskip
        have hpos : 0 < y := by simpa using hskip
        rw [max_eq_right hpos.le]
      · have hset : ∀ item, ByRole.set before order.role item role = before role := fun item => if_neg hrole
        rw [hset]
        have hfill : entryFill (l ++ [order]) role = entryFill l role := by
          rw [entryFill_snoc, if_neg (Ne.symm hrole), add_zero]
        cases hbeforeRole : before role with
        | none =>
          rw [hbeforeRole] at hold
          exact hfill.trans hold
        | some item =>
          rw [hbeforeRole] at hold
          exact ⟨List.mem_append_left _ hold.1, hold.2.1, fun q hq => (hold.2.2 q hq).trans hfill.symm⟩

/-! ## One reversal -/

theorem reverseLeg_cases (venue : UnwindVenue) (order : BrokerOrder) (quantity : Number) (log : UnwindLog) :
    ((reverseLeg ctx venue order quantity log).1.trace = log.trace ∧
        (reverseLeg ctx venue order quantity log).2 = ⟨.fin 0, false⟩) ∨
      ∃ pricing answer, (reverseLeg ctx venue order quantity log).1.trace =
          log.trace ++ [.submitted (unwindRequest ctx order order.side.reverse quantity pricing)] ++
            [.answered order.role answer] ∧
        ((reverseLeg ctx venue order quantity log).2.certain = true →
          (reverseLeg ctx venue order quantity log).2.filled.value ≤ terminalFill answer) := by
  unfold reverseLeg
  dsimp only
  split
  · exact .inl ⟨rfl, rfl⟩
  · split
    · exact .inl ⟨rfl, rfl⟩
    · rename_i pricing _
      split
      · exact .inl ⟨rfl, rfl⟩
      · refine .inr ⟨pricing, venue.submit (unwindRequest ctx order order.side.reverse quantity pricing), ?_⟩
        split
        · rename_i result heq
          refine ⟨by simp, ?_⟩
          intro hterminal
          rw [heq]
          exact terminalFill_of_terminal hterminal
        · exact ⟨by simp, fun hcertain => by cases hcertain⟩
        · exact ⟨by simp, fun _ => terminalFill_nonneg _⟩
        · exact ⟨by simp, fun hcertain => by cases hcertain⟩

structure ReversalSound (held : Holding) (order : BrokerOrder) (log : UnwindLog)
    (out : UnwindLog × ExitWaveOutcome) : Prop where
  covered : AlwaysCovered held out.1.trace
  kept : ∀ role, order.side = .sell ∨ role ≠ order.role → soldOn role out.1.trace = soldOn role log.trace
  mono : ∀ byRole, Honest byRole log.trace → Honest byRole out.1.trace
  worth : out.2.certain = true → out.2.filled.value ≤ closedOn order.role out.1.trace

variable {log : UnwindLog}

theorem reverseLeg_sound {held : Holding} (venue : UnwindVenue) (order : BrokerOrder) (quantity : Number)
    (h : AlwaysCovered held log.trace)
    (hfree : order.side = .buy → soldOn order.role log.trace = 0 ∧
      quantity.value + held.mayBeOpen (verticalPartner order.role) log.trace ≤ held.long order.role) :
    ReversalSound held order log (reverseLeg ctx venue order quantity log) := by
  rcases reverseLeg_cases ctx venue order quantity log with ⟨htrace, hout⟩ | ⟨pricing, answer, htrace, hworth⟩
  · refine ⟨by rw [htrace]; exact h, fun _ _ => by rw [htrace], fun _ hb => by rw [htrace]; exact hb, ?_⟩
    rw [hout]
    intro hcertain
    cases hcertain
  · have hsub : Free held log.trace (unwindRequest ctx order order.side.reverse quantity pricing) := by
      intro hsell
      refine hfree ?_
      cases hside : order.side with
      | buy => rfl
      | sell => simp [unwindRequest, hside, OrderSide.reverse] at hsell
    refine ⟨?_, ?_, ?_, ?_⟩
    · rw [htrace]
      exact (h.submit hsub).quiet fun _ => rfl
    · intro role hrole
      rw [htrace, soldOn_append, soldOn_append, soldOn_single, soldOn_single]
      have hrequest : Moment.sold role (.submitted (unwindRequest ctx order order.side.reverse quantity pricing)) = 0 := by
        rcases hrole with hside | hrole
        · simp [Moment.sold, unwindRequest, hside, OrderSide.reverse]
        · simp [Moment.sold, unwindRequest, Ne.symm hrole]
      rw [hrequest, add_zero]
      show _ + (0 : ℚ) = _
      rw [add_zero]
    · intro byRole hb
      rw [htrace]
      exact (hb.append _).append _
    · intro hcertain
      refine (hworth hcertain).trans ?_
      rw [htrace]
      exact answered_le (by simp)

/-! ## The two waves of the unwind -/

structure BoughtBack (held : Holding) (s : UnwindState) : Prop where
  covered : AlwaysCovered held s.log.trace
  unsold : ∀ role, soldOn role s.log.trace = 0
  honest : Honest s.reduced s.log.trace

theorem buyBack_sound {held : Holding} (venue : UnwindVenue) {orders : List BrokerOrder} {s : UnwindState}
    (h : BoughtBack held s) (role : BoxLegRole) :
    BoughtBack held (buyBack ctx venue (confirmedExposure orders) s role) := by
  have hspec := confirmedExposure_spec orders role
  unfold buyBack
  cases hitem : confirmedExposure orders role with
  | none => exact h
  | some item =>
    rw [hitem] at hspec
    dsimp only
    by_cases hside : item.order.side = .sell
    · rw [if_pos hside]
      have hrev := reverseLeg_sound ctx venue item.order item.quantity h.covered
        fun hbuy => by rw [hside] at hbuy; cases hbuy
      refine ⟨hrev.covered, fun r => (hrev.kept r (.inl hside)).trans (h.unsold r), ?_⟩
      refine Honest.set (hrev.mono _ h.honest) ?_
      rw [← hspec.2.1]
      exact hrev.worth
    · rw [if_neg hside]
      exact h

theorem buyBacks_sound (held : Holding) (ctx : UnwindContext) (venue : BoxLegRole → UnwindVenue)
    (orders : List BrokerOrder) (roles : List BoxLegRole) {s : UnwindState} (h : BoughtBack held s) :
    BoughtBack held (roles.foldl (fun s role => buyBack ctx (venue role) (confirmedExposure orders) s role) s) := by
  induction roles generalizing s with
  | nil => exact h
  | cons role roles ih => exact ih (buyBack_sound ctx (venue role) h role)

structure Releasing (held : Holding) (reduced : ByRole ExitWaveOutcome) (left : List BoxLegRole) (log : UnwindLog) :
    Prop where
  covered : AlwaysCovered held log.trace
  unsold : ∀ role ∈ left, soldOn role log.trace = 0
  honest : Honest reduced log.trace

theorem PartialEntry.side_of {item : ConfirmedExposure} (h : confirmedExposure entry.orders role = some item) :
    item.order.side = entrySideFor role entry.direction ∧ item.order.role = role := by
  have hspec := confirmedExposure_spec entry.orders role
  rw [h] at hspec
  exact ⟨by rw [entry.sides _ hspec.1, hspec.2.1], hspec.2.1⟩

theorem PartialEntry.holding_of_buy (h : entrySideFor role entry.direction = .buy) :
    entry.holding.long role = entryFill entry.orders role ∧
      entry.holding.short (verticalPartner role) = entryFill entry.orders (verticalPartner role) :=
  ⟨if_pos h, if_pos ((partner_side entry.direction role).mpr h)⟩

theorem shortBeside_eq (h : entrySideFor role entry.direction = .buy) {q : ℚ}
    (hq : shortBeside (confirmedExposure entry.orders) role = .fin q) :
    q = entryFill entry.orders (verticalPartner role) := by
  have hspec := confirmedExposure_spec entry.orders (verticalPartner role)
  unfold shortBeside at hq
  cases hitem : confirmedExposure entry.orders (verticalPartner role) with
  | none =>
    rw [hitem] at hspec hq
    cases hq
    exact hspec.symm
  | some item =>
    rw [hitem] at hspec hq
    have hsell : item.order.side = .sell := by
      rw [(entry.side_of hitem).1]
      exact (partner_side entry.direction role).mpr h
    dsimp only at hq
    rw [if_pos hsell] at hq
    exact hspec.2.2 q hq

variable {reduced : ByRole ExitWaveOutcome}

theorem releaseLong_sound (venue : UnwindVenue) {left : List BoxLegRole}
    (hrole : role ∉ left) (h : Releasing entry.holding reduced (role :: left) log) :
    Releasing entry.holding reduced left (releaseLong ctx venue (confirmedExposure entry.orders) reduced log role) := by
  have hkeep : Releasing entry.holding reduced left log :=
    ⟨h.covered, fun r hr => h.unsold r (.tail _ hr), h.honest⟩
  unfold releaseLong
  cases hitem : confirmedExposure entry.orders role with
  | none => exact hkeep
  | some item =>
    have hspec := confirmedExposure_spec entry.orders role
    rw [hitem] at hspec
    obtain ⟨hside, hitemRole⟩ := entry.side_of hitem
    dsimp only
    by_cases hbuy : item.order.side = .buy
    · rw [if_pos hbuy]
      rw [hbuy] at hside
      obtain ⟨hlong, hshort⟩ := entry.holding_of_buy hside.symm
      by_cases hnone : releasableHedgeQuantity item.quantity (coverEvidence
          (shortBeside (confirmedExposure entry.orders) role) (reduced (verticalPartner role))) ≤ 0
      · rw [if_pos hnone]
        exact ⟨h.covered, fun r hr => h.unsold r (.tail _ hr), h.honest⟩
      · rw [if_neg hnone]
        have hpos := not_le.mp hnone
        obtain ⟨hedge, -, hhedge, -, -, -⟩ := releasable_le hpos
        have hle := releasable_covered entry.holding h.honest
          (by rw [hhedge, Number.value_fin, hlong, hspec.2.2 hedge hhedge])
          (fun q hq => by
            rw [hshort, shortBeside_eq entry hside.symm hq]
            exact ⟨rfl, entryFill_nonneg _ _⟩) hpos
        have hrev := reverseLeg_sound ctx venue item.order (.fin
          (releasableHedgeQuantity item.quantity (coverEvidence
            (shortBeside (confirmedExposure entry.orders) role) (reduced (verticalPartner role))))) h.covered (by
            intro _
            rw [hitemRole, Number.value_fin]
            exact ⟨h.unsold role (by simp), hle⟩)
        refine ⟨hrev.covered, ?_, hrev.mono _ h.honest⟩
        intro r hr
        have hne : r ≠ item.order.role := by
          rw [hitemRole]
          rintro rfl
          exact hrole hr
        exact (hrev.kept r (.inr hne)).trans (h.unsold r (.tail _ hr))
    · rw [if_neg hbuy]
      exact hkeep

theorem releaseLongs_sound {roles : List BoxLegRole} (hroles : roles.Nodup)
    (h : Releasing entry.holding reduced roles log) :
    AlwaysCovered entry.holding (roles.foldl (fun log role =>
      releaseLong ctx (venue role) (confirmedExposure entry.orders) reduced log role) log).trace := by
  induction roles generalizing log with
  | nil => exact h.covered
  | cons role roles ih =>
    obtain ⟨hrole, hrest⟩ := List.nodup_cons.mp hroles
    exact ih hrest (releaseLong_sound entry ctx (venue role) hrole h)

theorem unwind_covered : AlwaysCovered entry.holding (unwindConfirmed ctx venue entry.orders).trace := by
  have hshorts := buyBacks_sound entry.holding ctx venue entry.orders boxLegRoles
    (s := ⟨.empty, fun _ => none⟩) ⟨alwaysCovered_nil, fun _ => rfl, Honest.none _⟩
  exact releaseLongs_sound entry ctx venue boxLegRoles_nodup
    ⟨hshorts.covered, fun role _ => hshorts.unsold role, hshorts.honest⟩

/-- **No naked short.** What was sold of a long leg and what its short may have open fit into what is held. -/
theorem no_naked_short :
    (∀ (position : BoxOpenPosition) (detectedAt : Number) (first second : Venue),
      AlwaysCovered position.holding (exitTrace (simulateLeggingExit position detectedAt first second))) ∧
    ∀ (entry : PartialEntry) (ctx : UnwindContext) (venue : BoxLegRole → UnwindVenue),
      AlwaysCovered entry.holding (unwindConfirmed ctx venue entry.orders).trace :=
  ⟨exit_covered, unwind_covered⟩

/-- Of a long box the bought K1 call is filled, the K2 call sold against it only in part. -/
def brokenEntry : PartialEntry where
  direction := .longBox
  orders := [legOrder .complete 75 75 (some (.fin 10)),
    { legOrder .open 75 50 (some (.fin 10)) with role := .k2Ce, side := .sell }]
  sides := by decide

/-- Every order ends with a fill of 20. -/
def thinVenue : UnwindVenue where
  touchPrice _ _ := some (.fin 10)
  buildOrderPricing _ _ _ _ := .ok ⟨.fin 10, .fin (1 / 20), .fin 4, .fin 10⟩
  precheck _ := .ok ()
  submit request := .ok { legOrder .cancelled 0 20 (some (.fin 10)) with role := request.role, side := request.side }

/-- Of the short of 50 only 20 come back, and 45 of the long of 75 are released. -/
theorem no_naked_short_broken :
    let trace := (unwindConfirmed ⟨fun _ => ⟨.fin 1002, "NIFTY26SEP20000CE", "NFO"⟩, "T1", "a1"⟩ (fun _ => thinVenue)
      brokenEntry.orders).trace
    soldOn .k1Ce trace = 45 ∧ AlwaysCovered brokenEntry.holding trace :=
  ⟨by decide +kernel, no_naked_short.2 brokenEntry _ _⟩

end BoxEngine
