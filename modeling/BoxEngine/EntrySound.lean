import BoxEngine.LiveEntry
import BoxEngine.UnwindSound
import BoxEngine.Lib.Keyed

/-!
# An entry is unwound only once it is settled

A reversal is sent only when every answer proves no exposure or is undisputed, and a residual is what filled less what
the unwind confirmed.
-/

namespace BoxEngine

open Js

/-- A proof that the leg created no exposure, or a snapshot whose quantity is settled. -/
def SubmitAnswer.Settled : SubmitAnswer → Prop
  | .ok order => order.state ≠ .unknown ∧ order.state ≠ .reconciliationRequired
  | .error (.preSubmitRefused _ _ _ _) => True
  | .error (.orderRejected order) => provesZeroExposure order = true
  | .error _ => False

section

variable {settled : List SubmitAnswer}

theorem mem_canonicalRoleOrder {orders : List BrokerOrder} {order : BrokerOrder} :
    order ∈ canonicalRoleOrder orders ↔ order ∈ orders := by
  simp only [canonicalRoleOrder, List.mem_flatMap, List.mem_filter, decide_eq_true_eq]
  constructor
  · rintro ⟨role, -, hmem, -⟩
    exact hmem
  · intro hmem
    exact ⟨order.role, order.role.mem_boxLegRoles, hmem, rfl⟩

theorem settled_of_certain (h : uncertainEntry settled (canonicalRoleOrder (ordersFromSettled settled)) = false) :
    ∀ answer ∈ settled, answer.Settled := by
  simp only [uncertainEntry, Bool.or_eq_false_iff, List.any_eq_false] at h
  obtain ⟨herrors, horders⟩ := h
  intro answer hmem
  cases answer with
  | ok order =>
    have horder := horders order (mem_canonicalRoleOrder.mpr (List.mem_filterMap.mpr ⟨_, hmem, rfl⟩))
    show order.state ≠ .unknown ∧ order.state ≠ .reconciliationRequired
    simpa [disputedState] using horder
  | error error =>
    have hproven : provenNoExposure error = true := by
      have := herrors _ hmem
      simp only [uncertainError, Bool.not_eq_true, Bool.or_eq_false_iff] at this
      simpa using this.1.1
    cases error with
    | preSubmitRefused => trivial
    | orderRejected order => exact hproven
    | _ => cases hproven

end

theorem entrySubmissionOrder_roles (direction : BoxDirection) :
    ((entrySubmissionOrder direction).map EntrySubmissionSlot.role).Perm boxLegRoles := by
  cases direction <;> decide

theorem buildEntryRequests_roles {ctx : EntryContext} {desk : EntryDesk} {slots : List EntrySubmissionSlot}
    {requests : List BrokerOrderRequest} (h : buildEntryRequests ctx desk slots = .ok requests) :
    requests.map BrokerOrderRequest.role = slots.map EntrySubmissionSlot.role := by
  induction slots generalizing requests with
  | nil =>
    cases h
    rfl
  | cons slot slots ih =>
    unfold buildEntryRequests at h
    cases hpricing : desk.buildOrderPricing slot with
    | error message =>
      rw [hpricing] at h
      cases h
    | ok pricing =>
      rw [hpricing] at h
      cases hrest : buildEntryRequests ctx desk slots with
      | error message =>
        rw [hrest] at h
        cases h
      | ok rest =>
        rw [hrest] at h
        cases h
        simp [ih hrest, entryRequest]

theorem simulateLeggingEntry_cases (ctx : EntryContext) (desk : EntryDesk) :
    (∃ refusal, simulateLeggingEntry ctx desk = refusedEntry refusal) ∨
      ∃ requests, (requests.map BrokerOrderRequest.role).Perm boxLegRoles ∧
        simulateLeggingEntry ctx desk =
          { settleEntry ctx desk requests (requests.map desk.submit) with submissions := requests } := by
  unfold simulateLeggingEntry
  split
  · exact .inl ⟨_, rfl⟩
  · split
    · exact .inl ⟨_, rfl⟩
    · rename_i requests hrequests
      split
      · exact .inl ⟨_, rfl⟩
      · split
        · exact .inl ⟨_, rfl⟩
        · refine .inr ⟨requests, ?_, rfl⟩
          rw [buildEntryRequests_roles hrequests]
          exact entrySubmissionOrder_roles ctx.direction

structure EntryFailure.Of (failure : EntryFailure) (orders : List BrokerOrder) (residual : List EntryResidual)
    (unwinds : List BrokerOrder) : Prop where
  orders : failure.orders = orders
  residual : failure.residual = residual
  unwindOrders : failure.unwindOrders = unwinds

inductive SettledEntry (ctx : EntryContext) (desk : EntryDesk) (settled : List SubmitAnswer) (orders : List BrokerOrder)
    (entry : LiveEntry) : Prop where
  | kept (refusal : EntryRefusal) (quiet : entry.reversals = [])
      (result : entry.result = .failed (liveEntryFailure orders refusal none []))
  | unwound (failure : EntryFailure) (unwind : UnwindLog) (certain : uncertainEntry settled orders = false)
      (source : unwind = .empty ∨ ∃ suffix, unwind = unwindConfirmed (ctx.unwinding suffix) desk.unwind orders)
      (reversals : entry.reversals = unwind.trace) (result : entry.result = .failed failure)
      (about : failure.Of orders (residualAfterUnwind orders unwind.unwinds) unwind.unwinds)
  | opened (decision : BoxEntryDecision) (quiet : entry.reversals = []) (result : entry.result = .opened orders decision)

theorem settleEntry_settled (ctx : EntryContext) (desk : EntryDesk) (requests : List BrokerOrderRequest)
    (settled : List SubmitAnswer) : SettledEntry ctx desk settled (canonicalRoleOrder (ordersFromSettled settled))
      (settleEntry ctx desk requests settled) := by
  unfold settleEntry
  dsimp only
  cases hcertain : uncertainEntry settled (canonicalRoleOrder (ordersFromSettled settled)) with
  | true => exact .kept _ rfl rfl
  | false =>
    rw [if_neg (by simp)]
    split
    · unfold recoverPartialEntry
      dsimp only
      split
      · exact .kept _ rfl rfl
      · refine .unwound _ _ hcertain ?_ rfl rfl ⟨rfl, rfl, rfl⟩
        split
        · exact .inl rfl
        · exact .inr ⟨_, rfl⟩
    · split
      · exact .kept _ rfl rfl
      · split
        · exact .opened _ rfl rfl
        · exact .unwound _ _ hcertain (.inr ⟨_, rfl⟩) rfl rfl ⟨rfl, rfl, rfl⟩

/-! ## The unwinds of an entry -/

def SubmitAnswer.snapshot : SubmitAnswer → Option BrokerOrder
  | .ok order => some order
  | .error (.orderRejected order) => some order
  | .error (.ambiguousSubmit _ _ order) => order
  | .error (.persistenceAfterFill order) => some order
  | .error _ => none

def Attributed (submit : BrokerOrderRequest → SubmitAnswer) : Prop :=
  ∀ request order, SubmitAnswer.snapshot (submit request) = some order → order.role = request.role

theorem reverseLeg_unwinds (ctx : UnwindContext) {venue : UnwindVenue} (h : Attributed venue.submit)
    (order : BrokerOrder) (quantity : Number) (log : UnwindLog) :
    ∃ extra, (reverseLeg ctx venue order quantity log).1.unwinds = log.unwinds ++ extra ∧
      (extra.map BrokerOrder.role).Sublist [order.role] := by
  unfold reverseLeg
  dsimp only
  split
  · exact ⟨[], by simp⟩
  · split
    · exact ⟨[], by simp⟩
    · rename_i pricing _
      split
      · exact ⟨[], by simp⟩
      · have hrole := h (unwindRequest ctx order order.side.reverse quantity pricing)
        split
        · rename_i result heq
          refine ⟨[result], rfl, ?_⟩
          rw [heq] at hrole
          simp [hrole result rfl, unwindRequest]
        · rename_i result heq
          refine ⟨[result], rfl, ?_⟩
          rw [heq] at hrole
          simp [hrole result rfl, unwindRequest]
        · exact ⟨[], by simp⟩
        · exact ⟨[], by simp⟩

def exposedOn (exposure : ByRole ConfirmedExposure) (side : OrderSide) (role : BoxLegRole) : Bool :=
  (exposure role).any fun item => item.order.side = side

section

variable (orders : List BrokerOrder)
variable (ctx : UnwindContext)

theorem buyBack_unwinds {venue : UnwindVenue} (h : Attributed venue.submit) (s : UnwindState) (role : BoxLegRole) :
    ∃ extra, (buyBack ctx venue (confirmedExposure orders) s role).log.unwinds = s.log.unwinds ++ extra ∧
      (extra.map BrokerOrder.role).Sublist ([role].filter (exposedOn (confirmedExposure orders) .sell)) := by
  have hspec := confirmedExposure_spec orders role
  unfold buyBack exposedOn
  cases hitem : confirmedExposure orders role with
  | none => exact ⟨[], by simp⟩
  | some item =>
    rw [hitem] at hspec
    dsimp only
    by_cases hside : item.order.side = .sell
    · rw [if_pos hside]
      obtain ⟨extra, hextra, hsub⟩ := reverseLeg_unwinds ctx h item.order item.quantity s.log
      rw [hspec.2.1] at hsub
      exact ⟨extra, hextra, by simpa [hitem, hside] using hsub⟩
    · rw [if_neg hside]
      exact ⟨[], by simp⟩

theorem releaseLong_unwinds {venue : UnwindVenue} (h : Attributed venue.submit) (reduced : ByRole ExitWaveOutcome)
    (log : UnwindLog) (role : BoxLegRole) :
    ∃ extra, (releaseLong ctx venue (confirmedExposure orders) reduced log role).unwinds = log.unwinds ++ extra ∧
      (extra.map BrokerOrder.role).Sublist ([role].filter (exposedOn (confirmedExposure orders) .buy)) := by
  have hspec := confirmedExposure_spec orders role
  unfold releaseLong exposedOn
  cases hitem : confirmedExposure orders role with
  | none => exact ⟨[], by simp⟩
  | some item =>
    rw [hitem] at hspec
    dsimp only
    by_cases hside : item.order.side = .buy
    · rw [if_pos hside]
      split
      · exact ⟨[], by simp⟩
      · obtain ⟨extra, hextra, hsub⟩ := reverseLeg_unwinds ctx h item.order (.fin _) log
        rw [hspec.2.1] at hsub
        exact ⟨extra, hextra, by simpa [hitem, hside] using hsub⟩
    · rw [if_neg hside]
      exact ⟨[], by simp⟩

variable {venue : BoxLegRole → UnwindVenue}

theorem buyBacks_unwinds (h : ∀ role, Attributed (venue role).submit) (roles : List BoxLegRole) (s : UnwindState) :
    ∃ extra, (roles.foldl (fun s role => buyBack ctx (venue role) (confirmedExposure orders) s role) s).log.unwinds =
        s.log.unwinds ++ extra ∧
      (extra.map BrokerOrder.role).Sublist (roles.filter (exposedOn (confirmedExposure orders) .sell)) := by
  induction roles generalizing s with
  | nil => exact ⟨[], by simp⟩
  | cons role roles ih =>
    obtain ⟨first, hfirst, hsubFirst⟩ := buyBack_unwinds orders ctx (h role) s role
    obtain ⟨rest, hrest, hsubRest⟩ := ih (buyBack ctx (venue role) (confirmedExposure orders) s role)
    refine ⟨first ++ rest, ?_, ?_⟩
    · rw [List.foldl_cons, hrest, hfirst, List.append_assoc]
    · rw [List.map_append, ← List.singleton_append, List.filter_append]
      exact hsubFirst.append hsubRest

theorem releaseLongs_unwinds (h : ∀ role, Attributed (venue role).submit) (reduced : ByRole ExitWaveOutcome)
    (roles : List BoxLegRole) (log : UnwindLog) :
    ∃ extra, (roles.foldl (fun log role =>
          releaseLong ctx (venue role) (confirmedExposure orders) reduced log role) log).unwinds = log.unwinds ++ extra ∧
      (extra.map BrokerOrder.role).Sublist (roles.filter (exposedOn (confirmedExposure orders) .buy)) := by
  induction roles generalizing log with
  | nil => exact ⟨[], by simp⟩
  | cons role roles ih =>
    obtain ⟨first, hfirst, hsubFirst⟩ := releaseLong_unwinds orders ctx (h role) reduced log role
    obtain ⟨rest, hrest, hsubRest⟩ := ih (releaseLong ctx (venue role) (confirmedExposure orders) reduced log role)
    refine ⟨first ++ rest, ?_, ?_⟩
    · rw [List.foldl_cons, hrest, hfirst, List.append_assoc]
    · rw [List.map_append, ← List.singleton_append, List.filter_append]
      exact hsubFirst.append hsubRest

theorem unwindConfirmed_roles (h : ∀ role, Attributed (venue role).submit) :
    ((unwindConfirmed ctx venue orders).unwinds.map BrokerOrder.role).Nodup ∧
      ∀ unwind ∈ (unwindConfirmed ctx venue orders).unwinds, ∃ order ∈ orders, order.role = unwind.role := by
  obtain ⟨shorts, hshorts, hsubShorts⟩ := buyBacks_unwinds orders ctx h boxLegRoles ⟨.empty, fun _ => none⟩
  have hlongs := releaseLongs_unwinds orders ctx h
    (boxLegRoles.foldl (fun s role => buyBack ctx (venue role) (confirmedExposure orders) s role)
      ⟨.empty, fun _ => none⟩).reduced boxLegRoles
    (boxLegRoles.foldl (fun s role => buyBack ctx (venue role) (confirmedExposure orders) s role)
      ⟨.empty, fun _ => none⟩).log
  obtain ⟨longs, hlongs, hsubLongs⟩ := hlongs
  have hunwinds : (unwindConfirmed ctx venue orders).unwinds = shorts ++ longs := by
    unfold unwindConfirmed
    rw [hlongs, hshorts]
    rfl
  have hsub := hsubShorts.append hsubLongs
  rw [← List.map_append, ← hunwinds] at hsub
  have hexposed : ∀ role side, exposedOn (confirmedExposure orders) side role = true →
      ∃ item, confirmedExposure orders role = some item ∧ item.order.side = side := by
    intro role side hrole
    unfold exposedOn at hrole
    cases hitem : confirmedExposure orders role with
    | none => simp [hitem] at hrole
    | some item => exact ⟨item, rfl, by simpa [hitem] using hrole⟩
  refine ⟨hsub.nodup ?_, ?_⟩
  · refine List.Nodup.append (boxLegRoles_nodup.filter _) (boxLegRoles_nodup.filter _) ?_
    intro role hsell hbuy
    obtain ⟨item, hitem, hside⟩ := hexposed role _ (List.mem_filter.mp hsell).2
    obtain ⟨item', hitem', hside'⟩ := hexposed role _ (List.mem_filter.mp hbuy).2
    rw [hitem] at hitem'
    cases hitem'
    rw [hside] at hside'
    cases hside'
  · intro unwind hunwind
    have hmem := hsub.subset (List.mem_map_of_mem hunwind)
    have hside : ∃ side, exposedOn (confirmedExposure orders) side unwind.role = true := by
      rcases List.mem_append.mp hmem with hmem | hmem
      · exact ⟨_, (List.mem_filter.mp hmem).2⟩
      · exact ⟨_, (List.mem_filter.mp hmem).2⟩
    obtain ⟨side, hside⟩ := hside
    obtain ⟨item, hitem, -⟩ := hexposed unwind.role side hside
    have hspec := confirmedExposure_spec orders unwind.role
    rw [hitem] at hspec
    exact ⟨item.order, hspec.1, hspec.2.1⟩

end

/-! ## Quantities by leg -/

section

variable {α : Type} (role : α → BoxLegRole) (quantity : α → Number)

def totalOn (l : List α) (leg : BoxLegRole) : Number :=
  ((l.filter fun a => role a = leg).map quantity).foldl Number.add (.fin 0)

variable {l : List α}

theorem totalOn_of_mem (h : (l.map role).Nodup) {a : α} (ha : a ∈ l) :
    totalOn role quantity l (role a) = quantity a := by
  unfold totalOn
  rw [Keyed.filter_of_mem h ha]
  exact Number.zero_add _

theorem totalOn_of_not_mem {leg : BoxLegRole} (h : leg ∉ l.map role) : totalOn role quantity l leg = .fin 0 := by
  unfold totalOn
  rw [Keyed.filter_of_not_mem h]
  rfl

theorem totalOn_cases (h : (l.map role).Nodup) (leg : BoxLegRole) :
    (∃ a ∈ l, role a = leg ∧ totalOn role quantity l leg = quantity a) ∨
      leg ∉ l.map role ∧ totalOn role quantity l leg = .fin 0 := by
  by_cases hmem : leg ∈ l.map role
  · obtain ⟨a, ha, rfl⟩ := List.mem_map.mp hmem
    exact .inl ⟨a, ha, rfl, totalOn_of_mem role quantity h ha⟩
  · exact .inr ⟨hmem, totalOn_of_not_mem role quantity hmem⟩

end

theorem unwindFillByRole_eq {unwinds : List BrokerOrder} (h : (unwinds.map BrokerOrder.role).Nodup) (leg : BoxLegRole) :
    ((unwindFillByRole unwinds leg).getD (.fin 0)) = totalOn BrokerOrder.role BrokerOrder.filledQuantity unwinds leg := by
  have hfind : unwindFillByRole unwinds leg =
      (unwinds.find? fun order => order.role = leg).map BrokerOrder.filledQuantity := by
    induction unwinds using List.reverseRecOn with
    | nil => rfl
    | append_singleton l order ih =>
      rw [List.map_append, List.nodup_append] at h
      have hold := ih h.1
      unfold unwindFillByRole at hold ⊢
      rw [List.foldl_append, List.find?_append]
      simp only [List.foldl_cons, List.foldl_nil, ByRole.set]
      by_cases hrole : order.role = leg
      · have hnone : l.find? (fun o => decide (o.role = leg)) = none := by
          rw [List.find?_eq_none]
          intro o ho
          have := h.2.2 o.role (List.mem_map_of_mem ho) order.role (by simp)
          rw [decide_eq_true_eq]
          intro heq
          exact this (heq.trans hrole.symm)
        simp [hrole, hnone]
      · rw [if_neg (Ne.symm hrole), hold]
        simp [hrole]
  rw [hfind]
  by_cases hmem : leg ∈ unwinds.map BrokerOrder.role
  · obtain ⟨order, horder, rfl⟩ := List.mem_map.mp hmem
    rw [Keyed.find?_of_mem h horder, totalOn_of_mem _ _ h horder]
    rfl
  · have hnone : unwinds.find? (fun o => decide (o.role = leg)) = none := by
      rw [List.find?_eq_none]
      intro o ho
      rw [decide_eq_true_eq]
      rintro rfl
      exact hmem (List.mem_map_of_mem ho)
    rw [totalOn_of_not_mem _ _ hmem, hnone]
    rfl

/-! ## The residual -/

/-- On every leg the residual is what filled less what the unwind confirmed of it. -/
def EntryFailure.Accounted (failure : EntryFailure) : Prop :=
  ∀ leg filled unwound, totalOn BrokerOrder.role BrokerOrder.filledQuantity failure.orders leg = .fin filled →
    totalOn BrokerOrder.role BrokerOrder.filledQuantity failure.unwindOrders leg = .fin unwound → unwound ≤ filled →
      totalOn EntryResidual.role EntryResidual.quantity failure.residual leg = .fin (filled - unwound)

section

variable {orders : List BrokerOrder} {f : BrokerOrder → Option EntryResidual} {amount : BrokerOrder → Number}

structure TakenFrom (f : BrokerOrder → Option EntryResidual) (amount : BrokerOrder → Number) : Prop where
  some : ∀ order row, f order = .some row → row.role = order.role ∧ row.quantity = amount order
  none : ∀ order, f order = .none → ∀ q, amount order = .fin q → q ≤ 0

theorem TakenFrom.roles (h : TakenFrom f amount) : ((orders.filterMap f).map EntryResidual.role).Sublist
    (orders.map BrokerOrder.role) :=
  Keyed.sublist_filterMap fun order _ row hrow => (h.some order row hrow).1

theorem TakenFrom.total (h : TakenFrom f amount) (hnodup : (orders.map BrokerOrder.role).Nodup) {order : BrokerOrder}
    (horder : order ∈ orders) {q : ℚ} (hq : amount order = .fin q) (hpos : 0 ≤ q) :
    totalOn EntryResidual.role EntryResidual.quantity (orders.filterMap f) order.role = .fin q := by
  rcases totalOn_cases EntryResidual.role EntryResidual.quantity (h.roles.nodup hnodup) order.role with
    ⟨row, hrow, hrole, htotal⟩ | ⟨hmem, htotal⟩
  · obtain ⟨source, hsource, hf⟩ := List.mem_filterMap.mp hrow
    obtain ⟨hsourceRole, hamount⟩ := h.some source row hf
    have hsame : source = order :=
      List.inj_on_of_nodup_map hnodup hsource horder (hsourceRole.symm.trans hrole)
    rw [htotal, hamount, hsame, hq]
  · cases hf : f order with
    | some row =>
      exact absurd (List.mem_map.mpr ⟨row, List.mem_filterMap.mpr ⟨order, horder, hf⟩, (h.some order row hf).1⟩) hmem
    | none =>
      rw [htotal, le_antisymm (h.none order hf q hq) hpos]

theorem TakenFrom.total_of_not_mem (h : TakenFrom f amount) {leg : BoxLegRole}
    (hleg : leg ∉ orders.map BrokerOrder.role) :
    totalOn EntryResidual.role EntryResidual.quantity (orders.filterMap f) leg = .fin 0 :=
  totalOn_of_not_mem _ _ fun hmem => hleg (h.roles.subset hmem)

theorem accounted_of_kept (hnodup : (orders.map BrokerOrder.role).Nodup) (refusal : EntryRefusal) :
    (liveEntryFailure orders refusal none []).Accounted := by
  have htaken : TakenFrom (fun order => if .fin 0 < order.filledQuantity then
      some (EntryResidual.mk order.token order.tradingsymbol none order.role order.side order.filledQuantity
        (order.averagePrice.getD order.limitPrice) order.updatedAt) else none) BrokerOrder.filledQuantity := by
    constructor
    · intro order row hrow
      split at hrow
      · cases hrow
        exact ⟨rfl, rfl⟩
      · cases hrow
    · intro order hnone q hq
      split at hnone
      · cases hnone
      · rename_i hpos
        rw [hq] at hpos
        simpa using hpos
  intro leg filled unwound hfilled hunwound hle
  obtain rfl : unwound = 0 := by
    cases hunwound
    rfl
  rw [sub_zero]
  rcases totalOn_cases BrokerOrder.role BrokerOrder.filledQuantity hnodup leg with
    ⟨order, horder, rfl, htotal⟩ | ⟨hmem, htotal⟩
  · exact htaken.total hnodup horder (htotal.symm.trans hfilled) hle
  · rw [show filled = 0 from Number.fin.inj (hfilled.symm.trans htotal)]
    exact htaken.total_of_not_mem hmem

theorem accounted_of_unwound {unwinds : List BrokerOrder} (hnodup : (orders.map BrokerOrder.role).Nodup)
    (hunwinds : (unwinds.map BrokerOrder.role).Nodup) (hsub : ∀ unwind ∈ unwinds, ∃ order ∈ orders, order.role = unwind.role)
    {failure : EntryFailure} (h : failure.Of orders (residualAfterUnwind orders unwinds) unwinds) :
    failure.Accounted := by
  have htaken : TakenFrom (fun entry =>
      let remaining := entry.filledQuantity.sub ((unwindFillByRole unwinds entry.role).getD (.fin 0))
      if remaining ≤ .fin 0 then none
      else some (EntryResidual.mk entry.token entry.tradingsymbol (some entry.exchange) entry.role entry.side remaining
        (entry.averagePrice.getD (.fin 0)) entry.updatedAt))
      fun entry => entry.filledQuantity.sub ((unwindFillByRole unwinds entry.role).getD (.fin 0)) := by
    constructor
    · intro order row hrow
      dsimp only at hrow
      split at hrow
      · cases hrow
      · cases hrow
        exact ⟨rfl, rfl⟩
    · intro order hnone q hq
      dsimp only at hnone
      split at hnone
      · rename_i hle
        rw [hq] at hle
        simpa using hle
      · cases hnone
  intro leg filled unwound hfilled hunwound hle
  rw [h.orders] at hfilled
  rw [h.unwindOrders] at hunwound
  rw [h.residual]
  -- a role that was not unwound keeps its whole fill as residual
  rcases totalOn_cases BrokerOrder.role BrokerOrder.filledQuantity hnodup leg with
    ⟨order, horder, rfl, htotal⟩ | ⟨hmem, htotal⟩
  · refine htaken.total hnodup horder ?_ (by linarith)
    rw [← htotal, hfilled, unwindFillByRole_eq hunwinds, hunwound]
    rfl
  · have hnone : leg ∉ unwinds.map BrokerOrder.role := by
      intro hleg
      obtain ⟨unwind, hunwind, rfl⟩ := List.mem_map.mp hleg
      obtain ⟨order, horder, hrole⟩ := hsub unwind hunwind
      exact hmem (List.mem_map.mpr ⟨order, horder, hrole⟩)
    rw [totalOn_of_not_mem _ _ hnone] at hunwound
    have hf : filled = 0 := Number.fin.inj (hfilled.symm.trans htotal)
    have hu : unwound = 0 := (Number.fin.inj hunwound).symm
    rw [hf, hu, sub_zero]
    exact htaken.total_of_not_mem hmem

end

/-! ## The entry -/

theorem ordersFromSettled_roles {submit : BrokerOrderRequest → SubmitAnswer} (h : Attributed submit)
    (requests : List BrokerOrderRequest) :
    ((ordersFromSettled (requests.map submit)).map BrokerOrder.role).Sublist (requests.map BrokerOrderRequest.role) := by
  unfold ordersFromSettled
  rw [List.filterMap_map]
  refine Keyed.sublist_filterMap ?_
  intro request _ order horder
  refine h request order ?_
  rw [Function.comp_apply] at horder
  revert horder
  cases submit request with
  | ok answered => exact id
  | error error =>
    cases error with
    | orderRejected rejected =>
      dsimp only
      split
      · intro hnone
        cases hnone
      · exact id
    | _ => exact id

theorem canonicalRoleOrder_roles {orders : List BrokerOrder} (h : (orders.map BrokerOrder.role).Nodup) :
    ((canonicalRoleOrder orders).map BrokerOrder.role).Nodup := by
  unfold canonicalRoleOrder
  rw [List.map_flatMap]
  refine List.nodup_flatMap.mpr ⟨?_, ?_⟩
  · intro role _
    exact (List.filter_sublist.map _).nodup h
  · refine boxLegRoles_nodup.imp ?_
    intro a b hne role ha hb
    simp only [List.mem_map, List.mem_filter, decide_eq_true_eq] at ha hb
    obtain ⟨_, ⟨-, rfl⟩, rfl⟩ := ha
    obtain ⟨_, ⟨-, hrole⟩, hrole'⟩ := hb
    exact hne (hrole'.symm.trans hrole)

/-- **Entry unwind**, only once every leg is settled; a failed entry records what filled less what was unwound. -/
theorem entry_unwind_settled (ctx : EntryContext) (desk : EntryDesk) :
    ((∃ request, Moment.submitted request ∈ (simulateLeggingEntry ctx desk).reversals) →
        ((simulateLeggingEntry ctx desk).submissions.map BrokerOrderRequest.role).Perm boxLegRoles ∧
          ∀ request ∈ (simulateLeggingEntry ctx desk).submissions, SubmitAnswer.Settled (desk.submit request)) ∧
      (Attributed desk.submit → (∀ role, Attributed (desk.unwind role).submit) →
        ∀ failure, (simulateLeggingEntry ctx desk).result = .failed failure → failure.Accounted) := by
  rcases simulateLeggingEntry_cases ctx desk with ⟨refusal, heq⟩ | ⟨requests, hroles, heq⟩
  · rw [heq]
    refine ⟨?_, ?_⟩
    · rintro ⟨request, hmem⟩
      cases hmem
    · intro _ _ failure hfailure
      cases hfailure
      exact accounted_of_kept (by simp) refusal
  · rw [heq]
    dsimp only
    have hsettled := settleEntry_settled ctx desk requests (requests.map desk.submit)
    refine ⟨?_, ?_⟩
    · rintro ⟨request, hmem⟩
      refine ⟨hroles, ?_⟩
      -- only an unwound entry sends reversals; kept and opened ones send none
      cases hsettled with
      | kept _ quiet _ | opened _ quiet _ =>
        rw [quiet] at hmem
        cases hmem
      | unwound _ _ certain _ _ _ _ =>
        intro leg hleg
        exact settled_of_certain certain _ (List.mem_map_of_mem hleg)
    · intro hentry hunwind failure hfailure
      have hnodup := canonicalRoleOrder_roles ((ordersFromSettled_roles hentry requests).nodup
        (hroles.nodup_iff.mpr boxLegRoles_nodup))
      cases hsettled with
      | kept refusal _ result =>
        rw [result] at hfailure
        cases hfailure
        exact accounted_of_kept hnodup refusal
      | opened _ _ result =>
        rw [result] at hfailure
        cases hfailure
      | unwound _ unwind _ source _ result about =>
        rw [result] at hfailure
        cases hfailure
        rcases source with rfl | ⟨suffix, rfl⟩
        · exact accounted_of_unwound hnodup (by simp [UnwindLog.empty]) (by simp [UnwindLog.empty]) about
        · obtain ⟨hunwinds, hsub⟩ := unwindConfirmed_roles (canonicalRoleOrder (ordersFromSettled
            (requests.map desk.submit))) (ctx.unwinding suffix) hunwind
          exact accounted_of_unwound hnodup hunwinds hsub about

/-! ## A box of three and a half legs -/

variable (state : BrokerOrderState)

def answeredOrder (filled : Number) (request : BrokerOrderRequest) : BrokerOrder :=
  { legOrder state 0 0 (some (.fin 10)) with
    clientOrderId := request.clientOrderId
    role := request.role
    side := request.side
    quantity := request.quantity
    filledQuantity := filled }

def threeLegsDesk : EntryDesk where
  beforeBuild := none
  beforeSubmit := none
  buildOrderPricing _ := .ok ⟨.fin 10, .fin (1 / 20), .fin 4, .fin 10⟩
  precheck _ := .ok ()
  submit request :=
    .ok (if request.role = .k1Pe then answeredOrder state (.fin 25) request
      else answeredOrder .complete request.quantity request)
  qualify _ := .ok ⟨true, none, none⟩
  unwind _ :=
    { touchPrice := fun _ _ => some (.fin 10)
      buildOrderPricing := fun _ _ _ _ => .ok ⟨.fin 10, .fin (1 / 20), .fin 4, .fin 10⟩
      precheck := fun _ => .ok ()
      submit := fun request => .ok (answeredOrder .complete request.quantity request) }

def oneLot : EntryContext := ⟨.longBox, .fin 75, fun _ => ⟨.fin 1002, "NIFTY26SEP20000CE", "NFO"⟩, "T1", "a1"⟩

def Moment.isSubmitted : Moment → Bool
  | .submitted _ => true
  | .answered _ _ => false

theorem exists_submitted {trace : List Moment} (h : trace.any Moment.isSubmitted = true) :
    ∃ request, Moment.submitted request ∈ trace := by
  obtain ⟨m, hmem, hm⟩ := List.any_eq_true.mp h
  cases m with
  | submitted request => exact ⟨request, hmem⟩
  | answered role answer => cases hm

def LiveEntryResult.isFailed : LiveEntryResult → Bool
  | .opened _ _ => false
  | .failed _ => true

theorem exists_failed {result : LiveEntryResult} (h : result.isFailed = true) : ∃ failure, result = .failed failure := by
  cases result with
  | opened orders decision => cases h
  | failed failure => exact ⟨failure, rfl⟩

theorem answeredOrder_attributed (filled : BrokerOrderRequest → Number) :
    Attributed fun request => .ok (answeredOrder state (filled request) request) := by
  intro request order h
  cases h
  rfl

theorem threeLegsDesk_attributed : Attributed (threeLegsDesk state).submit := by
  intro request order h
  simp only [threeLegsDesk, SubmitAnswer.snapshot, Option.some.injEq] at h
  subst h
  split <;> rfl

/-- The fourth leg is still open at the broker and the other three are reversed. -/
theorem unwound_while_open :
    (∃ request, Moment.submitted request ∈ (simulateLeggingEntry oneLot (threeLegsDesk .open)).reversals) ∧
      ∃ request ∈ (simulateLeggingEntry oneLot (threeLegsDesk .open)).submissions, ∃ order,
        (threeLegsDesk .open).submit request = .ok order ∧ isBrokerOrderTerminal order.state = false := by
  refine ⟨exists_submitted (by decide +kernel), ?_⟩
  have hsome : ((simulateLeggingEntry oneLot (threeLegsDesk .open)).submissions.any fun request =>
      request.role = .k1Pe) = true := by
    decide +kernel
  obtain ⟨request, hmem, hrole⟩ := List.any_eq_true.mp hsome
  refine ⟨request, hmem, answeredOrder .open (.fin 25) request, ?_, rfl⟩
  simp [threeLegsDesk, of_decide_eq_true hrole]

theorem entry_unwind_settled_three :
    (∀ request ∈ (simulateLeggingEntry oneLot (threeLegsDesk .cancelled)).submissions,
        SubmitAnswer.Settled ((threeLegsDesk .cancelled).submit request)) ∧
      ∃ failure, (simulateLeggingEntry oneLot (threeLegsDesk .cancelled)).result = .failed failure ∧ failure.Accounted := by
  obtain ⟨hsettled, haccounted⟩ := entry_unwind_settled oneLot (threeLegsDesk .cancelled)
  have hfailed : (simulateLeggingEntry oneLot (threeLegsDesk .cancelled)).result.isFailed = true := by
    decide +kernel
  obtain ⟨failure, hfailure⟩ := exists_failed hfailed
  refine ⟨(hsettled (exists_submitted (by decide +kernel))).2, failure, hfailure, ?_⟩
  refine haccounted (threeLegsDesk_attributed _) ?_ failure hfailure
  intro role
  exact answeredOrder_attributed .complete BrokerOrderRequest.quantity

end BoxEngine
