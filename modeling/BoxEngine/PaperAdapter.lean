import BoxEngine.LegExecutor
import BoxEngine.Lib.CostBasis
import BoxEngine.Lib.Run
import BoxEngine.OrderPricing

/-!
# The paper broker adapter

Orders are executed by the leg executor, and the positions rebuilt from all fills. A submission stops where it awaits
the executor.
-/

namespace BoxEngine.PaperAdapter

open Js LegExecutor

structure BrokerPosition where
  token : Number
  exchange : String
  tradingsymbol : String
  netQuantity : Number
  averagePrice : Number

structure PaperLeg extends LegExecutor.PaperLegExecution where
  orderId : String
  clientOrderId : String
  averageFillPrice : Option Number

def paperState : PaperLegStatus → BrokerOrderState
  | .created => .created
  | .inFlight => .acknowledged
  | .pending => .open
  | .partiallyFilled => .partiallyFilled
  | .cancelRequested => .cancelRequested
  | .filled => .complete
  | .cancelled | .timedOut => .cancelled
  | .failed => .rejected

def paperFill (leg : PaperLeg) (index : ℕ) (fill : PaperFillSlice) : BrokerFill :=
  let clientOrderId := leg.clientOrderId
  let quoteVersion := fill.quoteVersion.elim "na" Number.toText
  let stamp := fill.at_.toText
  { fillId := s!"paper:{clientOrderId}:{quoteVersion}:{stamp}:{index}"
    quantity := .fin fill.qty, price := some (.fin fill.price), «at» := fill.at_ }

def paperLegToBroker (req : BrokerOrderRequest) (tag : Option String) (leg : PaperLeg) (now : Number) : BrokerOrder :=
  { fromRequest req tag (if leg.submitAt = 0 then now else .fin leg.submitAt) with
    brokerOrderId := some leg.orderId
    state := paperState leg.status
    filledQuantity := .fin leg.fillQty
    pendingQuantity := .fin leg.remainingQty
    averagePrice := leg.averageFillPrice
    fills := leg.fills.mapIdx (paperFill leg)
    rejectReason := leg.failReason
    rejectFamily := (leg.failReason.filter (· ≠ "")).map fun _ => .generic
    updatedAt := leg.resolvedAt.elim now .fin }

structure PaperBrokerAdapter where
  orders : List BrokerOrder := []
  cancelled : List String := []
  running : List (BrokerOrderRequest × Option String) := []

structure Execution where
  contract : String
  side : OrderSide
  fill : BrokerFill

inductive PaperEvent where
  | submit (req : BrokerOrderRequest) (tag : Option String) (paper : Bool) (now : Number)
  | executed (clientOrderId : String) (leg : Option PaperLeg) (now : Number)
  | cancel (clientOrderId : String) (now : Number)

def contractKey (exchange tradingsymbol : String) : String := s!"{exchange}:{tradingsymbol}"

theorem contractKey_inj {e e' t t' : String} (he : ':' ∉ e.toList) (he' : ':' ∉ e'.toList)
    (h : contractKey e t = contractKey e' t') : e = e' ∧ t = t' := by
  have hlist : ∀ e t : String, (contractKey e t).toList = e.toList ++ ':' :: t.toList := by
    intro e t
    simp [contractKey, toString]
  have hchars := hlist e t
  rw [h, hlist] at hchars
  have hspan : ∀ l : List Char, ':' ∉ l → ∀ r, (l ++ ':' :: r).takeWhile (· ≠ ':') = l := by
    intro l hl r
    rw [List.takeWhile_append_of_pos fun c hc => decide_eq_true (ne_of_mem_of_not_mem hc hl)]
    simp
  have hexchange := hspan _ he' t'.toList
  rw [hchars, hspan _ he] at hexchange
  rw [← hexchange, List.append_cancel_left_eq, List.cons.injEq] at hchars
  exact ⟨String.toList_injective hexchange, String.toList_injective hchars.2.symm⟩

def BrokerPosition.key (p : BrokerPosition) : String := contractKey p.exchange p.tradingsymbol

variable (order : BrokerOrder)

def orderContract : String := contractKey order.exchange order.tradingsymbol

def executions : List Execution :=
  order.fills.map fun fill => ⟨orderContract order, order.side, fill⟩

namespace PaperBrokerAdapter

variable (s : PaperBrokerAdapter)

def submitOrder (req : BrokerOrderRequest) (tag : Option String) (paper : Bool) (now : Number) : PaperBrokerAdapter :=
  match assertBoundedLimit req none with
  | .error _ => s
  | .ok () =>
    if paper = false ∨ req.clientOrderId ∈ s.orders.map BrokerOrder.clientOrderId then s
    else
      { s with
        orders := Keyed.put BrokerOrder.clientOrderId s.orders { fromRequest req tag now with state := .submitting }
        running := s.running ++ [(req, tag)] }

def executed (clientOrderId : String) (leg : Option PaperLeg) (now : Number) : PaperBrokerAdapter × List Execution :=
  match Keyed.take? (fun r => r.1.clientOrderId) clientOrderId s.running with
  | none => (s, [])
  | some ((req, tag), running) =>
    match leg with
    | none => ({ s with running }, [])
    | some leg =>
      let order := paperLegToBroker req tag leg now
      ({ s with orders := Keyed.put BrokerOrder.clientOrderId s.orders order, running }, executions order)

def cancelOrder (clientOrderId : String) (now : Number) : PaperBrokerAdapter :=
  match s.orders.find? fun o => o.clientOrderId = clientOrderId with
  | none => s
  | some current =>
    if isBrokerOrderTerminal current.state then s
    else
      { s with
        cancelled := clientOrderId :: s.cancelled
        orders := Keyed.put BrokerOrder.clientOrderId s.orders
          { current with state := .cancelRequested, updatedAt := now } }

def step : PaperEvent → PaperBrokerAdapter × List Execution
  | .submit req tag paper now => (s.submitOrder req tag paper now, [])
  | .executed clientOrderId leg now => s.executed clientOrderId leg now
  | .cancel clientOrderId now => (s.cancelOrder clientOrderId now, [])

end PaperBrokerAdapter

def mathSign : Number → Number
  | .fin q => .fin (SignType.sign q : SignType)
  | .posInf => .fin 1
  | .negInf => .fin (-1)
  | .nan => .nan

def book (current : BrokerPosition) (order : BrokerOrder) (fill : BrokerFill) : BrokerPosition :=
  let delta := (if order.side = .buy then Number.fin 1 else .fin (-1)).mul fill.quantity
  let prior := current.netQuantity
  if prior = .fin 0 ∨ mathSign prior = mathSign delta then
    let total := (absNumber prior).add (absNumber delta)
    { current with
      averagePrice := match fill.price with
        | none => current.averagePrice
        | some price =>
          if total = .fin 0 then .fin 0
          else (((absNumber prior).mul current.averagePrice).add ((absNumber delta).mul price)).div total
      netQuantity := prior.add delta }
  else if absNumber delta < absNumber prior then { current with netQuantity := prior.add delta }
  else if absNumber delta = absNumber prior then { current with netQuantity := .fin 0, averagePrice := .fin 0 }
  else { current with netQuantity := prior.add delta, averagePrice := fill.price.getD current.averagePrice }

def flatPosition : BrokerPosition :=
  { order with netQuantity := .fin 0, averagePrice := .fin 0 }

def bookInto (positions : List BrokerPosition) (entry : BrokerOrder × BrokerFill) : List BrokerPosition :=
  let current := positions.find? fun p => p.key = orderContract entry.1
  Keyed.put BrokerPosition.key positions (book (current.getD (flatPosition entry.1)) entry.1 entry.2)

variable (localeCompare : String → String → Bool)

/-- `a` comes no later than `b`, or no later by its text where the times do not differ. -/
def fillBefore (a b : BrokerFill) : Bool :=
  match a.at.sub b.at with
  | .fin d => if d = 0 then localeCompare a.fillId b.fillId else decide (d < 0)
  | .nan => localeCompare a.fillId b.fillId
  | .posInf => false
  | .negInf => true

variable (orders : List BrokerOrder)

def sortedFills : List (BrokerOrder × BrokerFill) :=
  (orders.flatMap fun order => order.fills.map fun fill => (order, fill)).insertionSort
    fun a b => fillBefore localeCompare a.2 b.2 = true

def PaperBrokerAdapter.listPositions (s : PaperBrokerAdapter) : List BrokerPosition :=
  ((sortedFills localeCompare s.orders).foldl bookInto []).filter fun p => p.netQuantity ≠ .fin 0

def Execution.trade (e : Execution) : CostBasis.Trade ℚ :=
  ⟨(if e.side = .buy then 1 else -1) * e.fill.quantity.value, (e.fill.price.getD (.fin 0)).value⟩

def trades (contract : String) (l : List Execution) : List (CostBasis.Trade ℚ) :=
  (l.filter fun e => e.contract = contract).map Execution.trade

def Priced (fill : BrokerFill) : Prop := ∃ quantity price : ℚ, fill.quantity = .fin quantity ∧ fill.price = some (.fin price)

def Holds (p : BrokerPosition) (lots : List (CostBasis.Trade ℚ)) : Prop :=
  p.netQuantity = .fin (CostBasis.quantity lots) ∧
    ∃ average, p.averagePrice = .fin average ∧ CostBasis.quantity lots * average = CostBasis.cost lots

theorem mathSign_fin_inj {a b : ℚ} : mathSign (.fin a) = mathSign (.fin b) ↔ SignType.sign a = SignType.sign b := by
  simp only [mathSign, Number.fin.injEq]
  generalize SignType.sign a = x, SignType.sign b = y
  cases x <;> cases y <;> decide

theorem book_holds {current : BrokerPosition} {order : BrokerOrder} {fill : BrokerFill}
    {lots : List (CostBasis.Trade ℚ)} (h : Holds current lots) (hpriced : Priced fill) :
    Holds (book current order fill) (CostBasis.open_ lots (Execution.trade ⟨orderContract order, order.side, fill⟩)) := by
  obtain ⟨hnet, average, haverage, hcost⟩ := h
  obtain ⟨quantity, price, hquantity, hprice⟩ := hpriced
  generalize ht : Execution.trade ⟨orderContract order, order.side, fill⟩ = t
  have hdelta : (if order.side = .buy then Number.fin 1 else .fin (-1)).mul fill.quantity = .fin t.quantity := by
    rw [← ht, hquantity]
    by_cases hside : order.side = .buy <;> simp [Execution.trade, hside, hquantity, Number.mul_fin]
  have hp : t.price = price := by simp [← ht, Execution.trade, hprice]
  have hsum : (Number.fin (CostBasis.quantity lots)).add (.fin t.quantity) = .fin (CostBasis.quantity lots + t.quantity) :=
    Number.add_fin _ _
  rw [Holds, CostBasis.quantity_open]
  simp only [book, hdelta, hnet, haverage, hprice, mathSign_fin_inj, Number.fin.injEq, absNumber, hsum]
  by_cases hadds : CostBasis.quantity lots = 0 ∨
      SignType.sign (CostBasis.quantity lots) = SignType.sign t.quantity
  · have hmean := CostBasis.mean_of_adds hadds average t.price
    have hflat : CostBasis.quantity lots = 0 → CostBasis.cost lots = 0 := fun h => by rw [← hcost, h, zero_mul]
    rw [hp, hcost] at hmean
    rw [if_pos hadds, CostBasis.cost_of_adds hadds hflat, hp]
    refine ⟨rfl, _, ?_, hmean⟩
    simp only [Number.add_fin, Number.mul_fin, Number.fin.injEq]
    by_cases htotal : |CostBasis.quantity lots| + |t.quantity| = 0
    · rw [if_pos htotal, htotal, div_zero]
    · rw [if_neg htotal, Number.div_fin htotal]
  · rw [if_neg hadds, CostBasis.open_, if_neg fun h => hadds (.inl h), if_neg fun h => hadds (.inr h)]
    simp only [Number.fin_lt_fin]
    by_cases hreduces : |t.quantity| < |CostBasis.quantity lots|
    · rw [if_pos hreduces, if_pos hreduces, CostBasis.cost_scale, ← hcost]
      have hne : CostBasis.quantity lots ≠ 0 := fun h => hadds (.inl h)
      refine ⟨rfl, average, rfl, ?_⟩
      field_simp
    · rw [if_neg hreduces, if_neg hreduces]
      by_cases hcloses : |t.quantity| = |CostBasis.quantity lots|
      · rw [if_pos hcloses, if_pos hcloses, CostBasis.add_eq_zero_of_opposed hcloses fun h => hadds (.inr h)]
        exact ⟨rfl, 0, rfl, by simp [CostBasis.cost]⟩
      · rw [if_neg hcloses, if_neg hcloses]
        exact ⟨rfl, price, rfl, by simp [CostBasis.cost, hp]⟩

/-! ## A pass over the fills -/

theorem book_key (current : BrokerPosition) (order : BrokerOrder) (fill : BrokerFill) :
    (book current order fill).key = current.key := by
  unfold book
  generalize (if order.side = .buy then Number.fin 1 else .fin (-1)).mul fill.quantity = delta
  simp only
  split
  · rfl
  · split
    · rfl
    · split <;> rfl

def execution (entry : BrokerOrder × BrokerFill) : Execution := ⟨orderContract entry.1, entry.1.side, entry.2⟩

theorem trades_snoc (contract : String) (l : List Execution) (e : Execution) :
    trades contract (l ++ [e]) = trades contract l ++ if e.contract = contract then [e.trade] else [] := by
  by_cases h : e.contract = contract <;> simp [trades, h]

/-- Each position is the sum of its contract's trades. -/
structure Booked (positions : List BrokerPosition) (past : List Execution) : Prop where
  nodup : (positions.map BrokerPosition.key).Nodup
  holds : ∀ contract, ∀ p, positions.find? (fun p => p.key = contract) = some p →
    Holds p (CostBasis.lots (trades contract past))
  none : ∀ contract, positions.find? (fun p => p.key = contract) = none → trades contract past = []

theorem Booked.nil : Booked [] [] := ⟨.nil, by simp, fun _ _ => rfl⟩

theorem Booked.bookInto {positions : List BrokerPosition} {past : List Execution} (h : Booked positions past)
    (entry : BrokerOrder × BrokerFill) (hpriced : Priced entry.2) :
    Booked (bookInto positions entry) (past ++ [execution entry]) := by
  generalize hcurrent : (positions.find? fun p => p.key = orderContract entry.1).getD (flatPosition entry.1) = current
  have hkey : current.key = orderContract entry.1 := by
    cases hfound : positions.find? fun p => p.key = orderContract entry.1 with
    | none => rw [← hcurrent, hfound]; rfl
    | some p => rw [← hcurrent, hfound]; simpa using List.find?_some hfound
  have hbooked : (book current entry.1 entry.2).key = orderContract entry.1 := (book_key ..).trans hkey
  have hheld : Holds current (CostBasis.lots (trades (orderContract entry.1) past)) := by
    cases hfound : positions.find? fun p => p.key = orderContract entry.1 with
    | none =>
      rw [← hcurrent, hfound, h.none _ hfound]
      exact ⟨rfl, 0, rfl, by simp [CostBasis.cost, CostBasis.lots]⟩
    | some p =>
      rw [← hcurrent, hfound]
      exact h.holds _ p hfound
  have hnext := @book_holds _ entry.1 _ _ hheld hpriced
  rw [PaperAdapter.bookInto, hcurrent]
  refine ⟨Keyed.nodup_put h.nodup _, fun contract p hp => ?_, fun contract hnone => ?_⟩
  · rw [Keyed.find?_put, hbooked] at hp
    rw [trades_snoc]
    by_cases hcontract : contract = orderContract entry.1
    · rw [if_pos hcontract, Option.some.injEq] at hp
      subst hp hcontract
      rw [execution, if_pos rfl, CostBasis.lots, List.foldl_append]
      exact hnext
    · have hne : (execution entry).contract ≠ contract := Ne.symm hcontract
      rw [if_neg hcontract] at hp
      rw [if_neg hne, List.append_nil]
      exact h.holds contract p hp
  · rw [Keyed.find?_put, hbooked] at hnone
    by_cases hcontract : contract = orderContract entry.1
    · simp [hcontract] at hnone
    · have hne : (execution entry).contract ≠ contract := Ne.symm hcontract
      rw [if_neg hcontract] at hnone
      rw [trades_snoc, if_neg hne, List.append_nil]
      exact h.none contract hnone

theorem Booked.foldl {positions : List BrokerPosition} {past : List Execution} (h : Booked positions past)
    (entries : List (BrokerOrder × BrokerFill)) (hpriced : ∀ entry ∈ entries, Priced entry.2) :
    Booked (entries.foldl PaperAdapter.bookInto positions) (past ++ entries.map execution) := by
  induction entries generalizing positions past with
  | nil => simpa using h
  | cons entry rest ih =>
    have hstep := ih (h.bookInto entry (hpriced entry (by simp))) fun e he => hpriced e (by simp [he])
    simpa using hstep

/-! ## The order of the fills -/

theorem at_of_fillBefore {localeCompare : String → String → Bool} {a b : BrokerFill} {x y : ℚ}
    (ha : a.at = .fin x) (hb : b.at = .fin y) :
    (fillBefore localeCompare a b = true → x ≤ y) ∧ (fillBefore localeCompare a b = false → y ≤ x) := by
  simp only [fillBefore, ha, hb, Number.sub_fin]
  by_cases hd : x - y = 0
  · exact ⟨fun _ => by linarith, fun _ => by linarith⟩
  · simp only [if_neg hd, decide_eq_true_eq, decide_eq_false_iff_not]
    exact ⟨fun h => by linarith, fun h => by linarith⟩

section Sorting

variable {α : Type*} {r : α → α → Prop} [DecidableRel r] {f : α → ℚ}

theorem pairwise_orderedInsert {a : α} {l : List α} (hl : l.Pairwise fun a b => f a ≤ f b)
    (h : ∀ b ∈ l, (r a b → f a ≤ f b) ∧ (¬r a b → f b ≤ f a)) :
    (l.orderedInsert r a).Pairwise fun a b => f a ≤ f b := by
  induction l with
  | nil => simp
  | cons b l ih =>
    obtain ⟨hb, hl'⟩ := List.pairwise_cons.mp hl
    obtain ⟨hle, hge⟩ := h b (by simp)
    rw [List.orderedInsert_cons]
    by_cases hr : r a b
    · rw [if_pos hr]
      refine hl.cons fun c hc => ?_
      rcases List.mem_cons.mp hc with rfl | hc
      · exact hle hr
      · exact (hle hr).trans (hb c hc)
    · rw [if_neg hr]
      refine (ih hl' fun c hc => h c (by simp [hc])).cons fun c hc => ?_
      rcases (List.mem_orderedInsert r).mp hc with rfl | hc
      · exact hge hr
      · exact hb c hc

theorem pairwise_insertionSort {l : List α} (h : ∀ a ∈ l, ∀ b ∈ l, (r a b → f a ≤ f b) ∧ (¬r a b → f b ≤ f a)) :
    (l.insertionSort r).Pairwise fun a b => f a ≤ f b := by
  induction l with
  | nil => simp
  | cons a l ih =>
    refine pairwise_orderedInsert (ih fun b hb c hc => h b (by simp [hb]) c (by simp [hc])) fun b hb => ?_
    exact h a (by simp) b (by simp [(List.mem_insertionSort r).mp hb])

end Sorting

theorem sortedFills_pairwise (h : ∀ order ∈ orders, ∀ fill ∈ order.fills, fill.at.isFinite = true) :
    (sortedFills localeCompare orders).Pairwise fun a b => a.2.at.value ≤ b.2.at.value := by
  refine pairwise_insertionSort fun a ha b hb => ?_
  have hfinite : ∀ e ∈ orders.flatMap fun order => order.fills.map fun fill => (order, fill),
      e.2.at = .fin e.2.at.value := by
    intro e he
    obtain ⟨order, horder, he⟩ := List.mem_flatMap.mp he
    obtain ⟨fill, hfill, rfl⟩ := List.mem_map.mp he
    have hat := h order horder fill hfill
    cases heq : fill.at with
    | fin q => rfl
    | _ => simp [heq, Number.isFinite] at hat
  obtain ⟨hle, hge⟩ := @at_of_fillBefore localeCompare _ _ _ _ (hfinite a ha) (hfinite b hb)
  exact ⟨hle, fun hr => hge (Bool.not_eq_true _ ▸ hr)⟩

/-! ## Runs -/

namespace PaperBrokerAdapter

structure Kept (s : PaperBrokerAdapter) (past : List Execution) : Prop where
  unique : (s.orders.map BrokerOrder.clientOrderId).Nodup
  pending : (s.running.map fun r => r.1.clientOrderId).Nodup
  known : ∀ r ∈ s.running, r.1.clientOrderId ∈ s.orders.map BrokerOrder.clientOrderId
  unfilled : ∀ r ∈ s.running, ∀ order ∈ s.orders, order.clientOrderId = r.1.clientOrderId → order.fills = []
  fills : (s.orders.flatMap executions).Perm past
  priced : ∀ e ∈ past, Priced e.fill

theorem executions_put {orders : List BrokerOrder} (h : (orders.map BrokerOrder.clientOrderId).Nodup)
    {order other : BrokerOrder} (hmem : other ∈ orders) (hid : other.clientOrderId = order.clientOrderId) :
    ((Keyed.put BrokerOrder.clientOrderId orders order).flatMap executions ++ executions other).Perm
      (orders.flatMap executions ++ executions order) := by
  have hput := Keyed.perm_filter_ne (Keyed.nodup_put h order) (Keyed.self_mem_put orders order)
  rw [Keyed.filter_put] at hput
  have horders := Keyed.perm_filter_ne h hmem
  rw [hid] at horders
  generalize (orders.filter fun a => a.clientOrderId ≠ order.clientOrderId) = rest at hput horders
  calc ((Keyed.put BrokerOrder.clientOrderId orders order).flatMap executions ++ executions other).Perm
        (executions order ++ rest.flatMap executions ++ executions other) := (hput.flatMap_right executions).append_right _
    List.Perm _ (executions other ++ (executions order ++ rest.flatMap executions)) := List.perm_append_comm
    List.Perm _ (executions other ++ (rest.flatMap executions ++ executions order)) :=
      List.perm_append_comm.append_left _
    List.Perm _ (orders.flatMap executions ++ executions order) := by
      rw [← List.append_assoc]
      exact (horders.flatMap_right executions).symm.append_right _

variable {s : PaperBrokerAdapter} {past : List Execution}

theorem Kept.submitOrder (h : s.Kept past) (req : BrokerOrderRequest) (tag : Option String) (paper : Bool)
    (now : Number) : (s.submitOrder req tag paper now).Kept past := by
  rw [PaperBrokerAdapter.submitOrder]
  cases assertBoundedLimit req none with
  | error _ => exact h
  | ok _ =>
    by_cases hrefused : paper = false ∨ req.clientOrderId ∈ s.orders.map BrokerOrder.clientOrderId
    · simpa only [if_pos hrefused] using h
    · have hnew : req.clientOrderId ∉ s.orders.map BrokerOrder.clientOrderId := fun hmem => hrefused (.inr hmem)
      simp only [if_neg hrefused]
      generalize hnext : { fromRequest req tag now with state := .submitting } = next
      have hid : next.clientOrderId = req.clientOrderId := by rw [← hnext]; rfl
      have hfills : next.fills = [] := by rw [← hnext]; rfl
      refine ⟨Keyed.nodup_put h.unique _, ?_, ?_, ?_, ?_, h.priced⟩
      · simp only [List.map_append, List.map_cons, List.map_nil]
        refine List.Nodup.append h.pending (List.nodup_singleton _) ?_
        rintro id hid hone
        obtain ⟨r, hr, rfl⟩ := List.mem_map.mp hid
        exact hnew (List.mem_singleton.mp hone ▸ h.known r hr)
      · intro r hr
        rw [Keyed.mem_map_put]
        rcases List.mem_append.mp hr with hr | hr
        · exact .inr (h.known r hr)
        · rw [List.mem_singleton.mp hr]
          exact .inl hid.symm
      · intro r hr order horder horderId
        rcases Keyed.mem_put_ne horder with rfl | ⟨horder, hne⟩
        · exact hfills
        · rcases List.mem_append.mp hr with hr | hr
          · exact h.unfilled r hr order horder horderId
          · rw [List.mem_singleton.mp hr] at horderId
            exact absurd (horderId.trans hid.symm) hne
      · rw [← hid] at hnew
        simp only [Keyed.put, if_neg hnew, List.flatMap_append, List.flatMap_singleton, executions, hfills, List.map_nil,
          List.append_nil]
        exact h.fills

theorem Kept.cancelOrder (h : s.Kept past) (clientOrderId : String) (now : Number) :
    (s.cancelOrder clientOrderId now).Kept past := by
  rw [PaperBrokerAdapter.cancelOrder]
  cases hfound : s.orders.find? fun o => o.clientOrderId = clientOrderId with
  | none => exact h
  | some current =>
    by_cases hterminal : isBrokerOrderTerminal current.state = true
    · simpa only [if_pos hterminal] using h
    · simp only [if_neg hterminal]
      have hmem := List.mem_of_find?_eq_some hfound
      generalize hnext : { current with state := .cancelRequested, updatedAt := now } = next
      have hid : current.clientOrderId = next.clientOrderId := by rw [← hnext]
      have hfills : next.fills = current.fills := by rw [← hnext]
      have hexecutions : executions current = executions next := by rw [← hnext]; rfl
      refine ⟨Keyed.nodup_put h.unique _, h.pending, fun r hr => ?_, ?_, ?_, h.priced⟩
      · exact Keyed.mem_map_put.mpr (.inr (h.known r hr))
      · intro r hr order horder horderId
        rcases Keyed.mem_put horder with rfl | horder
        · exact hfills.trans (h.unfilled r hr current hmem (hid.trans horderId))
        · exact h.unfilled r hr order horder horderId
      · have hput := executions_put h.unique hmem hid
        rw [hexecutions, List.perm_append_right_iff] at hput
        exact hput.trans h.fills

theorem priced_leg (req : BrokerOrderRequest) (tag : Option String) (leg : PaperLeg) (now : Number) :
    ∀ e ∈ executions (paperLegToBroker req tag leg now), Priced e.fill := by
  intro e he
  obtain ⟨fill, hfill, rfl⟩ := List.mem_map.mp he
  obtain ⟨i, hi, rfl⟩ := List.mem_mapIdx.mp hfill
  exact ⟨_, _, rfl, rfl⟩

theorem Kept.executed (h : s.Kept past) (clientOrderId : String) (leg : Option PaperLeg) (now : Number) :
    (s.executed clientOrderId leg now).1.Kept (past ++ (s.executed clientOrderId leg now).2) := by
  rw [PaperBrokerAdapter.executed]
  cases htake : Keyed.take? (fun r => r.1.clientOrderId) clientOrderId s.running with
  | none => simpa using h
  | some taken =>
    obtain ⟨⟨req, tag⟩, running⟩ := taken
    have hperm := Keyed.take?_perm htake
    have hpending := (hperm.map fun r => r.1.clientOrderId).nodup_iff.mp h.pending
    rw [List.map_cons, List.nodup_cons] at hpending
    have hold : ∀ r ∈ running, r ∈ s.running := fun r hr => hperm.mem_iff.mpr (.tail _ hr)
    have hmem : (req, tag) ∈ s.running := hperm.mem_iff.mpr List.mem_cons_self
    cases leg with
    | none =>
      simp only [List.append_nil]
      exact ⟨h.unique, hpending.2, fun r hr => h.known r (hold r hr), fun r hr => h.unfilled r (hold r hr), h.fills,
        h.priced⟩
    | some leg =>
      obtain ⟨current, hcurrent, hid⟩ := List.mem_map.mp (h.known _ hmem)
      have hunfilled := h.unfilled _ hmem current hcurrent hid
      refine ⟨Keyed.nodup_put h.unique _, hpending.2, fun r hr => ?_, ?_, ?_, ?_⟩
      · exact Keyed.mem_map_put.mpr (.inr (h.known r (hold r hr)))
      · intro r hr order horder horderId
        rcases Keyed.mem_put horder with rfl | horder
        · exact absurd (List.mem_map.mpr ⟨r, hr, horderId.symm⟩) hpending.1
        · exact h.unfilled r (hold r hr) order horder horderId
      · have hput := @executions_put _ h.unique (paperLegToBroker req tag leg now) _ hcurrent hid
        have hnone : executions current = [] := by simp [executions, hunfilled]
        rw [hnone, List.append_nil] at hput
        exact hput.trans (h.fills.append_right _)
      · intro e he
        rcases List.mem_append.mp he with he | he
        · exact h.priced e he
        · exact priced_leg _ _ _ _ e he

theorem Kept.run (h : s.Kept past) (events : List PaperEvent) :
    (Run.finish step s events).Kept (past ++ (Run.answers step s events).flatten) := by
  induction events generalizing s past with
  | nil => simpa using h
  | cons event rest ih =>
    rw [Run.finish_cons, Run.answers_cons, List.flatten_cons, ← List.append_assoc]
    refine ih ?_
    cases event with
    | submit req tag paper now => simpa [step] using h.submitOrder req tag paper now
    | executed clientOrderId leg now => exact h.executed clientOrderId leg now
    | cancel clientOrderId now => simpa [step] using h.cancelOrder clientOrderId now

end PaperBrokerAdapter

/-! ## Positions after a run -/

theorem map_sortedFills : ((sortedFills localeCompare orders).map execution).Perm (orders.flatMap executions) := by
  refine ((List.perm_insertionSort _ _).map execution).trans (.of_eq ?_)
  rw [List.map_flatMap]
  refine congrArg (List.flatMap · orders) (funext fun order => ?_)
  exact List.map_map

theorem quantity_trades {l l' : List Execution} (h : l.Perm l') (contract : String) :
    CostBasis.quantity (trades contract l) = CostBasis.quantity (trades contract l') :=
  (((h.filter _).map _).map _).sum_eq

variable {positions : List BrokerPosition} {past : List Execution}
variable {p : BrokerPosition}

theorem Booked.of_mem (h : Booked positions past) (hp : p ∈ positions) : Holds p (CostBasis.lots (trades p.key past)) :=
  h.holds _ p (Keyed.find?_of_mem h.nodup hp)

theorem Booked.exists_of_ne_zero (h : Booked positions past) {contract : String}
    (hne : CostBasis.quantity (trades contract past) ≠ 0) : ∃ p ∈ positions, p.key = contract := by
  cases hfound : positions.find? fun p => p.key = contract with
  | none =>
    rw [h.none contract hfound] at hne
    exact absurd rfl hne
  | some p => exact ⟨p, List.mem_of_find?_eq_some hfound, by simpa using List.find?_some hfound⟩

variable {l : List (CostBasis.Trade ℚ)}

theorem Holds.net (h : Holds p (CostBasis.lots l)) : p.netQuantity = .fin (CostBasis.quantity l) := by
  rw [h.1, CostBasis.quantity_lots]

theorem Holds.average (h : Holds p (CostBasis.lots l)) (hne : p.netQuantity ≠ .fin 0) :
    p.averagePrice = .fin (CostBasis.basis l) := by
  obtain ⟨hnet, average, haverage, hcost⟩ := h
  have hq : CostBasis.quantity (CostBasis.lots l) ≠ 0 := by simpa [hnet] using hne
  rw [haverage, CostBasis.basis, ← hcost, mul_div_cancel_left₀ _ hq]

theorem PaperBrokerAdapter.Kept.listPositions {s : PaperBrokerAdapter} {executions : List Execution}
    (h : s.Kept executions) (localeCompare : String → String → Bool) :
    ((s.listPositions localeCompare).map BrokerPosition.key).Nodup ∧
      (∀ contract, contract ∈ (s.listPositions localeCompare).map BrokerPosition.key ↔
        CostBasis.quantity (trades contract executions) ≠ 0) ∧
      ∃ ordered : List Execution, ordered.Perm executions ∧
        ((∀ e ∈ executions, e.fill.at.isFinite = true) → ordered.Pairwise fun a b => a.fill.at.value ≤ b.fill.at.value) ∧
        ∀ p ∈ s.listPositions localeCompare,
          p.netQuantity = .fin (CostBasis.quantity (trades p.key executions)) ∧
          p.averagePrice = .fin (CostBasis.basis (trades p.key ordered)) ∧
          CostBasis.OneSided (CostBasis.lots (trades p.key ordered)) := by
  have hordered := (map_sortedFills localeCompare s.orders).trans h.fills
  have hbooked := Booked.nil.foldl (sortedFills localeCompare s.orders) fun entry hentry =>
    h.priced (execution entry) (hordered.mem_iff.mp (List.mem_map_of_mem hentry))
  rw [List.nil_append] at hbooked
  have hmem : ∀ p, p ∈ s.listPositions localeCompare ↔
      p ∈ (sortedFills localeCompare s.orders).foldl bookInto [] ∧ p.netQuantity ≠ .fin 0 := by
    intro p
    simp [PaperBrokerAdapter.listPositions]
  refine ⟨hbooked.nodup.sublist (List.filter_sublist.map _), fun contract => ?_, _, hordered, fun hfinite => ?_,
    fun p hp => ?_⟩
  · rw [← quantity_trades hordered]
    constructor
    · intro hcontract
      obtain ⟨p, hp, rfl⟩ := List.mem_map.mp hcontract
      obtain ⟨hp, hne⟩ := (hmem p).mp hp
      simpa [(hbooked.of_mem hp).net] using hne
    · intro hne
      obtain ⟨p, hp, rfl⟩ := hbooked.exists_of_ne_zero hne
      exact List.mem_map_of_mem ((hmem p).mpr ⟨hp, by simpa [(hbooked.of_mem hp).net] using hne⟩)
  · refine (List.pairwise_map).mpr (sortedFills_pairwise localeCompare s.orders fun order horder fill hfill => ?_)
    exact hfinite _ (h.fills.mem_iff.mp (List.mem_flatMap.mpr ⟨order, horder, List.mem_map_of_mem hfill⟩))
  · obtain ⟨hp, hne⟩ := (hmem p).mp hp
    rw [← quantity_trades hordered]
    exact ⟨(hbooked.of_mem hp).net, (hbooked.of_mem hp).average hne, CostBasis.lots_oneSided _⟩

/-- One position for each contract whose executions do not sum up to zero: that sum, at the mean price of the lots
they leave open. -/
theorem paper_positions (localeCompare : String → String → Bool) (events : List PaperEvent) :
    let executions := (Run.answers PaperBrokerAdapter.step {} events).flatten
    let positions := (Run.finish PaperBrokerAdapter.step {} events).listPositions localeCompare
    (positions.map BrokerPosition.key).Nodup ∧
      (∀ contract, contract ∈ positions.map BrokerPosition.key ↔ CostBasis.quantity (trades contract executions) ≠ 0) ∧
      ∃ ordered : List Execution, ordered.Perm executions ∧
        ((∀ e ∈ executions, e.fill.at.isFinite = true) → ordered.Pairwise fun a b => a.fill.at.value ≤ b.fill.at.value) ∧
        ∀ p ∈ positions,
          p.netQuantity = .fin (CostBasis.quantity (trades p.key executions)) ∧
          p.averagePrice = .fin (CostBasis.basis (trades p.key ordered)) ∧
          CostBasis.OneSided (CostBasis.lots (trades p.key ordered)) := by
  have hinit : PaperBrokerAdapter.Kept {} [] := ⟨.nil, .nil, by simp, by simp, .nil, by simp⟩
  exact (hinit.run events).listPositions localeCompare

end BoxEngine.PaperAdapter
