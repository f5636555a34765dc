import BoxEngine.FillLedger
import BoxEngine.LedgerSound
import BoxEngine.Lib.Keyed
import BoxEngine.Order

/-!
# The overfill tripwire

Every snapshot goes through a second fill ledger, which trips the breaker when more is filled than was asked for.
-/

namespace BoxEngine

open Js

/-! ## The cache -/

structure CacheEntry (V : Type*) where
  key : String
  «at» : Number
  value : V

structure BoundedTtlCache (V : Type*) where
  ttlMs : Number
  maxEntries : ℕ
  entries : List (CacheEntry V)

structure CacheClock where
  atGet : Number
  atSet : Number
  atEvict : Number

namespace BoundedTtlCache

variable {V : Type*}

def new (ttlMs : Number) (maxEntries : ℕ) : BoundedTtlCache V := ⟨ttlMs, max 1 maxEntries, []⟩

variable (cache : BoundedTtlCache V)
variable (key : String)

def delete : BoundedTtlCache V :=
  { cache with entries := cache.entries.filter fun entry => entry.key ≠ key }

def get (now : Number) : BoundedTtlCache V × Option V :=
  match cache.entries.find? fun entry => entry.key = key with
  | none => (cache, none)
  | some hit => if cache.ttlMs ≤ now.sub hit.at then (cache.delete key, none) else (cache, some hit.value)

def evict (now : Number) : BoundedTtlCache V :=
  let live := cache.entries.filter fun entry => ¬entry.at ≤ now.sub cache.ttlMs
  { cache with entries := live.drop (live.length - cache.maxEntries) }

def set (value : V) (clock : CacheClock) : BoundedTtlCache V :=
  evict { cache with entries := (cache.delete key).entries ++ [⟨key, clock.atSet, value⟩] } clock.atEvict

def mutate (value : V) : BoundedTtlCache V :=
  { cache with entries := cache.entries.map fun entry => if entry.key = key then { entry with value } else entry }

end BoundedTtlCache

abbrev TripwireLedgers := BoundedTtlCache CumulativeFillLedger

def BrokerOrder.tripwireEvent (order : BrokerOrder) : CumulativeFillEvent :=
  { cumulativeQty := order.filledQuantity
    averagePrice := order.averagePrice
    eventId := order.fills.getLast?.map BrokerFill.fillId
    sequence := none
    observedAtMono := none
    observedAtWall := some order.updatedAt
    source := .restPoll }

variable (ledgers : TripwireLedgers)

def tripwireLedger (order : BrokerOrder) (clock : CacheClock) : TripwireLedgers × CumulativeFillLedger :=
  match ledgers.get order.clientOrderId clock.atGet with
  | (ledgers, some ledger) => (ledgers, ledger)
  | (ledgers, none) =>
    let ledger := .new order.clientOrderId order.quantity
    (ledgers.set order.clientOrderId ledger clock, ledger)

def checkOverfillTripwire (order : BrokerOrder) (clock : CacheClock) : TripwireLedgers × Option String :=
  let (ledgers, ledger) := tripwireLedger ledgers order clock
  let (ledger, result) := ledger.apply order.tripwireEvent
  (ledgers.mutate order.clientOrderId ledger,
    if result.outcome = .appliedOverfill then
      some (s!"broker reported {result.cumulative} filled for {order.clientOrderId}, " ++
        s!"exceeding the {ledger.requested} requested")
    else none)

def overfillTripwireLedgers : TripwireLedgers := .new (.fin (60 * 60000)) 512

namespace CumulativeFillLedger

variable {l : CumulativeFillLedger} {e : CumulativeFillEvent}

theorem apply_overfill : (l.apply e).2.outcome = .appliedOverfill ↔
    ∃ observed, wholeQuantity e.cumulativeQty = some observed ∧ ¬l.Seen e ∧ l.cumulativeQty < observed ∧
      l.requested < observed := by
  unfold apply
  cases hq : wholeQuantity e.cumulativeQty with
  | none => simp [result]
  | some observed =>
    by_cases hseen : l.Seen e
    · have hdup : trimKey e.eventId ≠ "" ∧ trimKey e.eventId ∈ l.seenEventIds := hseen
      simp only [if_pos hdup]
      simp [result, hseen]
    · have hdup : ¬(trimKey e.eventId ≠ "" ∧ trimKey e.eventId ∈ l.seenEventIds) := hseen
      have hnoted := noted_noteSequence l (trimKey e.eventId) e.sequence
      simp only [if_neg hdup]
      generalize (l.remember (trimKey e.eventId)).noteSequence e.sequence = p at hnoted ⊢
      obtain ⟨noted, regression⟩ := p
      have hcumulative : noted.cumulativeQty = l.cumulativeQty := hnoted.cumulativeQty
      have hrequested : noted.requested = l.requested := hnoted.requested
      by_cases hle : observed ≤ noted.cumulativeQty
      · simp only [if_pos hle]
        simp [result]
        omega
      · simp only [if_neg hle]
        have hlt : l.cumulativeQty < observed := hcumulative ▸ not_le.mp hle
        simp [result, advance, hrequested, hseen, hlt]

theorem apply_within (hwithin : l.cumulativeQty ≤ l.requested) (happlied : (l.apply e).2.outcome ≠ .appliedOverfill) :
    (l.apply e).1.cumulativeQty ≤ (l.apply e).1.requested := by
  obtain ⟨-, happ⟩ |
    ⟨observed, hobserved, ⟨-, l', hn, happ⟩ | ⟨-, -, l', _, hn, happ⟩ | ⟨hseen, hlt, noted, _, _, hn, -, happ⟩⟩ :=
    apply_cases l e
  · rw [happ]
    exact hwithin
  · rw [happ, hn.cumulativeQty, hn.requested]
    exact hwithin
  · rw [happ, hn.cumulativeQty, hn.requested]
    exact hwithin
  · rw [happ]
    change observed ≤ noted.requested
    rw [hn.requested]
    by_contra hover
    exact happlied (apply_overfill.mpr ⟨observed, hobserved, hseen, hlt, not_le.mp hover⟩)

end CumulativeFillLedger

/-! ## The ledgers of an order -/

def Within (id : String) : Prop :=
  ∀ entry ∈ ledgers.entries, entry.key = id → entry.value.cumulativeQty ≤ entry.value.requested

variable {ledgers : TripwireLedgers} {order : BrokerOrder} {clock : CacheClock} {id : String}

theorem mem_tripwireLedger {entry : CacheEntry CumulativeFillLedger}
    (hentry : entry ∈ (tripwireLedger ledgers order clock).1.entries) :
    entry ∈ ledgers.entries ∨ entry = ⟨order.clientOrderId, clock.atSet, .new order.clientOrderId order.quantity⟩ := by
  have hget : ∀ entry ∈ (ledgers.get order.clientOrderId clock.atGet).1.entries, entry ∈ ledgers.entries := by
    intro entry hentry
    unfold BoundedTtlCache.get at hentry
    split at hentry
    · exact hentry
    · split at hentry
      · exact List.mem_of_mem_filter hentry
      · exact hentry
  unfold tripwireLedger at hentry
  cases hheld : ledgers.get order.clientOrderId clock.atGet with
  | mk ledgers' held =>
    rw [hheld] at hentry hget
    cases held with
    | some ledger => exact .inl (hget entry hentry)
    | none =>
      have hset := List.mem_of_mem_filter (List.mem_of_mem_drop hentry)
      rcases List.mem_append.mp hset with hkept | hnew
      · exact .inl (hget entry (List.mem_of_mem_filter hkept))
      · exact .inr (List.mem_singleton.mp hnew)

theorem tripwireLedger_within (h : Within ledgers order.clientOrderId) :
    (tripwireLedger ledgers order clock).2.cumulativeQty ≤ (tripwireLedger ledgers order clock).2.requested := by
  have hget : ∀ ledger, (ledgers.get order.clientOrderId clock.atGet).2 = some ledger →
      ledger.cumulativeQty ≤ ledger.requested := by
    intro ledger hledger
    unfold BoundedTtlCache.get at hledger
    split at hledger
    · cases hledger
    · rename_i hit hfind
      split at hledger
      · cases hledger
      · cases hledger
        exact h hit (List.mem_of_find?_eq_some hfind) (by simpa using List.find?_some hfind)
  unfold tripwireLedger
  cases hheld : ledgers.get order.clientOrderId clock.atGet with
  | mk ledgers' held =>
    rw [hheld] at hget
    cases held with
    | some ledger => exact hget ledger rfl
    | none => exact Nat.zero_le _

theorem check_trips : (checkOverfillTripwire ledgers order clock).2.isSome = true ↔
    ((tripwireLedger ledgers order clock).2.apply order.tripwireEvent).2.outcome = .appliedOverfill := by
  unfold checkOverfillTripwire
  dsimp only
  split
  · rename_i happlied
    exact iff_of_true rfl happlied
  · rename_i happlied
    exact iff_of_false (by simp) happlied

theorem check_within (h : Within ledgers id)
    (hquiet : order.clientOrderId = id → (checkOverfillTripwire ledgers order clock).2 = none) :
    Within (checkOverfillTripwire ledgers order clock).1 id := by
  intro entry hentry hkey
  obtain ⟨before, hbefore, rfl⟩ := List.mem_map.mp hentry
  dsimp only at hkey ⊢
  split at hkey
  · rename_i hown
    rw [if_pos hown]
    have hid : order.clientOrderId = id := hown.symm.trans hkey
    have hnone := hquiet hid
    refine CumulativeFillLedger.apply_within (tripwireLedger_within (hid ▸ h)) fun happlied => ?_
    rw [← Option.not_isSome_iff_eq_none] at hnone
    exact hnone (check_trips.mpr happlied)
  · rename_i hother
    rw [if_neg hother]
    rcases mem_tripwireLedger hbefore with hold | rfl
    · exact h before hold hkey
    · exact absurd rfl hother

/-! ## Runs -/

structure TripwireCheck where
  order : BrokerOrder
  clock : CacheClock

structure TripwireWatch where
  ledgers : TripwireLedgers
  snapshots : List BrokerOrder
  tripped : Bool

namespace TripwireWatch

def new : TripwireWatch := ⟨overfillTripwireLedgers, [], false⟩

def step (id : String) (w : TripwireWatch) (check : TripwireCheck) : TripwireWatch × Unit :=
  let (ledgers, message) := checkOverfillTripwire w.ledgers check.order check.clock
  (if check.order.clientOrderId = id then ⟨ledgers, w.snapshots ++ [check.order], w.tripped || message.isSome⟩
    else { w with ledgers }, ())

variable (w : TripwireWatch)

def firstQuantity (order : BrokerOrder) : Number := (w.snapshots.head?.getD order).quantity

def Exceeded : Prop :=
  ∃ first ∈ w.snapshots.head?, ∃ order ∈ w.snapshots, first.quantity < order.filledQuantity

def Counts (check : TripwireCheck) : Prop :=
  let ledger := (tripwireLedger w.ledgers check.order check.clock).2
  ¬ledger.Seen check.order.tripwireEvent ∧
    ∃ observed, wholeQuantity check.order.filledQuantity = some observed ∧ ledger.requested < observed

/-- Until the order has tripped, its snapshots over the first quantity are those that count. -/
def Tells (id : String) (w : TripwireWatch) (check : TripwireCheck) : Prop :=
  check.order.clientOrderId = id → w.tripped = false →
    (w.firstQuantity check.order < check.order.filledQuantity ↔ w.Counts check)

variable {w : TripwireWatch} {check : TripwireCheck}

theorem exceeded_snoc (order : BrokerOrder) (ledgers : TripwireLedgers) (tripped : Bool) :
    Exceeded ⟨ledgers, w.snapshots ++ [order], tripped⟩ ↔
      w.Exceeded ∨ w.firstQuantity order < order.filledQuantity := by
  unfold Exceeded firstQuantity
  cases hsnapshots : w.snapshots with
  | nil => simp
  | cons first rest => simp [or_and_right, exists_or, or_assoc]

theorem trips_iff_counts (h : Within w.ledgers check.order.clientOrderId) :
    (checkOverfillTripwire w.ledgers check.order check.clock).2.isSome = true ↔ w.Counts check := by
  rw [check_trips, CumulativeFillLedger.apply_overfill]
  have hwithin := @tripwireLedger_within _ _ check.clock h
  constructor
  · rintro ⟨observed, hobserved, hseen, -, hover⟩
    exact ⟨hseen, observed, hobserved, hover⟩
  · rintro ⟨hseen, observed, hobserved, hover⟩
    exact ⟨observed, hobserved, hseen, hwithin.trans_lt hover, hover⟩

theorem step_within (h : w.tripped = false → Within w.ledgers id) :
    (step id w check).1.tripped = false → Within (step id w check).1.ledgers id := by
  unfold step
  dsimp only
  split
  · rename_i hid
    intro hquiet
    rw [Bool.or_eq_false_iff, Option.isSome_eq_false_iff, Option.isNone_iff_eq_none] at hquiet
    exact check_within (h hquiet.1) fun _ => hquiet.2
  · rename_i hother
    exact fun hquiet => check_within (h hquiet) fun hid => absurd hid hother

theorem step_told (hwithin : w.tripped = false → Within w.ledgers id) (h : w.tripped = true ↔ w.Exceeded) :
    ((step id w check).1.tripped = true ↔ (step id w check).1.Exceeded) ↔ Tells id w check := by
  unfold step Tells
  dsimp only
  split
  · rename_i hid
    rw [exceeded_snoc, ← h]
    cases htripped : w.tripped with
    | true => simp
    | false =>
      have htrips := @trips_iff_counts _ check (hid ▸ hwithin htripped)
      simp only [Bool.false_or, htrips, Bool.false_eq_true, false_or, hid, true_implies]
      exact Iff.comm
  · rename_i hother
    exact iff_of_true h fun hid => absurd hid hother

end TripwireWatch

/-- Tripped exactly when a snapshot has been over the first quantity, exactly when the snapshots tell. -/
theorem tripwire_told (id : String) (checks : List TripwireCheck) :
    (∀ before, before <+: checks →
      ((Run.finish (TripwireWatch.step id) .new before).tripped = true ↔
        (Run.finish (TripwireWatch.step id) .new before).Exceeded)) ↔
      Run.Guarded (TripwireWatch.step id) (TripwireWatch.Tells id) .new checks :=
  Run.forall_prefix_iff (P := fun w : TripwireWatch => w.tripped = true ↔ w.Exceeded)
    (I := fun w : TripwireWatch => w.tripped = false → Within w.ledgers id)
    (fun _ _ h => TripwireWatch.step_within h) (fun _ _ hwithin h => TripwireWatch.step_told hwithin h)
    (by simp [TripwireWatch.new, Within, overfillTripwireLedgers, BoundedTtlCache.new])
    (by simp [TripwireWatch.new, TripwireWatch.Exceeded]) checks

def lateFill (filled : ℚ) : BrokerOrder :=
  { legOrder .partiallyFilled 10 filled (some (.fin 100)) with fills := [⟨"T1", .fin 5, some (.fin 100), .fin 1⟩] }

def laggingBook : List TripwireCheck :=
  [⟨lateFill 5, ⟨.fin 1, .fin 1, .fin 1⟩⟩, ⟨lateFill 15, ⟨.fin 2, .fin 2, .fin 2⟩⟩]

theorem tripwire_missed :
    (Run.finish (TripwireWatch.step "C1") .new laggingBook).tripped = false ∧
      (Run.finish (TripwireWatch.step "C1") .new laggingBook).Exceeded := by
  have hsnapshots : (Run.finish (TripwireWatch.step "C1") .new laggingBook).snapshots = [lateFill 5, lateFill 15] := by
    decide +kernel
  constructor
  · decide +kernel
  · unfold TripwireWatch.Exceeded
    rw [hsnapshots]
    exact ⟨lateFill 5, rfl, lateFill 15, by simp, by decide +kernel⟩

end BoxEngine
