import BoxEngine.ResidualLoop

/-!
# Funds semantics

What a broker's available figure means: net of what is blocked, gross of it, or not verified, which is read as gross.
The figure is chosen first, its netting judged after.
-/

namespace BoxEngine

open Js

/-- Whether a broker's figure is net of what is blocked. -/
inductive AvailableFundsSemantics where
  | netOfEncumbrance | grossOfEncumbrance | unverified
  deriving DecidableEq

structure BrokerFundsSemantics where
  availableIsNetOfEncumbrance : AvailableFundsSemantics
  availableField : String
  utilisedField : String

def BROKER_FUNDS_SEMANTICS : BrokerId → BrokerFundsSemantics
  | .zerodha => ⟨.netOfEncumbrance, "available.live_balance", "utilised.debits"⟩
  | .dhan => ⟨.unverified, "availabelBalance", "utilizedAmount"⟩

abbrev FundsComponents := String → Option Number

inductive FundsBasis where
  | liveBalance | net | liveBalancePlusCollateral
  deriving DecidableEq

def FundsBasis.label : FundsBasis → String
  | .liveBalance => "live_balance"
  | .net => "net"
  | .liveBalancePlusCollateral => "live_balance_plus_collateral"

def FUNDS_COMPONENT_NET : String := "net"
def FUNDS_COMPONENT_LIVE_BALANCE : String := "available.live_balance"
def FUNDS_COMPONENT_COLLATERAL : String := "available.collateral"

def component (components : Option FundsComponents) (key : String) : Option Number :=
  (components.bind fun fields => fields key).filter Number.isFinite

structure ResolvedAvailable where
  value : Option Number
  detail : String
  satisfied : Bool

/-- The figure of a basis, from the components a broker sent. -/
def resolveAvailableForBasis (basis : FundsBasis) (components : Option FundsComponents)
    (availableRupees : Option Number) : ResolvedAvailable :=
  let live := (component components FUNDS_COMPONENT_LIVE_BALANCE).or availableRupees
  match basis with
  | .liveBalance => ⟨live, FUNDS_COMPONENT_LIVE_BALANCE, live.isSome⟩
  | .net =>
    match component components FUNDS_COMPONENT_NET with
    | some net => ⟨some net, "net (the segment's own bottom line)", true⟩
    | none =>
      ⟨availableRupees,
        s!"BOX_ZERODHA_FUNDS_BASIS=net was requested but 'net' was not reported, so " ++
          s!"{FUNDS_COMPONENT_LIVE_BALANCE} is used instead", false⟩
  | .liveBalancePlusCollateral =>
    match live, component components FUNDS_COMPONENT_COLLATERAL with
    | none, _ => ⟨none, s!"{FUNDS_COMPONENT_LIVE_BALANCE} was not reported, so no figure can be formed", false⟩
    | some live, none =>
      ⟨some live,
        s!"BOX_ZERODHA_FUNDS_BASIS=live_balance_plus_collateral was requested but " ++
          s!"{FUNDS_COMPONENT_COLLATERAL} was not reported, so {FUNDS_COMPONENT_LIVE_BALANCE} " ++
          "alone is used — the conservative outcome", false⟩
    | some live, some collateral =>
      ⟨some (live.add collateral),
        s!"{FUNDS_COMPONENT_LIVE_BALANCE} ₹{live.toText} plus {FUNDS_COMPONENT_COLLATERAL} " ++
          s!"₹{collateral.toText} (operator-selected basis; verify the broker does not already include " ++
          "collateral in live_balance, or this OVERSTATES spendable funds)", true⟩

def knownBrokerFundsSemantics : Option String → Option BrokerFundsSemantics
  | some "zerodha" => some (BROKER_FUNDS_SEMANTICS .zerodha)
  | some "dhan" => some (BROKER_FUNDS_SEMANTICS .dhan)
  | _ => none

structure UsableFundsVerdict where
  valueRupees : Option ℚ
  basis : String
  semanticsUnverified : Bool
  encumbranceMissing : Bool
  encumbranceNettedFromAvailable : Bool

def finiteFigure : Option Number → Option ℚ
  | some (.fin q) => some q
  | _ => none

def rupeeText (q : ℚ) : String := (Number.fin q).toText

/-- An unknown broker or figure gives no usable funds; a gross figure is netted here. -/
def usableFundsRupees (broker : Option String) (availableRupees utilisedRupees : Option Number)
    (components : Option FundsComponents) (basis : FundsBasis) : UsableFundsVerdict :=
  match knownBrokerFundsSemantics broker with
  | none =>
    let named := broker.getD "unknown"
    ⟨none,
      s!"funds semantics are not declared for broker '{named}', so spendable " ++
        "funds cannot be established; applying another broker's semantics would be a guess about money",
      true, utilisedRupees.isNone, false⟩
  | some semantics =>
    let resolved := resolveAvailableForBasis basis components availableRupees
    let name := broker.getD ""
    let basisPrefix := if basis = .liveBalance then "" else s!"[basis={basis.label}] "
    match finiteFigure resolved.value with
    | none =>
      ⟨none, s!"{basisPrefix}{name}: no available-funds figure was supplied ({resolved.detail})",
        semantics.availableIsNetOfEncumbrance = .unverified, utilisedRupees.isNone, false⟩
    | some available =>
      match semantics.availableIsNetOfEncumbrance, finiteFigure utilisedRupees with
      | .netOfEncumbrance, utilised =>
        ⟨some available,
          s!"{basisPrefix}{name}: ₹{rupeeText available} from {resolved.detail}, documented as " ++
            s!"already net of encumbrances, so {semantics.utilisedField} is NOT subtracted again" ++
            (match utilised with
            | some figure => s!" ({semantics.utilisedField} ₹{rupeeText figure} corroborates it)"
            | none =>
              s!"; but {semantics.utilisedField} was NOT reported, so the already-net claim cannot " ++
                "be corroborated and the encumbrance stays a required UNKNOWN component of the " ++
                "funding requirement"),
          false, utilised.isNone, utilised.isSome⟩
      | .grossOfEncumbrance, none =>
        ⟨none,
          s!"{name}: {semantics.availableField} is gross of encumbrances but " ++
            s!"{semantics.utilisedField} was not supplied, so spendable funds cannot be established",
          false, true, false⟩
      | .grossOfEncumbrance, some utilised =>
        ⟨some (available - utilised),
          s!"{name}: {semantics.availableField} ₹{rupeeText available} less " ++
            s!"{semantics.utilisedField} ₹{rupeeText utilised}",
          false, false, true⟩
      | .unverified, none =>
        ⟨none,
          s!"{name}: funds semantics are NOT VERIFIED and {semantics.utilisedField} was " ++
            "not supplied, so spendable funds cannot be established conservatively",
          true, true, false⟩
      -- the reading that can only understate the funds
      | .unverified, some utilised =>
        ⟨some (available - utilised),
          s!"{name}: funds semantics are NOT VERIFIED, so the CONSERVATIVE reading is used — " ++
            s!"{semantics.availableField} ₹{rupeeText available} less {semantics.utilisedField} " ++
            s!"₹{rupeeText utilised}. If {semantics.availableField} is in fact already net, this UNDERSTATES " ++
            "spendable funds (refusing affordable entries) rather than overstating them. Resolve with a deployed " ++
            "read-only funds read; see docs/BROKER_LIMITS.md.",
          true, false, true⟩

/-! ## Raising a figure -/

/-- A figure that is unchanged, or a finite one that another finite one is not below. -/
def Raised (before after : Option Number) : Prop :=
  after = before ∨ ∃ x y : ℚ, before = some (.fin x) ∧ after = some (.fin y) ∧ x ≤ y

variable {a a' b b' : Option Number}

theorem Raised.isSome (h : Raised a a') : a'.isSome = a.isSome := by
  obtain rfl | ⟨x, y, rfl, rfl, -⟩ := h <;> rfl

theorem Raised.orElse (ha : Raised a a') (hb : Raised b b') : Raised (a.or b) (a'.or b') := by
  cases a with
  | none =>
    have : a' = none := by simpa using ha.isSome
    simpa [this] using hb
  | some x =>
    obtain ⟨y, rfl⟩ := Option.isSome_iff_exists.mp (by simpa using ha.isSome : a'.isSome = true)
    simpa using ha

theorem Raised.known (h : Raised a a') {x : ℚ} (hx : finiteFigure a = some x) :
    ∃ y, finiteFigure a' = some y ∧ x ≤ y := by
  obtain rfl | ⟨x', y, rfl, rfl, hle⟩ := h
  · exact ⟨x, hx, le_rfl⟩
  · obtain rfl : x' = x := by simpa [finiteFigure] using hx
    exact ⟨y, rfl, hle⟩

theorem raised_fin {x y : ℚ} (h : x ≤ y) : Raised (some (.fin x)) (some (.fin y)) := .inr ⟨x, y, rfl, rfl, h⟩

theorem Raised.add {x x' y y' : Number} (hx : Raised (some x) (some x')) (hy : Raised (some y) (some y')) :
    Raised (some (x.add y)) (some (x'.add y')) := by
  obtain hx | ⟨p, q, hp, hq, hpq⟩ := hx
  · obtain rfl := Option.some.inj hx
    obtain hy | ⟨r, t, hr, ht, hrt⟩ := hy
    · exact .inl (by rw [Option.some.inj hy])
    · obtain rfl := Option.some.inj hr
      obtain rfl := Option.some.inj ht
      cases x' with
      | fin p => simpa only [Number.add_fin] using raised_fin (add_le_add_right hrt p)
      | _ => exact .inl rfl
  · obtain rfl := Option.some.inj hp
    obtain rfl := Option.some.inj hq
    obtain hy | ⟨r, t, hr, ht, hrt⟩ := hy
    · obtain rfl := Option.some.inj hy
      cases y' with
      | fin r => simpa only [Number.add_fin] using raised_fin (add_le_add_left hpq r)
      | _ => exact .inl rfl
    · obtain rfl := Option.some.inj hr
      obtain rfl := Option.some.inj ht
      simpa only [Number.add_fin] using raised_fin (add_le_add hpq hrt)

section

variable {basis : FundsBasis} {components components' : Option FundsComponents}
variable {available available' utilised : Option Number} {broker : Option String}

theorem resolveAvailableForBasis_plusCollateral :
    (resolveAvailableForBasis .liveBalancePlusCollateral components available).value =
      ((component components FUNDS_COMPONENT_LIVE_BALANCE).or available).map fun live =>
        ((component components FUNDS_COMPONENT_COLLATERAL).map live.add).getD live := by
  simp only [resolveAvailableForBasis]
  cases (component components FUNDS_COMPONENT_LIVE_BALANCE).or available <;>
    cases component components FUNDS_COMPONENT_COLLATERAL <;> rfl

theorem Raised.plus {l l' : Number} (hl : Raised (some l) (some l')) (ha : Raised a a') :
    Raised (some ((a.map l.add).getD l)) (some ((a'.map l'.add).getD l')) := by
  have hsome := ha.isSome
  cases a with
  | none =>
    obtain rfl : a' = none := by simpa using hsome
    exact hl
  | some c =>
    obtain ⟨c', rfl⟩ := Option.isSome_iff_exists.mp (by simpa using hsome : a'.isSome = true)
    exact hl.add ha

theorem resolveAvailableForBasis_raised
    (hcomponents : ∀ key, Raised (component components key) (component components' key))
    (havailable : Raised available available') :
    Raised (resolveAvailableForBasis basis components available).value
      (resolveAvailableForBasis basis components' available').value := by
  have hlive := (hcomponents FUNDS_COMPONENT_LIVE_BALANCE).orElse havailable
  cases basis with
  | liveBalance => exact hlive
  | net =>
    have hnet := hcomponents FUNDS_COMPONENT_NET
    have hsome := hnet.isSome
    cases h : component components FUNDS_COMPONENT_NET <;> cases h' : component components' FUNDS_COMPONENT_NET <;>
      simp_all [resolveAvailableForBasis]
  | liveBalancePlusCollateral =>
    rw [resolveAvailableForBasis_plusCollateral, resolveAvailableForBasis_plusCollateral]
    revert hlive
    generalize (component components FUNDS_COMPONENT_LIVE_BALANCE).or available = live
    generalize (component components' FUNDS_COMPONENT_LIVE_BALANCE).or available' = live'
    intro hlive
    have hsome := hlive.isSome
    cases live with
    | none =>
      obtain rfl : live' = none := by simpa using hsome
      exact .inl rfl
    | some l =>
      obtain ⟨l', rfl⟩ := Option.isSome_iff_exists.mp (by simpa using hsome : live'.isSome = true)
      exact hlive.plus (hcomponents FUNDS_COMPONENT_COLLATERAL)

/-- More of a component never lowers the usable funds. -/
theorem usableFundsRupees_raised (hcomponents : ∀ key, Raised (component components key) (component components' key))
    (havailable : Raised available available') {spendable : ℚ}
    (h : (usableFundsRupees broker available utilised components basis).valueRupees = some spendable) :
    ∃ spendable', (usableFundsRupees broker available' utilised components' basis).valueRupees = some spendable' ∧
      spendable ≤ spendable' ∧
      (usableFundsRupees broker available' utilised components' basis).encumbranceNettedFromAvailable =
        (usableFundsRupees broker available utilised components basis).encumbranceNettedFromAvailable := by
  have hresolved : Raised (resolveAvailableForBasis basis components available).value
      (resolveAvailableForBasis basis components' available').value :=
    resolveAvailableForBasis_raised hcomponents havailable
  unfold usableFundsRupees at h ⊢
  cases hsemantics : knownBrokerFundsSemantics broker with
  | none => simp [hsemantics] at h
  | some semantics =>
    simp only [hsemantics] at h ⊢
    cases hvalue : finiteFigure (resolveAvailableForBasis basis components available).value with
    | none => simp [hvalue] at h
    | some figure =>
      obtain ⟨figure', hvalue', hle⟩ := hresolved.known hvalue
      simp only [hvalue, hvalue'] at h ⊢
      cases hnet : semantics.availableIsNetOfEncumbrance <;> cases hutilised : finiteFigure utilised <;>
        simp only [hnet, hutilised, Option.some.injEq, reduceCtorEq] at h ⊢ <;> subst h
      all_goals first
        | exact ⟨figure', rfl, hle, trivial⟩
        | exact ⟨_, rfl, sub_le_sub_right hle _, trivial⟩

end

end BoxEngine
