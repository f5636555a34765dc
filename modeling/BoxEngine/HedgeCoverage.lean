import BoxEngine.OrderRequest
import Mathlib.Data.List.Induction

/-!
# Hedge coverage

What the order manager asks before an entry leg goes out: the composed guard of its checkpoints, and
the ledger that says whether every BUY hedge of an attempt is proven to have filled.
-/

namespace BoxEngine

open Js

inductive LiveEntryGuardStage where
  | preBuild | postEvidence | preEnqueue | dequeue | postPersist | prePost
  deriving DecidableEq

def LiveEntryGuardStage.label : LiveEntryGuardStage → String
  | .preBuild => "pre_build"
  | .postEvidence => "post_evidence"
  | .preEnqueue => "pre_enqueue"
  | .dequeue => "dequeue"
  | .postPersist => "post_persist"
  | .prePost => "pre_post"

inductive LiveEntryGuardRefusal where
  | notStillWanted | entryDisarmed | liveOrdersDisarmed | circuitOpen | entryNotAdmissible | attemptAborted
  | hedgeCoverageUnproven | crossLegIncoherent | economicEvidenceExpired
  deriving DecidableEq

structure LiveEntryGuardInputs where
  stage : LiveEntryGuardStage
  stillWanted : Bool
  entryEnabled : Bool
  liveOrderEntryEnabled : Bool
  circuitClosed : Bool
  entryAdmissible : Bool
  attemptAborted : Option String
  hedgeCoverageGap : Option String
  crossLegCoherenceGap : Option String
  economicEvidenceGap : Option String

/-- The first reason not to post the leg, in the guard's own order; none lets it through. -/
def evaluateLiveEntryGuard (inputs : LiveEntryGuardInputs) : Option (LiveEntryGuardRefusal × String) :=
  let stage := inputs.stage.label
  if ¬ inputs.stillWanted then
    some (.notStillWanted,
      s!"entry is no longer wanted at {stage}: ownership/lease lost, or the scanner decision was withdrawn")
  else if ¬ inputs.liveOrderEntryEnabled then
    some (.liveOrdersDisarmed, s!"live order authorization was withdrawn at {stage}")
  else if ¬ inputs.entryEnabled then
    some (.entryDisarmed, s!"entry was disarmed at {stage}")
  else if ¬ inputs.circuitClosed then
    some (.circuitOpen, s!"the execution circuit breaker is open at {stage}")
  else if let some aborted := inputs.attemptAborted then
    some (.attemptAborted, s!"the entry attempt was aborted by a sibling leg at {stage}: {aborted}")
  else if let some gap := inputs.hedgeCoverageGap then
    some (.hedgeCoverageUnproven,
      s!"a dependent SELL was refused at {stage} because its BUY hedge coverage is not proven: {gap}")
  else if let some gap := inputs.crossLegCoherenceGap then
    some (.crossLegIncoherent, s!"the four legs no longer form a coherent snapshot at {stage}: {gap}")
  else if let some gap := inputs.economicEvidenceGap then
    some (.economicEvidenceExpired,
      s!"the funds/margin evidence that admitted this entry no longer applies at {stage}: {gap}")
  else if ¬ inputs.entryAdmissible then
    some (.entryNotAdmissible, s!"order-manager entry admission closed at {stage}")
  else none

/-! ## The ledger -/

structure HedgeRequirement where
  attemptId : String
  role : BoxLegRole
  token : Number
  tradingsymbol : String
  side : OrderSide
  brokerAccount : String
  requiredQuantity : Number

structure HedgeOutcomeEvidence where
  attemptId : String
  role : BoxLegRole
  token : Number
  tradingsymbol : String
  side : OrderSide
  brokerAccount : String
  requestedQuantity : Number
  confirmedFillQuantity : Option Number
  terminal : Bool
  detail : String

inductive HedgeCoverageGap where
  | noEvidence | notTerminal | noPost | contractMismatch | sideMismatch | accountMismatch | attemptMismatch
  | insufficientFill
  deriving DecidableEq

structure HedgeCoverageLedger where
  attemptId : String
  evidenceByRole : BoxLegRole → Option HedgeOutcomeEvidence

namespace HedgeCoverageLedger

def new (attemptId : String) : HedgeCoverageLedger := ⟨attemptId, fun _ => none⟩

variable (ledger : HedgeCoverageLedger)

def record (evidence : HedgeOutcomeEvidence) : HedgeCoverageLedger :=
  if evidence.attemptId ≠ ledger.attemptId then ledger
  else if (ledger.evidenceByRole evidence.role).any HedgeOutcomeEvidence.terminal then ledger
  else { ledger with evidenceByRole := Function.update ledger.evidenceByRole evidence.role (some evidence) }

def sameNumber (a b : Number) : Bool := a ≤ b && b ≤ a

/-- The first gap between the hedge that is required and the evidence of it; none means covered. -/
def coverageFor (req : HedgeRequirement) : Option (HedgeCoverageGap × String) :=
  let role := req.role.label
  let ours := ledger.attemptId
  let asked := req.attemptId
  if req.attemptId ≠ ledger.attemptId then
    some (.attemptMismatch, s!"requirement is for attempt {asked}, ledger is {ours}")
  else
    match ledger.evidenceByRole req.role with
    | none => some (.noEvidence, s!"no terminal broker evidence for hedge {role}")
    | some evidence =>
      let seen := evidence.attemptId
      let side := sideLabel evidence.side
      let contract := evidence.tradingsymbol
      let token := evidence.token.toText
      let wanted := req.tradingsymbol
      let wantedToken := req.token.toText
      let detail := evidence.detail
      if evidence.attemptId ≠ req.attemptId then
        some (.attemptMismatch, s!"hedge {role} evidence belongs to attempt {seen}")
      else if evidence.side ≠ req.side ∨ req.side ≠ .buy then
        some (.sideMismatch, s!"hedge {role} must be a BUY; evidence side is {side}")
      else if ¬ sameNumber evidence.token req.token ∨ evidence.tradingsymbol ≠ req.tradingsymbol then
        some (.contractMismatch, s!"hedge {role} evidence is {contract}/{token}, required {wanted}/{wantedToken}")
      else if evidence.brokerAccount ≠ req.brokerAccount then
        some (.accountMismatch,
          s!"hedge {role} evidence was recorded under a DIFFERENT broker account than the requirement declared before it posted; coverage cannot be proven across accounts")
      else if ¬ evidence.terminal then
        some (.notTerminal, s!"hedge {role} is not terminal; coverage cannot be counted while it can still change")
      else
        match evidence.confirmedFillQuantity with
        | none => some (.noPost, s!"hedge {role} has no broker-confirmed fill quantity ({detail})")
        | some filled =>
          if filled < req.requiredQuantity then
            let filled := filled.toText
            let required := req.requiredQuantity.toText
            some (.insufficientFill, s!"hedge {role} confirmed {filled} of required {required}")
          else none

def coverageGapFor (reqs : List HedgeRequirement) : Option String :=
  if reqs = [] then some "no hedge requirements supplied for a dependent SELL; coverage is unprovable"
  else
    reqs.findSome? fun req =>
      let role := req.role.label
      (ledger.coverageFor req).map fun gap =>
        let reason := gap.2
        s!"hedge {role} not proven covered: {reason}"

end HedgeCoverageLedger

/-! ## Hedge coverage is proven by what was recorded -/

namespace HedgeOutcomeEvidence

/-- Every axis of the requirement but the quantity, seen at the end of the order. -/
structure Answers (evidence : HedgeOutcomeEvidence) (req : HedgeRequirement) : Prop where
  attempt : evidence.attemptId = req.attemptId
  role : evidence.role = req.role
  buy : evidence.side = .buy ∧ req.side = .buy
  token : HedgeCoverageLedger.sameNumber evidence.token req.token = true
  contract : evidence.tradingsymbol = req.tradingsymbol
  account : evidence.brokerAccount = req.brokerAccount
  terminal : evidence.terminal = true

def Proves (evidence : HedgeOutcomeEvidence) (req : HedgeRequirement) : Prop :=
  evidence.Answers req ∧ ∃ filled, evidence.confirmedFillQuantity = some filled ∧ req.requiredQuantity ≤ filled

def Comparable (evidence : HedgeOutcomeEvidence) (req : HedgeRequirement) : Prop :=
  ∀ filled ∈ evidence.confirmedFillQuantity, filled ≠ .nan ∧ req.requiredQuantity ≠ .nan

end HedgeOutcomeEvidence

open HedgeOutcomeEvidence

namespace HedgeCoverageLedger

variable {ledger : HedgeCoverageLedger} {evidence : HedgeOutcomeEvidence} {req : HedgeRequirement}

def Covered (ledger : HedgeCoverageLedger) (req : HedgeRequirement) : Prop := ledger.coverageFor req = none

instance : Decidable (ledger.Covered req) := inferInstanceAs (Decidable (_ = none))

def recorded (attemptId : String) (records : List HedgeOutcomeEvidence) : HedgeCoverageLedger :=
  records.foldl record (new attemptId)

variable (attemptId : String)

theorem recorded_append (records later : List HedgeOutcomeEvidence) :
    recorded attemptId (records ++ later) = later.foldl record (recorded attemptId records) := by
  simp [recorded]

@[simp] theorem record_attemptId : (ledger.record evidence).attemptId = ledger.attemptId := by
  unfold record
  split
  · rfl
  · split <;> rfl

theorem record_cases (role : BoxLegRole) :
    (ledger.record evidence).evidenceByRole role = ledger.evidenceByRole role ∨
      role = evidence.role ∧ evidence.attemptId = ledger.attemptId ∧
        (ledger.evidenceByRole role).any HedgeOutcomeEvidence.terminal = false ∧
        (ledger.record evidence).evidenceByRole role = some evidence := by
  unfold record
  by_cases hattempt : evidence.attemptId = ledger.attemptId
  · by_cases hstands : (ledger.evidenceByRole evidence.role).any HedgeOutcomeEvidence.terminal = true
    · simp [hattempt, hstands]
    · by_cases hrole : role = evidence.role
      · subst hrole
        simp [hattempt, hstands]
      · simp [hattempt, hstands, hrole]
  · simp [hattempt]

theorem record_of_terminal {standing : HedgeOutcomeEvidence} {role : BoxLegRole}
    (h : ledger.evidenceByRole role = some standing) (hterminal : standing.terminal = true) :
    (ledger.record evidence).evidenceByRole role = some standing := by
  obtain hsame | ⟨_, _, hnone, _⟩ := @record_cases ledger evidence role
  · rw [hsame, h]
  · simp [h, hterminal] at hnone

structure Standing (ledger : HedgeCoverageLedger) (records : List HedgeOutcomeEvidence) : Prop where
  stored : ∀ {role evidence}, ledger.evidenceByRole role = some evidence →
    evidence ∈ records ∧ evidence.role = role ∧ evidence.attemptId = ledger.attemptId

theorem Standing.new : (HedgeCoverageLedger.new attemptId).Standing [] where
  stored h := by simp [HedgeCoverageLedger.new] at h

theorem Standing.record {records : List HedgeOutcomeEvidence} (h : ledger.Standing records)
    (evidence : HedgeOutcomeEvidence) : (ledger.record evidence).Standing (records ++ [evidence]) where
  stored {role seen} hseen := by
    rw [record_attemptId]
    obtain hsame | ⟨hrole, hattempt, _, hnow⟩ := @record_cases ledger evidence role
    · rw [hsame] at hseen
      obtain ⟨hmem, hold⟩ := h.stored hseen
      exact ⟨by simp [hmem], hold⟩
    · obtain rfl : evidence = seen := by simpa [hnow] using hseen
      exact ⟨by simp, hrole.symm, hattempt⟩

theorem recorded_standing (records : List HedgeOutcomeEvidence) : (recorded attemptId records).Standing records := by
  induction records using List.reverseRecOn with
  | nil => exact .new attemptId
  | append_singleton records evidence ih =>
    rw [recorded_append]
    exact ih.record evidence

@[simp] theorem recorded_attemptId (records : List HedgeOutcomeEvidence) :
    (recorded attemptId records).attemptId = attemptId := by
  induction records using List.reverseRecOn with
  | nil => rfl
  | append_singleton records evidence ih => simp [recorded_append, ih]

theorem coverageFor_eq_none : ledger.coverageFor req = none ↔
    req.attemptId = ledger.attemptId ∧ ∃ evidence, ledger.evidenceByRole req.role = some evidence ∧
      evidence.attemptId = req.attemptId ∧ evidence.side = .buy ∧ req.side = .buy ∧
      sameNumber evidence.token req.token = true ∧ evidence.tradingsymbol = req.tradingsymbol ∧
      evidence.brokerAccount = req.brokerAccount ∧ evidence.terminal = true ∧
      ∃ filled, evidence.confirmedFillQuantity = some filled ∧ ¬ filled < req.requiredQuantity := by
  unfold coverageFor
  by_cases hours : req.attemptId = ledger.attemptId
  · cases hevidence : ledger.evidenceByRole req.role with
    | none => simp [hours]
    | some evidence =>
      by_cases hattempt : evidence.attemptId = ledger.attemptId <;> by_cases hbuy : req.side = .buy <;>
        by_cases hside : evidence.side = .buy <;> simp [hours, hattempt, hbuy, hside]
      by_cases htoken : sameNumber evidence.token req.token = true <;>
        by_cases hcontract : evidence.tradingsymbol = req.tradingsymbol <;> simp [htoken, hcontract]
      by_cases haccount : evidence.brokerAccount = req.brokerAccount <;>
        by_cases hterminal : evidence.terminal = true <;> simp [haccount, hterminal]
      cases evidence.confirmedFillQuantity with
      | none => simp
      | some filled => simp
  · simp [hours]

theorem Covered.answered {records : List HedgeOutcomeEvidence} (hstanding : ledger.Standing records)
    (h : ledger.Covered req) : ∃ evidence ∈ records, evidence.Answers req ∧
      ∃ filled, evidence.confirmedFillQuantity = some filled ∧ ¬ filled < req.requiredQuantity := by
  obtain ⟨_, evidence, hevidence, hattempt, hside, hbuy, htoken, hcontract, haccount, hterminal, hfilled⟩ :=
    coverageFor_eq_none.mp h
  obtain ⟨hmem, hrole, _⟩ := hstanding.stored hevidence
  exact ⟨evidence, hmem, ⟨hattempt, hrole, ⟨hside, hbuy⟩, htoken, hcontract, haccount, hterminal⟩, hfilled⟩

theorem Covered.record (h : ledger.Covered req) (evidence : HedgeOutcomeEvidence) : (ledger.record evidence).Covered req := by
  obtain ⟨hours, standing, hstanding, hattempt, hside, hbuy, htoken, hcontract, haccount, hterminal, hfilled⟩ :=
    coverageFor_eq_none.mp h
  refine coverageFor_eq_none.mpr ⟨by simpa using hours, standing, ?_, hattempt, hside, hbuy, htoken, hcontract, haccount,
    hterminal, hfilled⟩
  exact record_of_terminal hstanding hterminal

theorem Covered.records (h : ledger.Covered req) (later : List HedgeOutcomeEvidence) :
    (later.foldl HedgeCoverageLedger.record ledger).Covered req := by
  induction later generalizing ledger with
  | nil => exact h
  | cons evidence later ih => exact ih (h.record evidence)

theorem covered_of_answers {attemptId : String} (hours : req.attemptId = attemptId) (h : evidence.Answers req)
    {filled : Number} (hfilled : evidence.confirmedFillQuantity = some filled) (henough : ¬ filled < req.requiredQuantity) :
    (recorded attemptId [evidence]).Covered req := by
  refine coverageFor_eq_none.mpr ⟨by simp [hours], evidence, ?_, h.attempt, h.buy.1, h.buy.2, h.token, h.contract, h.account,
    h.terminal, filled, hfilled, henough⟩
  simp [recorded, HedgeCoverageLedger.new, HedgeCoverageLedger.record, h.attempt, hours, h.role]

theorem Comparable.le {filled : Number} (h : filled ≠ .nan ∧ req.requiredQuantity ≠ .nan)
    (henough : ¬ filled < req.requiredQuantity) : req.requiredQuantity ≤ filled := by
  by_cases hless : req.requiredQuantity < filled
  · exact Number.le_of_lt hless
  · rw [Number.eq_of_not_lt h.1 h.2 henough hless]
    exact Number.le_self_of_ne_nan h.2

end HedgeCoverageLedger

open HedgeCoverageLedger

/-- Coverage is proof, and stays it, exactly when no counted fill and no required quantity is NaN. -/
theorem hedge_coverage_sound (attemptId : String) (heard : Set HedgeOutcomeEvidence) (registered : Set HedgeRequirement) :
    ((∀ records : List HedgeOutcomeEvidence, (∀ evidence ∈ records, evidence ∈ heard) → ∀ req ∈ registered,
        (recorded attemptId records).Covered req → ∃ evidence ∈ records, evidence.Proves req) ↔
      ∀ evidence ∈ heard, ∀ req ∈ registered, req.attemptId = attemptId → evidence.Answers req → evidence.Comparable req) ∧
    ∀ (records later : List HedgeOutcomeEvidence) (req : HedgeRequirement), (recorded attemptId records).Covered req →
      (recorded attemptId (records ++ later)).Covered req := by
  refine ⟨⟨fun h evidence hheard req hreq hours hanswers filled hfilled => ?_,
    fun h records hrecords req hreq hcovered => ?_⟩, fun records later req hcovered => ?_⟩
  · by_contra hnan
    have henough : ¬ filled < req.requiredQuantity := by
      by_cases hfill : filled = .nan
      · rw [hfill]; exact Number.not_nan_lt _
      · have : req.requiredQuantity = .nan := by simpa [hfill] using hnan
        rw [this]; exact Number.not_lt_nan _
    obtain ⟨seen, hseen, _, fill, hfill, hle⟩ := h [evidence] (by simpa using hheard) req hreq
      (covered_of_answers hours hanswers hfilled henough)
    obtain rfl : seen = evidence := by simpa using hseen
    obtain rfl : fill = filled := by simpa [hfill] using hfilled
    exact hnan (Number.ne_nan_of_le hle).symm
  · obtain ⟨evidence, hmem, hanswers, filled, hfilled, henough⟩ := hcovered.answered (recorded_standing attemptId records)
    have hours : req.attemptId = attemptId := by simpa using (coverageFor_eq_none.mp hcovered).1
    have hcompare := h evidence (hrecords evidence hmem) req hreq hours hanswers filled hfilled
    exact ⟨evidence, hmem, hanswers, filled, hfilled, Comparable.le hcompare henough⟩
  · rw [recorded_append]
    exact hcovered.records later

/-- A terminal snapshot of the right contract whose fill is NaN covers the hedge. -/
theorem hedge_covered_by_nan :
    let req : HedgeRequirement := ⟨"a-1", .k1Ce, .fin 11, "NIFTY25JUN22500CE", .buy, "zerodha:X", .fin 75⟩
    let evidence : HedgeOutcomeEvidence :=
      ⟨"a-1", .k1Ce, .fin 11, "NIFTY25JUN22500CE", .buy, "zerodha:X", .fin 75, some .nan, true, "broker terminal"⟩
    (recorded "a-1" [evidence]).Covered req ∧ ¬ ∃ seen ∈ [evidence], seen.Proves req := by
  refine ⟨by decide, ?_⟩
  rintro ⟨seen, hseen, _, filled, hfilled, hle⟩
  obtain rfl := List.mem_singleton.mp hseen
  obtain rfl := Option.some_inj.mp hfilled
  exact absurd hle (by decide)

end BoxEngine
