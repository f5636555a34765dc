import BoxEngine.Lib.Keyed
import BoxEngine.Lib.Number

/-!
# The entry thresholds

The two thresholds, their table and the call that changes both: memory first, then one transaction, a roll-back where
it failed. Each await is a step of its own.
-/

namespace BoxEngine

open Js

inductive TuningKey where
  | minExpectedNetProfit
  | safetyBuffer
  deriving DecidableEq

structure BoxTuning where
  minExpectedNetProfit : ℚ
  safetyBuffer : ℚ
  deriving DecidableEq

def BoxTuning.get (tuning : BoxTuning) : TuningKey → ℚ
  | .minExpectedNetProfit => tuning.minExpectedNetProfit
  | .safetyBuffer => tuning.safetyBuffer

structure PartialTuning where
  minExpectedNetProfit : Option ℚ
  safetyBuffer : Option ℚ
  deriving DecidableEq

def PartialTuning.get (values : PartialTuning) : TuningKey → Option ℚ
  | .minExpectedNetProfit => values.minExpectedNetProfit
  | .safetyBuffer => values.safetyBuffer

def BoxTuning.all (tuning : BoxTuning) : PartialTuning := ⟨some tuning.minExpectedNetProfit, some tuning.safetyBuffer⟩

/-- A request's values as numbers, `none` where a value is undefined, null or the empty string. -/
structure TuningPatch where
  minExpectedNetProfit : Option Number
  safetyBuffer : Option Number

structure TuningConfig where
  minExpectedNetProfit : ℚ
  safetyBuffer : ℚ
  minGrossEdge : ℚ
  minNetEdge : ℚ

structure TuningLimits where
  min : ℚ
  max : ℚ

def BOX_TUNING_LIMITS : TuningKey → TuningLimits
  | .minExpectedNetProfit => ⟨0, 1000000⟩
  | .safetyBuffer => ⟨0, 1000000⟩

def BOX_TUNING_KEYS : TuningKey → String
  | .minExpectedNetProfit => "min_expected_net_profit"
  | .safetyBuffer => "safety_buffer"

def TuningKey.name : TuningKey → String
  | .minExpectedNetProfit => "minExpectedNetProfit"
  | .safetyBuffer => "safetyBuffer"

def mathRound (q : ℚ) : ℚ := ⌊q + 1 / 2⌋

def validateTuningValue (key : TuningKey) : Option Number → Except String (Option ℚ)
  | none => .ok none
  | some (.fin v) =>
    if v < (BOX_TUNING_LIMITS key).min ∨ (BOX_TUNING_LIMITS key).max < v then
      .error (key.name ++ " must be between ₹" ++ (Number.fin (BOX_TUNING_LIMITS key).min).toText ++ " and ₹" ++
        (Number.fin (BOX_TUNING_LIMITS key).max).toText ++ ".")
    else .ok (some (mathRound v))
  | some _ => .error (key.name ++ " must be a number.")

def validateTuning (patch : TuningPatch) : Except String PartialTuning :=
  match validateTuningValue .minExpectedNetProfit patch.minExpectedNetProfit with
  | .error error => .error error
  | .ok minExpectedNetProfit =>
    match validateTuningValue .safetyBuffer patch.safetyBuffer with
    | .error error => .error error
    | .ok safetyBuffer =>
      if minExpectedNetProfit = none ∧ safetyBuffer = none then
        .error "Nothing to update — send minExpectedNetProfit and/or safetyBuffer."
      else .ok ⟨minExpectedNetProfit, safetyBuffer⟩

def readTuning (cfg : TuningConfig) : BoxTuning := ⟨cfg.minExpectedNetProfit, cfg.safetyBuffer⟩

def requiredNetProfit (cfg : TuningConfig) : ℚ :=
  max cfg.minExpectedNetProfit (if 0 < cfg.minNetEdge then cfg.minNetEdge else 0)

def applyTuning (baseMinGrossEdge : ℚ) (values : PartialTuning) (cfg : TuningConfig) : TuningConfig :=
  let cfg := { cfg with minExpectedNetProfit := values.minExpectedNetProfit.getD cfg.minExpectedNetProfit }
  let cfg := { cfg with safetyBuffer := values.safetyBuffer.getD cfg.safetyBuffer }
  { cfg with minGrossEdge := min baseMinGrossEdge (requiredNetProfit cfg) }

def tuningEntries (values : PartialTuning) : List (String × ℚ) :=
  [TuningKey.minExpectedNetProfit, .safetyBuffer].filterMap fun key =>
    (values.get key).map fun value => (BOX_TUNING_KEYS key, value)

def saveBoxSettings (entries rows : List (String × ℚ)) : List (String × ℚ) := entries.foldl (Keyed.put Prod.fst) rows

def savingUnconfigured : String := "Box persistence is not configured, so settings cannot be saved."

/-! ## Calls -/

inductive SaveFate where
  | pending
  | saved
  | failed (error : String)
  | answered
  deriving DecidableEq

/-- A call that has applied its values; `since` counts the transactions committed before it. -/
structure TuningCall where
  values : PartialTuning
  before : BoxTuning
  since : ℕ
  fate : SaveFate
  deriving DecidableEq

inductive TuningAnswer where
  | changed (tuning : BoxTuning)
  | refused (code : ℕ) (error : String)

/-- The engine's thresholds and the `box_settings` table, with the transactions committed and the changes answered as
made. -/
structure TuningEngine where
  cfg : TuningConfig
  baseMinGrossEdge : ℚ
  rows : List (String × ℚ)
  saves : List PartialTuning
  changes : List PartialTuning
  calls : List TuningCall

namespace TuningEngine

def new (cfg : TuningConfig) (rows : List (String × ℚ)) : TuningEngine := ⟨cfg, cfg.minGrossEdge, rows, [], [], []⟩

variable (s : TuningEngine)

def setTuning (patch : TuningPatch) (dbEnabled : Bool) : TuningEngine × Option TuningAnswer :=
  match validateTuning patch with
  | .error error => (s, some (.refused 400 error))
  | .ok values =>
    let fate := if dbEnabled then .pending else .failed savingUnconfigured
    ({ s with
      cfg := applyTuning s.baseMinGrossEdge values s.cfg
      calls := s.calls ++ [⟨values, readTuning s.cfg, s.saves.length, fate⟩] }, none)

variable (call : ℕ)

def withFate (c : TuningCall) (fate : SaveFate) : TuningEngine :=
  { s with calls := s.calls.set call { c with fate } }

def save (c : TuningCall) : TuningEngine :=
  match c.fate with
  | .pending =>
    { s.withFate call c .saved with
      rows := saveBoxSettings (tuningEntries c.values) s.rows
      saves := s.saves ++ [c.values] }
  | _ => s

def failSave (c : TuningCall) (error : String) : TuningEngine :=
  match c.fate with
  | .pending => s.withFate call c (.failed error)
  | _ => s

def answer (c : TuningCall) : TuningEngine × Option TuningAnswer :=
  match c.fate with
  | .saved => ({ s.withFate call c .answered with changes := s.changes ++ [c.values] }, some (.changed (readTuning s.cfg)))
  | .failed message =>
    ({ s.withFate call c .answered with cfg := applyTuning s.baseMinGrossEdge c.before.all s.cfg },
      some (.refused 503 ("Could not save the settings: " ++ message)))
  | _ => (s, none)

inductive TuningEvent where
  | setTuning (patch : TuningPatch) (dbEnabled : Bool)
  | saved (call : ℕ)
  | saveFailed (call : ℕ) (error : String)
  | answered (call : ℕ)

def step : TuningEvent → TuningEngine × Option TuningAnswer
  | .setTuning patch dbEnabled => s.setTuning patch dbEnabled
  | .saved call =>
    match s.calls[call]? with
    | some c => (s.save call c, none)
    | none => (s, none)
  | .saveFailed call error =>
    match s.calls[call]? with
    | some c => (s.failSave call c error, none)
    | none => (s, none)
  | .answered call =>
    match s.calls[call]? with
    | some c => s.answer call c
    | none => (s, none)

end TuningEngine

end BoxEngine
