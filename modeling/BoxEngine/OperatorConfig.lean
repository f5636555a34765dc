import BoxEngine.Lib.Keyed
import BoxEngine.Lib.Number
import BoxEngine.OperatorSettings

/-!
# Operator configuration

The value a setting has from its code default, the deployment and the operator; whether a change of it may be made
now; and the check of a request's values.
-/

namespace BoxEngine

namespace OperatorConfig

open Js

inductive SettingValue where
  | boolean (b : Bool)
  | number (n : Number)
  | text (s : String)
  deriving DecidableEq

namespace SettingValue

def same : SettingValue → SettingValue → Bool
  | number a, number b => a ≠ .nan && a = b
  | a, b => a = b

def toText : SettingValue → String
  | boolean b => if b then "true" else "false"
  | number n => n.toText
  | text s => s

end SettingValue

def toComparable (value : Number) (zeroMeans : Option ZeroMeaning) : Number :=
  if value = .fin 0 ∧ (zeroMeans = some .unlimited ∨ zeroMeans = some .disabled) then .posInf else value

def fromComparable (value : Number) (zeroMeans : Option ZeroMeaning) : Number :=
  if value = .posInf ∧ (zeroMeans = some .unlimited ∨ zeroMeans = some .disabled) then .fin 0 else value

def zeroDirectionIsAmbiguous (zeroMeans : Option ZeroMeaning) : Bool := zeroMeans = some .disabled

variable (spec : SettingSpec)

def isSafer (current candidate : SettingValue) : Bool :=
  match current, candidate with
  | .boolean current, .boolean candidate =>
    match spec.safeDirection with
    | .enabledIsSafer => candidate && !current
    | .disabledIsSafer => !candidate && current
    | _ => false
  | .number current, .number candidate =>
    if zeroDirectionIsAmbiguous spec.zeroMeans ∧ (current = .fin 0 ∨ candidate = .fin 0) then false
    else
      match spec.safeDirection with
      | .lowerIsSafer => toComparable candidate spec.zeroMeans < toComparable current spec.zeroMeans
      | .higherIsSafer => toComparable current spec.zeroMeans < toComparable candidate spec.zeroMeans
      | _ => false
  | _, _ => false

/-! ## Precedence -/

def composeBoolean (direction : SafeDirection) (envValue runtimeValue : Bool) : Bool :=
  match direction with
  | .enabledIsSafer => envValue || runtimeValue
  | .disabledIsSafer => envValue && runtimeValue
  | _ => runtimeValue

def composeNumber (containment : Containment) (zeroMeans : Option ZeroMeaning) (envValue runtimeValue : Number) : Number :=
  if zeroDirectionIsAmbiguous zeroMeans ∧ envValue = .fin 0 then .fin 0
  else
    let envCmp := toComparable envValue zeroMeans
    let runCmp := toComparable runtimeValue zeroMeans
    let picked := if containment = .ceiling then envCmp.min runCmp else envCmp.max runCmp
    fromComparable picked zeroMeans

inductive SettingSource where
  | default
  | env
  | runtime
  | runtimeClampedByEnv
  deriving DecidableEq

structure ResolvedSetting where
  key : String
  codeDefault : SettingValue
  configured : SettingValue
  effective : SettingValue
  source : SettingSource
  deploymentBound : Option SettingValue
  clampedByDeployment : Bool

structure ResolveInput where
  envPresent : Bool
  envValue : Option SettingValue
  runtimePresent : Bool
  runtimeValue : Option SettingValue

/-- The stricter of the two values; the deployment's where they cannot be compared. -/
def composeValue : SettingValue → SettingValue → SettingValue
  | .boolean envValue, .boolean runtimeValue => .boolean (composeBoolean spec.safeDirection envValue runtimeValue)
  | .number envValue, .number runtimeValue =>
    .number (composeNumber spec.containment spec.zeroMeans envValue runtimeValue)
  | envValue, _ => envValue

/-- The runtime value, else the deployment's, else the default, contained by the deployment's bound. -/
def resolveSetting (codeDefault : SettingValue) (input : ResolveInput) : ResolvedSetting :=
  let envValue := if input.envPresent then input.envValue else none
  let runtimeValue := if input.runtimePresent then input.runtimeValue else none
  let configured := (runtimeValue <|> envValue).getD codeDefault
  match runtimeValue with
  | none =>
    { key := spec.key, codeDefault, configured, effective := configured
      source := if envValue = none then .default else .env
      deploymentBound := none, clampedByDeployment := false }
  | some runtimeValue =>
    let unbounded : ResolvedSetting :=
      { key := spec.key, codeDefault, configured, effective := runtimeValue, source := .runtime
        deploymentBound := none, clampedByDeployment := false }
    match envValue with
    | none => unbounded
    | some envValue =>
      if spec.containment = .replace then unbounded
      else
        let effective := composeValue spec envValue runtimeValue
        let clamped := !effective.same runtimeValue
        { key := spec.key, codeDefault, configured, effective
          source := if clamped then .runtimeClampedByEnv else .runtime
          deploymentBound := some envValue, clampedByDeployment := clamped }

/-! ## Mutations -/

inductive OperatorRole where
  | full
  | trade
  deriving DecidableEq

structure SystemState where
  executionMode : String
  entryArmed : Bool
  sessionArmed : Bool
  openBoxes : ℕ
  residualLegs : ℕ
  workingOrders : ℕ
  inFlightExecutions : ℕ
  reconciliationClean : Bool
  operatorRole : Option OperatorRole

structure Blocker where
  code : String
  message : String
  deriving DecidableEq

inductive TakesEffect where
  | immediately
  | nextCandidate
  | nextArm
  deriving DecidableEq

inductive MutationDecision where
  | allowed (takesEffect : TakesEffect) (tightening : Bool)
  | refused (blockers : List Blocker)
  deriving DecidableEq

variable (state : SystemState)

def isFlat : Bool :=
  state.openBoxes = 0 && state.residualLegs = 0 && state.workingOrders = 0 && state.inFlightExecutions = 0 &&
    state.reconciliationClean

def notFlatBlockers : List Blocker :=
  (if 0 < state.openBoxes then
    [⟨"open_box", toString state.openBoxes ++ " open Box position(s). This change requires the system to be flat."⟩]
    else []) ++
  (if 0 < state.residualLegs then
    [⟨"residual_exposure", toString state.residualLegs ++ " unresolved residual leg(s) still carry exposure."⟩]
    else []) ++
  (if 0 < state.workingOrders then
    [⟨"working_orders", toString state.workingOrders ++ " working order(s) could still fill."⟩] else []) ++
  (if 0 < state.inFlightExecutions then
    [⟨"in_flight_execution", toString state.inFlightExecutions ++ " execution(s) are in flight."⟩] else []) ++
  (if !state.reconciliationClean then
    [⟨"reconciliation_pending",
      "Reconciliation is not clean, so the position this deployment owns is not yet proven."⟩] else [])

def isArmed : Bool := state.entryArmed || state.sessionArmed

def effectPoint : MutationPolicy → TakesEffect
  | .nextSession => .nextArm
  | .flatAndDisarmed => .immediately
  | _ => .nextCandidate

def overshootsDeploymentBound (bound requested : SettingValue) : Bool :=
  if spec.containment = .replace then false
  else if bound.same requested then false
  else
    match bound, requested with
    | .boolean bound, .boolean requested =>
      match spec.safeDirection with
      | .enabledIsSafer => bound && !requested
      | .disabledIsSafer => !bound && requested
      | _ => false
    | .number bound, .number requested =>
      if spec.zeroMeans = some .disabled ∧ (bound = .fin 0 ∨ requested = .fin 0) then true
      else
        let boundCmp := toComparable bound spec.zeroMeans
        let reqCmp := toComparable requested spec.zeroMeans
        if spec.containment = .ceiling then boundCmp < reqCmp else reqCmp < boundCmp
    | _, _ => true

def deploymentBoundMessage (bound : SettingValue) : String :=
  let place := "by this deployment's " ++ spec.envVar
  match bound with
  | .boolean b =>
    spec.label ++ " is pinned to " ++ (if b then "on" else "off") ++ " " ++ place ++
      ". A runtime setting cannot override it."
  | bound =>
    if spec.containment = .floor then
      spec.label ++ " has a minimum of " ++ bound.toText ++ " " ++ place ++
        ". A runtime setting can raise it but never lower it."
    else
      spec.label ++ " is capped at " ++ bound.toText ++ " " ++ place ++
        ". A runtime setting can lower it but never raise it."

/-- Every reason against the change; the first two bind only a change that widens the risk. -/
def mutationBlockers (current requested : SettingValue) (state : SystemState)
    (deploymentBound : Option SettingValue) : List Blocker :=
  let tightening := isSafer spec current requested
  let widening := !tightening && !current.same requested
  (if widening && spec.requiresFullAdmin && state.operatorRole ≠ some .full then
    [⟨"full_admin_required", "Raising " ++ spec.label ++
      " widens what the engine may risk, so it requires full administrator access."⟩] else []) ++
  (match deploymentBound with
    | none => []
    | some bound =>
      if widening && overshootsDeploymentBound spec bound requested then
        [⟨"deployment_bound", deploymentBoundMessage spec bound⟩] else []) ++
  (match spec.forbiddenValuesInLive, requested with
    | some forbidden, .text value =>
      if state.executionMode = "live" ∧ value ∈ forbidden then
        [⟨"forbidden_in_live", spec.label ++ " cannot be set to \"" ++ value ++
          "\" while the deployment is in live execution mode."⟩] else []
    | _, _ => []) ++
  (match spec.policy with
    | .flatAndDisarmed =>
      (if isArmed state then
        [⟨"session_armed", spec.label ++ " can only be changed while the live session is disarmed."⟩] else []) ++
        notFlatBlockers state
    | .tightenOnlyWhileArmed =>
      if isArmed state && widening then
        ⟨"widening_while_armed", spec.label ++ " may only be made more restrictive while the session is armed. " ++
          "To widen it, disarm the session and flatten any open exposure."⟩ ::
          (if !isFlat state then notFlatBlockers state else [])
      else []
    | _ => [])

def evaluateMutation (current requested : SettingValue) (state : SystemState)
    (deploymentBound : Option SettingValue) : MutationDecision :=
  if spec.policy = .restartRequired then
    .refused [⟨"restart_required", spec.label ++ " is deployment configuration. It is shown for reference and can " ++
      "only be changed in the deployment environment."⟩]
  else
    match mutationBlockers spec current requested state deploymentBound with
    | [] => .allowed (effectPoint spec.policy) (isSafer spec current requested)
    | blockers => .refused blockers

/-! ## Requests -/

inductive RawValue where
  | undefined
  | null
  | value (v : SettingValue)
  | other
  deriving DecidableEq

structure ValidationProblem where
  key : String
  code : String
  message : String
  deriving DecidableEq

def PATCH_SCOPE : String := "__patch__"

def belowMin (n : Number) : Option ℤ := spec.min.filter fun m => n < .fin m

def aboveMax (n : Number) : Option ℤ := spec.max.filter fun m => .fin m < n

/-- The type first, then the bounds, each with a code of its own. -/
def validateOne (raw : RawValue) : Except ValidationProblem SettingValue :=
  if raw = .undefined ∨ raw = .null then
    .error ⟨spec.key, "value_required", spec.label ++ " was sent with no value. Omit the key to leave it unchanged."⟩
  else
    match spec.type with
    | .boolean =>
      match raw with
      | .value (.boolean b) => .ok (.boolean b)
      | _ => .error ⟨spec.key, "not_a_boolean", spec.label ++ " must be true or false."⟩
    | .enum =>
      match raw with
      | .value (.text s) =>
        if s ∈ spec.enumValues.getD [] then .ok (.text s)
        else .error ⟨spec.key, "not_in_enum", spec.label ++ " must be one of: " ++
          ", ".intercalate (spec.enumValues.getD []) ++ "."⟩
      | _ => .error ⟨spec.key, "not_a_string", spec.label ++ " must be a string."⟩
    | _ =>
      match raw with
      | .value (.number n) =>
        if !n.isFinite then .error ⟨spec.key, "not_finite", spec.label ++ " must be a finite number."⟩
        else if spec.type = .integer ∧ !n.isInteger then
          .error ⟨spec.key, "not_an_integer",
            spec.label ++ " must be a whole number — rounding it would change the limit you asked for."⟩
        else
          match belowMin spec n with
          | some m => .error ⟨spec.key, "below_min", spec.label ++ " must be at least " ++ toString m ++ "."⟩
          | none =>
            match aboveMax spec n with
            | some m => .error ⟨spec.key, "above_max", spec.label ++ " must be at most " ++ toString m ++ "."⟩
            | none => .ok (.number n)
      | _ => .error ⟨spec.key, "not_a_number", spec.label ++ " must be a number."⟩

def validateKey (specs : List SettingSpec) (key : String) (raw : RawValue) : Except ValidationProblem SettingValue :=
  match specs.reverse.find? (·.key = key) with
  | none => .error ⟨key, "unknown_key", "\"" ++ key ++ "\" is not a configurable setting."⟩
  | some spec =>
    if spec.policy = .restartRequired then
      .error ⟨key, "not_mutable", spec.label ++ " is deployment configuration and cannot be changed at runtime."⟩
    else validateOne spec raw

def validateKeys (specs : List SettingSpec) :
    List (String × RawValue) → List ValidationProblem × List (String × SettingValue) →
      List ValidationProblem × List (String × SettingValue)
  | [], found => found
  | (key, raw) :: patch, (problems, values) =>
    match validateKey specs key raw with
    | .ok value => validateKeys specs patch (problems, Keyed.put Prod.fst values (key, value))
    | .error problem => validateKeys specs patch (problems ++ [problem], values)

/-- The values of a request in order; all of them are right, or none is taken. -/
def validatePatch (patch : List (String × RawValue)) (specs : List SettingSpec) :
    Except (List ValidationProblem) (List (String × SettingValue)) :=
  if patch = [] then
    .error [⟨PATCH_SCOPE, "empty_patch", "No settings were supplied, so there is nothing to change."⟩]
  else
    match validateKeys specs patch ([], []) with
    | ([], values) => .ok values
    | (problems, _) => .error problems

end OperatorConfig

end BoxEngine
