import Mathlib.Data.Int.Notation

/-!
# The registry of operator settings

For each setting its type, its bounds, what 0 means, how the deployment's value composes with the operator's, which
direction is safer, and when a change may be made.
-/

namespace BoxEngine

inductive SettingType where
  | boolean
  | integer
  | number
  | enum
  deriving DecidableEq

inductive MutationPolicy where
  | hotSafe
  | tightenOnlyWhileArmed
  | flatAndDisarmed
  | nextSession
  | restartRequired
  deriving DecidableEq

inductive Containment where
  | replace
  | ceiling
  | floor
  deriving DecidableEq

inductive SafeDirection where
  | lowerIsSafer
  | higherIsSafer
  | enabledIsSafer
  | disabledIsSafer
  | neutral
  deriving DecidableEq

inductive ZeroMeaning where
  | value
  | unlimited
  | disabled
  deriving DecidableEq

structure SettingSpec where
  key : String
  envVar : String
  label : String
  type : SettingType
  min : Option ℤ := none
  max : Option ℤ := none
  enumValues : Option (List String) := none
  zeroMeans : Option ZeroMeaning := none
  containment : Containment
  safeDirection : SafeDirection
  policy : MutationPolicy
  requiresFullAdmin : Bool
  forbiddenValuesInLive : Option (List String) := none
  deriving DecidableEq

def RUPEE_MAX : ℤ := 1000000

/-- Every setting an operator may change, with its bounds, its safe direction and when it may change. -/
def OPERATOR_SETTINGS : List SettingSpec := [
  { key := "minExpectedNetProfit", envVar := "BOX_MIN_EXPECTED_NET_PROFIT"
    label := "Minimum expected net profit"
    type := .number, min := some 0, max := some RUPEE_MAX
    containment := .replace, safeDirection := .higherIsSafer, policy := .tightenOnlyWhileArmed
    requiresFullAdmin := true },
  { key := "safetyBuffer", envVar := "BOX_SAFETY_BUFFER"
    label := "Safety buffer"
    type := .number, min := some 0, max := some RUPEE_MAX
    containment := .replace, safeDirection := .higherIsSafer, policy := .tightenOnlyWhileArmed
    requiresFullAdmin := true },
  { key := "minGrossEdge", envVar := "MIN_BOX_GROSS_EDGE"
    label := "Prefilter gross edge"
    type := .number, min := some 0, max := some RUPEE_MAX
    containment := .replace, safeDirection := .higherIsSafer, policy := .hotSafe, requiresFullAdmin := false },
  { key := "expectedEntrySlippage", envVar := "BOX_EXPECTED_ENTRY_SLIPPAGE"
    label := "Expected entry slippage"
    type := .number, min := some 0, max := some RUPEE_MAX
    containment := .replace, safeDirection := .higherIsSafer, policy := .tightenOnlyWhileArmed
    requiresFullAdmin := true },
  { key := "expectedExitSlippage", envVar := "BOX_EXPECTED_EXIT_SLIPPAGE"
    label := "Expected exit slippage"
    type := .number, min := some 0, max := some RUPEE_MAX
    containment := .replace, safeDirection := .higherIsSafer, policy := .tightenOnlyWhileArmed
    requiresFullAdmin := true },
  { key := "minExpectedNetProfitPerUnit", envVar := "BOX_MIN_EXPECTED_NET_PROFIT_PER_UNIT"
    label := "Minimum expected net profit per unit"
    type := .number, min := some 0, max := some RUPEE_MAX, zeroMeans := some .value
    containment := .replace, safeDirection := .higherIsSafer, policy := .tightenOnlyWhileArmed
    requiresFullAdmin := true },
  { key := "minGrossEdgePerUnit", envVar := "MIN_BOX_GROSS_EDGE_PER_UNIT"
    label := "Prefilter gross edge per unit"
    type := .number, min := some 0, max := some RUPEE_MAX, zeroMeans := some .value
    containment := .replace, safeDirection := .higherIsSafer, policy := .hotSafe, requiresFullAdmin := false },
  { key := "safetyBufferPerUnit", envVar := "BOX_SAFETY_BUFFER_PER_UNIT"
    label := "Safety buffer per unit"
    type := .number, min := some 0, max := some RUPEE_MAX, zeroMeans := some .value
    containment := .replace, safeDirection := .higherIsSafer, policy := .tightenOnlyWhileArmed
    requiresFullAdmin := true },
  { key := "expectedEntrySlippagePerUnit", envVar := "BOX_EXPECTED_ENTRY_SLIPPAGE_PER_UNIT"
    label := "Expected entry slippage per unit"
    type := .number, min := some 0, max := some RUPEE_MAX, zeroMeans := some .value
    containment := .replace, safeDirection := .higherIsSafer, policy := .tightenOnlyWhileArmed
    requiresFullAdmin := true },
  { key := "expectedExitSlippagePerUnit", envVar := "BOX_EXPECTED_EXIT_SLIPPAGE_PER_UNIT"
    label := "Expected exit slippage per unit"
    type := .number, min := some 0, max := some RUPEE_MAX, zeroMeans := some .value
    containment := .replace, safeDirection := .higherIsSafer, policy := .tightenOnlyWhileArmed
    requiresFullAdmin := true },
  { key := "strikeLevel", envVar := "BOX_STRIKE_LEVEL"
    label := "Strike width from ATM"
    type := .integer, min := some 1, max := some 3
    containment := .replace, safeDirection := .neutral, policy := .flatAndDisarmed, requiresFullAdmin := true },
  { key := "enableShortBox", envVar := "BOX_ENABLE_SHORT_BOX"
    label := "Allow short Box entries"
    type := .boolean
    containment := .ceiling, safeDirection := .disabledIsSafer, policy := .flatAndDisarmed
    requiresFullAdmin := true },
  { key := "convergenceFloor", envVar := "BOX_CONVERGENCE_FLOOR"
    label := "Convergence floor"
    type := .number, min := some 0, max := some RUPEE_MAX
    containment := .replace, safeDirection := .neutral, policy := .hotSafe, requiresFullAdmin := false },
  { key := "convergencePct", envVar := "BOX_CONVERGENCE_PCT"
    label := "Convergence fraction"
    type := .number, min := some 0, max := some 1
    containment := .replace, safeDirection := .neutral, policy := .hotSafe, requiresFullAdmin := false },
  { key := "minExitNetPnl", envVar := "BOX_MIN_EXIT_NET_PNL"
    label := "Minimum profit to take"
    type := .number, min := some 0, max := some RUPEE_MAX
    containment := .replace, safeDirection := .neutral, policy := .hotSafe, requiresFullAdmin := false },
  { key := "minExitNetPnlPerUnit", envVar := "BOX_MIN_EXIT_NET_PNL_PER_UNIT"
    label := "Minimum profit to take per unit"
    type := .number, min := some 0, max := some RUPEE_MAX, zeroMeans := some .value
    containment := .replace, safeDirection := .neutral, policy := .hotSafe, requiresFullAdmin := false },
  { key := "profitCapturePct", envVar := "BOX_PROFIT_CAPTURE_PCT"
    label := "Profit capture target"
    type := .number, min := some 0, max := some 1
    containment := .replace, safeDirection := .neutral, policy := .hotSafe, requiresFullAdmin := false },
  { key := "minCapturedPct", envVar := "BOX_MIN_CAPTURED_PCT"
    label := "Minimum captured fraction"
    type := .number, min := some 0, max := some 1
    containment := .replace, safeDirection := .neutral, policy := .hotSafe, requiresFullAdmin := false },
  { key := "expirySafetyMinutes", envVar := "BOX_EXPIRY_SAFETY_MINUTES"
    label := "Expiry safety margin"
    type := .number, min := some 0, max := some 600
    containment := .floor, safeDirection := .higherIsSafer, policy := .tightenOnlyWhileArmed
    requiresFullAdmin := true },
  { key := "maxOpenBoxes", envVar := "BOX_MAX_OPEN_BOXES"
    label := "Maximum Box inventory"
    type := .integer, min := some 0, max := some 50, zeroMeans := some .unlimited
    containment := .ceiling, safeDirection := .lowerIsSafer, policy := .tightenOnlyWhileArmed
    requiresFullAdmin := true },
  { key := "oneActiveBoxPerUnderlying", envVar := "BOX_ONE_ACTIVE_BOX_PER_UNDERLYING"
    label := "One active Box per underlying"
    type := .boolean
    containment := .floor, safeDirection := .enabledIsSafer, policy := .tightenOnlyWhileArmed
    requiresFullAdmin := true },
  { key := "oneOpportunityPerUnderlying", envVar := "BOX_ONE_OPPORTUNITY_PER_UNDERLYING"
    label := "Show one opportunity per underlying"
    type := .boolean
    containment := .replace, safeDirection := .neutral, policy := .hotSafe, requiresFullAdmin := false },
  { key := "maxConcurrentPerUnderlying", envVar := "BOX_MAX_CONCURRENT_PER_UNDERLYING"
    label := "Concurrent executions per underlying"
    type := .integer, min := some 0, max := some 16, zeroMeans := some .unlimited
    containment := .ceiling, safeDirection := .lowerIsSafer, policy := .tightenOnlyWhileArmed
    requiresFullAdmin := true },
  { key := "liveMaxBoxCapitalRupees", envVar := "BOX_LIVE_MAX_BOX_CAPITAL_RUPEES"
    label := "Maximum capital per Box (live)"
    type := .integer, min := some 0, max := some 1000000000, zeroMeans := some .unlimited
    containment := .ceiling, safeDirection := .lowerIsSafer, policy := .flatAndDisarmed, requiresFullAdmin := true },
  { key := "paperMaxBoxCapitalRupees", envVar := "BOX_PAPER_MAX_BOX_CAPITAL_RUPEES"
    label := "Maximum capital per Box (paper)"
    type := .integer, min := some 0, max := some 1000000000, zeroMeans := some .unlimited
    containment := .ceiling, safeDirection := .lowerIsSafer, policy := .hotSafe, requiresFullAdmin := false },
  { key := "liveMaxOpenBoxes", envVar := "BOX_LIVE_MAX_OPEN_BOXES"
    label := "Live open-Box limit"
    type := .integer, min := some 0, max := some 20, zeroMeans := some .value
    containment := .ceiling, safeDirection := .lowerIsSafer, policy := .flatAndDisarmed, requiresFullAdmin := true },
  { key := "liveDailyLossLimit", envVar := "BOX_LIVE_DAILY_LOSS_LIMIT"
    label := "Daily loss limit"
    type := .integer, min := some 0, max := some 10000000, zeroMeans := some .unlimited
    containment := .ceiling, safeDirection := .lowerIsSafer, policy := .flatAndDisarmed, requiresFullAdmin := true },
  { key := "liveMaxResidualLegs", envVar := "BOX_LIVE_MAX_RESIDUAL_LEGS"
    label := "Residual leg tolerance"
    type := .integer, min := some 0, max := some 4, zeroMeans := some .value
    containment := .ceiling, safeDirection := .lowerIsSafer, policy := .flatAndDisarmed, requiresFullAdmin := true },
  { key := "liveMaxOpenLegQuantity", envVar := "BOX_LIVE_MAX_OPEN_LEG_QUANTITY"
    label := "Maximum quantity per leg"
    type := .integer, min := some 1, max := some 1000000
    containment := .ceiling, safeDirection := .lowerIsSafer, policy := .flatAndDisarmed, requiresFullAdmin := true },
  { key := "liveMaxGrossOpenLegQuantity", envVar := "BOX_LIVE_MAX_GROSS_OPEN_LEG_QUANTITY"
    label := "Maximum gross quantity"
    type := .integer, min := some 1, max := some 4000000
    containment := .ceiling, safeDirection := .lowerIsSafer, policy := .flatAndDisarmed, requiresFullAdmin := true },
  { key := "liveMaxConcurrentExecutions", envVar := "BOX_LIVE_MAX_CONCURRENT_EXECUTIONS"
    label := "Live execution concurrency"
    type := .integer, min := some 1, max := some 4
    containment := .ceiling, safeDirection := .lowerIsSafer, policy := .flatAndDisarmed, requiresFullAdmin := true },
  { key := "liveRequireFundsCover", envVar := "BOX_LIVE_REQUIRE_FUNDS_COVER"
    label := "Require funds cover"
    type := .boolean
    containment := .floor, safeDirection := .enabledIsSafer, policy := .tightenOnlyWhileArmed
    requiresFullAdmin := true },
  { key := "liveRequireMarginEvidence", envVar := "BOX_LIVE_REQUIRE_MARGIN_EVIDENCE"
    label := "Require margin evidence"
    type := .boolean
    containment := .floor, safeDirection := .enabledIsSafer, policy := .tightenOnlyWhileArmed
    requiresFullAdmin := true },
  { key := "liveRecoveryReserveRupees", envVar := "BOX_LIVE_RECOVERY_RESERVE_RUPEES"
    label := "Recovery reserve"
    type := .integer, min := some 0, max := some 100000000
    containment := .floor, safeDirection := .higherIsSafer, policy := .tightenOnlyWhileArmed
    requiresFullAdmin := true },
  { key := "sessionMaxCompletedTrades", envVar := "BOX_SESSION_MAX_COMPLETED_TRADES"
    label := "Session completed-trade ceiling"
    type := .integer, min := some 0, max := some 10000, zeroMeans := some .unlimited
    containment := .ceiling, safeDirection := .lowerIsSafer, policy := .nextSession, requiresFullAdmin := true },
  { key := "sessionMaxEntryAttempts", envVar := "BOX_SESSION_MAX_ENTRY_ATTEMPTS"
    label := "Session entry-attempt ceiling"
    type := .integer, min := some 0, max := some 10000, zeroMeans := some .unlimited
    containment := .ceiling, safeDirection := .lowerIsSafer, policy := .nextSession, requiresFullAdmin := true },
  { key := "quoteMaxAgeMs", envVar := "BOX_QUOTE_MAX_AGE_MS"
    label := "Quote freshness limit"
    type := .integer, min := some 250, max := some 120000
    containment := .ceiling, safeDirection := .lowerIsSafer, policy := .flatAndDisarmed, requiresFullAdmin := true },
  { key := "feedMaxAgeMs", envVar := "BOX_FEED_MAX_AGE_MS"
    label := "Feed heartbeat limit"
    type := .integer, min := some 250, max := some 120000
    containment := .ceiling, safeDirection := .lowerIsSafer, policy := .flatAndDisarmed, requiresFullAdmin := true },
  { key := "underlyingMaxAgeMs", envVar := "BOX_UNDERLYING_MAX_AGE_MS"
    label := "Underlying freshness limit"
    type := .integer, min := some 250, max := some 120000
    containment := .ceiling, safeDirection := .lowerIsSafer, policy := .tightenOnlyWhileArmed
    requiresFullAdmin := true },
  { key := "maxCrossLegReceiveDispersionMs", envVar := "BOX_MAX_CROSS_LEG_RECEIVE_DISPERSION_MS"
    label := "Cross-leg receive-time coherence"
    type := .integer, min := some 0, max := some 60000, zeroMeans := some .disabled
    containment := .ceiling, safeDirection := .lowerIsSafer, policy := .tightenOnlyWhileArmed
    requiresFullAdmin := true },
  { key := "maxCrossLegExchangeDispersionMs", envVar := "BOX_MAX_CROSS_LEG_EXCHANGE_DISPERSION_MS"
    label := "Cross-leg exchange-time coherence"
    type := .integer, min := some 0, max := some 60000, zeroMeans := some .disabled
    containment := .ceiling, safeDirection := .lowerIsSafer, policy := .tightenOnlyWhileArmed
    requiresFullAdmin := true },
  { key := "maxReceiveToExchangeDelayMs", envVar := "BOX_MAX_RECEIVE_TO_EXCHANGE_DELAY_MS"
    label := "Feed delay tolerance"
    type := .integer, min := some 0, max := some 120000, zeroMeans := some .disabled
    containment := .ceiling, safeDirection := .lowerIsSafer, policy := .tightenOnlyWhileArmed
    requiresFullAdmin := true },
  { key := "coherenceZeroDispersionDisablesInLive", envVar := "BOX_COHERENCE_ZERO_DISPERSION_DISABLES_IN_LIVE"
    label := "Treat a zero coherence limit as disabled in live"
    type := .boolean
    containment := .ceiling, safeDirection := .disabledIsSafer, policy := .flatAndDisarmed
    requiresFullAdmin := true },
  { key := "paperExecutionProfile", envVar := "BOX_PAPER_EXECUTION_PROFILE"
    label := "Paper execution profile"
    type := .enum, enumValues := ["standard", "live_parity", "stress"], forbiddenValuesInLive := ["stress"]
    containment := .replace, safeDirection := .neutral, policy := .flatAndDisarmed, requiresFullAdmin := true },
  { key := "simulatedLatencyMs", envVar := "BOX_SIMULATED_LATENCY_MS"
    label := "Simulated latency"
    type := .integer, min := some 0, max := some 60000
    containment := .replace, safeDirection := .neutral, policy := .hotSafe, requiresFullAdmin := false },
  { key := "simulatedDecisionMs", envVar := "BOX_SIMULATED_DECISION_MS"
    label := "Simulated decision time"
    type := .integer, min := some 0, max := some 60000
    containment := .replace, safeDirection := .neutral, policy := .hotSafe, requiresFullAdmin := false },
  { key := "paperMaxConcurrentExecutions", envVar := "BOX_PAPER_MAX_CONCURRENT_EXECUTIONS"
    label := "Paper execution concurrency"
    type := .integer, min := some 1, max := some 8
    containment := .replace, safeDirection := .lowerIsSafer, policy := .hotSafe, requiresFullAdmin := false },
  { key := "maxUnderlyings", envVar := "BOX_MAX_UNDERLYINGS"
    label := "Maximum underlyings watched"
    type := .integer, min := some 0, max := some 1000, zeroMeans := some .unlimited
    containment := .ceiling, safeDirection := .lowerIsSafer, policy := .tightenOnlyWhileArmed
    requiresFullAdmin := true },
  { key := "maxSubscribedTokens", envVar := "BOX_MAX_SUBSCRIBED_TOKENS"
    label := "Maximum subscribed instruments"
    type := .integer, min := some 1, max := some 10000
    containment := .ceiling, safeDirection := .lowerIsSafer, policy := .tightenOnlyWhileArmed
    requiresFullAdmin := true },
  { key := "indicativeDiscovery", envVar := "BOX_INDICATIVE_DISCOVERY"
    label := "Closed-market indicative discovery"
    type := .boolean
    containment := .replace, safeDirection := .neutral, policy := .hotSafe, requiresFullAdmin := false },
  { key := "indicativeMaxUnderlyings", envVar := "BOX_INDICATIVE_MAX_UNDERLYINGS"
    label := "Indicative discovery breadth"
    type := .integer, min := some 1, max := some 1000
    containment := .ceiling, safeDirection := .lowerIsSafer, policy := .hotSafe, requiresFullAdmin := false },
  { key := "maxPublishedOpportunities", envVar := "BOX_MAX_PUBLISHED_OPPORTUNITIES"
    label := "Opportunities published"
    type := .integer, min := some 1, max := some 500
    containment := .replace, safeDirection := .neutral, policy := .hotSafe, requiresFullAdmin := false },
  { key := "windowMinIntervalMs", envVar := "BOX_WINDOW_MIN_INTERVAL_MS"
    label := "Strike window hold time"
    type := .integer, min := some 0, max := some 600000
    containment := .replace, safeDirection := .neutral, policy := .hotSafe, requiresFullAdmin := false },
  { key := "requirePricedCharges", envVar := "BOX_REQUIRE_PRICED_CHARGES"
    label := "Require priced charges"
    type := .boolean
    containment := .floor, safeDirection := .enabledIsSafer, policy := .tightenOnlyWhileArmed
    requiresFullAdmin := true },
  { key := "prefilterChargeAllowance", envVar := "BOX_PREFILTER_CHARGE_ALLOWANCE"
    label := "Prefilter charge allowance"
    type := .number, min := some 0, max := some RUPEE_MAX
    containment := .replace, safeDirection := .higherIsSafer, policy := .hotSafe, requiresFullAdmin := false },
  { key := "reconcileCharges", envVar := "BOX_RECONCILE_CHARGES"
    label := "Reconcile charges against the broker"
    type := .boolean
    containment := .replace, safeDirection := .enabledIsSafer, policy := .hotSafe, requiresFullAdmin := false },
  { key := "chargeReconcileWarnPct", envVar := "BOX_CHARGE_RECONCILE_WARN_PCT"
    label := "Charge divergence warning threshold"
    type := .number, min := some 0, max := some 100
    containment := .replace, safeDirection := .lowerIsSafer, policy := .hotSafe, requiresFullAdmin := false }
]

/-- A bound is on booleans with a safe state, or on numbers held in their safe direction. -/
def SettingSpec.Contained (spec : SettingSpec) : Prop :=
  (spec.type = .boolean ∧ (spec.safeDirection = .enabledIsSafer ∨ spec.safeDirection = .disabledIsSafer)) ∨
  ((spec.type = .integer ∨ spec.type = .number) ∧
    ((spec.containment = .ceiling ∧ spec.safeDirection = .lowerIsSafer) ∨
      (spec.containment = .floor ∧ spec.safeDirection = .higherIsSafer ∧ spec.zeroMeans = none)))

instance (spec : SettingSpec) : Decidable spec.Contained := inferInstanceAs (Decidable (_ ∨ _))

theorem contained_of_mem : ∀ spec ∈ OPERATOR_SETTINGS, spec.containment ≠ .replace → spec.Contained := by decide

theorem mutable_of_mem : ∀ spec ∈ OPERATOR_SETTINGS, spec.policy ≠ .restartRequired := by decide

theorem nodup_keys : (OPERATOR_SETTINGS.map SettingSpec.key).Nodup := by decide

end BoxEngine
