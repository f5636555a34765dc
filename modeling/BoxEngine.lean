import BoxEngine.AccountSound
import BoxEngine.AcknowledgeSound
import BoxEngine.BoundedQueue
import BoxEngine.BrokerRejection
import BoxEngine.CeilingSound
import BoxEngine.ChainedReservations
import BoxEngine.DegradedRecovery
import BoxEngine.DhanBrokerAdapterSound
import BoxEngine.DhanFeedDecoder
import BoxEngine.EntryEconomics
import BoxEngine.EvidenceSound
import BoxEngine.ExclusionSound
import BoxEngine.ExitDecision
import BoxEngine.FlattenCharges
import BoxEngine.FlattenOutcome
import BoxEngine.ForwardSound
import BoxEngine.HealthSound
import BoxEngine.HeartbeatSound
import BoxEngine.HedgeCoverage
import BoxEngine.HedgeFirstSound
import BoxEngine.IdentitySound
import BoxEngine.KiteTicker
import BoxEngine.LegExecutorSound
import BoxEngine.MarginReplay
import BoxEngine.MarketCalendar
import BoxEngine.MarketDataMachine
import BoxEngine.OperatorConfigSound
import BoxEngine.OverfillTripwire
import BoxEngine.PacerAlike
import BoxEngine.PaperAdapter
import BoxEngine.PaperScheduler
import BoxEngine.PartialExitPnl
import BoxEngine.PnlDaySound
import BoxEngine.ProjectionOrder
import BoxEngine.ProjectionSound
import BoxEngine.RateBudget
import BoxEngine.RedactionSound
import BoxEngine.ReconcilerSound
import BoxEngine.RecoveryPlanSound
import BoxEngine.RetrySound
import BoxEngine.SettleSound
import BoxEngine.SseWriter
import BoxEngine.SteppingPacer
import BoxEngine.SubscriptionCounts
import BoxEngine.SweepSound
import BoxEngine.TradingSessionSound
import BoxEngine.TuningSound
import BoxEngine.UnderlyingSound
import BoxEngine.UniverseSubscriptions
import BoxEngine.VerifiedOwnerSound
