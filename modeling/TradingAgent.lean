import TradingAgent.Library.Transition
import TradingAgent.Library.Attempt
import TradingAgent.Library.Decimal
import TradingAgent.Library.Time
import TradingAgent.Library.Text
import TradingAgent.Paper.Models
import TradingAgent.Safety.Models
import TradingAgent.Mutation.Models
import TradingAgent.Library.Except
import TradingAgent.Mutation.Transitions
import TradingAgent.Ledger
import TradingAgent.Mutation.Store
import TradingAgent.Mutation.Recovery.Rules
import TradingAgent.Mutation.Recovery
import TradingAgent.Mutation.Executor
import TradingAgent.Mutation.Protocol
import TradingAgent.Calendar
import TradingAgent.Paper.Risk
import TradingAgent.Library.Fold
import TradingAgent.Portfolio.Models
import TradingAgent.Portfolio.Validation
import TradingAgent.Projection.Models
import TradingAgent.Portfolio.Builder
import TradingAgent.Portfolio.Coverage
import TradingAgent.Portfolio.Gate
import TradingAgent.Portfolio.OrderGate
import TradingAgent.Safety.Planner
import TradingAgent.Safety.Scope
import TradingAgent.Library.RunningSum
import TradingAgent.Projection.Execution
import TradingAgent.Projection.ArrivalOrder
import TradingAgent.Library.Lineage
import TradingAgent.Protection.Plan
import TradingAgent.Protection.Lifecycle
import TradingAgent.Protection.Store
import TradingAgent.Protection.Residual
import TradingAgent.Library.Resume
import TradingAgent.Recommendation.Engine
import TradingAgent.Recommendation.Fills
import TradingAgent.Recommendation.Follow
import TradingAgent.Recommendation.Sessions
import TradingAgent.Recommendation.History
import TradingAgent.Recommendation.Crash
import TradingAgent.AutonomousTask.Models
import TradingAgent.AutonomousTask.Projection
import TradingAgent.AutonomousTask.Readable
import TradingAgent.AutonomousTask.Runnable
import TradingAgent.Library.Renaming
import TradingAgent.Sip.Messages
import TradingAgent.Sip.TradeState
import TradingAgent.Sip.Reference
import TradingAgent.Sip.Agreement
import TradingAgent.Sip.AsOf
import TradingAgent.Subscription.Models
import TradingAgent.Subscription.Policy
import TradingAgent.Subscription.State
import TradingAgent.Subscription.Advance
import TradingAgent.Subscription.Runs
import TradingAgent.Kr.Models
import TradingAgent.Kr.Engine
import TradingAgent.Kr.Events
import TradingAgent.Kr.Advance
import TradingAgent.Kr.Session
import TradingAgent.Kr.Polling
import TradingAgent.Kr.Resume
import TradingAgent.Kr.Store
import TradingAgent.Kr.Storable
import TradingAgent.Hermes.Models
import TradingAgent.Hermes.Store
import TradingAgent.Hermes.Redrive
import TradingAgent.Hermes.Protocol
import TradingAgent.Hermes.Delivery
import TradingAgent.Hermes.Stranded
import TradingAgent.Library.Writing
import TradingAgent.Swing.Models
import TradingAgent.Swing.Store
import TradingAgent.Swing.Engine
import TradingAgent.Swing.Turn
import TradingAgent.Swing.Session
import TradingAgent.Swing.Independence
import TradingAgent.Swing.Crash
import TradingAgent.Library.Supersession
import TradingAgent.CanonicalEvent.Models
import TradingAgent.CanonicalEvent.History
import TradingAgent.CanonicalEvent.Causal
import TradingAgent.CanonicalEvent.Forest
import TradingAgent.ForwardTrial.Models
import TradingAgent.ForwardTrial.Chain
import TradingAgent.ForwardTrial.Ledger
import TradingAgent.ForwardTrial.Replay
import TradingAgent.UsDay.Models
import TradingAgent.UsDay.Chain
import TradingAgent.UsDay.Lifecycle
import TradingAgent.UsDay.Admission
import TradingAgent.UsDay.Operating
import TradingAgent.UsDay.Projection
import TradingAgent.UsDay.Recovery
import TradingAgent.UsDay.Directory
import TradingAgent.UsDay.Store
import TradingAgent.UsDay.Durability
import TradingAgent.UsDay.Reopening
import TradingAgent.UsDay.Processes
import TradingAgent.ResearchCycle.Models
import TradingAgent.ResearchCycle.Store
import TradingAgent.ResearchCycle.Calls
import TradingAgent.ResearchCycle.Invariant
import TradingAgent.ResearchCycle.History
import TradingAgent.Library.Float
import TradingAgent.Portfolio.Sizing
import TradingAgent.Hermes.Connection
import TradingAgent.Hermes.Refusal
import TradingAgent.Kr.Grid
import TradingAgent.Kr.Planner
import TradingAgent.Kr.Levels
import TradingAgent.Kr.Plan
import TradingAgent.Library.Draws
import TradingAgent.Library.Interpolation
import TradingAgent.StrategyResearch.Statistics
import TradingAgent.StrategyResearch.Resampling
import TradingAgent.Safety.Execution
import TradingAgent.Safety.Store
import TradingAgent.Safety.Plan
import TradingAgent.Library.Interference
import TradingAgent.Publication.Directory
import TradingAgent.Publication.Programs
import TradingAgent.Publication.Cells
import TradingAgent.Publication.Runs
import TradingAgent.Publication.Protocol
import TradingAgent.Publication.Progress
import TradingAgent.Publication.Immutable
import TradingAgent.Recommendation.Histories
import TradingAgent.Recommendation.Calls
import TradingAgent.UsDay.Coverage
import TradingAgent.IntradayFeature.Indicators
import TradingAgent.IntradayFeature.Kernel
import TradingAgent.Library.Window
import TradingAgent.Systematic.Engine
import TradingAgent.Systematic.Agreement
import TradingAgent.Library.Journal
import TradingAgent.Library.Transaction
import TradingAgent.Lifecycle.Authority
import TradingAgent.Lifecycle.History
import TradingAgent.Lifecycle.MultiMarket
import TradingAgent.Lifecycle.MultiMarketPolicy
import TradingAgent.Lifecycle.Policy
import TradingAgent.DayAgent.Course
import TradingAgent.DayResearch.Audit
import TradingAgent.DayResearch.Provenance
