import TradingAgent.Paper.Risk

/-!
# The portfolio and the order gate

The portfolio is what the account is exposed to: one exposure for each symbol with a position or
an order that would open one. The order gate decides on a candidate order from a snapshot of the
portfolio, the market clock, the latest bar and the order stream.
-/

namespace TradingAgent

inductive PaperExposureKind
  | pendingEntry
  | partialEntry
  | openPosition
  deriving DecidableEq, Repr

structure PaperPortfolioExposure where
  intentId : IntentId
  symbol : String
  kind : PaperExposureKind
  grossExposure : Decimal
  plannedRisk : Decimal
  deriving DecidableEq, Repr

structure CompletePaperPortfolio where
  observedAt : DateTime
  accountStatus : String
  tradingBlocked : Bool
  equity : Decimal
  lastEquity : Decimal
  buyingPower : Decimal
  exposures : List PaperPortfolioExposure
  deriving DecidableEq, Repr

namespace CompletePaperPortfolio

variable (portfolio : CompletePaperPortfolio)

def exposedSymbols : List String := (portfolio.exposures.map (·.symbol)).dedup

def grossExposure : Decimal := .sum (portfolio.exposures.map (·.grossExposure))

def plannedOpenRisk : Decimal := .sum (portfolio.exposures.map (·.plannedRisk))

end CompletePaperPortfolio

/-- The portfolio, or why it is not known. -/
inductive PaperPortfolioSnapshot
  | complete (portfolio : CompletePaperPortfolio)
  | incomplete (reasons : List String)
  deriving DecidableEq, Repr

structure LatestCompletedBar where
  symbol : String
  startedAt : DateTime
  firstObservedAt : DateTime
  deriving DecidableEq, Repr

structure PaperOrderStreamHeartbeat where
  connectionEpoch : String
  authorizedAt : DateTime
  subscribedAt : DateTime
  pongAt : DateTime
  deriving DecidableEq, Repr

structure PaperOrderGateSnapshot where
  marketClock : PaperMarketClockSnapshot
  latestBar : LatestCompletedBar
  streamHeartbeat : PaperOrderStreamHeartbeat
  portfolio : PaperPortfolioSnapshot
  candidateIntent : PaperOrderIntent
  liquidityAllowedQuantity : ℤ
  estimatedSpreadBps : Decimal
  deriving DecidableEq, Repr

/-- The states of the gate that block an order. -/
inductive PaperOrderGateState
  | sessionBlocked
  | currentBarBlocked
  | streamBlocked
  | portfolioBlocked
  deriving DecidableEq, Repr

inductive PaperOrderGateDecision
  | approved (sizedOrder : SizedPaperOrder)
  | blocked (state : PaperOrderGateState) (reasons : List String)
  deriving DecidableEq, Repr

end TradingAgent
