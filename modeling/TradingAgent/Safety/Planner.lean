import TradingAgent.Portfolio.OrderGate
import TradingAgent.Safety.Models

/-!
# The safety planner

The phase of the session, and what is to be done about the account in it
(`planPaperSafetyActions`): in the last half hour entries are canceled, and in the last five
minutes, or when the loss of the day may reach its limit, all orders are canceled and all
positions closed.
-/

namespace TradingAgent

def CURRENT_SAFETY_SNAPSHOT_AGE : TimeDelta := .seconds 5
def EOD_FLATTEN_BEFORE_CLOSE : TimeDelta := .minutes 5

/-- The builtin `abs` of the quantity of a position, which rounds to 28 digits. -/
def absQuantity (position : PaperPositionSnapshot) : Decimal := position.quantity.abs.rounded

def positionReasons (positions : List PaperPositionSnapshot) : List String :=
  let symbols := positions.map (·.symbol)
  if symbols.length ≠ symbols.dedup.length then
    ["평탄화 대상 broker 포지션 symbol이 중복됩니다"]
  else if ∃ position ∈ positions,
      position.symbol = ""
        ∨ ¬ isUpper position.symbol
        ∨ ¬ position.quantity.isFinite
        ∨ position.quantity = 0
        ∨ ¬ (absQuantity position).isIntegral then
    ["초기 Paper 안전조치는 유효한 정수 주식 포지션만 평탄화합니다"]
  else
    []

def closeAction (position : PaperPositionSnapshot) : PaperClosePositionAction where
  symbol := position.symbol
  side := if 0 < position.quantity then .sell else .buy
  quantity := absQuantity position

/-- The cancellations of the open orders, by their identities. -/
def entryCancels (state : PaperBrokerState) : List PaperCancelOrderAction :=
  (state.openOrders.insertionSort fun a b => a.brokerOrderId ≤ b.brokerOrderId).map fun order =>
    ⟨order.brokerOrderId, order.symbol, false⟩

/-- The cancellations of the protective OCOs, by the identities of the legs that take profit. -/
def protectiveCancels (state : PaperBrokerState) : List PaperCancelOrderAction :=
  (state.protectiveOcos.insertionSort fun a b =>
    a.takeProfit.brokerOrderId ≤ b.takeProfit.brokerOrderId).map fun snapshot =>
      ⟨snapshot.takeProfit.brokerOrderId, snapshot.takeProfit.symbol, true⟩

/-- The actions of a phase, or why there are none. -/
def actionsForPhase (phase : PaperSafetyPhase) (state : PaperBrokerState) :
    Except (List String) (List PaperSafetyAction) :=
  match phase with
  | .monitoring => .ok []
  | .entryCutoff => .ok ((entryCancels state).map .cancelOrder)
  | .killSwitch | .eodFlatten =>
    let positions := state.positions.insertionSort fun a b => a.symbol ≤ b.symbol
    if positionReasons positions ≠ [] then
      .error (positionReasons positions)
    else
      let cancels := entryCancels state ++ protectiveCancels state
      let cancelIds := cancels.map (·.brokerOrderId)
      if cancelIds.length ≠ cancelIds.dedup.length then
        .error ["취소 대상 broker order identity가 중복됩니다"]
      else
        .ok (cancels.map .cancelOrder ++ positions.map fun p => .closePosition (closeAction p))

variable (newYork : ZoneInfo)

def snapshotReasons (state : PaperBrokerState) (clock : PaperMarketClockSnapshot)
    (portfolio : CompletePaperPortfolio) (now : DateTime) : List String :=
  let receipts := [state.account.observedAt, clock.observedAt, clock.marketTimestamp,
    portfolio.observedAt] ++ state.protectiveOcos.map (·.observedAt)
  let nowNewYork := now.astimezone newYork
  let bounds := regularSessionBounds nowNewYork.date
  firstReason
    [(¬ (∀ value ∈ receipts, isCurrent now value CURRENT_SAFETY_SNAPSHOT_AGE),
      "Paper 안전조치 snapshot이 현재 5초 구간의 완전한 응답이 아닙니다"),
    (bounds.all (fun bounds =>
        ¬ clock.isOpen
          ∨ ¬ (bounds.opens ≤ nowNewYork.wall ∧ nowNewYork.wall < bounds.closes)
          ∨ (clock.nextClose.astimezone newYork).wall ≠ bounds.closes),
      "브로커와 로컬 거래소의 열린 정규장 경계가 일치하지 않습니다"),
    (portfolio.accountStatus.toUpper ≠ "ACTIVE"
        ∨ portfolio.tradingBlocked
        ∨ state.account.status.toUpper ≠ portfolio.accountStatus.toUpper
        ∨ state.account.tradingBlocked ≠ portfolio.tradingBlocked
        ∨ state.account.equity ≠ portfolio.equity
        ∨ state.account.lastEquity ≠ portfolio.lastEquity,
      "Paper 계좌와 포트폴리오 안전값이 일치하지 않습니다")]

/-- The profit of the day, as the market has it. -/
def markToMarketDailyPnl (portfolio : CompletePaperPortfolio) : Decimal :=
  portfolio.equity - portfolio.lastEquity

/-- The profit of the day, if every open position is stopped out. -/
def conservativeDailyPnl (portfolio : CompletePaperPortfolio) : Decimal :=
  markToMarketDailyPnl portfolio - .sum ((portfolio.exposures.filter
    (·.kind ≠ .pendingEntry)).map (·.plannedRisk))

/-- The phase of a session that closes at a time on the clocks of New York. -/
def paperSafetyPhase (portfolio : CompletePaperPortfolio) (now closes : ℤ)
    (config : PaperRiskConfig) (killSwitchLatched : Bool) : PaperSafetyPhase :=
  let lossLimit := -config.dailyLossLimitDollars
  if killSwitchLatched ∨ markToMarketDailyPnl portfolio ≤ lossLimit
      ∨ conservativeDailyPnl portfolio ≤ lossLimit then
    .killSwitch
  else if closes - EOD_FLATTEN_BEFORE_CLOSE ≤ now then
    .eodFlatten
  else if closes - ENTRY_CUTOFF_BEFORE_CLOSE ≤ now then
    .entryCutoff
  else
    .monitoring

def planPaperSafetyActions (brokerState : PaperBrokerState)
    (marketClock : PaperMarketClockSnapshot) (portfolioSnapshot : PaperPortfolioSnapshot)
    (evaluatedAt : DateTime) (config : PaperRiskConfig) (killSwitchLatched : Bool) :
    Except UnsafePaperRiskConfigError PaperSafetyPlanDecision := do
  config.assertWithinHardLimits
  match portfolioSnapshot with
  | .incomplete _ => pure (.blocked ["전체 포트폴리오 위험 집계가 불완전합니다"])
  | .complete portfolio =>
    let reasons := snapshotReasons newYork brokerState marketClock portfolio evaluatedAt
    if reasons ≠ [] then
      pure (.blocked reasons)
    else
    let nowNewYork := evaluatedAt.astimezone newYork
    match regularSessionBounds nowNewYork.date with
    | none => pure (.blocked ["로컬 거래소 달력상 정규장이 아닙니다"])
    | some bounds =>
      let phase := paperSafetyPhase portfolio nowNewYork.wall bounds.closes config
        killSwitchLatched
      match actionsForPhase phase brokerState with
      | .error reasons => pure (.blocked reasons)
      | .ok actions =>
        pure (.plan
          { accountFingerprint := brokerState.account.accountFingerprint
            observedAt := evaluatedAt
            sessionDate := nowNewYork.date
            phase
            markToMarketDailyPnl := markToMarketDailyPnl portfolio
            conservativeDailyPnl := conservativeDailyPnl portfolio
            actions })

end TradingAgent
