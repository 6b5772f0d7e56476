import TradingAgent.Calendar
import TradingAgent.Portfolio.Gate

/-!
# The order gate

A candidate intent is approved as an order only within the regular session, on the bar that was
just completed, with a live order stream, and if the order it is sized to fits into the portfolio
(`evaluateReconciledPaperOrderGate`). An approved order keeps the account within its limits
(`approved_within_limits`).
-/

namespace TradingAgent

def CURRENT_DATA_AGE : TimeDelta := .seconds 5
def BAR_DURATION : TimeDelta := .minutes 1
def ENTRY_CUTOFF_BEFORE_CLOSE : TimeDelta := .minutes 30

variable (newYork : ZoneInfo) (snapshot : PaperOrderGateSnapshot) (now : DateTime)

def sessionReasons : List String :=
  let clock := snapshot.marketClock
  let nowNewYork := now.astimezone newYork
  if ¬ (isCurrent now clock.observedAt CURRENT_DATA_AGE
      ∧ isCurrent now clock.marketTimestamp CURRENT_DATA_AGE
      ∧ clock.nextOpen.aware
      ∧ clock.nextClose.aware) then
    ["Alpaca 시장시계가 현재 시점의 완전한 응답이 아닙니다"]
  else if ¬ clock.isOpen then
    ["Alpaca 시장시계가 정규장 개장을 확인하지 않았습니다"]
  else
    match regularSessionBounds nowNewYork.date with
    | none => ["로컬 거래소 달력상 정규장이 아닙니다"]
    | some bounds =>
      if ¬ (bounds.opens ≤ nowNewYork.wall ∧ nowNewYork.wall < bounds.closes) then
        ["현재 시각이 정규장 범위 밖입니다"]
      else if (clock.nextClose.astimezone newYork).wall ≠ bounds.closes then
        ["브로커와 로컬 거래소 폐장시각이 일치하지 않습니다"]
      else if bounds.closes - ENTRY_CUTOFF_BEFORE_CLOSE ≤ nowNewYork.wall then
        ["폐장 30분 전부터 신규 진입을 차단합니다"]
      else
        []

def currentBarReasons : List String :=
  let bar := snapshot.latestBar
  let intent := snapshot.candidateIntent
  if ¬ (∀ value ∈ [now, bar.startedAt, bar.firstObservedAt, intent.createdAt], value.aware) then
    ["봉과 추천 시각은 timezone-aware 값이어야 합니다"]
  else
    -- The start of the minute before the current one.
    let nowNewYork := now.astimezone newYork
    let expectedStart : DateTime :=
      { nowNewYork with wall := nowNewYork.wall - nowNewYork.wall % TimeDelta.minutes 1 - BAR_DURATION }
    let barEnd := expectedStart.wall + BAR_DURATION
    let bounds := regularSessionBounds expectedStart.date
    if bounds.all (fun bounds => expectedStart.wall < bounds.opens ∨ bounds.closes < barEnd)
        ∨ bar.symbol ≠ intent.symbol
        ∨ intent.symbol = ""
        ∨ ¬ isUpper intent.symbol
        ∨ (bar.startedAt.astimezone newYork).wall ≠ expectedStart.wall
        ∨ ¬ barEnd ≤ (bar.firstObservedAt.astimezone newYork).wall
        ∨ now < bar.firstObservedAt
        ∨ ¬ (bar.firstObservedAt ≤ intent.createdAt ∧ intent.createdAt ≤ now) then
      ["추천이 방금 완성되어 관측된 정확한 현재 1분봉에서 생성되지 않았습니다"]
    else
      []

def streamReasons : List String :=
  let heartbeat := snapshot.streamHeartbeat
  if heartbeat.connectionEpoch = ""
      ∨ ¬ isCurrent now heartbeat.pongAt CURRENT_DATA_AGE
      ∨ ¬ (∀ value ∈ [heartbeat.authorizedAt, heartbeat.subscribedAt, heartbeat.pongAt],
            value.aware)
      ∨ ¬ (heartbeat.authorizedAt ≤ heartbeat.subscribedAt
          ∧ heartbeat.subscribedAt ≤ heartbeat.pongAt) then
    ["trade_updates 연결의 인증·구독·Pong 상태가 현재가 아닙니다"]
  else
    []

def evaluateReconciledPaperOrderGate (config : PaperRiskConfig) :
    Except UnsafePaperRiskConfigError PaperOrderGateDecision := do
  config.assertWithinHardLimits
  if sessionReasons newYork snapshot now ≠ [] then
    pure (.blocked .sessionBlocked (sessionReasons newYork snapshot now))
  else if currentBarReasons newYork snapshot now ≠ [] then
    pure (.blocked .currentBarBlocked (currentBarReasons newYork snapshot now))
  else if streamReasons snapshot now ≠ [] then
    pure (.blocked .streamBlocked (streamReasons snapshot now))
  else
    match snapshot.portfolio with
    | .incomplete _ => pure (.blocked .portfolioBlocked ["전체 포트폴리오 위험 집계가 불완전합니다"])
    | .complete portfolio =>
      let candidate? ← sizePaperOrder snapshot.candidateIntent
        { conservativeEquity := conservativeEquity portfolio config
          liquidityAllowedQuantity := snapshot.liquidityAllowedQuantity
          estimatedSpreadBps := snapshot.estimatedSpreadBps }
        config
      match candidate? with
      | none =>
        pure (.blocked .portfolioBlocked ["후보 주문을 하드 위험 한도 안에서 산정할 수 없습니다"])
      | some candidate =>
        let reasons := portfolioReasons (.complete portfolio) candidate now config
        if reasons ≠ [] then
          pure (.blocked .portfolioBlocked reasons)
        else
          pure (.approved candidate)

variable {newYork snapshot now} {config : PaperRiskConfig} {order : SizedPaperOrder}

/-- Without a reason against it, the time is within the session, and more than 30 minutes before
    its end. -/
theorem sessionReasons_eq_nil (h : sessionReasons newYork snapshot now = []) :
    ∃ bounds, regularSessionBounds (now.astimezone newYork).date = some bounds
      ∧ bounds.opens ≤ (now.astimezone newYork).wall
      ∧ (now.astimezone newYork).wall < bounds.closes - TimeDelta.minutes 30 := by
  rw [sessionReasons] at h
  split_ifs at h
  split at h
  · exact absurd h (List.cons_ne_nil _ _)
  case h_2 bounds hbounds =>
    split_ifs at h with hwithin hclose hcutoff
    exact ⟨bounds, hbounds, hwithin.1, not_le.1 hcutoff⟩

/-- An approved order is sized for the equity of a complete portfolio, which has no reason
    against it. -/
theorem evaluateReconciledPaperOrderGate_eq_approved
    (h : evaluateReconciledPaperOrderGate newYork snapshot now config = .ok (.approved order)) :
    config.WithinHardLimits
      ∧ sessionReasons newYork snapshot now = []
      ∧ ∃ portfolio, snapshot.portfolio = .complete portfolio
        ∧ order.IsSizeOf snapshot.candidateIntent
            { conservativeEquity := conservativeEquity portfolio config
              liquidityAllowedQuantity := snapshot.liquidityAllowedQuantity
              estimatedSpreadBps := snapshot.estimatedSpreadBps }
        ∧ completePortfolioReasons portfolio order now config = [] := by
  rw [evaluateReconciledPaperOrderGate, Except.bind_eq_ok] at h
  obtain ⟨⟨⟩, hlimits, h⟩ := h
  have hconfig := PaperRiskConfig.assertWithinHardLimits_iff.1 hlimits
  split_ifs at h with hsession
  all_goals try cases h
  rw [not_ne_iff] at hsession
  cases hportfolio : snapshot.portfolio with
  | incomplete reasons => simp [hportfolio] at h
  | complete portfolio =>
    simp only [hportfolio, Except.bind_eq_ok] at h
    obtain ⟨candidate, hsize, h⟩ := h
    cases candidate with
    | none => simp at h
    | some candidate =>
      dsimp only at h
      split_ifs at h with hreasons
      all_goals cases h
      exact ⟨hconfig, hsession, portfolio, rfl, sizePaperOrder_spec hsize,
        not_ne_iff.1 hreasons⟩

/-- An approved order, of at least one share of a symbol not exposed so far, keeps the account
    within its limits: of risk and notional amount, for its slot and for all slots together, of
    the number of slots, of the buying power, of the loss of the day, and of the session. -/
theorem approved_within_limits
    (h : evaluateReconciledPaperOrderGate newYork snapshot now config = .ok (.approved order)) :
    ∃ portfolio bounds,
      snapshot.portfolio = .complete portfolio
      ∧ order.intent = snapshot.candidateIntent
      ∧ 1 ≤ order.quantity
      ∧ order.intent.symbol ∉ portfolio.exposedSymbols
      ∧ portfolio.exposures.length + 1 ≤ config.maxOpenPositions
      ∧ (order.quantity : Decimal) * order.riskPerShare ≤ effectiveRiskLimit portfolio config
      ∧ (order.quantity : Decimal) * order.intent.entryLimit
          ≤ effectiveNotionalLimit portfolio config
      ∧ portfolio.plannedOpenRisk + (order.quantity : Decimal) * order.riskPerShare
          ≤ effectiveRiskLimit portfolio config * ((portfolio.exposures.length + 1 : ℤ) : Decimal)
      ∧ portfolio.grossExposure + (order.quantity : Decimal) * order.intent.entryLimit
          ≤ grossLimit portfolio config (portfolio.exposures.length + 1)
      ∧ (order.quantity : Decimal) * order.intent.entryLimit ≤ portfolio.buyingPower
      ∧ -config.dailyLossLimitDollars < portfolio.equity - portfolio.lastEquity
      ∧ regularSessionBounds (now.astimezone newYork).date = some bounds
      ∧ bounds.opens ≤ (now.astimezone newYork).wall
      ∧ (now.astimezone newYork).wall < bounds.closes - TimeDelta.minutes 30 := by
  obtain ⟨hconfig, hsession, portfolio, hportfolio, hsize, hreasons⟩ :=
    evaluateReconciledPaperOrderGate_eq_approved h
  obtain ⟨bounds, hbounds, hopens, hcloses⟩ := sessionReasons_eq_nil hsession
  have hwithin := within_of_completePortfolioReasons_eq_nil hconfig hreasons
  have hrisk : (order.quantity : Decimal) * order.riskPerShare = order.plannedRisk := by
    rw [hsize.plannedRisk_eq, Decimal.mul_comm]
  have hnotional : (order.quantity : Decimal) * order.intent.entryLimit = order.notional := by
    rw [hsize.notional_eq, hsize.intent_eq, Decimal.mul_comm]
  rw [hrisk, hnotional]
  exact ⟨portfolio, bounds, hportfolio, hsize.intent_eq, hwithin.quantity_pos,
    hwithin.symbol_not_exposed, hwithin.slot_free, hwithin.risk_le, hwithin.notional_le,
    hwithin.total_risk_le, hwithin.total_gross_le, hwithin.notional_le_buyingPower,
    hwithin.above_loss_limit, hbounds, hopens, hcloses⟩

namespace PortfolioSample

/-- A candidate for the third slot, at 10:00:02. -/
def candidateIntent : PaperOrderIntent where
  intentId := "candidate"
  strategyId := "breakout"
  strategyVersion := "1"
  symbol := "NVDA"
  createdAt := PortfolioSample.now + TimeDelta.seconds 2
  side := .buy
  entryLimit := 50
  stop := 49
  target1r := 51
  target2r := 52

def gateSnapshot : PaperOrderGateSnapshot where
  marketClock :=
    { observedAt := PortfolioSample.now
      marketTimestamp := PortfolioSample.now
      isOpen := true
      nextOpen := PortfolioSample.now + TimeDelta.minutes (23 * 60 + 30)
      nextClose := PortfolioSample.now + TimeDelta.hours 6 }
  latestBar :=
    { symbol := "NVDA"
      startedAt := PortfolioSample.now - TimeDelta.minutes 1
      firstObservedAt := PortfolioSample.now + TimeDelta.seconds 1 }
  streamHeartbeat :=
    { connectionEpoch := "epoch-1"
      authorizedAt := PortfolioSample.now - TimeDelta.hours 1
      subscribedAt := PortfolioSample.now - TimeDelta.hours 1
      pongAt := PortfolioSample.now }
  portfolio := .complete portfolio
  candidateIntent := candidateIntent
  liquidityAllowedQuantity := 100
  estimatedSpreadBps := 10

/-- 60 shares: 61 would risk more than 75 dollars. -/
def approvedOrder : SizedPaperOrder where
  intent := candidateIntent
  quantity := 60
  riskPerShare := .finite (1248 / 1000)
  plannedRisk := .finite (7488 / 100)
  notional := 3000

theorem approvedOrder_within_limits : ∃ portfolio bounds,
    gateSnapshot.portfolio = .complete portfolio
      ∧ (approvedOrder.quantity : Decimal) * approvedOrder.riskPerShare
          ≤ effectiveRiskLimit portfolio DEFAULT_PAPER_RISK_CONFIG
      ∧ regularSessionBounds (Date.ofCivil 2026 7 15) = some bounds := by
  have happroved : evaluateReconciledPaperOrderGate easternDaylight gateSnapshot
      (PortfolioSample.now + TimeDelta.seconds 2) DEFAULT_PAPER_RISK_CONFIG
        = .ok (.approved approvedOrder) := by
    decide +kernel
  obtain ⟨portfolio, bounds, hportfolio, -, -, -, -, hrisk, -, -, -, -, -, hbounds, -⟩ :=
    approved_within_limits happroved
  exact ⟨portfolio, bounds, hportfolio, hrisk, hbounds⟩

end PortfolioSample

end TradingAgent
