import TradingAgent.Portfolio.Coverage

/-!
# The portfolio gate

Why a candidate order may not be added to the portfolio (`portfolioReasons`). The gate reports the
first reason there is. If there is none, the candidate and the portfolio with it are within the
limits (`WithinPortfolioLimits`).
-/

namespace TradingAgent

def CURRENT_PORTFOLIO_AGE : TimeDelta := .seconds 5
def MAX_SYMBOL_NOTIONAL_FRACTION : Decimal := .finite (20 / 100)
def MONEY_TOLERANCE : Decimal := .finite (1 / 100)

/-- Whether a time is aware, and at most a given age ago. -/
def isCurrent (now observedAt : DateTime) (maxAge : TimeDelta) : Bool :=
  let age : TimeDelta := now - observedAt
  now.aware ∧ observedAt.aware ∧ 0 ≤ age ∧ age ≤ maxAge

section Limits

variable (portfolio : CompletePaperPortfolio) (config : PaperRiskConfig)

def conservativeEquity : Decimal :=
  .min (.min portfolio.equity portfolio.lastEquity) config.referenceEquity

/-- The risk limit of one slot. -/
def effectiveRiskLimit : Decimal :=
  .min config.maxRiskDollars (conservativeEquity portfolio config * config.riskFraction)

/-- The notional limit of one symbol. -/
def effectiveNotionalLimit : Decimal :=
  .min config.maxNotionalDollars
    (conservativeEquity portfolio config * MAX_SYMBOL_NOTIONAL_FRACTION)

/-- The limit of the gross exposure of a number of slots. -/
def grossLimit (slots : ℤ) : Decimal :=
  .min (conservativeEquity portfolio config)
    (effectiveNotionalLimit portfolio config * (slots : Decimal))

end Limits

def aggregationIsConsistent (portfolio : CompletePaperPortfolio) : Bool :=
  portfolio.exposedSymbols.length = portfolio.exposures.length
    ∧ (∀ exposure ∈ portfolio.exposures,
        exposure.intentId ≠ ""
          ∧ exposure.symbol ≠ ""
          ∧ isUpper exposure.symbol
          ∧ exposure.grossExposure.isFinite
          ∧ 0 < exposure.grossExposure
          ∧ exposure.plannedRisk.isFinite
          ∧ 0 < exposure.plannedRisk)
    ∧ (portfolio.exposures.length = 0
          ∧ portfolio.grossExposure = 0
          ∧ portfolio.plannedOpenRisk = 0
        ∨ 0 < portfolio.exposures.length
          ∧ 0 < portfolio.grossExposure
          ∧ 0 < portfolio.plannedOpenRisk)

def orderGeometryIsValid (candidate : SizedPaperOrder) : Bool :=
  let entry := candidate.intent.entryLimit
  let stop := candidate.intent.stop
  let target1r := candidate.intent.target1r
  let target2r := candidate.intent.target2r
  if Decimal.min (.min (.min (.min entry stop) target1r) target2r) candidate.riskPerShare ≤ 0 then
    false
  else
    let targetsValid : Bool :=
      match candidate.intent.side with
      | .buy => entry < target1r ∧ target1r < target2r
      | .sell => target2r < target1r ∧ target1r < entry
    let distance := stopDistance candidate.intent.side entry stop
    0 < distance ∧ distance ≤ candidate.riskPerShare ∧ targetsValid

def completePortfolioReasons (portfolio : CompletePaperPortfolio) (candidate : SizedPaperOrder)
    (evaluatedAt : DateTime) (config : PaperRiskConfig) : List String :=
  let decimalValues := [portfolio.equity, portfolio.lastEquity, portfolio.buyingPower,
    portfolio.grossExposure, portfolio.plannedOpenRisk]
  let candidateValues := [candidate.intent.entryLimit, candidate.intent.stop,
    candidate.intent.target1r, candidate.intent.target2r, candidate.riskPerShare,
    candidate.plannedRisk, candidate.notional]
  let candidateRisk := candidate.plannedRisk
  let candidateNotional := candidate.notional
  let quantity : Decimal := candidate.quantity
  let expectedRisk := candidate.riskPerShare * quantity
  let expectedNotional := candidate.intent.entryLimit * quantity
  let riskLimit := effectiveRiskLimit portfolio config
  let notionalLimit := effectiveNotionalLimit portfolio config
  let resultingSlotCount : ℤ := portfolio.exposures.length + 1
  firstReason
    [(¬ isCurrent evaluatedAt portfolio.observedAt CURRENT_PORTFOLIO_AGE
        ∨ ¬ (∀ value ∈ decimalValues, value.isFinite)
        ∨ ¬ (∀ value ∈ candidateValues, value.isFinite)
        ∨ portfolio.equity ≤ 0
        ∨ portfolio.lastEquity ≤ 0
        ∨ portfolio.buyingPower < 0
        ∨ portfolio.grossExposure < 0
        ∨ portfolio.plannedOpenRisk < 0
        ∨ candidate.quantity ≤ 0
        ∨ candidate.riskPerShare ≤ 0
        ∨ candidate.plannedRisk ≤ 0
        ∨ candidate.notional ≤ 0,
      "포트폴리오 또는 후보 위험값이 현재의 유효한 값이 아닙니다"),
    (portfolio.accountStatus.toUpper ≠ "ACTIVE" ∨ portfolio.tradingBlocked,
      "Paper 계좌가 주문 가능한 ACTIVE 상태가 아닙니다"),
    (¬ aggregationIsConsistent portfolio,
      "포트폴리오 종목·슬롯·예약 위험 집계가 서로 일치하지 않습니다"),
    (¬ orderGeometryIsValid candidate,
      "후보 주문의 진입·손절·목표·주당위험 관계가 올바르지 않습니다"),
    (candidate.intent.symbol ∈ portfolio.exposedSymbols,
      "동일 종목의 기존 포지션 또는 진입대기 주문이 있습니다"),
    (config.maxOpenPositions < resultingSlotCount,
      "최대 동시 포지션 수를 초과합니다"),
    (MONEY_TOLERANCE < (candidateRisk - expectedRisk).abs
        ∨ MONEY_TOLERANCE < (candidateNotional - expectedNotional).abs,
      "후보 주문의 수량·위험·명목금액 계산이 서로 일치하지 않습니다"),
    (∃ exposure ∈ portfolio.exposures,
        riskLimit < exposure.plannedRisk ∨ notionalLimit < exposure.grossExposure,
      "기존 종목 노출이 종목당 위험 또는 명목 한도를 초과합니다"),
    (riskLimit < candidateRisk ∨ notionalLimit < candidateNotional,
      "후보 주문이 종목당 위험 또는 명목 한도를 초과합니다"),
    (portfolio.equity - portfolio.lastEquity ≤ -config.dailyLossLimitDollars,
      "당일 손실 중단선에 도달했습니다"),
    (riskLimit * (resultingSlotCount : Decimal) < portfolio.plannedOpenRisk + candidateRisk,
      "기존 예약분을 포함한 총 계획위험 한도를 초과합니다"),
    (grossLimit portfolio config resultingSlotCount < portfolio.grossExposure + candidateNotional,
      "기존 예약분을 포함한 총 익스포저 한도를 초과합니다"),
    (portfolio.buyingPower < candidateNotional,
      "현재 buying power가 후보 주문 명목금액보다 작습니다")]

def portfolioReasons (portfolioSnapshot : PaperPortfolioSnapshot) (candidate : SizedPaperOrder)
    (evaluatedAt : DateTime) (config : PaperRiskConfig) : List String :=
  match portfolioSnapshot with
  | .incomplete _ => ["전체 포트폴리오 위험 집계가 불완전합니다"]
  | .complete portfolio => completePortfolioReasons portfolio candidate evaluatedAt config

/-! ## Within the limits -/

/-- A candidate fits into a portfolio: its symbol is not exposed, there is a slot for it, and the
    limits hold for it, for each exposure, and for all of them together. -/
structure WithinPortfolioLimits (portfolio : CompletePaperPortfolio) (candidate : SizedPaperOrder)
    (config : PaperRiskConfig) : Prop where
  quantity_pos : 0 < candidate.quantity
  symbol_not_exposed : candidate.intent.symbol ∉ portfolio.exposedSymbols
  slot_free : portfolio.exposures.length + 1 ≤ config.maxOpenPositions
  risk_le : candidate.plannedRisk ≤ effectiveRiskLimit portfolio config
  notional_le : candidate.notional ≤ effectiveNotionalLimit portfolio config
  above_loss_limit :
    -config.dailyLossLimitDollars < portfolio.equity - portfolio.lastEquity
  total_risk_le : portfolio.plannedOpenRisk + candidate.plannedRisk
    ≤ effectiveRiskLimit portfolio config * ((portfolio.exposures.length + 1 : ℤ) : Decimal)
  total_gross_le : portfolio.grossExposure + candidate.notional
    ≤ grossLimit portfolio config (portfolio.exposures.length + 1)
  notional_le_buyingPower : candidate.notional ≤ portfolio.buyingPower

variable {portfolio : CompletePaperPortfolio} {candidate : SizedPaperOrder}
  {evaluatedAt : DateTime} {config : PaperRiskConfig}

/-- The limits of a configuration are finite, for finite equities. -/
theorem isFinite_limits (hconfig : config.WithinHardLimits)
    (hequity : portfolio.equity.isFinite = true) (hlast : portfolio.lastEquity.isFinite = true)
    (slots : ℤ) :
    (effectiveRiskLimit portfolio config).isFinite = true
      ∧ (effectiveNotionalLimit portfolio config).isFinite = true
      ∧ (grossLimit portfolio config slots).isFinite = true := by
  obtain ⟨reference, hreference, -⟩ := hconfig.referenceEquity
  obtain ⟨risk, hrisk, -⟩ := hconfig.maxRiskDollars
  obtain ⟨fraction, hfraction, -⟩ := hconfig.riskFraction
  obtain ⟨notional, hnotional, -⟩ := hconfig.maxNotionalDollars
  have hconservative : (conservativeEquity portfolio config).isFinite = true := by
    rw [conservativeEquity, hreference]
    exact Decimal.isFinite_min (Decimal.isFinite_min hequity hlast) rfl
  have hlimit : (effectiveNotionalLimit portfolio config).isFinite = true := by
    rw [effectiveNotionalLimit, hnotional]
    exact Decimal.isFinite_min rfl (Decimal.isFinite_mul hconservative rfl)
  refine ⟨?_, hlimit, ?_⟩
  · rw [effectiveRiskLimit, hrisk, hfraction]
    exact Decimal.isFinite_min rfl (Decimal.isFinite_mul hconservative rfl)
  · exact Decimal.isFinite_min hconservative (Decimal.isFinite_mul hlimit rfl)

/-- A candidate against which the gate has no reason is within the limits. -/
theorem within_of_completePortfolioReasons_eq_nil (hconfig : config.WithinHardLimits)
    (h : completePortfolioReasons portfolio candidate evaluatedAt config = []) :
    WithinPortfolioLimits portfolio candidate config := by
  rw [completePortfolioReasons] at h
  simp only [firstReason_eq_nil, List.forall_mem_cons, List.not_mem_nil, false_implies,
    implies_true, and_true, decide_eq_false_iff_not, not_or, not_not, not_exists] at h
  obtain ⟨⟨-, ⟨hequity, hlast, hpowerf, hgrossf, hriskf⟩, ⟨-, -, -, -, -, hplannedf, hnotionalf⟩,
    -, -, -, -, -, hquantity, -⟩, -, -, -, hsymbol, hslots, -, -, hcandidate, hloss, hrisk, hgross,
    hpower⟩ := h
  obtain ⟨hrlimit, hnlimit, hglimit⟩ :=
    isFinite_limits hconfig hequity hlast (portfolio.exposures.length + 1)
  obtain ⟨loss, hlossf, -⟩ := hconfig.dailyLossLimitDollars
  refine
    { quantity_pos := not_le.1 hquantity
      symbol_not_exposed := hsymbol
      slot_free := not_lt.1 hslots
      risk_le := Decimal.not_lt hplannedf hrlimit |>.1 hcandidate.1
      notional_le := Decimal.not_lt hnotionalf hnlimit |>.1 hcandidate.2
      above_loss_limit := ?_
      total_risk_le := Decimal.not_lt (Decimal.isFinite_add hriskf hplannedf)
        (Decimal.isFinite_mul hrlimit rfl) |>.1 hrisk
      total_gross_le := Decimal.not_lt (Decimal.isFinite_add hgrossf hnotionalf) hglimit |>.1 hgross
      notional_le_buyingPower := Decimal.not_lt hnotionalf hpowerf |>.1 hpower }
  rw [hlossf] at hloss ⊢
  exact Decimal.not_le (Decimal.isFinite_sub hequity hlast) rfl |>.1 hloss

end TradingAgent
