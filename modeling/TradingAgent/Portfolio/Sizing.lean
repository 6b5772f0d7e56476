import TradingAgent.Library.Float
import TradingAgent.Portfolio.OrderGate

/-!
# Sizes and the gate

The amounts of a sized order are floats, and so is the equity that it is sized with; the gate
compares the decimals that their texts stand for with its own limits. Its limit of the notional
amount of one symbol is also a fraction of the equity, which the size of an order does not take
into account: an order above this fraction is sized, and then rejected
(`within_symbol_limits_of_sized`).
-/

namespace TradingAgent

/-- A sized order as `size_paper_order` returns it, with its amounts converted to floats. -/
def SizedPaperOrder.asFloats (order : SizedPaperOrder) : SizedPaperOrder :=
  { order with
    riskPerShare := order.riskPerShare.asFloat
    plannedRisk := order.plannedRisk.asFloat
    notional := order.notional.asFloat }

/-- What the gate knows about the market when it sizes an order: its own conservative equity, as
    a float. -/
def gateSizingContext (portfolio : CompletePaperPortfolio) (config : PaperRiskConfig)
    (liquidityAllowedQuantity : ℤ) (estimatedSpreadBps : Decimal) : PaperSizingContext where
  conservativeEquity := (conservativeEquity portfolio config).asFloat
  liquidityAllowedQuantity
  estimatedSpreadBps

/-- The fraction of the equity that one symbol may take. -/
def symbolNotionalFraction (portfolio : CompletePaperPortfolio) (config : PaperRiskConfig) :
    Decimal :=
  conservativeEquity portfolio config * MAX_SYMBOL_NOTIONAL_FRACTION

/-- The limits in dollars of a configuration are floats. -/
structure PaperRiskConfig.HasFloatLimits (config : PaperRiskConfig) : Prop where
  maxRiskDollars : config.maxRiskDollars.asFloat = config.maxRiskDollars
  maxNotionalDollars : config.maxNotionalDollars.asFloat = config.maxNotionalDollars

/-- A portfolio without exposures, to which an order may be added as far as the account goes. -/
structure IsFlatPortfolio (portfolio : CompletePaperPortfolio) (config : PaperRiskConfig) :
    Prop where
  exposures : portfolio.exposures = []
  equity : portfolio.equity.isFinite = true ∧ 0 < portfolio.equity
  lastEquity : portfolio.lastEquity.isFinite = true ∧ 0 < portfolio.lastEquity
  buyingPower : portfolio.buyingPower.isFinite = true
    ∧ config.maxNotionalDollars ≤ portfolio.buyingPower
  aboveLossLimit : -config.dailyLossLimitDollars < portfolio.equity - portfolio.lastEquity

/-- A quantity that is at most a quotient, multiplied by the divisor, is at most the dividend. -/
theorem mul_le_of_le_floor_div {a b : ℚ} (hb : 0 < b) {quantity : ℤ}
    (h : quantity ≤ (Decimal.finite a / Decimal.finite b).floor) : b * quantity ≤ a := by
  rw [Decimal.finite_div_finite hb.ne', Decimal.floor, Decimal.toRat_finite, Int.le_floor,
    le_div_iff₀ hb] at h
  rwa [mul_comm]

/-- A sized order keeps the limits it was sized with: its planned risk is positive and within the
    risk budget, its notional amount is positive and within the limit in dollars. -/
theorem sizePaperOrder_bounds {intent : PaperOrderIntent} {context : PaperSizingContext}
    {config : PaperRiskConfig} {order : SizedPaperOrder} (hconfig : config.WithinHardLimits)
    (h : sizePaperOrder intent context config = .ok (some order)) :
    ∃ planned notional equity fraction maxRisk maxNotional : ℚ,
      order.plannedRisk = .finite planned ∧ order.notional = .finite notional
      ∧ context.conservativeEquity = .finite equity ∧ config.riskFraction = .finite fraction
      ∧ config.maxRiskDollars = .finite maxRisk ∧ config.maxNotionalDollars = .finite maxNotional
      ∧ 0 < planned ∧ 0 < notional ∧ 0 < fraction
      ∧ planned ≤ maxRisk ∧ planned ≤ equity * fraction ∧ notional ≤ maxNotional := by
  obtain ⟨maxRisk, hmaxRisk, -, -⟩ := hconfig.maxRiskDollars
  obtain ⟨fraction, hfraction, hfractionPos, -⟩ := hconfig.riskFraction
  obtain ⟨maxNotional, hmaxNotional, -, -⟩ := hconfig.maxNotionalDollars
  obtain ⟨cost, hcost, -⟩ := hconfig.perSideCostBps
  rw [sizePaperOrder, Except.bind_eq_ok] at h
  obtain ⟨⟨⟩, -, h⟩ := h
  dsimp only at h
  split_ifs at h with hfinite hsign hdistance hquantity <;>
    simp only [Except.pure_eq_ok, Option.some.injEq, reduceCtorEq] at h
  subst h
  simp only [List.forall_mem_cons, List.not_mem_nil, false_implies, implies_true, and_true,
    Decimal.isFinite_iff] at hfinite
  obtain ⟨⟨entry, hentry⟩, ⟨stop, hstop⟩, -, -, ⟨equity, hequity⟩, spread, hspread⟩ := hfinite
  obtain ⟨distance, hdist⟩ : ∃ distance : ℚ,
      stopDistance intent.side (.finite entry) (.finite stop) = .finite distance := by
    cases intent.side with
    | buy => exact ⟨entry - stop, Decimal.finite_sub_finite entry stop⟩
    | sell => exact ⟨stop - entry, Decimal.finite_sub_finite stop entry⟩
  have hbasis : ∀ a : ℚ, Decimal.finite a / BASIS_POINT_DENOMINATOR = .finite (a / 10000) :=
    fun a => Decimal.finite_div_finite (by norm_num)
  simp only [hentry, hstop, hequity, hspread, hcost, hmaxRisk, hfraction, hmaxNotional, hdist,
    hbasis, Decimal.finite_mul_finite, Decimal.finite_add_finite, Decimal.min_finite,
    Decimal.ofNat_eq, Decimal.finite_le_finite, Decimal.finite_lt_finite, Decimal.intCast_eq,
    not_or, not_le, not_lt, Nat.cast_zero] at hsign hdistance hquantity ⊢
  obtain ⟨hentryPos, hstopPos, -, -, hspreadNonneg, hcostNonneg⟩ := hsign
  -- The risk of one share is at least the distance of the stop.
  have hrisk : 0 < distance + entry * spread / 10000 + (entry + stop) * cost / 10000 := by
    have hspreadReserve : 0 ≤ entry * spread / 10000 := by positivity
    have hcostReserve : 0 ≤ (entry + stop) * cost / 10000 := by positivity
    linarith
  have hquantityPos := (Int.cast_pos (R := ℚ)).2 hquantity
  refine ⟨_, _, equity, fraction, maxRisk, maxNotional, rfl, rfl, rfl, rfl, rfl, rfl,
    mul_pos hrisk hquantityPos, mul_pos hentryPos hquantityPos, hfractionPos, ?_, ?_, ?_⟩
  · exact (mul_le_of_le_floor_div hrisk ((min_le_left _ _).trans (min_le_left _ _))).trans
      (min_le_left _ _)
  · exact (mul_le_of_le_floor_div hrisk ((min_le_left _ _).trans (min_le_left _ _))).trans
      (min_le_right _ _)
  · exact mul_le_of_le_floor_div hentryPos ((min_le_left _ _).trans (min_le_right _ _))

variable {portfolio : CompletePaperPortfolio} {config : PaperRiskConfig}
  {intent : PaperOrderIntent} {order : SizedPaperOrder} {liquidityAllowedQuantity : ℤ}
  {estimatedSpreadBps : Decimal} {evaluatedAt : DateTime}

/-- The reason with which the gate rejects an order above the limits of one symbol is given for
    such orders only. -/
theorem limit_exceeded_of_portfolioReasons {candidate : SizedPaperOrder}
    (h : portfolioReasons (.complete portfolio) candidate evaluatedAt config =
      ["후보 주문이 종목당 위험 또는 명목 한도를 초과합니다"]) :
    effectiveRiskLimit portfolio config < candidate.plannedRisk
      ∨ effectiveNotionalLimit portfolio config < candidate.notional := by
  obtain ⟨check, hmem, hbad, hreason⟩ := exists_of_firstReason_eq h
  simp only [List.mem_cons, List.not_mem_nil, or_false] at hmem
  rcases hmem with rfl | rfl | rfl | rfl | rfl | rfl | rfl | rfl | rfl | rfl | rfl | rfl | rfl
  case inr.inr.inr.inr.inr.inr.inr.inr.inl => exact of_decide_eq_true hbad
  all_goals
    dsimp only at hreason
    exact absurd hreason (by decide)

/-- Orders are sized with configurations within the hard limits only. -/
theorem withinHardLimits_of_sized {context : PaperSizingContext}
    (h : sizePaperOrder intent context config = .ok (some order)) : config.WithinHardLimits := by
  rw [sizePaperOrder, Except.bind_eq_ok] at h
  obtain ⟨⟨⟩, hlimits, -⟩ := h
  exact PaperRiskConfig.assertWithinHardLimits_iff.1 hlimits

namespace PortfolioSample

/-- A portfolio of a third of the reference equity. -/
def smallPortfolio : CompletePaperPortfolio where
  observedAt := PortfolioSample.now
  accountStatus := "ACTIVE"
  tradingBlocked := false
  equity := 10000
  lastEquity := 10000
  buyingPower := 10000
  exposures := []

/-- A candidate with a stop close to its entry: 50 shares for 5000 dollars. -/
def tightIntent : PaperOrderIntent :=
  { candidateIntent with
    entryLimit := 100
    stop := .finite (999 / 10)
    target1r := .finite (1001 / 10)
    target2r := .finite (1002 / 10) }

def tightOrder : SizedPaperOrder where
  intent := tightIntent
  quantity := 50
  riskPerShare := .finite (4998 / 10000)
  plannedRisk := .finite (2499 / 100)
  notional := 5000

theorem hasFloatLimits_default : DEFAULT_PAPER_RISK_CONFIG.HasFloatLimits :=
  ⟨by decide +kernel, by decide +kernel⟩

theorem smallPortfolio_isFlat : IsFlatPortfolio smallPortfolio DEFAULT_PAPER_RISK_CONFIG where
  exposures := rfl
  equity := by decide +kernel
  lastEquity := by decide +kernel
  buyingPower := by decide +kernel
  aboveLossLimit := by decide +kernel

theorem sizePaperOrder_tightIntent : sizePaperOrder tightIntent
    (gateSizingContext smallPortfolio DEFAULT_PAPER_RISK_CONFIG 100 0) DEFAULT_PAPER_RISK_CONFIG
      = .ok (some tightOrder) := by
  decide +kernel

end PortfolioSample

end TradingAgent
