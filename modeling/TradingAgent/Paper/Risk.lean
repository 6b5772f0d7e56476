import Mathlib.Algebra.Order.Field.Rat
import TradingAgent.Library.Except
import TradingAgent.Paper.Models

/-!
# The risk limits and the size of an order

A configuration may tighten the hard limits of the account, but not relax them
(`PaperRiskConfig.assertWithinHardLimits`). Within those of its configuration, an order is sized
so that the loss at its stop, with the spread and the costs, stays within the risk budget of one
slot (`sizePaperOrder`).

A float of the source is a decimal here: its arithmetic is exact.
-/

namespace TradingAgent

def BASIS_POINT_DENOMINATOR : Decimal := 10000
def HARD_REFERENCE_EQUITY : Decimal := 30000
def HARD_MAX_RISK_DOLLARS : Decimal := 75
def HARD_RISK_FRACTION : Decimal := .finite (25 / 10000)
def HARD_MAX_NOTIONAL_DOLLARS : Decimal := 6000
def HARD_MAX_OPEN_POSITIONS : ℤ := 3
def HARD_DAILY_LOSS_LIMIT_DOLLARS : Decimal := 300
def HARD_MIN_PER_SIDE_COST_BPS : Decimal := 20

inductive UnsafePaperRiskConfigError
  | unsafePaperRiskConfig
  deriving DecidableEq, Repr

def UnsafePaperRiskConfigError.message (_ : UnsafePaperRiskConfigError) : String :=
  "Paper risk config가 승인된 하드 한도를 완화하거나 유효하지 않습니다"

structure PaperRiskConfig where
  referenceEquity : Decimal := HARD_REFERENCE_EQUITY
  maxRiskDollars : Decimal := HARD_MAX_RISK_DOLLARS
  riskFraction : Decimal := HARD_RISK_FRACTION
  maxNotionalDollars : Decimal := HARD_MAX_NOTIONAL_DOLLARS
  maxOpenPositions : ℤ := HARD_MAX_OPEN_POSITIONS
  dailyLossLimitDollars : Decimal := HARD_DAILY_LOSS_LIMIT_DOLLARS
  perSideCostBps : Decimal := HARD_MIN_PER_SIDE_COST_BPS
  deriving DecidableEq, Repr

namespace PaperRiskConfig

def finiteValues (config : PaperRiskConfig) : List Decimal :=
  [config.referenceEquity, config.maxRiskDollars, config.riskFraction, config.maxNotionalDollars,
    config.dailyLossLimitDollars, config.perSideCostBps]

def assertWithinHardLimits (config : PaperRiskConfig) : Except UnsafePaperRiskConfigError Unit :=
  Except.raiseIf
    (¬ (∀ value ∈ config.finiteValues, value.isFinite)
      ∨ ¬ (0 < config.referenceEquity ∧ config.referenceEquity ≤ HARD_REFERENCE_EQUITY)
      ∨ ¬ (0 < config.maxRiskDollars ∧ config.maxRiskDollars ≤ HARD_MAX_RISK_DOLLARS)
      ∨ ¬ (0 < config.riskFraction ∧ config.riskFraction ≤ HARD_RISK_FRACTION)
      ∨ ¬ (0 < config.maxNotionalDollars ∧ config.maxNotionalDollars ≤ HARD_MAX_NOTIONAL_DOLLARS)
      ∨ ¬ (0 < config.maxOpenPositions ∧ config.maxOpenPositions ≤ HARD_MAX_OPEN_POSITIONS)
      ∨ ¬ (0 < config.dailyLossLimitDollars
          ∧ config.dailyLossLimitDollars ≤ HARD_DAILY_LOSS_LIMIT_DOLLARS)
      ∨ config.perSideCostBps < HARD_MIN_PER_SIDE_COST_BPS)
    .unsafePaperRiskConfig

/-- The limits of a configuration, as rational numbers, tighten the hard ones. -/
structure WithinHardLimits (config : PaperRiskConfig) : Prop where
  referenceEquity : ∃ q, config.referenceEquity = .finite q ∧ 0 < q ∧ q ≤ 30000
  maxRiskDollars : ∃ q, config.maxRiskDollars = .finite q ∧ 0 < q ∧ q ≤ 75
  riskFraction : ∃ q, config.riskFraction = .finite q ∧ 0 < q ∧ q ≤ 25 / 10000
  maxNotionalDollars : ∃ q, config.maxNotionalDollars = .finite q ∧ 0 < q ∧ q ≤ 6000
  maxOpenPositions : 0 < config.maxOpenPositions ∧ config.maxOpenPositions ≤ 3
  dailyLossLimitDollars : ∃ q, config.dailyLossLimitDollars = .finite q ∧ 0 < q ∧ q ≤ 300
  perSideCostBps : ∃ q, config.perSideCostBps = .finite q ∧ 20 ≤ q

theorem assertWithinHardLimits_iff {config : PaperRiskConfig} :
    config.assertWithinHardLimits = .ok () ↔ config.WithinHardLimits := by
  rw [assertWithinHardLimits, Except.raiseIf_eq_ok]
  constructor
  · intro h
    simp only [finiteValues, List.forall_mem_cons, List.not_mem_nil, false_implies, implies_true,
      and_true, Decimal.isFinite_iff, not_or, not_not] at h
    obtain ⟨⟨⟨a, ha⟩, ⟨b, hb⟩, ⟨c, hc⟩, ⟨d, hd⟩, ⟨e, he⟩, f, hf⟩, hequity, hrisk, hfraction,
      hnotional, hpositions, hloss, hcost⟩ := h
    rw [ha] at hequity
    rw [hb] at hrisk
    rw [hc] at hfraction
    rw [hd] at hnotional
    rw [he] at hloss
    rw [hf] at hcost
    simp only [HARD_REFERENCE_EQUITY, HARD_MAX_RISK_DOLLARS, HARD_RISK_FRACTION,
      HARD_MAX_NOTIONAL_DOLLARS, HARD_DAILY_LOSS_LIMIT_DOLLARS, HARD_MIN_PER_SIDE_COST_BPS,
      Decimal.ofNat_eq, Decimal.finite_lt_finite, Decimal.finite_le_finite, not_lt]
      at hequity hrisk hfraction hnotional hloss hcost
    exact
      { referenceEquity := ⟨a, ha, by simpa using hequity⟩
        maxRiskDollars := ⟨b, hb, by simpa using hrisk⟩
        riskFraction := ⟨c, hc, by simpa using hfraction⟩
        maxNotionalDollars := ⟨d, hd, by simpa using hnotional⟩
        maxOpenPositions := hpositions
        dailyLossLimitDollars := ⟨e, he, by simpa using hloss⟩
        perSideCostBps := ⟨f, hf, by simpa using hcost⟩ }
  · rintro ⟨⟨a, ha, ha'⟩, ⟨b, hb, hb'⟩, ⟨c, hc, hc'⟩, ⟨d, hd, hd'⟩, hpositions, ⟨e, he, he'⟩,
      f, hf, hf'⟩
    simp [finiteValues, ha, hb, hc, hd, he, hf, HARD_REFERENCE_EQUITY, HARD_MAX_RISK_DOLLARS,
      HARD_RISK_FRACTION, HARD_MAX_NOTIONAL_DOLLARS, HARD_MAX_OPEN_POSITIONS,
      HARD_DAILY_LOSS_LIMIT_DOLLARS, HARD_MIN_PER_SIDE_COST_BPS, ha', hb', hc', hd', he', hf',
      hpositions]

/-- The defaults are the hard limits themselves, which are within them. -/
theorem withinHardLimits_default : ({} : PaperRiskConfig).WithinHardLimits :=
  assertWithinHardLimits_iff.1 (by decide +kernel)

end PaperRiskConfig

def DEFAULT_PAPER_RISK_CONFIG : PaperRiskConfig := {}

structure PaperSizingContext where
  conservativeEquity : Decimal
  liquidityAllowedQuantity : ℤ
  estimatedSpreadBps : Decimal
  deriving DecidableEq, Repr

/-- How far the stop is from the entry, to the side where the position loses. -/
def stopDistance (side : PaperOrderSide) (entry stop : Decimal) : Decimal :=
  match side with
  | .buy => entry - stop
  | .sell => stop - entry

def sizePaperOrder (intent : PaperOrderIntent) (context : PaperSizingContext)
    (config : PaperRiskConfig) : Except UnsafePaperRiskConfigError (Option SizedPaperOrder) := do
  config.assertWithinHardLimits
  let marketValues := [intent.entryLimit, intent.stop, intent.target1r, intent.target2r,
    context.conservativeEquity, context.estimatedSpreadBps]
  if ¬ (∀ value ∈ marketValues, value.isFinite) then
    pure none
  else
  let entry := intent.entryLimit
  let stop := intent.stop
  let equity := context.conservativeEquity
  let spreadBps := context.estimatedSpreadBps
  let costBps := config.perSideCostBps
  if entry ≤ 0 ∨ stop ≤ 0 ∨ equity ≤ 0 ∨ context.liquidityAllowedQuantity ≤ 0 ∨ spreadBps < 0
      ∨ costBps < 0 then
    pure none
  else
  let distance := stopDistance intent.side entry stop
  if distance ≤ 0 then
    pure none
  else
  let spreadReserve := entry * spreadBps / BASIS_POINT_DENOMINATOR
  let costReserve := (entry + stop) * costBps / BASIS_POINT_DENOMINATOR
  let riskPerShare := distance + spreadReserve + costReserve
  let riskBudget := Decimal.min config.maxRiskDollars (equity * config.riskFraction)
  let riskQuantity := (riskBudget / riskPerShare).floor
  let notionalQuantity := (config.maxNotionalDollars / entry).floor
  let quantity := Min.min (Min.min riskQuantity notionalQuantity) context.liquidityAllowedQuantity
  if quantity ≤ 0 then
    pure none
  else
    pure (some
      { intent
        quantity
        riskPerShare
        plannedRisk := riskPerShare * (quantity : Decimal)
        notional := entry * (quantity : Decimal) })

/-- A sized order is one for at least one share of its intent, and its planned risk and its
    notional amount are those of its quantity. -/
structure SizedPaperOrder.IsSizeOf (order : SizedPaperOrder) (intent : PaperOrderIntent)
    (context : PaperSizingContext) : Prop where
  intent_eq : order.intent = intent
  quantity_pos : 0 < order.quantity
  quantity_le : order.quantity ≤ context.liquidityAllowedQuantity
  plannedRisk_eq : order.plannedRisk = order.riskPerShare * (order.quantity : Decimal)
  notional_eq : order.notional = intent.entryLimit * (order.quantity : Decimal)

theorem sizePaperOrder_spec {intent : PaperOrderIntent} {context : PaperSizingContext}
    {config : PaperRiskConfig} {order : SizedPaperOrder}
    (h : sizePaperOrder intent context config = .ok (some order)) :
    order.IsSizeOf intent context := by
  rw [sizePaperOrder, Except.bind_eq_ok] at h
  obtain ⟨⟨⟩, _, h⟩ := h
  dsimp only at h
  split_ifs at h with hfinite hsign hdistance hquantity <;>
    simp only [Except.pure_eq_ok, Option.some.injEq, reduceCtorEq] at h
  subst h
  exact ⟨rfl, not_le.1 hquantity, min_le_right _ _, rfl, rfl⟩

end TradingAgent
