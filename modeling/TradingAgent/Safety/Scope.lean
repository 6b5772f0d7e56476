import TradingAgent.Library.Fold
import TradingAgent.Library.SortedSet
import TradingAgent.Safety.Planner

/-!
# The scope of a safety plan

A safety plan is carried out only if the account is within the scope that the configuration
allows (`paperSafetyMutationScopeReasons`): in the number of orders, positions, protective OCOs
and symbols, and in the notional amount of all of them together.

The order gate admits that amount for every slot, and the scope for all slots together. A plan
that flattens an account which the gate has filled is thus out of scope if the account holds more
than that (`scopeReasons_eq_nil_iff`, `scope_refuses_two_positions`).
-/

namespace TradingAgent

/-- The notional amount of what an entry order may still buy or sell, if it can be determined. -/
def pendingNotional (order : PaperOrderSnapshot) : Option Decimal :=
  let remaining := order.quantity - order.filledQuantity
  match order.limitPrice with
  | none => none
  | some price =>
    if ¬ order.quantity.isFinite
        ∨ ¬ order.filledQuantity.isFinite
        ∨ remaining ≤ 0
        ∨ ¬ price.isFinite
        ∨ price ≤ 0 then
      none
    else
      some (remaining * price).abs

def pendingEntryNotional (orders : List PaperOrderSnapshot) : Option Decimal :=
  (orders.mapM pendingNotional).map .sum

def paperSafetyMutationScopeReasons (brokerState : PaperBrokerState) (plan : PaperSafetyPlan)
    (config : PaperRiskConfig) : List String :=
  if plan.actions = [] then
    []
  else
    let maximum := config.maxOpenPositions
    let symbols := (brokerState.openOrders.map (·.symbol) ++ brokerState.positions.map (·.symbol)
      ++ brokerState.protectiveOcos.map (·.takeProfit.symbol)).dedup
    let entryNotional := pendingEntryNotional brokerState.openOrders
    let positionValues := brokerState.positions.map (·.marketValue.abs)
    (allReasons
      [(maximum < brokerState.openOrders.length,
        "Paper safety mutation scope가 허용된 entry order 수를 초과합니다"),
      (maximum < brokerState.positions.length,
        "Paper safety mutation scope가 허용된 position 수를 초과합니다"),
      (maximum < brokerState.protectiveOcos.length,
        "Paper safety mutation scope가 허용된 protective OCO 수를 초과합니다"),
      (maximum < symbols.length,
        "Paper safety mutation scope가 허용된 symbol 수를 초과합니다"),
      (entryNotional.isNone,
        "Paper safety mutation scope의 entry notional을 확정할 수 없습니다"),
      (∃ value ∈ positionValues, ¬ value.isFinite,
        "Paper safety mutation scope의 position notional을 확정할 수 없습니다"),
      (entryNotional.any (fun notional => (∀ value ∈ positionValues, value.isFinite)
          ∧ config.maxNotionalDollars < notional + .sum positionValues),
        "Paper safety mutation scope notional이 허용 한도를 초과합니다")]).eraseDups

/-! ## What the planner plans -/

section

variable {newYork : ZoneInfo} {state : PaperBrokerState} {clock : PaperMarketClockSnapshot}
  {storedIntents : List StoredIntent} {filledIntentIds : List IntentId}
  {orderStates : List BrokerOrderLedgerState} {portfolio : CompletePaperPortfolio}
  {config : PaperRiskConfig} {evaluatedAt : DateTime} {killSwitchLatched : Bool}
  {plan : PaperSafetyPlan}

/-- The actions of a plan are those of its phase. -/
theorem actions_of_planPaperSafetyActions {portfolioSnapshot : PaperPortfolioSnapshot}
    (h : planPaperSafetyActions newYork state clock portfolioSnapshot evaluatedAt config
      killSwitchLatched = .ok (.plan plan)) :
    actionsForPhase plan.phase state = .ok plan.actions := by
  cases portfolioSnapshot with
  | incomplete reasons =>
    rw [planPaperSafetyActions, Except.bind_eq_ok] at h
    obtain ⟨⟨⟩, -, h⟩ := h
    cases h
  | complete portfolio =>
    rw [planPaperSafetyActions, Except.bind_eq_ok] at h
    obtain ⟨⟨⟩, -, h⟩ := h
    dsimp only at h
    split_ifs at h
    · cases h
    split at h
    · cases h
    split at h
    · cases h
    case h_2 actions hactions =>
      cases h
      exact hactions

variable (state) in
/-- Whether there is something to do in a phase: an entry to cancel, or anything at all when the
    account is to be flat. -/
def HasTargets : PaperSafetyPhase → Prop
  | .monitoring => False
  | .entryCutoff => state.openOrders ≠ []
  | .killSwitch | .eodFlatten =>
    state.openOrders ≠ [] ∨ state.protectiveOcos ≠ [] ∨ state.positions ≠ []

theorem entryCancels_eq_nil : entryCancels state = [] ↔ state.openOrders = [] := by
  rw [entryCancels, List.map_eq_nil_iff, insertionSort_eq_nil]

theorem protectiveCancels_eq_nil : protectiveCancels state = [] ↔ state.protectiveOcos = [] := by
  rw [protectiveCancels, List.map_eq_nil_iff, insertionSort_eq_nil]

/-- A plan has no actions exactly if there is nothing to do in its phase. -/
theorem actions_eq_nil_iff {phase : PaperSafetyPhase} {actions : List PaperSafetyAction}
    (h : actionsForPhase phase state = .ok actions) : actions = [] ↔ ¬ HasTargets state phase := by
  have hflat : ∀ positions : List PaperPositionSnapshot,
      positions = state.positions.insertionSort (fun a b => a.symbol ≤ b.symbol) →
      ((entryCancels state ++ protectiveCancels state).map PaperSafetyAction.cancelOrder
        ++ positions.map (fun p => .closePosition (closeAction p)) = []
      ↔ ¬ (state.openOrders ≠ [] ∨ state.protectiveOcos ≠ [] ∨ state.positions ≠ [])) := by
    rintro positions rfl
    rw [List.append_eq_nil_iff, List.map_eq_nil_iff, List.append_eq_nil_iff, entryCancels_eq_nil,
      protectiveCancels_eq_nil, List.map_eq_nil_iff, insertionSort_eq_nil]
    tauto
  cases phase with
  | monitoring =>
    cases h
    exact ⟨fun _ => id, fun _ => rfl⟩
  | entryCutoff =>
    cases h
    rw [List.map_eq_nil_iff, entryCancels_eq_nil, HasTargets, not_not]
  | killSwitch | eodFlatten =>
    rw [actionsForPhase] at h
    dsimp only at h
    split_ifs at h
    cases h
    exact hflat _ rfl

/-! ## The scope -/

variable (state) in
/-- The notional amount of the open orders and the positions together. -/
def scopeNotional : Decimal :=
  .sum (state.openOrders.map fun order =>
      ((order.quantity - order.filledQuantity) * order.limitPrice.getD 0).abs)
    + .sum (state.positions.map (·.marketValue.abs))

theorem pendingNotional_of_validEntryOrder {order : PaperOrderSnapshot} {intent : StoredIntent}
    (h : validEntryOrder order intent = true) :
    pendingNotional order
        = some ((order.quantity - order.filledQuantity) * order.limitPrice.getD 0).abs
      ∧ ((order.quantity - order.filledQuantity) * order.limitPrice.getD 0).abs.isFinite := by
  have hlimit := limitPrice_of_validEntryOrder h
  obtain ⟨-, -, -, hquantity, hprice, hfilled, -, -, hlt, -⟩ := of_decide_eq_true h
  simp only [hlimit, Option.any_some, decide_eq_true_eq] at hprice
  rw [pendingNotional, hlimit, Option.getD_some]
  dsimp only
  obtain ⟨price, hpricef⟩ := Decimal.isFinite_iff.1 hprice.2.1
  obtain ⟨filled, hfilledf⟩ := Decimal.isFinite_iff.1 hfilled
  rw [hpricef] at hprice ⊢
  rw [hquantity, hfilledf, Decimal.intCast_eq] at hlt ⊢
  have hlt : filled < intent.quantity := hlt
  have hpos : 0 < price := by simpa using hprice.2.2
  rw [if_neg (by simp [hpos, hlt])]
  exact ⟨rfl, rfl⟩

/-- The number of different symbols among some of those of the exposures is at most the number of
    the exposures. -/
theorem length_le_exposures (portfolio : CompletePaperPortfolio) {symbols : List String} (hnodup : symbols.Nodup)
    (h : ∀ symbol ∈ symbols, symbol ∈ portfolio.exposures.map (·.symbol)) :
    symbols.length ≤ portfolio.exposures.length := by
  have hle := (List.subperm_of_subset hnodup h).length_le
  rwa [List.length_map] at hle

/-- For a complete portfolio with no more exposures than slots, and protective OCOs for its
    symbols only, the plan of a phase is within the scope exactly if there is nothing to do, or
    all orders and positions together amount to at most what one symbol may. -/
theorem scopeReasons_eq_nil_iff
    (hbuild : buildPaperPortfolio newYork state storedIntents filledIntentIds config orderStates
      = .ok (.complete portfolio))
    (hslots : portfolio.exposures.length ≤ config.maxOpenPositions)
    (hocos : state.protectiveOcos.length ≤ config.maxOpenPositions)
    (hsymbols : ∀ oco ∈ state.protectiveOcos,
      oco.takeProfit.symbol ∈ portfolio.exposures.map (·.symbol))
    (hplan : planPaperSafetyActions newYork state clock (.complete portfolio) evaluatedAt config
      killSwitchLatched = .ok (.plan plan)) :
    paperSafetyMutationScopeReasons state plan config = []
      ↔ ¬ HasTargets state plan.phase ∨ scopeNotional state ≤ config.maxNotionalDollars := by
  have hactions := actions_eq_nil_iff (actions_of_planPaperSafetyActions hplan)
  rw [paperSafetyMutationScopeReasons]
  by_cases hnil : plan.actions = []
  · simp [hnil, hactions.1 hnil]
  have hcovers := complete_portfolio_covers_once hbuild
  obtain ⟨hvalid, hfinite⟩ := complete_portfolio_valid hbuild
  obtain ⟨limit, hlimit, -⟩ := (buildPaperPortfolio_eq_complete hbuild).1.maxNotionalDollars
  -- The counts are at most that of the exposures, and the amounts can be determined.
  have horders := length_le_exposures portfolio hcovers.nodup_orders fun symbol h =>
    (hcovers.mem_symbols symbol).2 (.inl h)
  have hpositions := length_le_exposures portfolio hcovers.nodup_positions fun symbol h =>
    (hcovers.mem_symbols symbol).2 (.inr h)
  have hall := length_le_exposures portfolio (List.nodup_dedup
    (state.openOrders.map (·.symbol) ++ state.positions.map (·.symbol)
      ++ state.protectiveOcos.map (·.takeProfit.symbol))) fun symbol h => by
    rcases List.mem_append.1 (List.mem_dedup.1 h) with h | h
    · exact (hcovers.mem_symbols symbol).2 (List.mem_append.1 h)
    · obtain ⟨oco, hoco, rfl⟩ := List.mem_map.1 h
      exact hsymbols oco hoco
  rw [List.length_map] at horders hpositions
  have hentry : pendingEntryNotional state.openOrders = some (.sum (state.openOrders.map
      fun order => ((order.quantity - order.filledQuantity) * order.limitPrice.getD 0).abs)) := by
    rw [pendingEntryNotional, mapM_eq_some fun order ho =>
      (pendingNotional_of_validEntryOrder (hvalid order ho).choose_spec).1]
    rfl
  have hvalues : ∀ value ∈ state.positions.map (·.marketValue.abs), value.isFinite = true := by
    simpa using fun position hp => Decimal.isFinite_abs (hfinite position hp).2
  have htotal : (scopeNotional state).isFinite = true := by
    refine Decimal.isFinite_add (Decimal.isFinite_sum ?_) (Decimal.isFinite_sum hvalues)
    simpa using fun order ho =>
      (pendingNotional_of_validEntryOrder (hvalid order ho).choose_spec).2
  rw [if_neg hnil, eraseDups_eq_nil, allReasons_eq_nil, hentry, hlimit,
    ← Decimal.not_lt htotal rfl, or_iff_right (fun h => hnil (hactions.2 h))]
  simp only [List.forall_mem_cons, List.not_mem_nil, false_implies, implies_true, and_true,
    decide_eq_false_iff_not, Option.any_some, Option.isNone_some]
  refine ⟨fun h hlt => h.2.2.2.2.2.2 ⟨hvalues, hlt⟩, fun h => ?_⟩
  refine ⟨by omega, by omega, by omega, by omega, trivial, ?_, fun hlt => h hlt.2⟩
  rintro ⟨value, hmem, hinfinite⟩
  exact hinfinite (hvalues value hmem)

end

/-! ## Two accounts that a kill switch is to flatten -/

namespace PortfolioSample

def killPlan : PaperSafetyPlan where
  accountFingerprint := "account"
  observedAt := now
  sessionDate := .ofCivil 2026 7 15
  phase := .killSwitch
  markToMarketDailyPnl := 0
  conservativeDailyPnl := -150
  actions :=
    [.cancelOrder ⟨"order-1", "AAPL", false⟩, .closePosition ⟨"AAPL", .sell, 4⟩,
      .closePosition ⟨"MSFT", .buy, 5⟩]

/-- The order and the positions amount to 1994 dollars, which is within the scope. -/
theorem scope_allows_killPlan : paperSafetyMutationScopeReasons brokerState killPlan
    DEFAULT_PAPER_RISK_CONFIG = [] :=
  (scopeReasons_eq_nil_iff buildPaperPortfolio_brokerState (by decide +kernel)
    (by decide +kernel) (by decide +kernel)
    (show planPaperSafetyActions easternDaylight brokerState gateSnapshot.marketClock
      (.complete portfolio) now DEFAULT_PAPER_RISK_CONFIG true = .ok (.plan killPlan) by
      decide +kernel)).2 (.inr (by decide +kernel))

/-- Forty shares of AAPL and twenty of MSFT sold short, worth 4000 dollars each. -/
def filledState : PaperBrokerState where
  account := account
  openOrders := []
  positions := [⟨"AAPL", 40, 4000⟩, ⟨"MSFT", -20, -4000⟩]

def filledIntents : List StoredIntent :=
  [{ longIntent with stop := 99, target1r := 101, target2r := 102, quantity := 40 },
    { shortIntent with stop := 202, target1r := 198, target2r := 196, quantity := 20 }]

def filledPortfolio : CompletePaperPortfolio :=
  { portfolio with
    exposures :=
      [{ intentId := "long", symbol := "AAPL", kind := .openPosition,
         grossExposure := 4000, plannedRisk := 75 },
        { intentId := "short", symbol := "MSFT", kind := .openPosition,
          grossExposure := 4000, plannedRisk := 75 }] }

def filledKillPlan : PaperSafetyPlan :=
  { killPlan with
    actions := [.closePosition ⟨"AAPL", .sell, 40⟩, .closePosition ⟨"MSFT", .buy, 20⟩] }

/-- Two positions within all the limits of the order gate are out of scope for the kill switch:
    each is worth 4000 dollars, and the scope is 6000 dollars. -/
theorem scope_refuses_two_positions :
    buildPaperPortfolio easternDaylight filledState filledIntents ["long", "short"]
        DEFAULT_PAPER_RISK_CONFIG [] = .ok (.complete filledPortfolio)
      ∧ (∀ exposure ∈ filledPortfolio.exposures,
          exposure.plannedRisk ≤ effectiveRiskLimit filledPortfolio DEFAULT_PAPER_RISK_CONFIG
          ∧ exposure.grossExposure
            ≤ effectiveNotionalLimit filledPortfolio DEFAULT_PAPER_RISK_CONFIG)
      ∧ filledPortfolio.exposures.length ≤ DEFAULT_PAPER_RISK_CONFIG.maxOpenPositions
      ∧ filledPortfolio.grossExposure
          ≤ grossLimit filledPortfolio DEFAULT_PAPER_RISK_CONFIG filledPortfolio.exposures.length
      ∧ planPaperSafetyActions easternDaylight filledState gateSnapshot.marketClock
          (.complete filledPortfolio) now DEFAULT_PAPER_RISK_CONFIG true
          = .ok (.plan filledKillPlan)
      ∧ paperSafetyMutationScopeReasons filledState filledKillPlan DEFAULT_PAPER_RISK_CONFIG
          = ["Paper safety mutation scope notional이 허용 한도를 초과합니다"] := by
  decide +kernel

end PortfolioSample

end TradingAgent
