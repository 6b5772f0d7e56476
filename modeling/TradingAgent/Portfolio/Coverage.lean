import TradingAgent.Portfolio.Builder

/-!
# What a complete portfolio covers

A complete portfolio loses nothing and counts nothing twice (`CoversOnce`): its exposures
correspond one-to-one to the symbols with an open order or a position, and to intents, among
which are all that have been filled. An exposure is worth at least what its order may still buy
or sell, and the position of its symbol; and its planned risk is at least that of its slot.
-/

namespace TradingAgent

variable {newYork : ZoneInfo} {state : PaperBrokerState} {storedIntents : List StoredIntent}
  {filledIntentIds : List IntentId} {config : PaperRiskConfig}
  {orderStates : List BrokerOrderLedgerState} {positions : List PaperPositionSnapshot}

/-- What the orders for a symbol may still buy or sell, at their limit prices. -/
def openOrderValue (state : PaperBrokerState) (symbol : String) : Decimal :=
  .sum ((state.openOrders.filter (·.symbol = symbol)).map fun order =>
    (order.quantity - order.filledQuantity) * order.limitPrice.getD 0)

/-- What the positions of a symbol are worth: by the market, or by the limit price of the entry
    if that is more. -/
def openPositionValue (state : PaperBrokerState) (symbol : String) (entryLimit : Decimal) :
    Decimal :=
  .sum ((state.positions.filter (·.symbol = symbol)).map fun position =>
    .max position.marketValue.abs (position.quantity.abs * entryLimit))

variable (state storedIntents filledIntentIds config orderStates) in
/-- Some exposures cover the orders, the positions and the fills, each once. -/
structure CoversOnce (exposures : List PaperPortfolioExposure) : Prop where
  mem_symbols : ∀ symbol, symbol ∈ exposures.map (·.symbol) ↔
    symbol ∈ state.openOrders.map (·.symbol) ∨ symbol ∈ state.positions.map (·.symbol)
  nodup_symbols : (exposures.map (·.symbol)).Nodup
  nodup_intentIds : (exposures.map (·.intentId)).Nodup
  nodup_orders : (state.openOrders.map (·.symbol)).Nodup
  nodup_positions : (state.positions.map (·.symbol)).Nodup
  order : ∀ order ∈ state.openOrders, ∃! exposure, exposure ∈ exposures
    ∧ exposure.symbol = order.symbol
  intent_of_order : ∀ order ∈ state.openOrders, ∀ exposure ∈ exposures,
    exposure.symbol = order.symbol → exposure.intentId = order.clientOrderId
  position : ∀ position ∈ state.positions, ∃! exposure, exposure ∈ exposures
    ∧ exposure.symbol = position.symbol
  fill : ∀ intentId, intentId ∈ filledIntentIds
      ∨ (∃ orderState ∈ orderStates, orderState.hasFillEvidence ∧ orderState.intentId = intentId) →
    ∃ exposure ∈ exposures, exposure.intentId = intentId ∧ exposure.kind ≠ .pendingEntry
  value : ∀ exposure ∈ exposures, ∃ intent ∈ storedIntents,
    intent.intentId = exposure.intentId
      ∧ intent.symbol = exposure.symbol
      ∧ openOrderValue state exposure.symbol
          + openPositionValue state exposure.symbol intent.entryLimit ≤ exposure.grossExposure
      ∧ reservedSlotRisk state config ≤ exposure.plannedRisk
      ∧ actualRisk intent config ≤ exposure.plannedRisk

/-! ## Planned risks -/

theorem isFinite_reservedSlotRisk (hconfig : config.WithinHardLimits)
    (haccount : validAccountSnapshot state = true) :
    (reservedSlotRisk state config).isFinite = true := by
  obtain ⟨-, hmoney, -⟩ := of_decide_eq_true haccount
  simp only [List.forall_mem_cons] at hmoney
  obtain ⟨hequity, hlast, -⟩ := hmoney
  obtain ⟨reference, hreference, -⟩ := hconfig.referenceEquity
  obtain ⟨risk, hrisk, -⟩ := hconfig.maxRiskDollars
  obtain ⟨fraction, hfraction, -⟩ := hconfig.riskFraction
  rw [reservedSlotRisk, hreference, hrisk, hfraction]
  exact Decimal.isFinite_min rfl
    (Decimal.isFinite_mul (Decimal.isFinite_min (Decimal.isFinite_min hequity hlast) rfl) rfl)

theorem isFinite_actualRisk (hconfig : config.WithinHardLimits) {intent : StoredIntent}
    (hentry : intent.entryLimit.isFinite = true) (hstop : intent.stop.isFinite = true) :
    (actualRisk intent config).isFinite = true := by
  obtain ⟨cost, hcost, -⟩ := hconfig.perSideCostBps
  have hdistance :
      (stopDistance intent.side intent.entryLimit intent.stop).isFinite = true := by
    cases intent.side
    · exact Decimal.isFinite_sub hentry hstop
    · exact Decimal.isFinite_sub hstop hentry
  rw [actualRisk, hcost, BASIS_POINT_DENOMINATOR, Decimal.ofNat_eq]
  exact Decimal.isFinite_mul (Decimal.isFinite_add hdistance (Decimal.isFinite_div
    (Decimal.isFinite_mul (Decimal.isFinite_add hentry hstop) rfl) (by norm_num))) rfl

/-- The planned risk of an exposure is at least the reserve of its slot, and at least the loss of
    its intent at the stop. -/
theorem le_plannedExposureRisk (hconfig : config.WithinHardLimits)
    (haccount : validAccountSnapshot state = true) {intent : StoredIntent}
    (hintent : validStoredIntent newYork intent state.account.observedAt = true) :
    reservedSlotRisk state config
        ≤ plannedExposureRisk intent (reservedSlotRisk state config) config
      ∧ actualRisk intent config
        ≤ plannedExposureRisk intent (reservedSlotRisk state config) config := by
  obtain ⟨hentry, hstop⟩ := isFinite_of_validStoredIntent hintent
  have hreserved := isFinite_reservedSlotRisk hconfig haccount
  have hactual := isFinite_actualRisk hconfig hentry hstop
  exact ⟨Decimal.le_max_left hreserved hactual, Decimal.le_max_right hreserved hactual⟩

/-! ## Values -/

theorem openOrderValue_eq {order : PaperOrderSnapshot} {intent : StoredIntent}
    (hnodup : (state.openOrders.map (·.symbol)).Nodup) (hmem : order ∈ state.openOrders)
    (hvalid : validEntryOrder order intent = true) :
    openOrderValue state order.symbol
      = (order.quantity - order.filledQuantity) * intent.entryLimit
      ∧ (openOrderValue state order.symbol).isFinite = true := by
  have hlimit := limitPrice_of_validEntryOrder hvalid
  obtain ⟨-, -, -, hquantity, hprice, hfilled, -⟩ := of_decide_eq_true hvalid
  simp only [hlimit, Option.any_some, decide_eq_true_eq] at hprice
  have hfinite : ((order.quantity - order.filledQuantity) * intent.entryLimit).isFinite = true :=
    Decimal.isFinite_mul (Decimal.isFinite_sub (by rw [hquantity]; rfl) hfilled) hprice.2.1
  rw [openOrderValue, filter_key_eq_singleton hnodup hmem, List.map_singleton,
    Decimal.sum_singleton, hlimit, Option.getD_some, Decimal.zero_add hfinite]
  exact ⟨rfl, hfinite⟩

theorem openPositionValue_eq {position : PaperPositionSnapshot} {entryLimit : Decimal}
    (hnodup : (state.positions.map (·.symbol)).Nodup) (hmem : position ∈ state.positions)
    (hentry : entryLimit.isFinite = true) (hquantity : position.quantity.isFinite = true)
    (hvalue : position.marketValue.isFinite = true) :
    openPositionValue state position.symbol entryLimit
      = .max position.marketValue.abs (position.quantity.abs * entryLimit)
      ∧ (openPositionValue state position.symbol entryLimit).isFinite = true := by
  have hfinite : (Decimal.max position.marketValue.abs
      (position.quantity.abs * entryLimit)).isFinite = true :=
    Decimal.isFinite_max (Decimal.isFinite_abs hvalue)
      (Decimal.isFinite_mul (Decimal.isFinite_abs hquantity) hentry)
  rw [openPositionValue, filter_key_eq_singleton hnodup hmem, List.map_singleton,
    Decimal.sum_singleton, Decimal.zero_add hfinite]
  exact ⟨rfl, hfinite⟩

/-- An exposure of an order is worth what the order and the position of its symbol are. -/
theorem IsOrderExposure.covers {order : PaperOrderSnapshot} {intent : StoredIntent}
    {exposure : PaperPortfolioExposure}
    (h : IsOrderExposure newYork state storedIntents config state.positions order intent exposure)
    (horders : (state.openOrders.map (·.symbol)).Nodup) (hmem : order ∈ state.openOrders)
    (hpositions : (state.positions.map (·.symbol)).Nodup)
    (hfinite : ∀ position ∈ state.positions,
      position.quantity.isFinite ∧ position.quantity ≠ 0 ∧ position.marketValue.isFinite) :
    openOrderValue state exposure.symbol + openPositionValue state exposure.symbol intent.entryLimit
        = exposure.grossExposure
      ∧ exposure.grossExposure.isFinite = true := by
  obtain ⟨hentry, -⟩ := isFinite_of_validStoredIntent h.validIntent
  obtain ⟨horder, hofinite⟩ := openOrderValue_eq horders hmem h.validOrder
  have hvalue := h.value
  rw [h.symbol_eq]
  generalize exposure.kind = kind at hvalue
  generalize exposure.grossExposure = gross at hvalue ⊢
  cases hvalue with
  | pending _ hnone =>
    have hposition : openPositionValue state order.symbol intent.entryLimit = 0 := by
      rw [openPositionValue, List.filter_eq_nil_iff.2 fun p hp => by simpa using hnone p hp]
      rfl
    rw [hposition, Decimal.add_zero hofinite, ← horder]
    exact ⟨rfl, hofinite⟩
  | filled _ hmem' hsymbol =>
    obtain ⟨hquantity, -, hmarket⟩ := hfinite _ hmem'
    obtain ⟨hposition, hpfinite⟩ :=
      openPositionValue_eq hpositions hmem' hentry hquantity hmarket
    rw [hsymbol] at hposition hpfinite
    rw [← hposition, ← horder]
    exact ⟨rfl, Decimal.isFinite_add hofinite hpfinite⟩

/-- An exposure of a position is worth what the position is, if no order has its symbol. -/
theorem IsPositionExposure.covers {position : PaperPositionSnapshot}
    {intent : StoredIntent} {exposure : PaperPortfolioExposure}
    (h : IsPositionExposure newYork state storedIntents config position intent exposure)
    (hnone : position.symbol ∉ state.openOrders.map (·.symbol))
    (hmem : position ∈ state.positions) (hpositions : (state.positions.map (·.symbol)).Nodup)
    (hfinite : position.quantity.isFinite ∧ position.quantity ≠ 0 ∧ position.marketValue.isFinite) :
    openOrderValue state exposure.symbol + openPositionValue state exposure.symbol intent.entryLimit
        = exposure.grossExposure
      ∧ exposure.grossExposure.isFinite = true := by
  obtain ⟨hentry, -⟩ := isFinite_of_validStoredIntent h.validIntent
  obtain ⟨hposition, hpfinite⟩ :=
    openPositionValue_eq hpositions hmem hentry hfinite.1 hfinite.2.2
  have horder : openOrderValue state position.symbol = 0 := by
    rw [openOrderValue, List.filter_eq_nil_iff.2]
    · rfl
    · intro order horder hsymbol
      exact hnone (List.mem_map.2 ⟨order, horder, of_decide_eq_true hsymbol⟩)
  rw [h.symbol_eq, horder, Decimal.zero_add hpfinite, h.grossExposure_eq, ← hposition]
  exact ⟨rfl, hpfinite⟩

/-! ## Coverage -/

/-- A complete portfolio covers every open order, every position and every fill exactly once. -/
theorem complete_portfolio_covers_once {portfolio : CompletePaperPortfolio}
    (h : buildPaperPortfolio newYork state storedIntents filledIntentIds config orderStates
      = .ok (.complete portfolio)) :
    CoversOnce state storedIntents filledIntentIds config orderStates portfolio.exposures := by
  obtain ⟨hconfig, haccount, hreasons, hfills, hnodup, heq⟩ := buildPaperPortfolio_eq_complete h
  obtain ⟨start, horders, hpositions, hpnodup, hfinite⟩ := aggregatePaperPortfolio_done hreasons
  obtain ⟨added, hexposures, hadded⟩ := hpositions.exposures
  rw [heq]
  generalize aggregatePaperPortfolio newYork state storedIntents filledIntentIds config
    orderStates = agg at *
  -- The symbols of the exposures are those of the orders, then those of the other positions.
  have hosymbols : state.openOrders.map (·.symbol) = start.exposures.map (·.symbol) :=
    map_eq_of_forall₂ horders.exposures fun _ _ ⟨_, he⟩ => he.symbol_eq.symm
  have hpsymbols : (state.positions.filter (·.symbol ∉ start.consumedPositions)).map (·.symbol)
      = added.map (·.symbol) :=
    map_eq_of_forall₂ hadded fun _ _ ⟨_, he⟩ => he.symbol_eq.symm
  have hsymbols : agg.exposures.map (·.symbol) = state.openOrders.map (·.symbol)
      ++ (state.positions.filter (·.symbol ∉ start.consumedPositions)).map (·.symbol) := by
    rw [hexposures, List.map_append, hosymbols, hpsymbols]
  have hall : (state.openOrders.map (·.symbol)
      ++ (state.positions.filter (·.symbol ∉ start.consumedPositions)).map (·.symbol)).Nodup :=
    hsymbols ▸ hnodup
  obtain ⟨honodup, -, hdisjoint⟩ := List.nodup_append.1 hall
  have hmem : ∀ symbol, symbol ∈ agg.exposures.map (·.symbol) ↔
      symbol ∈ state.openOrders.map (·.symbol) ∨ symbol ∈ state.positions.map (·.symbol) := by
    intro symbol
    rw [hsymbols, List.mem_append]
    refine or_congr_right' fun hnot => ?_
    -- A position that an order consumed has the symbol of that order.
    simp only [List.mem_map, List.mem_filter, decide_eq_true_eq]
    refine exists_congr fun position => ⟨fun hp => ⟨hp.1.1, hp.2⟩, fun hp => ⟨⟨hp.1, ?_⟩, hp.2⟩⟩
    rintro hconsumed
    obtain ⟨order, horder, hsymbol, -⟩ := (horders.consumedPositions _).1 hconsumed
    exact hnot (List.mem_map.2 ⟨order, horder, hsymbol.trans hp.2⟩)
  refine ⟨hmem, hnodup, hpositions.consistent.nodup, honodup, hpnodup, fun order ho => ?_,
    fun order ho other hother hsymbol => ?_, fun position hp => ?_, fun intentId hid => ?_,
    fun exposure he => ?_⟩
  · exact existsUnique_of_nodup_keys hnodup
      ((hmem _).2 (.inl (List.mem_map_of_mem ho)))
  · obtain ⟨exposure, hmem', intent, he⟩ := exists_right_of_forall₂ horders.exposures ho
    have hmem' : exposure ∈ agg.exposures := hexposures ▸ List.mem_append_left _ hmem'
    rw [List.inj_on_of_nodup_map hnodup hother hmem' (hsymbol.trans he.symbol_eq.symm)]
    exact he.intentId_eq.trans he.clientOrderId_eq.symm
  · exact existsUnique_of_nodup_keys hnodup
      ((hmem _).2 (.inr (List.mem_map_of_mem hp)))
  · refine hpositions.consistent.consumedFillIntents intentId (hfills intentId ?_)
    rw [expectedFillIntents, List.mem_append, List.mem_map]
    refine hid.imp_right fun ⟨orderState, hmem, hevidence, heq⟩ => ?_
    exact ⟨orderState, List.mem_filter.2 ⟨hmem, hevidence⟩, heq⟩
  · rw [hexposures, List.mem_append] at he
    rcases he with he | he
    · obtain ⟨order, ho, intent, hexposure⟩ := exists_left_of_forall₂ horders.exposures he
      obtain ⟨hgross, hgfinite⟩ := hexposure.covers honodup ho hpnodup hfinite
      refine ⟨intent, hexposure.mem, hexposure.intentId_eq.symm, ?_, ?_, ?_⟩
      · rw [hexposure.symbol_eq, (of_decide_eq_true hexposure.validOrder).2.1]
      · rw [hgross]
        exact Decimal.le_refl hgfinite
      · rw [hexposure.plannedRisk_eq]
        exact le_plannedExposureRisk hconfig haccount hexposure.validIntent
    · obtain ⟨position, hp, intent, hexposure⟩ := exists_left_of_forall₂ hadded he
      have hpmem := (List.mem_filter.1 hp).1
      have hnone : position.symbol ∉ state.openOrders.map (·.symbol) := fun hsymbol =>
        hdisjoint _ hsymbol _ (List.mem_map_of_mem hp) rfl
      obtain ⟨hgross, hgfinite⟩ :=
        hexposure.covers hnone hpmem hpnodup (hfinite position hpmem)
      refine ⟨intent, hexposure.mem, hexposure.intentId_eq.symm,
        hexposure.intentSymbol_eq.symm, ?_, ?_⟩
      · rw [hgross]
        exact Decimal.le_refl hgfinite
      · rw [hexposure.plannedRisk_eq]
        exact le_plannedExposureRisk hconfig haccount hexposure.validIntent

/-- The orders of a complete portfolio are valid for their intents, and the quantities and the
    values of its positions are finite. -/
theorem complete_portfolio_valid {portfolio : CompletePaperPortfolio}
    (h : buildPaperPortfolio newYork state storedIntents filledIntentIds config orderStates
      = .ok (.complete portfolio)) :
    (∀ order ∈ state.openOrders, ∃ intent, validEntryOrder order intent = true)
      ∧ ∀ position ∈ state.positions,
          position.quantity.isFinite ∧ position.marketValue.isFinite := by
  obtain ⟨-, -, hreasons, -⟩ := buildPaperPortfolio_eq_complete h
  obtain ⟨start, horders, -, -, hfinite⟩ := aggregatePaperPortfolio_done hreasons
  refine ⟨fun order ho => ?_, fun position hp => ⟨(hfinite position hp).1, (hfinite position hp).2.2⟩⟩
  obtain ⟨_, -, intent, he⟩ := exists_right_of_forall₂ horders.exposures ho
  exact ⟨intent, he.validOrder⟩

/-! ## An account with an order filled in part, and a short position -/

namespace PortfolioSample

/-- The clocks of New York in summer. -/
def easternDaylight : ZoneInfo := ⟨fun _ => .hours (-4)⟩

/-- 10:00 on Wednesday, the 15th of July 2026, in New York. -/
def now : DateTime := .combine (.ofCivil 2026 7 15) 14 0 0

def account : PaperAccountSnapshot where
  observedAt := now
  status := "ACTIVE"
  tradingBlocked := false
  equity := 30000
  lastEquity := 30000
  buyingPower := 60000
  accountFingerprint := "account"

def longIntent : StoredIntent where
  intentId := "long"
  strategyId := "breakout"
  strategyVersion := "1"
  symbol := "AAPL"
  createdAt := some (now - TimeDelta.minutes 5)
  side := .buy
  entryLimit := 100
  stop := 98
  target1r := 102
  target2r := 104
  quantity := 10

def shortIntent : StoredIntent where
  intentId := "short"
  strategyId := "breakout"
  strategyVersion := "1"
  symbol := "MSFT"
  createdAt := some (now - TimeDelta.minutes 20)
  side := .sell
  entryLimit := 200
  stop := 204
  target1r := 196
  target2r := 192
  quantity := 5

/-- The order of the long intent, of which 4 shares of 10 are filled. -/
def longOrder : PaperOrderSnapshot where
  brokerOrderId := "order-1"
  clientOrderId := "long"
  symbol := "AAPL"
  side := .buy
  status := "partially_filled"
  quantity := 10
  filledQuantity := 4
  limitPrice := some 100
  timeInForce := "day"
  extendedHours := false

def brokerState : PaperBrokerState where
  account := account
  openOrders := [longOrder]
  positions := [⟨"AAPL", 4, 404⟩, ⟨"MSFT", -5, -990⟩]

def portfolio : CompletePaperPortfolio where
  observedAt := now
  accountStatus := "ACTIVE"
  tradingBlocked := false
  equity := 30000
  lastEquity := 30000
  buyingPower := 60000
  exposures :=
    [{ intentId := "long", symbol := "AAPL", kind := .partialEntry,
       grossExposure := 1004, plannedRisk := 75 },
      { intentId := "short", symbol := "MSFT", kind := .openPosition,
        grossExposure := 1000, plannedRisk := 75 }]

theorem buildPaperPortfolio_brokerState :
    buildPaperPortfolio easternDaylight brokerState [longIntent, shortIntent] ["long", "short"]
      DEFAULT_PAPER_RISK_CONFIG [] = .ok (.complete portfolio) := by
  decide +kernel

theorem brokerState_covered_once :
    CoversOnce brokerState [longIntent, shortIntent] ["long", "short"] DEFAULT_PAPER_RISK_CONFIG []
      portfolio.exposures :=
  complete_portfolio_covers_once buildPaperPortfolio_brokerState

end PortfolioSample

end TradingAgent
