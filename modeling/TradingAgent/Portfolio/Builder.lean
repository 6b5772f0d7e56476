import Mathlib.Data.List.Forall2
import Mathlib.Data.List.Sort
import TradingAgent.Portfolio.Validation
import TradingAgent.Projection.Models

/-!
# Building the portfolio

The portfolio is aggregated in two passes, over the open orders and then over the positions
(`buildPaperPortfolio`). A position that belongs to a partially filled order is taken into
account with the order, and *consumed* by that. Whatever does not fit gives a reason, and a
portfolio is complete only if there is none.

* After the passes, the exposures are one for each open order (`IsOrderExposure`), followed by one
  for each position that no order has consumed (`IsPositionExposure`).
* A complete portfolio thus covers each order and each position exactly once, and every fill
  (`complete_portfolio_covers_once`).
-/

namespace TradingAgent

/-- What the passes have gathered so far. -/
structure Aggregation where
  reasons : List String
  exposures : List PaperPortfolioExposure := []
  consumedPositions : List String := []
  consumedIntents : List IntentId := []
  consumedFillIntents : List IntentId := []

def Aggregation.complain (agg : Aggregation) (reason : String) : Aggregation :=
  { agg with reasons := agg.reasons ++ [reason] }

def orderExposure (order : PaperOrderSnapshot) (intent : StoredIntent)
    (positions : List PaperPositionSnapshot) (reservedRisk : Decimal) (agg : Aggregation) :
    Option PaperPortfolioExposure × Aggregation :=
  if ¬ validEntryOrder order intent then
    (none, agg.complain ("미체결 주문의 수량·가격·상태가 불완전합니다: " ++ order.clientOrderId))
  else
    match order.limitPrice with
    | none => (none, agg.complain ("미체결 주문 가격이 없습니다: " ++ order.clientOrderId))
    | some limitPrice =>
      let remaining := order.quantity - order.filledQuantity
      let position? := dictGet (·.symbol) positions order.symbol
      let gross := remaining * limitPrice
      let exposure (kind : PaperExposureKind) (gross : Decimal) : PaperPortfolioExposure :=
        { intentId := intent.intentId
          symbol := order.symbol
          kind
          grossExposure := gross
          plannedRisk := reservedRisk }
      if order.filledQuantity = 0 then
        if position?.isSome then
          (none, agg.complain
            ("미체결 수량 0인 주문과 포지션이 동시에 존재합니다: " ++ order.symbol))
        else
          (some (exposure .pendingEntry gross), agg)
      else
        match position?.filter (positionMatchesFill · order) with
        | none =>
          (none, agg.complain
            ("부분체결 주문과 포지션 수량이 일치하지 않습니다: " ++ order.symbol))
        | some position =>
          (some (exposure .partialEntry (gross +
              .max position.marketValue.abs (position.quantity.abs * limitPrice))),
            { agg with consumedPositions := order.symbol :: agg.consumedPositions })

def reservedSlotRisk (state : PaperBrokerState) (config : PaperRiskConfig) : Decimal :=
  let equity := Decimal.min (.min state.account.equity state.account.lastEquity)
    config.referenceEquity
  .min config.maxRiskDollars (equity * config.riskFraction)

/-- The loss of an intent at its stop, with at least the costs. -/
def actualRisk (intent : StoredIntent) (config : PaperRiskConfig) : Decimal :=
  let minimumCost :=
    (intent.entryLimit + intent.stop) * config.perSideCostBps / BASIS_POINT_DENOMINATOR
  (stopDistance intent.side intent.entryLimit intent.stop + minimumCost)
    * (intent.quantity : Decimal)

def plannedExposureRisk (intent : StoredIntent) (reservedRisk : Decimal)
    (config : PaperRiskConfig) : Decimal :=
  .max reservedRisk (actualRisk intent config)

section Passes

variable (newYork : ZoneInfo) (state : PaperBrokerState) (storedIntents : List StoredIntent)
  (filledIntentIds : List IntentId) (config : PaperRiskConfig)
  (orderStates : List BrokerOrderLedgerState) (positions : List PaperPositionSnapshot)

def positionMatchesLedgerOrIntent (position : PaperPositionSnapshot) (intent : StoredIntent)
    (observedAt : DateTime) (orderState : Option BrokerOrderLedgerState) : Bool :=
  match orderState with
  | none => positionMatchesCurrentIntent newYork position intent observedAt
  | some orderState =>
    if orderState.anomalyReasons ≠ []
        ∨ ¬ orderState.terminal
        ∨ ¬ orderState.hasFillEvidence
        ∨ ¬ validStoredIntent newYork intent observedAt then
      false
    else
      position.symbol = intent.symbol
        ∧ position.quantity = openedQuantity intent.side orderState.cumulativeFilledQuantity

/-- The body of the loop over the open orders. -/
def openOrderStep (agg : Aggregation) (order : PaperOrderSnapshot) : Aggregation :=
  match dictGet (·.intentId) storedIntents order.clientOrderId with
  | none => agg.complain ("원장에 없는 미체결 주문: " ++ order.clientOrderId)
  | some intent =>
    if ¬ validStoredIntent newYork intent state.account.observedAt then
      agg.complain ("활성 원장 intent가 불완전합니다: " ++ intent.intentId)
    else
      let plannedRisk := plannedExposureRisk intent (reservedSlotRisk state config) config
      match orderExposure order intent positions plannedRisk agg with
      | (none, agg) => agg
      | (some exposure, agg) =>
        let agg :=
          if intent.intentId ∈ agg.consumedIntents then
            agg.complain ("중복된 활성 intent: " ++ intent.intentId)
          else agg
        { agg with
          consumedIntents := intent.intentId :: agg.consumedIntents
          consumedFillIntents :=
            if 0 < order.filledQuantity then intent.intentId :: agg.consumedFillIntents
            else agg.consumedFillIntents
          exposures := agg.exposures ++ [exposure] }

/-- The body of the loop over the positions. -/
def openPositionStep (agg : Aggregation) (position : PaperPositionSnapshot) : Aggregation :=
  if position.symbol ∈ agg.consumedPositions then
    agg
  else
    let isMatch (intent : StoredIntent) : Bool :=
      intent.intentId ∈ filledIntentIds
        ∧ positionMatchesLedgerOrIntent newYork position intent state.account.observedAt
            (dictGet (·.intentId) orderStates intent.intentId)
    match storedIntents.filter isMatch with
    | [intent] =>
      if intent.intentId ∈ agg.consumedIntents then
        agg.complain ("중복된 활성 intent: " ++ intent.intentId)
      else
        { agg with
          consumedIntents := intent.intentId :: agg.consumedIntents
          consumedFillIntents := intent.intentId :: agg.consumedFillIntents
          exposures := agg.exposures ++
            [{ intentId := intent.intentId
               symbol := position.symbol
               kind := .openPosition
               grossExposure :=
                .max position.marketValue.abs (position.quantity.abs * intent.entryLimit)
               plannedRisk :=
                plannedExposureRisk intent (reservedSlotRisk state config) config }] }
    | _ =>
      agg.complain ("열린 포지션의 현재 원장 intent가 유일하지 않습니다: " ++ position.symbol)

/-! ## What one step does -/

/-- The kind and the value of the exposure that an order is, with the position its fills have
    opened. -/
inductive OrderValue (order : PaperOrderSnapshot) (limit : Decimal) :
    PaperExposureKind → Decimal → Prop
  | pending : order.filledQuantity = 0 →
      (∀ position ∈ positions, position.symbol ≠ order.symbol) →
      OrderValue order limit .pendingEntry ((order.quantity - order.filledQuantity) * limit)
  | filled {position : PaperPositionSnapshot} : order.filledQuantity ≠ 0 →
      position ∈ positions → position.symbol = order.symbol →
      OrderValue order limit .partialEntry ((order.quantity - order.filledQuantity) * limit
        + .max position.marketValue.abs (position.quantity.abs * limit))

/-- The exposure of an open order, under its intent. -/
structure IsOrderExposure (order : PaperOrderSnapshot) (intent : StoredIntent)
    (exposure : PaperPortfolioExposure) : Prop where
  mem : intent ∈ storedIntents
  validIntent : validStoredIntent newYork intent state.account.observedAt = true
  validOrder : validEntryOrder order intent = true
  clientOrderId_eq : order.clientOrderId = intent.intentId
  intentId_eq : exposure.intentId = intent.intentId
  symbol_eq : exposure.symbol = order.symbol
  plannedRisk_eq :
    exposure.plannedRisk = plannedExposureRisk intent (reservedSlotRisk state config) config
  value : OrderValue positions order intent.entryLimit exposure.kind exposure.grossExposure

/-- The exposure of a position that belongs to no open order, under its intent. -/
structure IsPositionExposure (position : PaperPositionSnapshot) (intent : StoredIntent)
    (exposure : PaperPortfolioExposure) : Prop where
  mem : intent ∈ storedIntents
  validIntent : validStoredIntent newYork intent state.account.observedAt = true
  intentId_eq : exposure.intentId = intent.intentId
  symbol_eq : exposure.symbol = position.symbol
  intentSymbol_eq : exposure.symbol = intent.symbol
  kind_eq : exposure.kind = .openPosition
  plannedRisk_eq :
    exposure.plannedRisk = plannedExposureRisk intent (reservedSlotRisk state config) config
  grossExposure_eq : exposure.grossExposure =
    .max position.marketValue.abs (position.quantity.abs * intent.entryLimit)

/-- The aggregation with the exposure of another order. -/
def Aggregation.addOrder (agg : Aggregation) (order : PaperOrderSnapshot)
    (exposure : PaperPortfolioExposure) : Aggregation where
  reasons := agg.reasons
  exposures := agg.exposures ++ [exposure]
  consumedPositions :=
    if order.filledQuantity = 0 then agg.consumedPositions
    else order.symbol :: agg.consumedPositions
  consumedIntents := exposure.intentId :: agg.consumedIntents
  consumedFillIntents :=
    if 0 < order.filledQuantity then exposure.intentId :: agg.consumedFillIntents
    else agg.consumedFillIntents

/-- The aggregation with the exposure of another position. -/
def Aggregation.addPosition (agg : Aggregation) (exposure : PaperPortfolioExposure) :
    Aggregation where
  reasons := agg.reasons
  exposures := agg.exposures ++ [exposure]
  consumedPositions := agg.consumedPositions
  consumedIntents := exposure.intentId :: agg.consumedIntents
  consumedFillIntents := exposure.intentId :: agg.consumedFillIntents

variable {newYork state storedIntents filledIntentIds config orderStates positions}

theorem limitPrice_of_validEntryOrder {order : PaperOrderSnapshot} {intent : StoredIntent}
    (h : validEntryOrder order intent = true) : order.limitPrice = some intent.entryLimit := by
  simp only [validEntryOrder, decide_eq_true_eq] at h
  obtain ⟨-, -, -, -, hlimit, -⟩ := h
  obtain ⟨limit, hlimit, hprice⟩ := (Option.any_eq_true _ _).1 hlimit
  rw [hlimit, (of_decide_eq_true hprice).1]

/-- An order adds a reason and has no exposure, or else it has the one of its value, and consumes
    the position if it is filled in part. -/
theorem orderExposure_cases (order : PaperOrderSnapshot) (intent : StoredIntent)
    (reservedRisk : Decimal) (agg : Aggregation) :
    (∃ reason, orderExposure order intent positions reservedRisk agg
        = (none, agg.complain reason))
      ∨ ∃ kind gross, validEntryOrder order intent = true
          ∧ OrderValue positions order intent.entryLimit kind gross
          ∧ orderExposure order intent positions reservedRisk agg
            = (some ⟨intent.intentId, order.symbol, kind, gross, reservedRisk⟩,
                { agg with
                  consumedPositions :=
                    if order.filledQuantity = 0 then agg.consumedPositions
                    else order.symbol :: agg.consumedPositions }) := by
  rw [orderExposure]
  by_cases hvalid : validEntryOrder order intent = true
  case neg => exact .inl ⟨_, if_pos hvalid⟩
  rw [if_neg (not_not.2 hvalid), limitPrice_of_validEntryOrder hvalid]
  dsimp only
  by_cases hfilled : order.filledQuantity = 0
  · rw [if_pos hfilled, if_pos hfilled]
    cases hposition : dictGet (·.symbol) positions order.symbol with
    | some position => exact .inl ⟨_, rfl⟩
    | none => exact .inr ⟨_, _, hvalid, .pending hfilled (dictGet_eq_none.1 hposition), rfl⟩
  · rw [if_neg hfilled, if_neg hfilled]
    cases hposition : (dictGet (·.symbol) positions order.symbol).filter
        (positionMatchesFill · order) with
    | none => exact .inl ⟨_, rfl⟩
    | some position =>
      obtain ⟨hmem, hsymbol⟩ := dictGet_eq_some (Option.eq_some_of_filter_eq_some hposition)
      exact .inr ⟨_, _, hvalid, .filled hfilled hmem hsymbol, rfl⟩

/-- A step over an order adds a reason, or else the exposure of the order, under an intent that
    no other exposure has. -/
theorem openOrderStep_cases (agg : Aggregation) (order : PaperOrderSnapshot) :
    (∃ reason, (openOrderStep newYork state storedIntents config positions agg order).reasons
        = agg.reasons ++ [reason])
      ∨ ∃ intent exposure,
          openOrderStep newYork state storedIntents config positions agg order
            = agg.addOrder order exposure
          ∧ IsOrderExposure newYork state storedIntents config positions order intent exposure
          ∧ exposure.intentId ∉ agg.consumedIntents := by
  rw [openOrderStep]
  cases hintent : dictGet (·.intentId) storedIntents order.clientOrderId with
  | none => exact .inl ⟨_, rfl⟩
  | some intent =>
    obtain ⟨hmem, hkey⟩ := dictGet_eq_some hintent
    dsimp only
    by_cases hstored : validStoredIntent newYork intent state.account.observedAt = true
    case neg =>
      rw [if_pos hstored]
      exact .inl ⟨_, rfl⟩
    rw [if_neg (not_not.2 hstored)]
    rcases orderExposure_cases order intent
        (plannedExposureRisk intent (reservedSlotRisk state config) config) agg with
      ⟨reason, h⟩ | ⟨kind, gross, hvalid, hvalue, h⟩
    · rw [h]
      exact .inl ⟨reason, rfl⟩
    rw [h]
    by_cases hconsumed : intent.intentId ∈ agg.consumedIntents
    · simp only [hconsumed, if_true]
      exact .inl ⟨_, rfl⟩
    · simp only [hconsumed, if_false]
      exact .inr ⟨intent, _, rfl,
        ⟨hmem, hstored, hvalid, hkey.symm, rfl, rfl, rfl, hvalue⟩, hconsumed⟩

/-- A position that matches an intent is one of its symbol, and the intent is valid. -/
theorem valid_of_positionMatches {position : PaperPositionSnapshot} {intent : StoredIntent}
    {observedAt : DateTime} {orderState : Option BrokerOrderLedgerState}
    (h : positionMatchesLedgerOrIntent newYork position intent observedAt orderState = true) :
    validStoredIntent newYork intent observedAt = true ∧ position.symbol = intent.symbol := by
  cases orderState with
  | none =>
    rw [positionMatchesLedgerOrIntent, positionMatchesCurrentIntent] at h
    split_ifs at h with hvalid
    exact ⟨by simpa using hvalid, (of_decide_eq_true h).1⟩
  | some orderState =>
    rw [positionMatchesLedgerOrIntent] at h
    split_ifs at h with hbad
    simp only [not_or, not_not] at hbad
    exact ⟨hbad.2.2.2, (of_decide_eq_true h).1⟩

/-- A step over a position leaves everything as it is if an order has consumed the position, or
    adds a reason, or else the exposure of the position, under an intent that no other exposure
    has. -/
theorem openPositionStep_cases (agg : Aggregation) (position : PaperPositionSnapshot) :
    (position.symbol ∈ agg.consumedPositions
        ∧ openPositionStep newYork state storedIntents filledIntentIds config orderStates agg
            position = agg)
      ∨ (∃ reason, (openPositionStep newYork state storedIntents filledIntentIds config orderStates
          agg position).reasons = agg.reasons ++ [reason])
      ∨ ∃ intent exposure, position.symbol ∉ agg.consumedPositions
          ∧ openPositionStep newYork state storedIntents filledIntentIds config orderStates agg
              position = agg.addPosition exposure
          ∧ IsPositionExposure newYork state storedIntents config position intent exposure
          ∧ exposure.intentId ∉ agg.consumedIntents := by
  rw [openPositionStep]
  by_cases hposition : position.symbol ∈ agg.consumedPositions
  · exact .inl ⟨hposition, if_pos hposition⟩
  rw [if_neg hposition]
  dsimp only
  split
  case h_2 => exact .inr (.inl ⟨_, rfl⟩)
  case h_1 intent hmatches =>
  have hmem : intent ∈ storedIntents.filter _ := hmatches ▸ List.mem_singleton_self intent
  obtain ⟨hmem, hmatch⟩ := List.mem_filter.1 hmem
  obtain ⟨hvalid, hsymbol⟩ := valid_of_positionMatches (of_decide_eq_true hmatch).2
  by_cases hconsumed : intent.intentId ∈ agg.consumedIntents
  · rw [if_pos hconsumed]
    exact .inr (.inl ⟨_, rfl⟩)
  · rw [if_neg hconsumed]
    exact .inr (.inr ⟨intent, _, hposition, rfl,
      ⟨hmem, hvalid, rfl, rfl, hsymbol, rfl, rfl, rfl⟩, hconsumed⟩)

/-! ## The passes -/

variable (newYork state storedIntents filledIntentIds config orderStates positions)

def openOrdersPass : LoggedPass Aggregation PaperOrderSnapshot String where
  step := openOrderStep newYork state storedIntents config positions
  log agg := agg.reasons
  log_step agg order := by
    rcases openOrderStep_cases agg order with ⟨reason, h⟩ | ⟨intent, exposure, h, -⟩
    · exact h ▸ List.subset_append_left _ _
    · rw [h]
      exact List.Subset.refl _

def openPositionsPass : LoggedPass Aggregation PaperPositionSnapshot String where
  step := openPositionStep newYork state storedIntents filledIntentIds config orderStates
  log agg := agg.reasons
  log_step agg position := by
    rcases openPositionStep_cases agg position with
      ⟨-, h⟩ | ⟨reason, h⟩ | ⟨intent, exposure, -, h, -⟩
    · rw [h]
      exact List.Subset.refl _
    · exact h ▸ List.subset_append_left _ _
    · rw [h]
      exact List.Subset.refl _

/-- The reasons there are before the passes, and the positions by their symbols. -/
def preparePaperPortfolio : PositionsBySymbol :=
  let reasons :=
    if dictLen (·.intentId) storedIntents ≠ storedIntents.length then
      ["원장에 중복 intent ID가 있습니다"]
    else []
  let reasons :=
    if dictLen (·.intentId) orderStates ≠ orderStates.length then
      reasons ++ ["원장에 중복 주문 projection이 있습니다"]
    else reasons
  positionsBySymbol state.positions reasons

/-- The aggregation after both passes. -/
def aggregatePaperPortfolio : Aggregation :=
  let prepared := preparePaperPortfolio state storedIntents orderStates
  (openPositionsPass newYork state storedIntents filledIntentIds config orderStates).run
    ((openOrdersPass newYork state storedIntents config prepared.result).run
      { reasons := prepared.reasons } state.openOrders)
    prepared.result

/-- The intents that have been filled, by what the ledger says. -/
def expectedFillIntents : List IntentId :=
  filledIntentIds ++ (orderStates.filter (·.hasFillEvidence)).map (·.intentId)

def buildPaperPortfolio : Except UnsafePaperRiskConfigError PaperPortfolioSnapshot := do
  config.assertWithinHardLimits
  if ¬ validAccountSnapshot state then
    pure (.incomplete ["Paper 계좌 위험값이 불완전합니다"])
  else
  let agg := aggregatePaperPortfolio newYork state storedIntents filledIntentIds config orderStates
  let uncovered := (expectedFillIntents filledIntentIds orderStates).filter
    (· ∉ agg.consumedFillIntents)
  let reasons := agg.reasons ++ (uncovered.dedup.insertionSort (· ≤ ·)).map
    ("체결 원장 intent의 현재 broker 노출이 없습니다: " ++ ·)
  let symbols := agg.exposures.map (·.symbol)
  let reasons :=
    if symbols.dedup.length ≠ symbols.length then
      reasons ++ ["동일 종목에 둘 이상의 활성 위험 노출이 있습니다"]
    else reasons
  if reasons ≠ [] then
    pure (.incomplete (reasons.dedup.insertionSort (· ≤ ·)))
  else
    let account := state.account
    pure (.complete
      { observedAt := account.observedAt
        accountStatus := account.status
        tradingBlocked := account.tradingBlocked
        equity := account.equity
        lastEquity := account.lastEquity
        buyingPower := account.buyingPower
        exposures := agg.exposures })

variable {newYork state storedIntents filledIntentIds config orderStates positions}

/-! ## What the passes leave -/

/-- The bookkeeping agrees with the exposures: the consumed intents are theirs, each of another
    one, and the intents with consumed fills are those of exposures that are partly filled. -/
structure Aggregation.Consistent (agg : Aggregation) : Prop where
  nodup : (agg.exposures.map (·.intentId)).Nodup
  consumedIntents : agg.exposures.map (·.intentId) ⊆ agg.consumedIntents
  consumedFillIntents : ∀ intentId ∈ agg.consumedFillIntents,
    ∃ exposure ∈ agg.exposures, exposure.intentId = intentId ∧ exposure.kind ≠ .pendingEntry

theorem Aggregation.consistent_init (reasons : List String) :
    Aggregation.Consistent { reasons := reasons } :=
  ⟨List.nodup_nil, List.nil_subset _, fun _ h => absurd h List.not_mem_nil⟩

/-- The bookkeeping still agrees after another exposure, of an intent not consumed so far. -/
theorem Aggregation.Consistent.concat {agg next : Aggregation} (h : agg.Consistent)
    {exposure : PaperPortfolioExposure} (hnew : exposure.intentId ∉ agg.consumedIntents)
    (hexposures : next.exposures = agg.exposures ++ [exposure])
    (hintents : next.consumedIntents = exposure.intentId :: agg.consumedIntents)
    (hfills : ∀ intentId ∈ next.consumedFillIntents, intentId ∈ agg.consumedFillIntents
      ∨ intentId = exposure.intentId ∧ exposure.kind ≠ .pendingEntry) :
    next.Consistent := by
  refine ⟨?_, ?_, fun intentId hmem => ?_⟩
  · rw [hexposures, List.map_append, List.map_singleton, List.nodup_append]
    refine ⟨h.nodup, List.nodup_singleton _, ?_⟩
    rintro a ha b hb rfl
    exact hnew (List.mem_singleton.1 hb ▸ h.consumedIntents ha)
  · rw [hexposures, hintents, List.map_append, List.map_singleton]
    intro a ha
    rcases List.mem_append.1 ha with ha | ha
    · exact List.mem_cons_of_mem _ (h.consumedIntents ha)
    · exact List.mem_singleton.1 ha ▸ List.mem_cons_self
  · rw [hexposures]
    rcases hfills intentId hmem with hold | ⟨rfl, hkind⟩
    · obtain ⟨e, he, hid, hkind⟩ := h.consumedFillIntents intentId hold
      exact ⟨e, List.mem_append_left _ he, hid, hkind⟩
    · exact ⟨exposure, List.mem_append_right _ (List.mem_singleton_self _), rfl, hkind⟩

variable (newYork state storedIntents config positions) in
/-- The state of the first pass after some of the orders. -/
structure OrdersDone (orders : List PaperOrderSnapshot) (agg : Aggregation) : Prop where
  exposures : orders.Forall₂ (fun order exposure => ∃ intent,
    IsOrderExposure newYork state storedIntents config positions order intent exposure)
    agg.exposures
  consumedPositions : ∀ symbol, symbol ∈ agg.consumedPositions ↔
    ∃ order ∈ orders, order.symbol = symbol ∧ order.filledQuantity ≠ 0
  consistent : agg.Consistent

/-- An order with fills has no pending exposure. -/
theorem OrderValue.kind_ne {order : PaperOrderSnapshot} {limit gross : Decimal}
    {kind : PaperExposureKind} (h : OrderValue positions order limit kind gross)
    (hfilled : 0 < order.filledQuantity) : kind ≠ .pendingEntry := by
  cases h with
  | pending hzero =>
    rw [hzero] at hfilled
    exact absurd hfilled (by decide)
  | filled => exact nofun

theorem openOrdersPass_done (reasons : List String) {orders : List PaperOrderSnapshot}
    (h : ((openOrdersPass newYork state storedIntents config positions).run
      { reasons := reasons } orders).reasons = []) :
    OrdersDone newYork state storedIntents config positions orders
      ((openOrdersPass newYork state storedIntents config positions).run
        { reasons := reasons } orders) := by
  refine (openOrdersPass newYork state storedIntents config positions).run_induction
    (I := OrdersDone newYork state storedIntents config positions)
    ⟨.nil, by simp, Aggregation.consistent_init reasons⟩ ?_ h
  intro orders agg order hlog hdone
  rcases openOrderStep_cases agg order with ⟨reason, hreason⟩ | ⟨intent, exposure, hstep, he, hnew⟩
  · exact absurd (hreason.symm.trans hlog) (by simp)
  rw [show (openOrdersPass newYork state storedIntents config positions).step agg order
    = agg.addOrder order exposure from hstep]
  refine ⟨?_, fun symbol => ?_, hdone.consistent.concat hnew rfl rfl ?_⟩
  · exact List.rel_append hdone.exposures (.cons ⟨intent, he⟩ .nil)
  · rw [Aggregation.addOrder]
    by_cases hfilled : order.filledQuantity = 0
    · rw [if_pos hfilled, hdone.consumedPositions]
      simp [hfilled]
    · rw [if_neg hfilled, List.mem_cons, hdone.consumedPositions]
      simp [-Decimal.ofNat_eq, hfilled, or_comm, eq_comm]
  · intro intentId hmem
    rw [Aggregation.addOrder] at hmem
    dsimp only at hmem
    split_ifs at hmem with hfilled
    · rcases List.mem_cons.1 hmem with rfl | hmem
      · exact .inr ⟨rfl, he.value.kind_ne hfilled⟩
      · exact .inl hmem
    · exact .inl hmem

variable (newYork state storedIntents config) in
/-- The state of the second pass after some of the positions, from the one after the orders. -/
structure PositionsDone (start : Aggregation) (processed : List PaperPositionSnapshot)
    (agg : Aggregation) : Prop where
  exposures : ∃ added, agg.exposures = start.exposures ++ added
    ∧ (processed.filter (·.symbol ∉ start.consumedPositions)).Forall₂
        (fun position exposure => ∃ intent,
          IsPositionExposure newYork state storedIntents config position intent exposure) added
  consumedPositions : agg.consumedPositions = start.consumedPositions
  consistent : agg.Consistent

theorem openPositionsPass_done {start : Aggregation} (hstart : start.Consistent)
    {processed : List PaperPositionSnapshot}
    (h : ((openPositionsPass newYork state storedIntents filledIntentIds config orderStates).run
      start processed).reasons = []) :
    PositionsDone newYork state storedIntents config start processed
      ((openPositionsPass newYork state storedIntents filledIntentIds config orderStates).run
        start processed) := by
  refine (openPositionsPass newYork state storedIntents filledIntentIds config
    orderStates).run_induction (I := PositionsDone newYork state storedIntents config start)
    ⟨⟨[], by simp⟩, rfl, hstart⟩ ?_ h
  intro processed agg position hlog hdone
  obtain ⟨added, hexposures, hadded⟩ := hdone.exposures
  rcases openPositionStep_cases agg position with
    ⟨hconsumed, hstep⟩ | ⟨reason, hreason⟩ | ⟨intent, exposure, hconsumed, hstep, he, hnew⟩
  · rw [show (openPositionsPass newYork state storedIntents filledIntentIds config
      orderStates).step agg position = agg from hstep]
    rw [hdone.consumedPositions] at hconsumed
    refine ⟨⟨added, hexposures, ?_⟩, hdone.consumedPositions, hdone.consistent⟩
    rw [List.filter_append, List.filter_singleton]
    simpa [hconsumed] using hadded
  · exact absurd (hreason.symm.trans hlog) (by simp)
  · rw [show (openPositionsPass newYork state storedIntents filledIntentIds config
      orderStates).step agg position = agg.addPosition exposure from hstep]
    rw [hdone.consumedPositions] at hconsumed
    refine ⟨⟨added ++ [exposure], ?_, ?_⟩, hdone.consumedPositions,
      hdone.consistent.concat hnew rfl rfl ?_⟩
    · rw [Aggregation.addPosition, hexposures, List.append_assoc]
    · rw [List.filter_append, List.filter_singleton]
      simp only [hconsumed, not_false_eq_true, decide_true, cond_true]
      exact List.rel_append hadded (.cons ⟨intent, he⟩ .nil)
    · intro intentId hmem
      rcases List.mem_cons.1 hmem with rfl | hmem
      · exact .inr ⟨rfl, by rw [he.kind_eq]; exact nofun⟩
      · exact .inl hmem

/-- A complete portfolio has the exposures that the passes leave, when they leave no reason
    against it, no fill uncovered, and no symbol twice. -/
theorem buildPaperPortfolio_eq_complete {portfolio : CompletePaperPortfolio}
    (h : buildPaperPortfolio newYork state storedIntents filledIntentIds config orderStates
      = .ok (.complete portfolio)) :
    let agg := aggregatePaperPortfolio newYork state storedIntents filledIntentIds config
      orderStates
    config.WithinHardLimits
      ∧ validAccountSnapshot state = true
      ∧ agg.reasons = []
      ∧ (∀ intentId ∈ expectedFillIntents filledIntentIds orderStates,
          intentId ∈ agg.consumedFillIntents)
      ∧ (agg.exposures.map (·.symbol)).Nodup
      ∧ portfolio.exposures = agg.exposures := by
  intro agg
  rw [buildPaperPortfolio, Except.bind_eq_ok] at h
  obtain ⟨⟨⟩, hlimits, h⟩ := h
  dsimp only at h
  split_ifs at h with haccount hsymbols hreasons hreasons <;>
    simp only [Except.pure_eq_ok, PaperPortfolioSnapshot.complete.injEq, reduceCtorEq] at h
  · simp at hreasons
  · rw [not_not, List.append_eq_nil_iff, List.map_eq_nil_iff] at hreasons
    obtain ⟨hreasons, huncovered⟩ := hreasons
    refine ⟨PaperRiskConfig.assertWithinHardLimits_iff.1 hlimits, by simpa using haccount,
      hreasons, fun intentId hmem => ?_, ?_, ?_⟩
    · by_contra hnot
      have hmem : intentId ∈ ([] : List IntentId) := by
        rw [← huncovered, List.mem_insertionSort, List.mem_dedup, List.mem_filter]
        exact ⟨hmem, by simpa using hnot⟩
      exact absurd hmem List.not_mem_nil
    · rw [← List.dedup_eq_self]
      exact (List.dedup_sublist _).eq_of_length (not_not.1 hsymbols)
    · rw [← h]

/-- The positions by their symbols are the positions, when the passes leave no reason, and the
    passes leave the exposures of the orders followed by those of the other positions. -/
theorem aggregatePaperPortfolio_done
    (h : (aggregatePaperPortfolio newYork state storedIntents filledIntentIds config
      orderStates).reasons = []) :
    ∃ start, OrdersDone newYork state storedIntents config state.positions state.openOrders start
      ∧ PositionsDone newYork state storedIntents config start state.positions
          (aggregatePaperPortfolio newYork state storedIntents filledIntentIds config orderStates)
      ∧ (state.positions.map (·.symbol)).Nodup
      ∧ ∀ position ∈ state.positions,
          position.quantity.isFinite ∧ position.quantity ≠ 0 ∧ position.marketValue.isFinite := by
  rw [aggregatePaperPortfolio] at h ⊢
  -- The reasons at the end include those of every stage before.
  have hstart := (openPositionsPass newYork state storedIntents filledIntentIds config
    orderStates).log_eq_nil_of_run h
  have hprepared := (openOrdersPass newYork state storedIntents config
    _).log_eq_nil_of_run hstart
  obtain ⟨hresult, hnodup, hfinite⟩ := positionsBySymbol_eq hprepared
  have horders := openOrdersPass_done _ hstart
  have hpositions := openPositionsPass_done horders.consistent h
  rw [show (preparePaperPortfolio state storedIntents orderStates).result = state.positions
    from hresult] at horders hpositions ⊢
  exact ⟨_, horders, hpositions, hnodup, hfinite⟩

end Passes

end TradingAgent
