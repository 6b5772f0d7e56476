import Mathlib.Data.List.Sort
import TradingAgent.Ledger
import TradingAgent.Library.Except
import TradingAgent.Library.Fold

/-!
# Planning a protective exit

A position that an entry has opened is protected by an OCO of the opposite side, for what is left
of it (`planProtectiveOcoExit`). An OCO at the broker covers the position if it is open and agrees
with its plan and with the position (`protectiveOcoCoversPosition`).

* The client order id of the OCO is a digest of the intent, and of the plan that it replaces if
  there is one (`protectiveClientOrderId`). The digest of a text, and the text of a decimal, are
  parameters.
* A plan is made exactly if nothing speaks against it (`ExitGuards`,
  `planProtectiveOcoExit_eq_plan_iff`), and then it is for the remaining quantity
  (`ExitGuards.quantity_eq`).
-/

namespace TradingAgent

def COVERING_ORDER_STATUSES : List String := ["new", "accepted", "pending_new", "partially_filled"]

inductive ProtectiveExitPlanDecision
  | plan (plan : ProtectiveOcoExitPlan)
  | notRequired (parentIntentId : IntentId)
  | blocked (reasons : List String)
  deriving DecidableEq, Repr

/-! ## Coverage -/

def protectiveCoverageReasons (plan : ProtectiveOcoExitPlan) (snapshot : ProtectiveOcoSnapshot)
    (position : PaperPositionSnapshot) : List String :=
  let takeProfit := snapshot.takeProfit
  let stopLoss := snapshot.stopLoss
  let expectedQuantity := position.quantity.abs
  let positionSideIsValid : Bool :=
    match plan.side with
    | .sell => 0 < position.quantity
    | .buy => position.quantity < 0
  if snapshot.observedAt.aware
      ∧ positionSideIsValid
      ∧ position.symbol = plan.symbol
      ∧ Decimal.max takeProfit.quantity stopLoss.quantity = (plan.quantity : Decimal)
      ∧ 0 ≤ takeProfit.filledQuantity ∧ takeProfit.filledQuantity ≤ takeProfit.quantity
      ∧ 0 ≤ stopLoss.filledQuantity ∧ stopLoss.filledQuantity ≤ stopLoss.quantity
      ∧ takeProfit.quantity - takeProfit.filledQuantity = expectedQuantity
      ∧ stopLoss.quantity - stopLoss.filledQuantity = expectedQuantity
      ∧ takeProfit.brokerOrderId ≠ stopLoss.brokerOrderId
      ∧ takeProfit.clientOrderId = plan.clientOrderId
      ∧ stopLoss.clientOrderId ≠ ""
      ∧ takeProfit.symbol = plan.symbol ∧ plan.symbol = stopLoss.symbol
      ∧ takeProfit.side = plan.side ∧ plan.side = stopLoss.side
      ∧ takeProfit.status ∈ COVERING_ORDER_STATUSES
      ∧ stopLoss.status ∈ COVERING_ORDER_STATUSES
      ∧ takeProfit.limitPrice = some plan.takeProfitLimit
      ∧ takeProfit.stopPrice = none
      ∧ stopLoss.limitPrice = none
      ∧ stopLoss.stopPrice = some plan.stopPrice
      ∧ takeProfit.timeInForce = plan.timeInForce
      ∧ stopLoss.timeInForce = plan.timeInForce
      ∧ ¬ takeProfit.extendedHours
      ∧ ¬ stopLoss.extendedHours then
    []
  else
    ["보호 OCO coverage 불일치"]

def protectiveOcoCoversPosition (plan : ProtectiveOcoExitPlan) (snapshot : ProtectiveOcoSnapshot)
    (position : PaperPositionSnapshot) : Bool :=
  protectiveCoverageReasons plan snapshot position = []

/-! ## The plan -/

def pricesAreValid (intent : StoredIntent) : Bool :=
  match intent.side with
  | .buy => 0 < intent.stop ∧ intent.stop < intent.entryLimit ∧ intent.entryLimit < intent.target2r
  | .sell =>
    0 < intent.target2r ∧ intent.target2r < intent.entryLimit ∧ intent.entryLimit < intent.stop

section

variable (sha256 : String → String) (str : Decimal → String)

/-- The text whose digest is in a client order id: the parts joined by `|`, if there are more. -/
def protectiveMaterial (parentIntentId : IntentId) (replacementSourceKey : Option String)
    (quantity : ℤ) (takeProfitLimit stopPrice : Decimal) : String :=
  match replacementSourceKey with
  | none => parentIntentId
  | some key =>
    parentIntentId ++ "|" ++ key ++ "|" ++ toString quantity ++ "|" ++ str takeProfitLimit ++ "|"
      ++ str stopPrice

/-- The first 40 digits of the digest of a text. -/
def shortDigest (text : String) : String := String.ofList ((sha256 text).toList.take 40)

def protectiveClientOrderId (parentIntentId : IntentId) (replacementSourceKey : Option String)
    (quantity : ℤ) (takeProfitLimit stopPrice : Decimal) : ProtectiveOcoClientOrderId :=
  "protect-" ++ shortDigest sha256
    (protectiveMaterial str parentIntentId replacementSourceKey quantity takeProfitLimit stopPrice)

/-- The reasons against a plan that come from the entry. -/
def entryFillReasons (intent : StoredIntent) (orderState : BrokerOrderLedgerState)
    (confirmedProtectiveFill : Decimal) : List String :=
  let filled := orderState.cumulativeFilledQuantity
  orderState.anomalyReasons ++ allReasons [
    (orderState.intentId ≠ intent.intentId, "보호 대상 intent와 entry 원장이 다릅니다"),
    (filled < 0, "entry 누적 체결 수량이 음수입니다"),
    (¬ confirmedProtectiveFill.isFinite
      ∨ confirmedProtectiveFill < 0
      ∨ filled < confirmedProtectiveFill
      ∨ ¬ confirmedProtectiveFill.isIntegral,
      "보호 OCO 누적 체결 수량이 entry 체결을 정확히 설명하지 못합니다"),
    (0 < filled ∧ ¬ orderState.executionDetailComplete, "entry execution 상세가 불완전합니다")]

/-- The position that an entry of a side leaves, where a quantity remains of it. -/
def expectedPosition : PaperOrderSide → Decimal → Decimal
  | .buy, remaining => remaining
  | .sell, remaining => -remaining

/-- The reason against a plan that comes from the prices. -/
def priceReasons (intent : StoredIntent) : List String :=
  allReasons [(¬ pricesAreValid intent, "보호 손절·2R 목표 가격 순서가 올바르지 않습니다")]

/-- The reasons against a plan for a position. -/
def exitReasons (intent : StoredIntent) (orderState : BrokerOrderLedgerState)
    (position : PaperPositionSnapshot) (confirmedProtectiveFill : Decimal) : List String :=
  entryFillReasons intent orderState confirmedProtectiveFill ++ allReasons [
    (position.symbol ≠ intent.symbol, "broker 포지션 symbol이 entry intent와 다릅니다"),
    (position.quantity ≠ expectedPosition intent.side
      (orderState.cumulativeFilledQuantity - confirmedProtectiveFill),
      "broker 포지션 수량이 entry 누적 체결과 다릅니다"),
    (¬ position.quantity.abs.isIntegral, "초기 Paper pilot은 정수 주식 수량만 보호합니다")]
    ++ priceReasons intent

def planProtectiveOcoExit (intent : StoredIntent) (orderState : BrokerOrderLedgerState)
    (position : Option PaperPositionSnapshot) (confirmedProtectiveFill : Decimal)
    (replacementSourceKey : Option String) :
    Except Decimal.ConversionError ProtectiveExitPlanDecision :=
  match position with
  | none =>
    let reasons := entryFillReasons intent orderState confirmedProtectiveFill
    if orderState.cumulativeFilledQuantity - confirmedProtectiveFill = 0 ∧ reasons = [] then
      .ok (.notRequired intent.intentId)
    else
      .ok (.blocked ((reasons ++ ["체결 원장에 대응하는 broker 포지션이 없습니다"]
        ++ priceReasons intent).dedup.insertionSort (· ≤ ·)))
  | some position =>
    let reasons := exitReasons intent orderState position confirmedProtectiveFill
    if reasons ≠ [] then
      .ok (.blocked (reasons.dedup.insertionSort (· ≤ ·)))
    else do
      let quantity ← position.quantity.abs.int
      pure (.plan
        { clientOrderId := protectiveClientOrderId sha256 str intent.intentId replacementSourceKey
            quantity intent.target2r intent.stop
          parentIntentId := intent.intentId
          symbol := intent.symbol
          side := intent.side.opposite
          quantity
          takeProfitLimit := intent.target2r
          stopPrice := intent.stop })

end

/-- Nothing speaks against a plan for a position. -/
structure ExitGuards (intent : StoredIntent) (orderState : BrokerOrderLedgerState)
    (position : PaperPositionSnapshot) (fill : Decimal) : Prop where
  anomalies : orderState.anomalyReasons = []
  intentId : orderState.intentId = intent.intentId
  filled : ¬ orderState.cumulativeFilledQuantity < 0
  fill_isFinite : fill.isFinite = true
  fill_nonneg : ¬ fill < 0
  fill_le : ¬ orderState.cumulativeFilledQuantity < fill
  fill_isIntegral : fill.isIntegral = true
  detail : 0 < orderState.cumulativeFilledQuantity → orderState.executionDetailComplete = true
  symbol : position.symbol = intent.symbol
  quantity : position.quantity =
    expectedPosition intent.side (orderState.cumulativeFilledQuantity - fill)
  isIntegral : position.quantity.abs.isIntegral = true
  prices : pricesAreValid intent = true

/-- The plan for a position. -/
def exitPlan (sha256 : String → String) (str : Decimal → String) (intent : StoredIntent)
    (position : PaperPositionSnapshot) (replacementSourceKey : Option String) :
    ProtectiveOcoExitPlan where
  clientOrderId := protectiveClientOrderId sha256 str intent.intentId replacementSourceKey
    position.quantity.abs.toInt intent.target2r intent.stop
  parentIntentId := intent.intentId
  symbol := intent.symbol
  side := intent.side.opposite
  quantity := position.quantity.abs.toInt
  takeProfitLimit := intent.target2r
  stopPrice := intent.stop

section

variable {sha256 : String → String} {str : Decimal → String} {intent : StoredIntent}
  {orderState : BrokerOrderLedgerState} {position : PaperPositionSnapshot} {fill : Decimal}

/-- Exactly the guards speak against a plan. -/
theorem exitReasons_eq_nil :
    exitReasons intent orderState position fill = []
      ↔ ExitGuards intent orderState position fill := by
  rw [exitReasons, priceReasons]
  simp only [entryFillReasons, List.append_eq_nil_iff, allReasons_eq_nil, List.forall_mem_cons,
    List.not_mem_nil, false_imp_iff, implies_true, and_true, decide_eq_false_iff_not, not_or,
    not_not, not_and]
  constructor
  · rintro ⟨⟨⟨ha, hi, hf, ⟨hfin, hnn, hle, hint⟩, hd⟩, hs, hq, hpi⟩, hp⟩
    exact ⟨ha, hi, hf, hfin, hnn, hle, hint, hd, hs, hq, hpi, hp⟩
  · rintro ⟨ha, hi, hf, hfin, hnn, hle, hint, hd, hs, hq, hpi, hp⟩
    exact ⟨⟨⟨ha, hi, hf, ⟨hfin, hnn, hle, hint⟩, hd⟩, hs, hq, hpi⟩, hp⟩

/-- A plan is made exactly for a position that nothing speaks against. -/
theorem planProtectiveOcoExit_eq_plan_iff {position? : Option PaperPositionSnapshot}
    {replacementSourceKey : Option String} {plan : ProtectiveOcoExitPlan} :
    planProtectiveOcoExit sha256 str intent orderState position? fill replacementSourceKey
        = .ok (.plan plan)
      ↔ ∃ position, position? = some position ∧ ExitGuards intent orderState position fill
        ∧ position.quantity.isFinite = true
        ∧ plan = exitPlan sha256 str intent position replacementSourceKey := by
  cases position? with
  | none =>
    simp only [planProtectiveOcoExit, reduceCtorEq, false_and, exists_false, iff_false]
    split <;> simp
  | some position =>
    simp only [Option.some.injEq, exists_eq_left']
    rw [← exitReasons_eq_nil, planProtectiveOcoExit]
    split
    · simp_all
    · rename_i hreasons
      rw [not_not] at hreasons
      simp only [Except.bind_eq_ok, Decimal.int_eq_ok, Except.pure_eq_ok, hreasons, true_and,
        ProtectiveExitPlanDecision.plan.injEq]
      constructor
      · rintro ⟨_, ⟨hfinite, rfl⟩, rfl⟩
        exact ⟨Decimal.isFinite_abs_iff.1 hfinite, rfl⟩
      · rintro ⟨hfinite, rfl⟩
        exact ⟨_, ⟨Decimal.isFinite_abs_iff.2 hfinite, rfl⟩, rfl⟩

end

end TradingAgent
