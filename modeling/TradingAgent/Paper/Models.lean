import TradingAgent.Library.Text

/-!
# The data of the paper account

What the broker reports about the account (`PaperBrokerState`: the account itself, its open
orders, its positions and the protective OCOs), what the agent wants to order
(`PaperOrderIntent`, `SizedPaperOrder`), and how the execution ledger stores it
(`StoredIntent`).

The identities that the broker or the agent give to things are texts.
-/

namespace TradingAgent

abbrev IntentId := String
abbrev BrokerOrderId := String
abbrev AccountFingerprint := String
abbrev AccountActivityId := String
abbrev BrokerEventKey := String

inductive PaperOrderSide
  | buy
  | sell
  deriving DecidableEq, Repr

namespace PaperOrderSide

def value : PaperOrderSide → String
  | buy => "buy"
  | sell => "sell"

theorem value_injective {s t : PaperOrderSide} (h : s.value = t.value) : s = t := by
  cases s <;> cases t <;> first | rfl | exact absurd h (by decide)

/-- The side of an order that closes a position opened by an order of this side. -/
def opposite : PaperOrderSide → PaperOrderSide
  | buy => sell
  | sell => buy

end PaperOrderSide

/-! ## Orders the agent wants -/

structure PaperOrderIntent where
  intentId : IntentId
  strategyId : String
  strategyVersion : String
  symbol : String
  createdAt : DateTime
  side : PaperOrderSide
  entryLimit : Decimal
  stop : Decimal
  target1r : Decimal
  target2r : Decimal
  deriving DecidableEq, Repr

structure SizedPaperOrder where
  intent : PaperOrderIntent
  quantity : ℤ
  riskPerShare : Decimal
  plannedRisk : Decimal
  notional : Decimal
  deriving DecidableEq, Repr

/-- An intent as the execution ledger stores it. The time is the one its text stands for, if it
    is the text of a time. -/
structure StoredIntent where
  intentId : IntentId
  strategyId : String
  strategyVersion : String
  symbol : String
  createdAt : Option DateTime
  side : PaperOrderSide
  entryLimit : Decimal
  stop : Decimal
  target1r : Decimal
  target2r : Decimal
  quantity : ℤ
  deriving DecidableEq, Repr

/-- The row that stores an intent. -/
def intentValues (intent : PaperOrderIntent) (quantity : ℤ) : StoredIntent where
  intentId := intent.intentId
  strategyId := intent.strategyId
  strategyVersion := intent.strategyVersion
  symbol := intent.symbol
  createdAt := some intent.createdAt
  side := intent.side
  entryLimit := intent.entryLimit
  stop := intent.stop
  target1r := intent.target1r
  target2r := intent.target2r
  quantity := quantity

/-! ## Protective OCOs -/

abbrev ProtectiveOcoClientOrderId := String
abbrev ProtectiveOcoPlanKey := String

/-- A protective exit: a limit order that takes the profit and a stop order, of which the first
    that fills cancels the other one. It is a day order within the regular session. -/
structure ProtectiveOcoExitPlan where
  clientOrderId : ProtectiveOcoClientOrderId
  parentIntentId : IntentId
  symbol : String
  side : PaperOrderSide
  quantity : ℤ
  takeProfitLimit : Decimal
  stopPrice : Decimal
  deriving DecidableEq, Repr

namespace ProtectiveOcoExitPlan

def timeInForce (_ : ProtectiveOcoExitPlan) : String := "day"
def extendedHours (_ : ProtectiveOcoExitPlan) : Bool := false

end ProtectiveOcoExitPlan

/-- A plan as the execution ledger stores it, with the time it was first planned at. -/
structure StoredProtectiveOcoPlan where
  planKey : ProtectiveOcoPlanKey
  plannedAt : DateTime
  plan : ProtectiveOcoExitPlan
  deriving DecidableEq, Repr

inductive ProtectiveOcoLegKind
  | takeProfit
  | stopLoss
  deriving DecidableEq, Repr

inductive ProtectiveOcoOrderType
  | limit
  | stop
  deriving DecidableEq, Repr

structure ProtectiveOcoLegSnapshot where
  kind : ProtectiveOcoLegKind
  brokerOrderId : BrokerOrderId
  clientOrderId : String
  symbol : String
  side : PaperOrderSide
  status : String
  quantity : Decimal
  filledQuantity : Decimal
  orderType : ProtectiveOcoOrderType
  limitPrice : Option Decimal
  stopPrice : Option Decimal
  timeInForce : String
  extendedHours : Bool
  deriving DecidableEq, Repr

structure ProtectiveOcoSnapshot where
  observedAt : DateTime
  takeProfit : ProtectiveOcoLegSnapshot
  stopLoss : ProtectiveOcoLegSnapshot
  deriving DecidableEq, Repr

/-- The legs of an OCO. -/
def ProtectiveOcoSnapshot.legs (oco : ProtectiveOcoSnapshot) : List ProtectiveOcoLegSnapshot :=
  [oco.takeProfit, oco.stopLoss]

/-- Whether an OCO at the broker is the one of a plan, possibly filled or reduced by fills. -/
def protectiveOcoSnapshotMatchesPlan (snapshot : ProtectiveOcoSnapshot)
    (plan : ProtectiveOcoExitPlan) : Bool :=
  let takeProfit := snapshot.takeProfit
  let stopLoss := snapshot.stopLoss
  let quantities := [takeProfit.quantity, stopLoss.quantity]
  let filledQuantities := [takeProfit.filledQuantity, stopLoss.filledQuantity]
  takeProfit.kind = .takeProfit
    ∧ stopLoss.kind = .stopLoss
    ∧ takeProfit.orderType = .limit
    ∧ stopLoss.orderType = .stop
    ∧ takeProfit.brokerOrderId ≠ stopLoss.brokerOrderId
    ∧ takeProfit.clientOrderId = plan.clientOrderId
    ∧ stopLoss.clientOrderId ≠ ""
    ∧ takeProfit.symbol = plan.symbol
    ∧ stopLoss.symbol = plan.symbol
    ∧ takeProfit.side = plan.side
    ∧ stopLoss.side = plan.side
    ∧ (∀ quantity ∈ quantities,
        quantity.isFinite ∧ 0 < quantity ∧ quantity ≤ (plan.quantity : Decimal))
    ∧ (∀ quantity ∈ filledQuantities, quantity.isFinite)
    ∧ Decimal.max takeProfit.quantity stopLoss.quantity = (plan.quantity : Decimal)
    ∧ 0 ≤ takeProfit.filledQuantity ∧ takeProfit.filledQuantity ≤ takeProfit.quantity
    ∧ 0 ≤ stopLoss.filledQuantity ∧ stopLoss.filledQuantity ≤ stopLoss.quantity
    ∧ takeProfit.limitPrice = some plan.takeProfitLimit
    ∧ takeProfit.stopPrice = none
    ∧ stopLoss.limitPrice = none
    ∧ stopLoss.stopPrice = some plan.stopPrice
    ∧ takeProfit.timeInForce = plan.timeInForce
    ∧ stopLoss.timeInForce = plan.timeInForce
    ∧ takeProfit.extendedHours = plan.extendedHours
    ∧ stopLoss.extendedHours = plan.extendedHours

/-! ## The account at the broker -/

structure PaperAccountSnapshot where
  observedAt : DateTime
  status : String
  tradingBlocked : Bool
  equity : Decimal
  lastEquity : Decimal
  buyingPower : Decimal
  accountFingerprint : AccountFingerprint
  deriving DecidableEq, Repr

structure PaperMarketClockSnapshot where
  observedAt : DateTime
  marketTimestamp : DateTime
  isOpen : Bool
  nextOpen : DateTime
  nextClose : DateTime
  deriving DecidableEq, Repr

structure PaperOrderSnapshot where
  brokerOrderId : BrokerOrderId
  clientOrderId : IntentId
  symbol : String
  side : PaperOrderSide
  status : String
  quantity : Decimal
  filledQuantity : Decimal
  limitPrice : Option Decimal
  timeInForce : String
  extendedHours : Bool
  filledAveragePrice : Option Decimal := none
  createdAt : Option DateTime := none
  updatedAt : Option DateTime := none
  submittedAt : Option DateTime := none
  filledAt : Option DateTime := none
  canceledAt : Option DateTime := none
  failedAt : Option DateTime := none
  replacedAt : Option DateTime := none
  replacedByOrderId : Option BrokerOrderId := none
  replacesOrderId : Option BrokerOrderId := none
  deriving DecidableEq, Repr

structure PaperPositionSnapshot where
  symbol : String
  quantity : Decimal
  marketValue : Decimal
  deriving DecidableEq, Repr

inductive PaperTradeActivityType
  | partialFill
  | fill
  deriving DecidableEq, Repr

structure PaperTradeActivity where
  activityId : AccountActivityId
  brokerOrderId : BrokerOrderId
  symbol : String
  side : PaperOrderSide
  eventType : PaperTradeActivityType
  quantity : Decimal
  cumulativeQuantity : Decimal
  leavesQuantity : Decimal
  price : Decimal
  transactionTime : DateTime
  payloadJson : String
  deriving DecidableEq, Repr

structure PaperBrokerState where
  account : PaperAccountSnapshot
  openOrders : List PaperOrderSnapshot
  positions : List PaperPositionSnapshot
  protectiveOcos : List ProtectiveOcoSnapshot := []
  deriving DecidableEq, Repr

end TradingAgent
