import TradingAgent.Paper.Models

/-!
# The evidence about an order

What the agent has stored about an order it has sent (`BrokerOrderEvidence`): the events of the
order stream (`StoredTradeUpdate`), the fills of the account activities, the orders a REST
recovery found, and the events of an earlier format. The projection makes of it one state of the
order (`BrokerOrderLedgerState`).
-/

namespace TradingAgent

inductive BrokerOrderEventType
  | submitted
  | new
  | accepted
  | rejected
  | pendingNew
  | stopped
  | pendingCancel
  | partialFill
  | fill
  | canceled
  | expired
  | doneForDay
  | pendingReplace
  | replaced
  | calculated
  | suspended
  | orderReplaceRejected
  | orderCancelRejected
  deriving DecidableEq, Repr

def BrokerOrderEventType.value : BrokerOrderEventType → String
  | submitted => "submitted"
  | new => "new"
  | accepted => "accepted"
  | rejected => "rejected"
  | pendingNew => "pending_new"
  | stopped => "stopped"
  | pendingCancel => "pending_cancel"
  | partialFill => "partial_fill"
  | fill => "fill"
  | canceled => "canceled"
  | expired => "expired"
  | doneForDay => "done_for_day"
  | pendingReplace => "pending_replace"
  | replaced => "replaced"
  | calculated => "calculated"
  | suspended => "suspended"
  | orderReplaceRejected => "order_replace_rejected"
  | orderCancelRejected => "order_cancel_rejected"

/-- An event of the order stream, under the number the ledger gave it when it was appended. The
    time is the one its text stands for, if it is the text of a time. -/
structure StoredTradeUpdate where
  eventId : ℤ
  eventKey : BrokerEventKey
  intentId : IntentId
  occurredAt : Option DateTime
  eventType : BrokerOrderEventType
  brokerOrderId : BrokerOrderId
  executionId : Option String
  cumulativeFilledQuantity : Decimal
  executionQuantity : Option Decimal
  executionPrice : Option Decimal
  replacedByOrderId : Option BrokerOrderId
  replacesOrderId : Option BrokerOrderId
  deriving DecidableEq, Repr

/-- An event of an order in the earlier format of the ledger. -/
structure StoredBrokerEvent where
  eventType : BrokerOrderEventType
  brokerOrderId : BrokerOrderId
  deriving DecidableEq, Repr

/-- An order that a REST recovery found, under the number of the recovery. -/
structure StoredPaperRecoveryOrder where
  recoveryId : ℤ
  order : PaperOrderSnapshot
  deriving DecidableEq, Repr

structure BrokerOrderEvidence where
  brokerEvents : List StoredBrokerEvent
  tradeUpdates : List StoredTradeUpdate
  recoveryOrders : List StoredPaperRecoveryOrder
  accountActivities : List PaperTradeActivity
  deriving DecidableEq, Repr

structure BrokerOrderLedgerState where
  intentId : IntentId
  brokerOrderIds : List BrokerOrderId
  terminalEventTypes : List BrokerOrderEventType
  cumulativeFilledQuantity : Decimal
  completeFill : Bool
  terminal : Bool
  hasFillEvidence : Bool
  anomalyReasons : List String
  executionDetailComplete : Bool := true
  warningReasons : List String := []
  executionAveragePrice : Option Decimal := none
  deriving DecidableEq, Repr

end TradingAgent
