import TradingAgent.Projection.Execution

/-!
# The projection of an order

The state of an order, from all the evidence about it (`projectBrokerOrderState`).
-/

namespace TradingAgent

def TERMINAL_EVENT_TYPES : List BrokerOrderEventType := [.fill, .rejected, .canceled, .expired]

def REST_TERMINAL_STATUS_TO_EVENT : List (String × BrokerOrderEventType) :=
  [("filled", .fill), ("canceled", .canceled), ("expired", .expired), ("rejected", .rejected)]

/-- The events that may not follow a terminal one. -/
def INVALID_AFTER_TERMINAL : List BrokerOrderEventType :=
  [.new, .accepted, .pendingNew, .stopped, .partialFill, .pendingCancel, .pendingReplace]

def terminalOrderAnomalies (updates : List StoredTradeUpdate) :
    Except StoredBrokerExecutionTimestampError (List String) := do
  let terminalTimes ← (updates.filter (·.eventType ∈ TERMINAL_EVENT_TYPES)).mapM
    fun event => instantOf event.occurredAt
  match terminalTimes with
  | [] => pure []
  | first :: others =>
    let terminalAt := others.foldl (fun least time => if time < least then time else least) first
    let later ← (updates.filter (·.eventType ∈ INVALID_AFTER_TERMINAL)).mapM fun event => do
      let instant ← instantOf event.occurredAt
      pure (decide (terminalAt < instant))
    pure (if later.any id then ["종료 event 뒤에 더 늦은 비종료 event가 있습니다"] else [])

def REPLACED_REASON : String := "교체 주문은 REST 재대사가 필요합니다"

def UNLINKED_ORDERS_REASON : String := "연결 정보 없이 둘 이상의 broker order ID가 있습니다"

def projectBrokerOrderState (intent : StoredIntent) (evidence : BrokerOrderEvidence) :
    Except StoredBrokerExecutionTimestampError BrokerOrderLedgerState := do
  let (latestRecovery, recoveryReasons) := latestRecoveryOrder evidence.recoveryOrders
  let execution ← projectBrokerExecution intent evidence latestRecovery
  let restTerminal := latestRecovery.bind fun recovery =>
    (REST_TERMINAL_STATUS_TO_EVENT.find? (·.1 = recovery.order.status)).map (·.2)
  let legacyFill := evidence.brokerEvents.any (·.eventType ∈ EXECUTION_EVENT_TYPES)
  let replacement :=
    evidence.tradeUpdates.any (fun event => event.eventType = .replaced
      ∨ event.replacedByOrderId.isSome ∨ event.replacesOrderId.isSome)
    || recoveryHasReplacement evidence.recoveryOrders
  let terminalTypes := ((evidence.brokerEvents.map (·.eventType)
    ++ evidence.tradeUpdates.map (·.eventType)).filter (· ∈ TERMINAL_EVENT_TYPES)
    ++ restTerminal.toList).dedup.insertionSort fun a b => a.value ≤ b.value
  let brokerOrderIds := (evidence.brokerEvents.map (·.brokerOrderId)
    ++ evidence.tradeUpdates.map (·.brokerOrderId)
    ++ evidence.recoveryOrders.map (·.order.brokerOrderId)).dedup.insertionSort (· ≤ ·)
  let anomalies ← terminalOrderAnomalies execution.orderedUpdates
  let reasons := recoveryReasons ++ execution.reasons
    ++ latestRecovery.elim [] (fun recovery =>
      recoveryOrderMismatchReasons intent recovery.order
        ++ recoveryOrderIntegrityReasons recovery.order)
    ++ allReasons
      [(legacyFill, "legacy 체결 event는 REST 재대사가 필요합니다"),
      (evidence.brokerEvents.any (·.eventType ≠ .submitted),
        "legacy broker lifecycle event는 REST 재대사가 필요합니다"),
      (replacement, REPLACED_REASON),
      (1 < terminalTypes.length, "상호 배타적인 종료 event가 함께 존재하는 모순 이력입니다"),
      (1 < brokerOrderIds.length ∧ ¬ replacement, UNLINKED_ORDERS_REASON)]
    ++ anomalies
  pure
    { intentId := intent.intentId
      brokerOrderIds
      terminalEventTypes := terminalTypes
      cumulativeFilledQuantity := execution.cumulativeQuantity
      completeFill := execution.completeFill
      terminal := evidence.tradeUpdates.any (·.eventType ∈ TERMINAL_EVENT_TYPES)
        || restTerminal.isSome
      hasFillEvidence := 0 < execution.cumulativeQuantity ∨ legacyFill
      anomalyReasons := reasons.dedup.insertionSort (· ≤ ·)
      executionDetailComplete := execution.detailComplete
      warningReasons := execution.warnings
      executionAveragePrice := execution.averagePrice }

end TradingAgent
