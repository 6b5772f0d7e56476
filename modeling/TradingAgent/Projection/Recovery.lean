import Mathlib.Data.List.Sort
import TradingAgent.Library.Fold
import TradingAgent.Projection.Models

/-!
# What REST recoveries and account activities say about an order

The latest order among those that the REST recoveries found, with the contradictions between them
(`latestRecoveryOrder`), and the executions that the account activities report
(`projectPaperActivityExecution`).
-/

namespace TradingAgent

def AVERAGE_PRICE_TOLERANCE : Decimal := .finite (1 / 1000000)

def REST_TERMINAL_STATUSES : List String := ["filled", "canceled", "expired", "rejected"]

/-- The contradictions between an order and what an earlier recovery found of it. -/
def recoveryChangeReasons (prior recovery : StoredPaperRecoveryOrder) : List String :=
  allReasons
    [(recovery.order.filledQuantity < prior.order.filledQuantity,
      "REST 복구 사이 누적 체결 수량이 감소했습니다"),
    (prior.order.status ∈ REST_TERMINAL_STATUSES ∧ recovery.order.status ≠ prior.order.status,
      "REST 복구 뒤 종료 상태가 변경되었습니다"),
    (prior.order.status ∈ REST_TERMINAL_STATUSES
        ∧ recovery.order.filledQuantity ≠ prior.order.filledQuantity,
      "REST 종료 상태의 누적 체결 수량이 변경되었습니다"),
    (prior.order.status ∈ REST_TERMINAL_STATUSES
        ∧ recovery.order.filledAveragePrice ≠ prior.order.filledAveragePrice,
      "REST 종료 상태의 누적 체결 평균가격이 변경되었습니다")]

/-- Goes over recoveries, given those gone over before and their reasons. -/
def recoveryReasons (seen : List StoredPaperRecoveryOrder) :
    List StoredPaperRecoveryOrder → List String
  | [] => []
  | recovery :: recoveries =>
    ((dictGet (·.order.brokerOrderId) seen recovery.order.brokerOrderId).elim []
        (recoveryChangeReasons · recovery))
      ++ recoveryReasons (seen ++ [recovery]) recoveries

def latestRecoveryOrder (recoveries : List StoredPaperRecoveryOrder) :
    Option StoredPaperRecoveryOrder × List String :=
  let ordered := recoveries.insertionSort fun a b => a.recoveryId ≤ b.recoveryId
  let reasons := recoveryReasons [] ordered
  match dictValues (·.order.brokerOrderId) ordered with
  | [] => (none, reasons)
  | first :: others =>
    let reasons :=
      if others ≠ [] then reasons ++ ["REST 복구에 교체 또는 복수 broker 주문이 있습니다"]
      else reasons
    let latest := others.foldl (fun latest recovery =>
      if latest.recoveryId < recovery.recoveryId then recovery else latest) first
    (some latest, reasons)

def recoveryOrderMismatchReasons (intent : StoredIntent) (order : PaperOrderSnapshot) :
    List String :=
  (allReasons
    [(order.clientOrderId ≠ intent.intentId, "client_order_id"),
    (order.symbol ≠ intent.symbol, "symbol"),
    (order.side ≠ intent.side, "side"),
    (order.quantity ≠ (intent.quantity : Decimal), "quantity"),
    (order.limitPrice ≠ some intent.entryLimit, "limit_price"),
    (order.timeInForce ≠ "day", "time_in_force"),
    (order.extendedHours, "extended_hours")]).map ("REST 복구 주문 불일치: " ++ ·)

def recoveryOrderIntegrityReasons (order : PaperOrderSnapshot) : List String :=
  allReasons
    [(¬ order.quantity.isFinite
        ∨ order.quantity ≤ 0
        ∨ ¬ order.filledQuantity.isFinite
        ∨ order.filledQuantity < 0
        ∨ order.quantity < order.filledQuantity,
      "REST 주문 수량 범위가 올바르지 않습니다"),
    (order.status = "filled" ∧ order.filledQuantity ≠ order.quantity,
      "REST filled 상태의 누적 수량이 주문 수량과 다릅니다"),
    (order.status = "partially_filled"
        ∧ ¬ (0 < order.filledQuantity ∧ order.filledQuantity < order.quantity),
      "REST partially_filled 상태의 누적 수량이 올바르지 않습니다"),
    (0 < order.filledQuantity
        ∧ order.filledAveragePrice.all (fun price => ¬ price.isFinite ∨ price ≤ 0),
      "REST 누적 체결 평균가격이 올바르지 않습니다")]

def recoveryHasReplacement (recoveries : List StoredPaperRecoveryOrder) : Bool :=
  recoveries.any fun recovery =>
    recovery.order.replacedByOrderId.isSome
      ∨ recovery.order.replacesOrderId.isSome
      ∨ recovery.order.status = "replaced"

structure PaperActivityExecutionEvidence where
  cumulativeQuantity : Decimal
  averagePrice : Option Decimal
  complete : Bool
  reasons : List String

/-- The sums of the executions gone over so far, with the reasons against them. -/
structure ActivitySums where
  reasons : List String := []
  cumulative : Decimal := 0
  notional : Decimal := 0

/-- The body of the loop over the activities. -/
def activityStep (order : PaperOrderSnapshot) (sums : ActivitySums)
    (activity : PaperTradeActivity) : ActivitySums :=
  let cumulative := sums.cumulative + activity.quantity
  let expectedType : PaperTradeActivityType :=
    if activity.leavesQuantity = 0 then .fill else .partialFill
  { reasons := sums.reasons ++ allReasons
      [(activity.brokerOrderId ≠ order.brokerOrderId,
        "Account Activity broker order ID가 REST 주문과 다릅니다"),
      (activity.symbol ≠ order.symbol,
        "Account Activity symbol이 REST 주문과 다릅니다"),
      (activity.side ≠ order.side,
        "Account Activity side가 REST 주문과 다릅니다"),
      (activity.cumulativeQuantity ≠ cumulative,
        "Account Activity 누적 체결 수량이 개별 체결 합과 다릅니다"),
      (activity.leavesQuantity ≠ order.quantity - cumulative,
        "Account Activity 잔여 수량이 REST 주문 수량과 다릅니다"),
      (activity.eventType ≠ expectedType,
        "Account Activity 체결 유형과 잔여 수량이 다릅니다")]
    cumulative
    notional := sums.notional + activity.quantity * activity.price }

/-- Activities of the same time are ordered by their identities, which the broker gives in the
    order of the executions. -/
def activityBefore (a b : PaperTradeActivity) : Prop :=
  a.transactionTime < b.transactionTime
    ∨ a.transactionTime.instant = b.transactionTime.instant ∧ a.activityId ≤ b.activityId

instance : DecidableRel activityBefore := fun _ _ => inferInstanceAs (Decidable (_ ∨ _))

def projectPaperActivityExecution (order : PaperOrderSnapshot)
    (activities : List PaperTradeActivity) : PaperActivityExecutionEvidence :=
  let ordered := activities.insertionSort activityBefore
  let sums := ordered.foldl (activityStep order) {}
  let average := if sums.cumulative = 0 then none else some (sums.notional / sums.cumulative)
  let reasons := sums.reasons ++ allReasons
    [(sums.cumulative ≠ order.filledQuantity,
      "Account Activity 누적 체결 수량이 REST 주문과 다릅니다"),
    (0 < order.filledQuantity ∧ ordered = [],
      "REST 체결 주문의 Account Activity가 없습니다"),
    (average.any (fun average => order.filledAveragePrice.any fun price =>
        AVERAGE_PRICE_TOLERANCE < (average - price).abs),
      "Account Activity 체결 평균가격이 REST 주문과 다릅니다"),
    (0 < order.filledQuantity ∧ order.filledAveragePrice = none,
      "REST 체결 주문의 평균가격이 없습니다")]
  { cumulativeQuantity := sums.cumulative
    averagePrice := average
    complete := reasons = []
    reasons := reasons.dedup.insertionSort (· ≤ ·) }

end TradingAgent
