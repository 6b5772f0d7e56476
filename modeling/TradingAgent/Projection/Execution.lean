import TradingAgent.Library.Except
import TradingAgent.Library.RunningSum
import TradingAgent.Projection.Recovery

/-!
# The projection of the executions

The executions of an order, from the events of the order stream and, where those are incomplete,
from the account activities (`projectBrokerExecution`).

The events are ordered by their times, and those of the same time in the order in which the ledger
has them (`updateBefore`).
-/

namespace TradingAgent

def EXECUTION_EVENT_TYPES : List BrokerOrderEventType := [.partialFill, .fill]

inductive StoredBrokerExecutionTimestampError
  | notATime
  | naive
  deriving DecidableEq, Repr

/-- The time that the text of an event stands for, which has to be aware. -/
def instantOf (value : Option DateTime) : Except StoredBrokerExecutionTimestampError DateTime :=
  match value with
  | none => .error .notATime
  | some instant => if ¬ instant.aware then .error .naive else .ok instant

structure BrokerExecutionProjection where
  orderedUpdates : List StoredTradeUpdate
  cumulativeQuantity : Decimal
  averagePrice : Option Decimal
  detailComplete : Bool
  completeFill : Bool
  reasons : List String
  warnings : List String

/-- The order of the events by the keys of the sort: the time, then the number in the ledger. -/
def updateBefore (a b : DateTime × StoredTradeUpdate) : Prop :=
  a.1 < b.1 ∨ a.1.instant = b.1.instant ∧ a.2.eventId ≤ b.2.eventId

instance : DecidableRel updateBefore := fun _ _ => inferInstanceAs (Decidable (_ ∨ _))

def orderedUpdates (updates : List StoredTradeUpdate) :
    Except StoredBrokerExecutionTimestampError (List StoredTradeUpdate) := do
  let keyed ← updates.mapM fun event => do
    let instant ← instantOf event.occurredAt
    pure (instant, event)
  pure ((keyed.insertionSort updateBefore).map (·.2))

/-- The sums of the executions gone over so far, with the reasons against them. -/
structure StreamSums where
  reasons : List String := []
  quantity : Decimal := 0
  notional : Decimal := 0

/-- The loop over the executions of the order stream. -/
def streamPass : LoggedPass StreamSums StoredTradeUpdate String where
  step sums execution :=
    let reasons := sums.reasons ++
      (if execution.executionId = none then ["체결 event에 execution ID가 없습니다"] else [])
    match execution.executionQuantity with
    | none => { sums with reasons := reasons ++ ["체결 event에 개별 체결 수량이 없습니다"] }
    | some executionQuantity =>
      let quantity := sums.quantity + executionQuantity
      { reasons := reasons
          ++ (if execution.executionPrice = none then
                ["체결 event에 개별 체결 가격이 없습니다"]
              else [])
          ++ (if execution.cumulativeFilledQuantity ≠ quantity then
                ["체결 event 사이에 누락 또는 누적 수량 불일치가 있습니다"]
              else [])
        quantity
        notional := execution.executionPrice.elim sums.notional fun price =>
          sums.notional + executionQuantity * price }
  log sums := sums.reasons
  log_step sums execution := by
    cases execution.executionQuantity <;> simp

/-- What the events of the order stream say about the executions. -/
structure StreamProjection where
  reasons : List String
  quantity : Decimal
  cumulative : Decimal
  average : Option Decimal

def projectStream (ordered : List StoredTradeUpdate) : StreamProjection :=
  let sums := streamPass.run {} (ordered.filter (·.eventType ∈ EXECUTION_EVENT_TYPES))
  let cumulative := Decimal.maximum 0 (ordered.map (·.cumulativeFilledQuantity))
  let reasons := sums.reasons ++
    (if 0 < cumulative ∧ sums.quantity ≠ cumulative then
      ["체결 event 누락 또는 최종 누적 수량 불일치가 있습니다"]
    else [])
  { reasons
    quantity := sums.quantity
    cumulative
    average :=
      if 0 < sums.quantity ∧ reasons = [] then some (sums.notional / sums.quantity) else none }

/-- What is projected, before the order itself is looked at. -/
structure ExecutionEvidence where
  cumulative : Decimal
  average : Option Decimal
  detailComplete : Bool
  reasons : List String
  warnings : List String

/-- The evidence of the order stream, completed by that of a REST recovery of the order. -/
def reconcileRecovery (stream : StreamProjection) (recovered : PaperOrderSnapshot)
    (activities : List PaperTradeActivity) : ExecutionEvidence × Bool :=
  let activityProjection :=
    if activities = [] then none else some (projectPaperActivityExecution recovered activities)
  let activityComplete := activityProjection.any (·.complete)
  let reasons := activityProjection.elim [] fun projection =>
    if ¬ projection.complete then projection.reasons else []
  let reasons :=
    if recovered.filledQuantity < stream.cumulative then
      reasons ++ ["REST 누적 체결 수량이 trade update 원장보다 작습니다"]
    else reasons
  let evidence : ExecutionEvidence :=
    { cumulative :=
        if stream.cumulative < recovered.filledQuantity then recovered.filledQuantity
        else stream.cumulative
      average := stream.average
      detailComplete := stream.reasons = []
      reasons
      warnings := [] }
  let evidence : ExecutionEvidence :=
    match activityProjection.filter (·.complete) with
    | some projection =>
      let differs := stream.average.any fun streamAverage => projection.averagePrice.any fun average =>
        AVERAGE_PRICE_TOLERANCE < (streamAverage - average).abs
      { cumulative := projection.cumulativeQuantity
        average := projection.averagePrice
        detailComplete := ¬ differs
        reasons := evidence.reasons
          ++ (if differs then ["WSS 체결 평균가격과 Account Activities가 다릅니다"] else [])
        warnings :=
          if stream.reasons ≠ [] ∨ stream.cumulative ≠ projection.cumulativeQuantity then
            ["WSS 체결 누락을 Account Activities로 복구했습니다"]
          else [] }
    | none =>
      if stream.cumulative < recovered.filledQuantity then
        { evidence with
          detailComplete := false
          warnings := ["REST 누적 체결은 개별 execution 상세가 불완전합니다"] }
      else evidence
  let inconsistent := 0 < recovered.filledQuantity
    ∧ recovered.filledQuantity = stream.quantity
    ∧ stream.reasons = []
    ∧ recovered.filledAveragePrice.any (fun recoveredAverage => stream.average.any fun average =>
        AVERAGE_PRICE_TOLERANCE < (recoveredAverage - average).abs)
  (if inconsistent then
    { evidence with
      detailComplete := false
      reasons := evidence.reasons
        ++ ["REST 누적 체결 평균가격과 개별 execution이 불일치합니다"] }
  else evidence, activityComplete)

def projectBrokerExecution (intent : StoredIntent) (evidence : BrokerOrderEvidence)
    (latestRecovery : Option StoredPaperRecoveryOrder) :
    Except StoredBrokerExecutionTimestampError BrokerExecutionProjection := do
  let ordered ← orderedUpdates evidence.tradeUpdates
  let stream := projectStream ordered
  let activities := dictValues (·.activityId) evidence.accountActivities
  let (reconciled, activityComplete) :=
    match latestRecovery with
    | none =>
      ({ cumulative := stream.cumulative
         average := stream.average
         detailComplete := stream.reasons = []
         reasons := []
         warnings := [] : ExecutionEvidence }, false)
    | some recovery => reconcileRecovery stream recovery.order activities
  let unresolved := stream.reasons ≠ [] ∧ ¬ activityComplete
  let completeFill :=
    evidence.tradeUpdates.any (fun event => event.eventType = .fill
      ∧ event.cumulativeFilledQuantity = (intent.quantity : Decimal))
    || latestRecovery.any (fun recovery => recovery.order.status = "filled"
      ∧ recovery.order.quantity = (intent.quantity : Decimal)
      ∧ recovery.order.filledQuantity = (intent.quantity : Decimal))
  let reasons := reconciled.reasons
    ++ (if unresolved then stream.reasons else [])
    ++ (if evidence.tradeUpdates.any (·.eventType = .fill) ∧ ¬ completeFill then
          ["완전체결 event의 누적 수량이 주문 수량과 다릅니다"]
        else [])
  pure
    { orderedUpdates := ordered
      cumulativeQuantity := reconciled.cumulative
      averagePrice := reconciled.average
      detailComplete := if unresolved then false else reconciled.detailComplete
      completeFill
      reasons := reasons.dedup.insertionSort (· ≤ ·)
      warnings := reconciled.warnings.dedup.insertionSort (· ≤ ·) }

end TradingAgent
