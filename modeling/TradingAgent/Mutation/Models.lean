import TradingAgent.Safety.Models

/-!
# Mutations of the account

A mutation is a request that changes something at the broker. The ledger holds the intent of it
(`PaperMutationIntent`), once, and the events of its attempts (`PaperMutationEvent`).

* Intents and events are identified by digests of all their fields (`paperMutationKey`,
  `paperMutationEventKey`).
* Which fields a record must have depends on its operation, and on its event type
  (`requireMutationIntent`, `requireMutationEvent`).
-/

namespace TradingAgent

inductive PaperMutationOperation
  | submitEntry
  | submitProtectiveOco
  | cancelProtectiveOco
  | cancelOrder
  | closePosition
  deriving DecidableEq, Repr

def PaperMutationOperation.value : PaperMutationOperation → String
  | submitEntry => "submit_entry"
  | submitProtectiveOco => "submit_protective_oco"
  | cancelProtectiveOco => "cancel_protective_oco"
  | cancelOrder => "cancel_order"
  | closePosition => "close_position"

inductive PaperMutationEventType
  | attempted
  | acknowledged
  | rejected
  | ambiguous
  | recoveredAcknowledged
  | recoveredAbsent
  deriving DecidableEq, Repr

namespace PaperMutationEventType

def value : PaperMutationEventType → String
  | attempted => "attempted"
  | acknowledged => "acknowledged"
  | rejected => "rejected"
  | ambiguous => "ambiguous"
  | recoveredAcknowledged => "recovered_acknowledged"
  | recoveredAbsent => "recovered_absent"

/-- Whether the event says what became of the request: nothing is attempted after it. -/
def isFinal : PaperMutationEventType → Bool
  | acknowledged | rejected | recoveredAcknowledged => true
  | attempted | ambiguous | recoveredAbsent => false

end PaperMutationEventType

structure PaperMutationIntent where
  accountFingerprint : AccountFingerprint
  createdAt : DateTime
  operation : PaperMutationOperation
  protectivePlanKey : Option String
  safetyPlanKey : Option String
  actionSequence : Option ℤ
  requestSha256 : String
  symbol : String
  brokerOrderId : Option BrokerOrderId
  side : Option PaperOrderSide
  quantity : Option Decimal
  entryIntentId : Option IntentId := none
  deriving DecidableEq, Repr

structure PaperMutationEvent where
  attemptNumber : ℕ
  occurredAt : DateTime
  eventType : PaperMutationEventType
  requestId : Option String
  statusCode : Option ℤ
  brokerOrderId : Option BrokerOrderId
  evidenceSha256 : String
  deriving DecidableEq, Repr

abbrev PaperMutationKey := String
abbrev PaperMutationEventKey := String

structure StoredPaperMutationIntent where
  mutationKey : PaperMutationKey
  intent : PaperMutationIntent
  deriving DecidableEq, Repr

structure StoredPaperMutationEvent where
  eventId : ℕ
  eventKey : PaperMutationEventKey
  mutationKey : PaperMutationKey
  event : PaperMutationEvent
  deriving DecidableEq, Repr

/-! ## Keys -/

/-- The tuple whose digest is the key of an intent. -/
def paperMutationKeyMaterial (intent : PaperMutationIntent) : List JsonAtom :=
  [.str intent.accountFingerprint,
    .time intent.createdAt,
    .str intent.operation.value,
    .ofOption .str intent.protectivePlanKey,
    .ofOption .str intent.safetyPlanKey,
    .ofOption .int intent.actionSequence,
    .str intent.requestSha256,
    .str intent.symbol,
    .ofOption .str intent.brokerOrderId,
    .ofOption (fun side => .str side.value) intent.side,
    .ofOption .decimal intent.quantity,
    .ofOption .str intent.entryIntentId]

def paperMutationKey (sha : Sha256) (intent : PaperMutationIntent) : PaperMutationKey :=
  sha.hexdigest (paperMutationKeyMaterial intent)

/-- The tuple whose digest is the key of an event. -/
def paperMutationEventKeyMaterial (mutationKey : PaperMutationKey) (event : PaperMutationEvent) :
    List JsonAtom :=
  [.str mutationKey,
    .int event.attemptNumber,
    .time event.occurredAt,
    .str event.eventType.value,
    .ofOption .str event.requestId,
    .ofOption .int event.statusCode,
    .ofOption .str event.brokerOrderId,
    .str event.evidenceSha256]

def paperMutationEventKey (sha : Sha256) (mutationKey : PaperMutationKey)
    (event : PaperMutationEvent) : PaperMutationEventKey :=
  sha.hexdigest (paperMutationEventKeyMaterial mutationKey event)

/-! ## Validation -/

/-- The errors that the ledger of mutations raises. -/
inductive PaperMutationError
  | invalidRecord
  | invalidTransition
  | conflict
  | intentConflict (intentId : IntentId)
  | accountBindingConflict
  | unboundAccount
  | invalidRecoverySnapshot
  | recoveryAccount
  deriving DecidableEq, Repr

/-- The text of an error. -/
def PaperMutationError.message : PaperMutationError → String
  | invalidRecord => "Paper mutation 원장 record가 안전 계약과 일치하지 않습니다"
  | invalidTransition => "Paper mutation event 전이가 불완전하거나 재시도에 안전하지 않습니다"
  | conflict => "같은 Paper mutation identity의 immutable 값이 다릅니다"
  | intentConflict intentId => "같은 intent ID의 immutable 필드가 다릅니다: " ++ intentId
  | accountBindingConflict => "실행 원장이 다른 Alpaca paper 계좌에 이미 결합되어 있습니다"
  | unboundAccount => "실행 원장이 Alpaca paper 계좌에 결합되지 않았습니다"
  | invalidRecoverySnapshot => "Paper mutation 복구 snapshot이 current-epoch 계약과 일치하지 않습니다"
  | recoveryAccount => "Paper mutation 복구 계좌와 불변 intent 계좌가 다릅니다"

/-- Whether an optional text is absent or empty: the test `not value`. -/
def isBlank (value : Option String) : Bool := value.getD "" = ""

def optionalHex64 (value : Option String) : Bool := value.any isHex64

def validQuantity (quantity : Option Decimal) : Bool :=
  quantity.any fun q => q.isFinite ∧ 0 < q ∧ q.isIntegral

/-- Whether the fields that an operation uses, and no others, are present. -/
def invalidIntentShape (intent : PaperMutationIntent) : Bool :=
  match intent.operation with
  | .submitEntry =>
    isBlank intent.entryIntentId
      ∨ intent.protectivePlanKey ≠ none
      ∨ intent.safetyPlanKey ≠ none
      ∨ intent.actionSequence ≠ none
      ∨ intent.brokerOrderId ≠ none
      ∨ intent.side = none
      ∨ ¬ validQuantity intent.quantity
  | .submitProtectiveOco =>
    ¬ optionalHex64 intent.protectivePlanKey
      ∨ intent.entryIntentId ≠ none
      ∨ intent.safetyPlanKey ≠ none
      ∨ intent.actionSequence ≠ none
      ∨ intent.brokerOrderId ≠ none
      ∨ intent.side = none
      ∨ ¬ validQuantity intent.quantity
  | .cancelProtectiveOco =>
    intent.entryIntentId ≠ none
      ∨ ¬ optionalHex64 intent.protectivePlanKey
      ∨ intent.safetyPlanKey ≠ none
      ∨ intent.actionSequence ≠ none
      ∨ isBlank intent.brokerOrderId
      ∨ intent.side ≠ none
      ∨ intent.quantity ≠ none
  | .cancelOrder =>
    intent.entryIntentId ≠ none
      ∨ intent.protectivePlanKey ≠ none
      ∨ ¬ optionalHex64 intent.safetyPlanKey
      ∨ ¬ intent.actionSequence.any (0 ≤ ·)
      ∨ isBlank intent.brokerOrderId
      ∨ intent.side ≠ none
      ∨ intent.quantity ≠ none
  | .closePosition =>
    intent.entryIntentId ≠ none
      ∨ intent.protectivePlanKey ≠ none
      ∨ ¬ optionalHex64 intent.safetyPlanKey
      ∨ ¬ intent.actionSequence.any (0 ≤ ·)
      ∨ intent.brokerOrderId ≠ none
      ∨ intent.side = none
      ∨ ¬ validQuantity intent.quantity

def requireMutationIntent (intent : PaperMutationIntent) : Except PaperMutationError Unit :=
  if ¬ isHex64 intent.accountFingerprint
      ∨ ¬ intent.createdAt.aware
      ∨ ¬ isHex64 intent.requestSha256
      ∨ intent.symbol = ""
      ∨ ¬ isUpper intent.symbol
      ∨ 16 < intent.symbol.length
      ∨ invalidIntentShape intent then
    .error .invalidRecord
  else .ok ()

/-- Whether the fields that an event of a type has, and no others, are present. -/
def validEventShape (event : PaperMutationEvent) : Bool :=
  match event.eventType with
  | .acknowledged =>
    event.requestId ≠ none
      ∧ event.statusCode.any (fun code => 200 ≤ code ∧ code < 300)
      ∧ event.brokerOrderId ≠ none
  | .recoveredAcknowledged =>
    event.requestId = none ∧ event.statusCode = none ∧ event.brokerOrderId ≠ none
  | .rejected =>
    event.statusCode.any (400 ≤ ·) ∧ event.brokerOrderId = none
  | .attempted | .ambiguous | .recoveredAbsent =>
    event.requestId = none ∧ event.statusCode = none ∧ event.brokerOrderId = none

def requireMutationEvent (event : PaperMutationEvent) : Except PaperMutationError Unit :=
  if event.attemptNumber = 0
      ∨ ¬ event.occurredAt.aware
      ∨ ¬ isHex64 event.evidenceSha256
      ∨ event.requestId.any (fun id => id = "" ∨ ¬ isStripped id ∨ 128 < id.length)
      ∨ ¬ validEventShape event then
    .error .invalidRecord
  else .ok ()

theorem requireMutationEvent_error {event : PaperMutationEvent} {e : PaperMutationError}
    (h : requireMutationEvent event = .error e) : e = .invalidRecord := by
  unfold requireMutationEvent at h
  split_ifs at h
  cases h
  rfl

end TradingAgent
