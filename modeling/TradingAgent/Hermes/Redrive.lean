import TradingAgent.Hermes.Store

/-!
# Redriving a dead letter

A root delivery that was dead-lettered because the platform did not answer may be made again, as a
new delivery with an identity of its own (`redriveTimeoutDeadLetter`).
-/

namespace TradingAgent.Hermes

/-- The JSON text of a delivery. -/
def HermesDeliveryEvent.material (e : HermesDeliveryEvent) : List JsonAtom :=
  [.ofOption .str e.agentFamily, .str HERMES_DELIVERY_CONTRACT_VERSION, .str e.deliveryId,
    .int e.evidenceRefs.length] ++ e.evidenceRefs.map .str ++
  [.ofOption .str e.instrumentId, .str e.kind.value, .ofOption .str e.laneId, .str e.marketId,
    .int e.maxAttempts, .time e.occurredAt, .str e.payloadSha256, .str e.renderedText,
    .str e.rootDeliveryId, .int 1, .str e.sourceEventId, .str e.status,
    .ofOption .str e.strategyVersion]

/-- The JSON text of a transition. -/
def HermesDeliveryTransition.material (t : HermesDeliveryTransition) : List JsonAtom :=
  [.str t.attemptId, .ofOption .time t.availableAt, .str t.deliveryId, .str t.kind.value,
    .time t.occurredAt, .str t.reason, .str t.transitionId]

/-- The delivery that repeats a dead-lettered one. -/
def redriveEvent (sha : Sha256) (original : HermesDeliveryEvent)
    (transition : HermesDeliveryTransition) : HermesDeliveryEvent :=
  let identity := sha.hexdigest [.str original.deliveryId, .str transition.transitionId]
  let sourceEventId := "hermes-redrive-" ++ identity
  let deliveryId := hermesDeliveryId sha sourceEventId
  { deliveryId := deliveryId
    rootDeliveryId := deliveryId
    kind := original.kind
    sourceEventId := sourceEventId
    marketId := original.marketId
    laneId := original.laneId
    occurredAt := transition.occurredAt
    payloadSha256 := sha.hexdigest (original.material ++ transition.material)
    renderedText := original.renderedText
    agentFamily := original.agentFamily
    instrumentId := original.instrumentId
    strategyVersion := original.strategyVersion
    status := original.status
    evidenceRefs := (original.evidenceRefs ++
      ["hermes-dead-letter:" ++ transition.transitionId]).insertionSort (· ≤ ·)
    maxAttempts := original.maxAttempts }

/-- Whether a dead letter may not be redriven. -/
def HermesDeliveryStore.redriveIsInvalid (s : HermesDeliveryStore) (original : HermesDeliveryEvent)
    (transition : HermesDeliveryTransition) : Bool :=
  let attempts := s.attemptsOf transition.deliveryId
  transition.reason ≠ "telegram_timeout" ∨ s.isAcknowledged transition.deliveryId ∨
    attempts = [] ∨
    (s.latestAttempt transition.deliveryId).map (·.attemptId) ≠ some transition.attemptId ∨
    attempts.length ≠ original.maxAttempts ∨ original.rootDeliveryId ≠ original.deliveryId

/-- Redrives the dead letter of an identity. The result says whether the delivery is a new one. -/
def HermesDeliveryStore.redriveTimeoutDeadLetter (s : HermesDeliveryStore) (sha : Sha256)
    (deadLetterTransitionId : String) : Except HermesDeliveryError (HermesDeliveryStore × Bool) := do
  Except.raiseIf (¬ isHex64 deadLetterTransitionId) .invalidRedrive
  match s.deadLetters.filter (·.transitionId = deadLetterTransitionId) with
  | [transition] =>
    match s.events.filter (·.deliveryId = transition.deliveryId) with
    | [original] =>
      Except.raiseIf (s.redriveIsInvalid original transition) .invalidRedrive
      match s.appendEvent sha (redriveEvent sha original transition) with
      | .error .conflict => .error .invalidRedrive
      | result => result
    | _ => .error .invalidRedrive
  | _ => .error .invalidRedrive

end TradingAgent.Hermes
