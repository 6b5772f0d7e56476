import TradingAgent.Mutation.Store

/-!
# The executor of mutations

One run of a mutation (`run`): the intent is saved, the events recorded so far say whether there
is anything left to do (`existingResult`), the attempt is recorded, and only then the broker is
called. What the broker replies is recorded too (`outcomeEvent`), unless it is an error that
the executor does not know.
-/

namespace TradingAgent

open Except

/-! ## Replies of the broker -/

/-- What the broker answers to a request that it accepts. -/
inductive PaperMutationReceipt
  | entryOrder (requestId : String) (receivedAt : DateTime) (order : PaperOrderSnapshot)
  | protectiveOco (requestId : String) (snapshot : ProtectiveOcoSnapshot)
  | cancelOrder (requestId : String) (brokerOrderId : BrokerOrderId) (acceptedAt : DateTime)
  | closePosition (requestId : String) (receivedAt : DateTime) (order : PaperOrderSnapshot)
  deriving DecidableEq, Repr

namespace PaperMutationReceipt

def requestId : PaperMutationReceipt → String
  | entryOrder id _ _ | protectiveOco id _ | cancelOrder id _ _ | closePosition id _ _ => id

def statusCode : PaperMutationReceipt → ℤ
  | entryOrder .. | protectiveOco .. | closePosition .. => 200
  | cancelOrder .. => 204

def brokerOrderId : PaperMutationReceipt → BrokerOrderId
  | entryOrder _ _ order | closePosition _ _ order => order.brokerOrderId
  | protectiveOco _ snapshot => snapshot.takeProfit.brokerOrderId
  | cancelOrder _ id _ => id

end PaperMutationReceipt

/-- How a call of the broker ends. -/
inductive BrokerReply
  | receipt (receipt : PaperMutationReceipt)
  /-- `PaperMutationRejectedError` -/
  | rejected (requestId : Option String) (statusCode : ℤ)
  /-- `httpx2.TransportError` -/
  | transportError
  /-- `PaperMutationResponseError` -/
  | responseError
  /-- Any other exception, which the executor lets through. -/
  | otherError
  deriving DecidableEq, Repr

/-! ## Events of an attempt -/

def attemptedEvent (intent : PaperMutationIntent) (attemptNumber : ℕ) (occurredAt : DateTime) :
    PaperMutationEvent where
  attemptNumber := attemptNumber
  occurredAt := occurredAt
  eventType := .attempted
  requestId := none
  statusCode := none
  brokerOrderId := none
  evidenceSha256 := intent.requestSha256

def acknowledgedMutationEvent (sha : Sha256) (receipt : PaperMutationReceipt) (attemptNumber : ℕ)
    (occurredAt : DateTime) : PaperMutationEvent where
  attemptNumber := attemptNumber
  occurredAt := occurredAt
  eventType := .acknowledged
  requestId := some receipt.requestId
  statusCode := some receipt.statusCode
  brokerOrderId := some receipt.brokerOrderId
  evidenceSha256 := sha.hexdigest [.str "acknowledged", .str receipt.requestId,
    .int receipt.statusCode, .str receipt.brokerOrderId]

def rejectedMutationEvent (sha : Sha256) (requestId : Option String) (statusCode : ℤ)
    (attemptNumber : ℕ) (occurredAt : DateTime) : PaperMutationEvent where
  attemptNumber := attemptNumber
  occurredAt := occurredAt
  eventType := .rejected
  requestId := requestId
  statusCode := some statusCode
  brokerOrderId := none
  evidenceSha256 := sha.hexdigest [.str "rejected", .ofOption .str requestId, .int statusCode]

def ambiguousMutationEvent (sha : Sha256) (reason : String) (attemptNumber : ℕ)
    (occurredAt : DateTime) : PaperMutationEvent where
  attemptNumber := attemptNumber
  occurredAt := occurredAt
  eventType := .ambiguous
  requestId := none
  statusCode := none
  brokerOrderId := none
  evidenceSha256 := sha.hexdigest [.str "ambiguous", .str reason]

inductive PaperMutationExecutionState
  | acknowledged
  | alreadyAcknowledged
  | rejected
  | ambiguous
  deriving DecidableEq, Repr

structure PaperMutationExecutionResult where
  mutationKey : PaperMutationKey
  state : PaperMutationExecutionState
  brokerOrderId : Option BrokerOrderId
  deriving DecidableEq, Repr

/-- The event that records a reply, and the state it leaves the mutation in. -/
def outcomeEvent (sha : Sha256) (attemptNumber : ℕ) (occurredAt : DateTime) :
    BrokerReply → Option (PaperMutationEvent × PaperMutationExecutionState)
  | .receipt receipt =>
    some (acknowledgedMutationEvent sha receipt attemptNumber occurredAt, .acknowledged)
  | .rejected requestId statusCode =>
    some (rejectedMutationEvent sha requestId statusCode attemptNumber occurredAt, .rejected)
  | .transportError =>
    some (ambiguousMutationEvent sha "transport_error" attemptNumber occurredAt, .ambiguous)
  | .responseError =>
    some (ambiguousMutationEvent sha "response_incomplete" attemptNumber occurredAt, .ambiguous)
  | .otherError => none

/-- The outcome of an attempt is its acknowledgement, its rejection, or that it is ambiguous. -/
theorem outcomeEvent_cases {sha : Sha256} {n : ℕ} {occurredAt : DateTime} {reply : BrokerReply}
    {event : PaperMutationEvent} {state : PaperMutationExecutionState}
    (h : outcomeEvent sha n occurredAt reply = some (event, state)) : event.attemptNumber = n ∧
      (event.eventType = .acknowledged ∨ event.eventType = .rejected ∨
        event.eventType = .ambiguous) := by
  cases reply <;> simp only [outcomeEvent, Option.some.injEq, Prod.mk.injEq, reduceCtorEq] at h <;>
    obtain ⟨rfl, -⟩ := h <;>
    simp [acknowledgedMutationEvent, rejectedMutationEvent, ambiguousMutationEvent]

/-! ## A run -/

/-- The result of a mutation that must not be attempted now, by its events. -/
def existingResult (mutationKey : PaperMutationKey) (events : List PaperMutationEvent) :
    Option PaperMutationExecutionResult :=
  match events.getLast? with
  | none => none
  | some latest =>
    match latest.eventType with
    | .acknowledged | .recoveredAcknowledged =>
      some ⟨mutationKey, .alreadyAcknowledged, latest.brokerOrderId⟩
    | .rejected => some ⟨mutationKey, .rejected, latest.brokerOrderId⟩
    | .attempted | .ambiguous => some ⟨mutationKey, .ambiguous, latest.brokerOrderId⟩
    | .recoveredAbsent => none

/-- Another attempt is made only after the last one had no effect. -/
theorem existingResult_eq_none {key : PaperMutationKey} {events : List PaperMutationEvent}
    {phase : MutationPhase} (hphase : mutationPhase events = some phase)
    (h : existingResult key events = none) : phase.last = .none := by
  by_contra hne
  have htype := (getLast?_eq hphase).1
  rw [MutationPhase.lastType, if_neg hne] at htype
  unfold existingResult at h
  cases hlast : events.getLast? with
  | none =>
    rw [hlast] at htype
    cases hkind : phase.last <;> simp_all [LastAttempt.types]
  | some latest =>
    rw [hlast] at htype h
    cases hkind : phase.last <;> simp_all [LastAttempt.types]

/-- Why a run ends without a result. -/
inductive RunError
  | store (error : PaperMutationError)
  | broker
  deriving DecidableEq, Repr

/-- A run of a mutation, whose attempt is recorded at `attemptedAt`, to which the broker would
    reply with `reply`, and whose outcome is recorded at `repliedAt`. -/
def run (sha : Sha256) (ledger : ExecutionLedger) (intent : PaperMutationIntent)
    (persistIntent : Bool) (attemptedAt repliedAt : DateTime) (reply : BrokerReply) :
    ExecutionLedger × Except RunError PaperMutationExecutionResult :=
  let saved := if persistIntent then
      (ExecutionWriter.savePaperMutationIntent sha ledger intent).map (·.1)
    else .ok ledger
  match saved with
  | .error e => (ledger, .error (.store e))
  | .ok ledger =>
    let mutationKey := paperMutationKey sha intent
    match readPaperMutationEvents sha ledger with
    | .error e => (ledger, .error (.store e))
    | .ok stored =>
      let events := (stored.filter (·.mutationKey = mutationKey)).map (·.event)
      match existingResult mutationKey events with
      | some existing => (ledger, .ok existing)
      | none =>
        let attemptNumber := latestAttempt events + 1
        match appendPaperMutationEvent sha ledger mutationKey
          (attemptedEvent intent attemptNumber attemptedAt) with
        | .error e => (ledger, .error (.store e))
        | .ok (ledger, _) =>
          match outcomeEvent sha attemptNumber repliedAt reply with
          | none => (ledger, .error .broker)
          | some (event, state) =>
            match appendPaperMutationEvent sha ledger mutationKey event with
            | .error e => (ledger, .error (.store e))
            | .ok (ledger, _) => (ledger, .ok ⟨mutationKey, state, event.brokerOrderId⟩)

end TradingAgent
