import Mathlib.Data.String.Basic
import TradingAgent.Library.SortedSet
import TradingAgent.Library.Text

/-!
# Deliveries to a message platform

The records of the deliveries of messages, with what each of them validates about itself: a delivery
(`HermesDeliveryEvent`), an attempt to make it, which is leased to a worker
(`HermesDeliveryAttempt`), what becomes of an attempt that failed (`HermesDeliveryTransition`), and
the acknowledgement of the platform (`HermesDeliveryAcknowledgement`).

The identities of the records are digests of what they are about.
-/

namespace TradingAgent.Hermes

/-- The time zone `UTC`. -/
def UTC : ZoneInfo := ⟨fun _ => 0⟩

/-- The pattern `[A-Za-z0-9][-A-Za-z0-9_.:/]{0,127}`. -/
def isIdentifier (s : String) : Bool :=
  match s.toList with
  | [] => false
  | c :: cs => c.isAlphanum ∧ cs.length ≤ 127 ∧
      cs.all fun c => c.isAlphanum || c = '_' || c = '.' || c = ':' || c = '/' || c = '-'

def HERMES_DELIVERY_CONTRACT_VERSION : String := "hermes-delivery-v1"

inductive HermesDeliveryKind
  | watch
  | actionable
  | invalidation
  | exit
  | incident
  | noRecommendation
  | research
  | dailySummary
  deriving DecidableEq, Repr

def HermesDeliveryKind.value : HermesDeliveryKind → String
  | watch => "watch"
  | actionable => "actionable"
  | invalidation => "invalidation"
  | exit => "exit"
  | incident => "incident"
  | noRecommendation => "no_recommendation"
  | research => "research"
  | dailySummary => "daily_summary"

inductive HermesDeliveryTransitionKind
  | retryScheduled
  | deadLetter
  deriving DecidableEq, Repr

def HermesDeliveryTransitionKind.value : HermesDeliveryTransitionKind → String
  | retryScheduled => "retry_scheduled"
  | deadLetter => "dead_letter"

structure HermesDeliveryFailure where
  failedAt : DateTime
  reason : String
  retryDelaySeconds : ℤ
  terminal : Bool := false
  deriving DecidableEq, Repr

structure HermesDeliveryEvent where
  deliveryId : String
  rootDeliveryId : String
  kind : HermesDeliveryKind
  sourceEventId : String
  marketId : String
  laneId : Option String
  occurredAt : DateTime
  payloadSha256 : String
  renderedText : String
  agentFamily : Option String := none
  instrumentId : Option String := none
  strategyVersion : Option String := none
  status : String := "pending"
  evidenceRefs : List String := []
  maxAttempts : ℕ := 3
  deriving DecidableEq, Repr

structure HermesDeliveryAttempt where
  attemptId : String
  deliveryId : String
  attemptNumber : ℕ
  workerId : String
  claimedAt : DateTime
  leaseExpiresAt : DateTime
  deriving DecidableEq, Repr

structure HermesDeliveryTransition where
  transitionId : String
  deliveryId : String
  attemptId : String
  kind : HermesDeliveryTransitionKind
  occurredAt : DateTime
  availableAt : Option DateTime
  reason : String
  deriving DecidableEq, Repr

structure HermesDeliveryAcknowledgement where
  acknowledgementId : String
  deliveryId : String
  attemptId : String
  platformMessageId : String
  acknowledgedAt : DateTime
  deriving DecidableEq, Repr

structure HermesReplyLineage where
  deliveryId : String
  rootDeliveryId : String
  rootPlatformMessageId : Option String
  deriving DecidableEq, Repr

structure HermesDeliveryClaim where
  event : HermesDeliveryEvent
  attempt : HermesDeliveryAttempt
  lineage : HermesReplyLineage
  deriving DecidableEq, Repr

/-! ## Identities -/

def hermesDeliveryId (sha : Sha256) (sourceEventId : String) : String :=
  sha.hexdigest [.str HERMES_DELIVERY_CONTRACT_VERSION, .str sourceEventId]

/-- The text that the identity of an attempt is the digest of. -/
def attemptMaterial (deliveryId : String) (attemptNumber : ℕ) : List JsonAtom :=
  [.str deliveryId, .str attemptNumber.repr]

def hermesAttemptId (sha : Sha256) (deliveryId : String) (attemptNumber : ℕ) : String :=
  sha.hexdigest (attemptMaterial deliveryId attemptNumber)

def hermesTransitionId (sha : Sha256) (attemptId : String) (kind : HermesDeliveryTransitionKind) :
    String :=
  sha.hexdigest [.str attemptId, .str kind.value]

/-- The text that the identity of an acknowledgement is the digest of. -/
def acknowledgementMaterial (deliveryId platformMessageId : String) : List JsonAtom :=
  [.str deliveryId, .str platformMessageId]

def hermesAcknowledgementId (sha : Sha256) (deliveryId platformMessageId : String) : String :=
  sha.hexdigest (acknowledgementMaterial deliveryId platformMessageId)

/-! ## Validation -/

def validateFailure (failure : HermesDeliveryFailure) : Bool :=
  failure.failedAt.aware ∧ isIdentifier failure.reason ∧
    0 ≤ failure.retryDelaySeconds ∧ failure.retryDelaySeconds ≤ 3600

def validateEvent (sha : Sha256) (event : HermesDeliveryEvent) : Bool :=
  event.deliveryId = hermesDeliveryId sha event.sourceEventId ∧
    isHex64 event.rootDeliveryId ∧ isHex64 event.payloadSha256 ∧
    ([event.sourceEventId, event.marketId].all isIdentifier) ∧
    ([event.laneId, event.agentFamily, event.instrumentId, event.strategyVersion].all
      (·.all isIdentifier)) ∧
    event.occurredAt.aware ∧
    event.renderedText ≠ "" ∧ isStripped event.renderedText ∧
    event.renderedText.toList.length ≤ 4096 ∧ isIdentifier event.status ∧
    event.evidenceRefs = sortedSet event.evidenceRefs ∧
    (event.evidenceRefs.all fun value => value ≠ "" ∧ isStripped value ∧
      value.toList.length ≤ 512) ∧
    1 ≤ event.maxAttempts ∧ event.maxAttempts ≤ 10

def validateAttempt (sha : Sha256) (attempt : HermesDeliveryAttempt) : Bool :=
  attempt.attemptId = hermesAttemptId sha attempt.deliveryId attempt.attemptNumber ∧
    isHex64 attempt.deliveryId ∧ 1 ≤ attempt.attemptNumber ∧ attempt.attemptNumber ≤ 10 ∧
    isIdentifier attempt.workerId ∧ attempt.claimedAt.aware ∧ attempt.leaseExpiresAt.aware ∧
    attempt.claimedAt < attempt.leaseExpiresAt

def validateTransition (sha : Sha256) (transition : HermesDeliveryTransition) : Bool :=
  let retryGeometry := transition.kind = .retryScheduled ∧ transition.availableAt ≠ none
  let deadGeometry := transition.kind = .deadLetter ∧ transition.availableAt = none
  transition.transitionId = hermesTransitionId sha transition.attemptId transition.kind ∧
    isHex64 transition.deliveryId ∧ isHex64 transition.attemptId ∧
    isIdentifier transition.reason ∧ transition.occurredAt.aware ∧
    transition.availableAt.all DateTime.aware ∧ (retryGeometry ∨ deadGeometry) ∧
    transition.availableAt.all (transition.occurredAt ≤ ·)

def validateAcknowledgement (sha : Sha256) (acknowledgement : HermesDeliveryAcknowledgement) :
    Bool :=
  acknowledgement.acknowledgementId =
      hermesAcknowledgementId sha acknowledgement.deliveryId acknowledgement.platformMessageId ∧
    isHex64 acknowledgement.deliveryId ∧ isHex64 acknowledgement.attemptId ∧
    isIdentifier acknowledgement.platformMessageId ∧ acknowledgement.acknowledgedAt.aware

theorem isAlphanum_of_isHex {c : Char} (h : (c.isDigit || ('a' ≤ c && c ≤ 'f')) = true) :
    c.isAlphanum = true := by
  rw [Bool.or_eq_true, Bool.and_eq_true] at h
  rw [Char.isAlphanum, Bool.or_eq_true]
  rcases h with hdigit | ⟨hle, hge⟩
  · exact .inr hdigit
  · have hle : 'a' ≤ c := of_decide_eq_true hle
    have hge : c ≤ 'f' := of_decide_eq_true hge
    have hz : 'f' ≤ 'z' := by decide
    have hlower : c.isLower = true :=
      Bool.and_eq_true_iff.2 ⟨decide_eq_true hle, decide_eq_true (le_trans hge hz)⟩
    exact .inl (Bool.or_eq_true_iff.2 (.inr hlower))

/-- A digest is a valid identifier. -/
theorem isIdentifier_of_isHex64 {s : String} (h : isHex64 s = true) : isIdentifier s = true := by
  obtain ⟨hlength, hall⟩ := of_decide_eq_true h
  rw [List.all_eq_true] at hall
  rw [isIdentifier]
  cases hs : s.toList with
  | nil =>
    rw [hs] at hlength
    cases hlength
  | cons c cs =>
    rw [hs] at hlength hall
    refine decide_eq_true ⟨isAlphanum_of_isHex (hall c List.mem_cons_self), ?_, ?_⟩
    · rw [List.length_cons] at hlength
      omega
    · refine List.all_eq_true.2 fun d hd => ?_
      rw [isAlphanum_of_isHex (hall d (List.mem_cons_of_mem c hd))]
      rfl

end TradingAgent.Hermes
