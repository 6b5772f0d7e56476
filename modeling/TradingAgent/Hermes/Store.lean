import Mathlib.Data.List.MinMax
import Mathlib.Data.Prod.Lex
import Mathlib.Data.String.Basic
import TradingAgent.Hermes.Models
import TradingAgent.Library.Except

/-!
# The store of deliveries

The four tables of the store (`HermesDeliveryStore`), and the operations of its writer.

* A delivery is claimed by a worker (`claimNext`) if the query for claimable deliveries has it as
  its first row (`isClaimable`): it is neither acknowledged nor dead-lettered, has attempts left,
  does not wait for its root, and its last attempt is over.
* A claim is answered by `acknowledge` or `fail`, as long as its lease runs and it is the last one of
  its delivery (`requireClaim`).
* A row stands for its JSON text, and the texts of times in UTC are ordered as the instants.
-/

namespace TradingAgent.Hermes

/-- The errors of the operations. A row that a constraint of its table refuses is an
    `integrity` error, a record that does not meet its own validation a `validation` error. -/
inductive HermesDeliveryError
  | validation
  | integrity
  | conflict
  | leaseLost
  | invalidOperation
  | invalidRedrive
  deriving DecidableEq, Repr

structure HermesDeliveryStore where
  events : List HermesDeliveryEvent := []
  attempts : List HermesDeliveryAttempt := []
  transitions : List HermesDeliveryTransition := []
  acknowledgements : List HermesDeliveryAcknowledgement := []
  deriving DecidableEq, Repr

namespace HermesDeliveryStore

variable (s : HermesDeliveryStore)

/-! ## Queries -/

def event? (deliveryId : String) : Option HermesDeliveryEvent :=
  s.events.find? (·.deliveryId = deliveryId)

def attemptsOf (deliveryId : String) : List HermesDeliveryAttempt :=
  s.attempts.filter (·.deliveryId = deliveryId)

/-- The attempt of a delivery with the highest number. -/
def latestAttempt (deliveryId : String) : Option HermesDeliveryAttempt :=
  (s.attemptsOf deliveryId).argmax (·.attemptNumber)

/-- What became of an attempt that failed. -/
def transitionOf (attemptId : String) : Option HermesDeliveryTransition :=
  s.transitions.find? (·.attemptId = attemptId)

def acknowledgementOf (deliveryId : String) : Option HermesDeliveryAcknowledgement :=
  s.acknowledgements.find? (·.deliveryId = deliveryId)

def isAcknowledged (deliveryId : String) : Bool :=
  s.acknowledgements.any (·.deliveryId = deliveryId)

def isDeadLettered (deliveryId : String) : Bool :=
  s.transitions.any fun dead => dead.deliveryId = deliveryId ∧ dead.kind = .deadLetter

/-- Whether a delivery is a root, or its root was acknowledged. -/
def rootIsReady (e : HermesDeliveryEvent) : Bool :=
  e.deliveryId = e.rootDeliveryId ∨ s.isAcknowledged e.rootDeliveryId

/-- Whether no attempt of a delivery is under way, or waits to be repeated. -/
def isFree (now : DateTime) (deliveryId : String) : Bool :=
  match s.latestAttempt deliveryId with
  | none => true
  | some a =>
    match s.transitionOf a.attemptId with
    | some t => t.kind = .retryScheduled ∧ t.availableAt.any (· ≤ now)
    | none => a.leaseExpiresAt ≤ now

/-- The conditions of the query for claimable deliveries. -/
def isClaimable (now : DateTime) (e : HermesDeliveryEvent) : Bool :=
  ¬ s.isAcknowledged e.deliveryId ∧ ¬ s.isDeadLettered e.deliveryId ∧
    (s.attemptsOf e.deliveryId).length < e.maxAttempts ∧ s.rootIsReady e ∧
    s.isFree now e.deliveryId

/-- The order of the query. -/
def orderKey (e : HermesDeliveryEvent) : ℤ ×ₗ String := toLex (e.occurredAt.instant, e.deliveryId)

/-- The order of the integers, found before those of the algebraic structures on them, which do not
    compute. -/
local instance intOrder : Preorder ℤ := Int.instLinearOrder.toPartialOrder.toPreorder

/-- The first row of the query. -/
def nextClaimable (now : DateTime) : Option HermesDeliveryEvent :=
  (s.events.filter (s.isClaimable now)).argmin orderKey

def deadLetters : List HermesDeliveryTransition := s.transitions.filter (·.kind = .deadLetter)

/-! ## The writer -/

variable (sha : Sha256)

/-- Appends a delivery. The result says whether it is a new one. -/
def appendEvent (e : HermesDeliveryEvent) :
    Except HermesDeliveryError (HermesDeliveryStore × Bool) := do
  Except.raiseIf (¬ validateEvent sha e) .validation
  match s.event? e.deliveryId with
  | some existing =>
    Except.raiseIf (existing ≠ e) .conflict
    return (s, false)
  | none =>
    Except.raiseIf (e.rootDeliveryId ≠ e.deliveryId ∧ s.event? e.rootDeliveryId = none) .conflict
    return ({ s with events := s.events ++ [e] }, true)

/-- The next attempt of a delivery. -/
def nextAttempt (e : HermesDeliveryEvent) (workerId : String) (now : DateTime)
    (leaseSeconds : ℤ) : HermesDeliveryAttempt :=
  let attemptNumber := (s.attemptsOf e.deliveryId).length + 1
  { attemptId := hermesAttemptId sha e.deliveryId attemptNumber
    deliveryId := e.deliveryId
    attemptNumber := attemptNumber
    workerId := workerId
    claimedAt := now
    leaseExpiresAt := now + TimeDelta.seconds leaseSeconds }

/-- Inserts an attempt. -/
def insertAttempt (a : HermesDeliveryAttempt) : Except HermesDeliveryError HermesDeliveryStore := do
  Except.raiseIf
    (s.attempts.any fun x => x.attemptId = a.attemptId ∨
      (x.deliveryId = a.deliveryId ∧ x.attemptNumber = a.attemptNumber)) .integrity
  return { s with attempts := s.attempts ++ [a] }

/-- The claim of an attempt. -/
def claimOf (e : HermesDeliveryEvent) (a : HermesDeliveryAttempt) : HermesDeliveryClaim where
  event := e
  attempt := a
  lineage :=
    { deliveryId := e.deliveryId
      rootDeliveryId := e.rootDeliveryId
      rootPlatformMessageId := (s.acknowledgementOf e.rootDeliveryId).map (·.platformMessageId) }

/-- Claims the next delivery for a worker. -/
def claimNext (workerId : String) (now : DateTime) (leaseSeconds : ℤ) :
    Except HermesDeliveryError (HermesDeliveryStore × Option HermesDeliveryClaim) := do
  Except.raiseIf (leaseSeconds < 1 ∨ 300 < leaseSeconds ∨ ¬ now.aware) .invalidOperation
  let now := now.astimezone UTC
  match s.nextClaimable now with
  | none => return (s, none)
  | some e =>
    let a := s.nextAttempt sha e workerId now leaseSeconds
    Except.raiseIf (¬ validateAttempt sha a) .validation
    let s ← s.insertAttempt a
    return (s, some (s.claimOf e a))

/-- Requires that a claim is the last one of its delivery, runs, and was not answered. -/
def requireClaim (claim : HermesDeliveryClaim) (at_ : DateTime) :
    Except HermesDeliveryError Unit := do
  Except.raiseIf (¬ at_.aware ∨ claim.attempt.leaseExpiresAt < at_) .leaseLost
  let latest := s.latestAttempt claim.event.deliveryId
  let terminal := s.transitionOf claim.attempt.attemptId ≠ none ∨
    s.isAcknowledged claim.event.deliveryId
  Except.raiseIf (latest.map (·.attemptId) ≠ some claim.attempt.attemptId ∨ terminal) .leaseLost

/-- Inserts an acknowledgement. -/
def insertAcknowledgement (k : HermesDeliveryAcknowledgement) :
    Except HermesDeliveryError HermesDeliveryStore := do
  Except.raiseIf
    (s.acknowledgements.any fun x =>
      x.acknowledgementId = k.acknowledgementId ∨ x.deliveryId = k.deliveryId ∨
        x.attemptId = k.attemptId ∨ x.platformMessageId = k.platformMessageId) .integrity
  return { s with acknowledgements := s.acknowledgements ++ [k] }

/-- The acknowledgement of a claim. -/
def acknowledgementFor (claim : HermesDeliveryClaim) (platformMessageId : String)
    (acknowledgedAt : DateTime) : HermesDeliveryAcknowledgement where
  acknowledgementId := hermesAcknowledgementId sha claim.event.deliveryId platformMessageId
  deliveryId := claim.event.deliveryId
  attemptId := claim.attempt.attemptId
  platformMessageId := platformMessageId
  acknowledgedAt := acknowledgedAt

/-- Acknowledges a claim. The result says whether the acknowledgement is a new one. -/
def acknowledge (claim : HermesDeliveryClaim) (platformMessageId : String)
    (acknowledgedAt : DateTime) : Except HermesDeliveryError (HermesDeliveryStore × Bool) := do
  let k := acknowledgementFor sha claim platformMessageId acknowledgedAt
  Except.raiseIf (¬ validateAcknowledgement sha k) .validation
  match s.acknowledgementOf claim.event.deliveryId with
  | some existing =>
    Except.raiseIf (existing ≠ k) .conflict
    return (s, false)
  | none =>
    s.requireClaim claim acknowledgedAt
    let s ← s.insertAcknowledgement k
    return (s, true)

/-- Inserts what becomes of an attempt. -/
def insertTransition (t : HermesDeliveryTransition) :
    Except HermesDeliveryError HermesDeliveryStore := do
  Except.raiseIf
    (s.transitions.any fun x => x.transitionId = t.transitionId ∨ x.attemptId = t.attemptId)
    .integrity
  return { s with transitions := s.transitions ++ [t] }

/-- What becomes of a claim that failed. -/
def transitionFor (claim : HermesDeliveryClaim) (failure : HermesDeliveryFailure) :
    HermesDeliveryTransition :=
  let terminal : Bool :=
    failure.terminal ∨ claim.event.maxAttempts ≤ claim.attempt.attemptNumber
  let kind : HermesDeliveryTransitionKind := if terminal then .deadLetter else .retryScheduled
  { transitionId := hermesTransitionId sha claim.attempt.attemptId kind
    deliveryId := claim.event.deliveryId
    attemptId := claim.attempt.attemptId
    kind := kind
    occurredAt := failure.failedAt
    availableAt := if terminal then none
      else some (failure.failedAt + TimeDelta.seconds failure.retryDelaySeconds)
    reason := failure.reason }

/-- Records that a claim failed. -/
def fail (claim : HermesDeliveryClaim) (failure : HermesDeliveryFailure) :
    Except HermesDeliveryError (HermesDeliveryStore × HermesDeliveryTransition) := do
  Except.raiseIf (¬ validateFailure failure) .validation
  s.requireClaim claim failure.failedAt
  let t := transitionFor sha claim failure
  Except.raiseIf (¬ validateTransition sha t) .validation
  let s ← s.insertTransition t
  return (s, t)

end HermesDeliveryStore

end TradingAgent.Hermes
