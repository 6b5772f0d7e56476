import Mathlib.Data.String.Basic
import TradingAgent.Library.SortedSet
import TradingAgent.Library.Text

/-!
# Canonical events

The envelope of an event that some source has published (`CanonicalEventEnvelope`), with what it
validates about itself. An event is an original one, corrects an earlier one, or takes it back
(`CanonicalEventOperation`).

The times of an envelope are aware, and Python compares aware times by their instants: here, they
are instants.
-/

namespace TradingAgent.CanonicalEvent

inductive CanonicalEntityType
  | instrument
  | organization
  | person
  | macroSeries
  | topic
  deriving DecidableEq, Repr

def CanonicalEntityType.value : CanonicalEntityType → String
  | instrument => "instrument"
  | organization => "organization"
  | person => "person"
  | macroSeries => "macro_series"
  | topic => "topic"

inductive CanonicalEventOperation
  | original
  | correction
  | tombstone
  deriving DecidableEq, Repr

structure CanonicalEntityRef where
  entityType : CanonicalEntityType
  entityId : String
  deriving DecidableEq, Repr

def CanonicalEntityRef.canonicalId (ref : CanonicalEntityRef) : String :=
  ref.entityType.value ++ ":" ++ ref.entityId

structure DataSourceId where
  provider : String
  feed : String
  deriving DecidableEq, Repr

/-- The pattern `[a-z0-9][a-z0-9_.:-]{0,63}`. -/
def isEventType (s : String) : Bool := isInstrument s && s.toList.length ≤ 64

/-- The pattern `[a-z][a-z0-9_]{0,63}`. -/
def isQualityFlag (s : String) : Bool :=
  match s.toList with
  | [] => false
  | c :: cs => c.isLower ∧ cs.length ≤ 63 ∧ cs.all fun c => c.isLower || c.isDigit || c = '_'

def canonicalText (value : String) (maxLength : ℕ) : Bool :=
  value ≠ "" ∧ isStripped value ∧ value.toList.length ≤ maxLength ∧
    value.toList.all fun c => c ≠ '\r' ∧ c ≠ '\n' ∧ c ≠ '\t'

structure CanonicalEventEnvelope where
  eventId : String
  sourceId : DataSourceId
  providerEventId : Option String := none
  entityRefs : List CanonicalEntityRef
  eventType : String
  eventTime : Option Instant := none
  publishedAt : Option Instant := none
  providerTime : Option Instant := none
  receivedAt : Instant
  normalizedAt : Instant
  effectiveFrom : Option Instant := none
  effectiveTo : Option Instant := none
  sequenceOrOffset : Option String := none
  operation : CanonicalEventOperation
  correctionOf : Option String := none
  rawReceiptRef : String
  contentHash : String
  qualityFlags : List String := []
  deriving DecidableEq, Repr

namespace CanonicalEventEnvelope

/-- The end of what an event is effective for comes after its start. -/
def effectiveIsValid (event : CanonicalEventEnvelope) : Bool :=
  event.effectiveTo.all fun effectiveTo => event.effectiveFrom.any (· < effectiveTo)

/-- An event that is not an original one names another event. -/
def correctionIsValid (event : CanonicalEventEnvelope) : Bool :=
  match event.operation with
  | .original => event.correctionOf.isNone
  | .correction | .tombstone =>
    event.correctionOf.any fun target => isInstrument target && target ≠ event.eventId

def validateEvent (event : CanonicalEventEnvelope) : Bool :=
  let entityIds := event.entityRefs.map (·.canonicalId)
  isInstrument event.eventId ∧
    event.providerEventId.all (canonicalText · 512) ∧
    event.entityRefs ≠ [] ∧ entityIds = sortedSet entityIds ∧ isEventType event.eventType ∧
    event.receivedAt ≤ event.normalizedAt ∧ event.effectiveIsValid ∧
    event.sequenceOrOffset.all (canonicalText · 256) ∧ event.correctionIsValid ∧
    isInstrument event.rawReceiptRef ∧ isHex64 event.contentHash ∧
    event.qualityFlags = sortedSet event.qualityFlags ∧ event.qualityFlags.all isQualityFlag

variable {event : CanonicalEventEnvelope}

theorem correctionIsValid_of_valid (h : event.validateEvent = true) :
    event.correctionIsValid = true := by
  rw [validateEvent, decide_eq_true_eq] at h
  exact h.2.2.2.2.2.2.2.2.1

/-- An original event names no other one. -/
theorem correctionOf_of_original (h : event.validateEvent = true)
    (horiginal : event.operation = .original) : event.correctionOf = none := by
  have hvalid := correctionIsValid_of_valid h
  rw [correctionIsValid, horiginal] at hvalid
  exact Option.isNone_iff_eq_none.1 hvalid

/-- Every other event names one. -/
theorem exists_correctionOf (h : event.validateEvent = true)
    (hoperation : event.operation ≠ .original) : ∃ target, event.correctionOf = some target := by
  have hvalid := correctionIsValid_of_valid h
  rw [correctionIsValid] at hvalid
  cases htarget : event.correctionOf with
  | some target => exact ⟨target, rfl⟩
  | none =>
    rw [htarget] at hvalid
    cases hop : event.operation with
    | original => exact absurd hop hoperation
    | correction | tombstone =>
      rw [hop] at hvalid
      exact absurd hvalid Bool.false_ne_true

end CanonicalEventEnvelope

end TradingAgent.CanonicalEvent
