import Mathlib.Data.Prod.Lex
import TradingAgent.CanonicalEvent.Models
import TradingAgent.Library.Fold
import TradingAgent.Library.Supersession

/-!
# The history of the canonical events

The events that are active at some time, out of all those of a history: the last version of every
original event, unless it was taken back (`replayCanonicalEventHistory`,
`activeCanonicalEventsAsOf`).

The events are taken in the order of their times, and of their identities where these are the same
(`orderedUniqueEvents`). A pass over them checks that every correction comes after what it corrects
(`validateCompleteChain`), and another one collects the active ones (`materialize`). Both passes
keep the events that nothing has superseded (`activeOf`).
-/

namespace TradingAgent.CanonicalEvent

open Supersession

inductive CanonicalEventHistoryError
  | notReplayed
  deriving DecidableEq, Repr

def CanonicalEventHistoryError.message : CanonicalEventHistoryError → String
  | notReplayed => "canonical event history could not be replayed"

structure CanonicalEventHistoryReplay where
  asOf : DateTime
  datasetIds : List String
  observedEventCount : ℕ
  activeEvents : List CanonicalEventEnvelope
  supersededEventIds : List String
  tombstonedRootEventIds : List String
  deriving DecidableEq, Repr

/-! ## The order of the events -/

/-- What events are sorted by. -/
def CanonicalEventEnvelope.sortKey (event : CanonicalEventEnvelope) : Instant ×ₗ Instant ×ₗ String :=
  toLex (event.normalizedAt, toLex (event.receivedAt, event.eventId))

/-- The dictionary of the events by their identities, of which another event is added. -/
def insertById (byId : List CanonicalEventEnvelope) (event : CanonicalEventEnvelope) :
    Option (List CanonicalEventEnvelope) :=
  match byId.find? (·.eventId = event.eventId) with
  | none => some (byId ++ [event])
  | some existing => if existing ≠ event then none else some byId

def orderedUniqueEvents (events : List CanonicalEventEnvelope) :
    Option (List CanonicalEventEnvelope) := do
  let byId ← events.foldlM insertById []
  return byId.insertionSort fun a b => a.sortKey ≤ b.sortKey

/-! ## The two passes -/

def sameIdentity (target successor : CanonicalEventEnvelope) : Bool :=
  target.sourceId = successor.sourceId ∧ target.eventType = successor.eventType ∧
    target.providerEventId = successor.providerEventId ∧
    target.entityRefs = successor.entityRefs

structure ChainState where
  known : List CanonicalEventEnvelope := []
  active : List String := []

def validateStep (state : ChainState) (event : CanonicalEventEnvelope) : Option ChainState :=
  if event.operation = .original then
    some ⟨state.known ++ [event], state.active ++ [event.eventId]⟩
  else
    match state.known.find? (·.eventId = event.correctionOf.getD "") with
    | none => none
    | some target =>
      if target.eventId ∉ state.active ∨ ¬ sameIdentity target event then none
      else if event.receivedAt < target.receivedAt ∨ event.normalizedAt < target.normalizedAt then
        none
      else
        let active := state.active.filter (· ≠ target.eventId)
        some ⟨state.known ++ [event],
          if event.operation = .correction then active ++ [event.eventId] else active⟩

def validateCompleteChain (events : List CanonicalEventEnvelope) : Option ChainState :=
  events.foldlM validateStep {}

structure Materialized where
  active : List CanonicalEventEnvelope := []
  /-- The original event of each event, by its identity. -/
  roots : List (String × String) := []
  superseded : List String := []
  tombstonedRoots : List String := []

def materializeStep (state : Materialized) (event : CanonicalEventEnvelope) : Option Materialized :=
  if event.operation = .original then
    some { state with
      active := state.active ++ [event]
      roots := state.roots ++ [(event.eventId, event.eventId)] }
  else
    match event.correctionOf with
    | none => none
    | some target =>
      if target ∉ state.active.map (·.eventId) then none
      else
        (state.roots.lookup target).bind fun root =>
          let active := state.active.filter (·.eventId ≠ target)
          let roots := state.roots ++ [(event.eventId, root)]
          let superseded := state.superseded ++ [target]
          if event.operation = .correction then
            some ⟨active ++ [event], roots, superseded, state.tombstonedRoots⟩
          else some ⟨active, roots, superseded, state.tombstonedRoots ++ [root]⟩

/-- The events that are visible at a time. -/
def visible (asOf : DateTime) (events : List CanonicalEventEnvelope) :
    List CanonicalEventEnvelope :=
  events.filter (·.normalizedAt ≤ asOf.instant)

def materialize (events : List CanonicalEventEnvelope) (datasetIds : List String)
    (asOf : DateTime) : Option CanonicalEventHistoryReplay := do
  let state ← (visible asOf events).foldlM materializeStep {}
  return {
    asOf
    datasetIds
    observedEventCount := (visible asOf events).length
    activeEvents := state.active.insertionSort fun a b => a.eventId ≤ b.eventId
    supersededEventIds := sortedSet state.superseded
    tombstonedRootEventIds := sortedSet state.tombstonedRoots }

/-! ## The history -/

def replayEvents (events : List CanonicalEventEnvelope) (datasetIds : List String)
    (asOf : DateTime) : Except CanonicalEventHistoryError CanonicalEventHistoryReplay :=
  let replay := do
    let ordered ← orderedUniqueEvents events
    let _ ← validateCompleteChain ordered
    materialize ordered datasetIds asOf
  match replay with
  | some replay => .ok replay
  | none => .error .notReplayed

/-- Replays the events of some datasets, each with its identity. -/
def replayCanonicalEventHistory (datasets : List (String × List CanonicalEventEnvelope))
    (asOf : DateTime) : Except CanonicalEventHistoryError CanonicalEventHistoryReplay :=
  if datasets = [] ∨ ¬ asOf.aware then .error .notReplayed
  else replayEvents (datasets.flatMap (·.2)) (sortedSet (datasets.map (·.1))) asOf

def activeCanonicalEventsAsOf (events : List CanonicalEventEnvelope) (asOf : DateTime) :
    Except CanonicalEventHistoryError (List CanonicalEventEnvelope) :=
  if ¬ events.all (·.validateEvent) ∨ events = [] ∨ ¬ asOf.aware then .error .notReplayed
  else (replayEvents events [] asOf).map (·.activeEvents)

end TradingAgent.CanonicalEvent
