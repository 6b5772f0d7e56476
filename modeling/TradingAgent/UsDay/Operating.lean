import TradingAgent.Library.Writing
import TradingAgent.UsDay.Admission

/-!
# The operation of the US day agent

The agent publishes the thesis of a signal that is admitted, keeps a recommendation of it on paper,
has the coordinator operate it, and projects the transitions that the result acknowledges onto the
changes of the thesis and the history of the recommendation (`operateUsDayAgent`).

* A store keeps the theses and their changes, another one the recommendations (`UsDayWorld`). Each
  write to them is committed on its own (`UsDayWrite`).
* The coordinator is a parameter: what it returns for a request.
-/

namespace TradingAgent.UsDay

open Except (raiseIf)
open Writing (read raise)
open ForwardTrial (isoformat)

/-! ## The operation of an order -/

inductive UsDayOperatingStatus
  | completed
  | blocked
  | incident
  deriving DecidableEq, Repr

inductive UsDayOperatingTransition
  | actionable
  | entryAcknowledged
  | protectiveOcoAcknowledged
  | flat
  | reconciled
  | hermesResultProjected
  deriving DecidableEq, Repr

def UsDayOperatingTransition.value : UsDayOperatingTransition → String
  | actionable => "actionable"
  | entryAcknowledged => "entry_acknowledged"
  | protectiveOcoAcknowledged => "protective_oco_acknowledged"
  | flat => "flat"
  | reconciled => "reconciled"
  | hermesResultProjected => "hermes_result_projected"

structure UsDayOperatingRequest where
  armRequestId : String
  sessionId : String
  strategyVersion : String
  orderAdmission : PaperOrderAdmissionRequest
  quoteObservedAt : DateTime
  evaluatedAt : DateTime
  actionablePayloadSha256 : String
  laneId : LaneId
  thesis : Option UsDayTradeThesis := none
  deriving DecidableEq, Repr

/-- What is checked of a request to the coordinator: `__post_init__`. -/
def UsDayOperatingRequest.isValid (env : UsDayEnvironment) (request : UsDayOperatingRequest) :
    Bool :=
  request.sessionId = "XNYS-" ++ isoformat (newYork env request.evaluatedAt).date ∧
    request.laneId = .intradayMomentum ∧ request.strategyVersion ≠ "" ∧
    isHex64 request.armRequestId ∧ isHex64 request.actionablePayloadSha256 ∧
    request.quoteObservedAt.aware ∧ request.evaluatedAt.aware

structure UsDayOperatingResult where
  status : UsDayOperatingStatus
  transitions : List UsDayOperatingTransition
  reasons : List String
  sessionId : String
  strategyVersion : String
  parentIntentId : String
  actionableDeliveryId : Option String
  outcomeDeliveryId : String
  deriving DecidableEq, Repr

abbrev UsDayCoordinator := UsDayOperatingRequest → UsDayOperatingResult

structure UsDayAgentOperatingRequest where
  admission : UsDaySignalAdmissionRequest
  armRequestId : String
  actionablePayloadSha256 : String
  deriving DecidableEq, Repr

/-! ## The stores -/

/-- The files of the theses and of their changes, in no order, and the paper account. -/
structure UsDayWorld where
  theses : List UsDayTradeThesis := []
  changes : List UsDayThesisChange := []
  paper : PaperStore := {}
  deriving DecidableEq, Repr

inductive UsDayWrite
  | publishThesis (thesis : UsDayTradeThesis)
  | publishChange (change : UsDayThesisChange)
  | paper (transaction : Transaction)
  deriving DecidableEq, Repr

namespace UsDayWorld

def write (env : UsDayEnvironment) (world : UsDayWorld) : UsDayWrite → UsDayWorld
  | .publishThesis thesis => { world with theses := world.theses ++ [thesis] }
  | .publishChange change => { world with changes := world.changes ++ [change] }
  | .paper transaction => { world with paper := world.paper.commit env.paper transaction }

/-- The thesis that is published under an identity. -/
def thesis (world : UsDayWorld) (thesisId : String) : Option UsDayTradeThesis :=
  world.theses.find? (·.thesisId = thesisId)

/-- The files of the changes of a thesis. -/
def changeFiles (world : UsDayWorld) (thesisId : String) : List UsDayThesisChange :=
  world.changes.filter (·.thesisId = thesisId)

/-- The changes of a thesis, in order: the method `changes` of the store. -/
def changesOf (world : UsDayWorld) (thesisId : String) :
    Except ThesisStoreError (List UsDayThesisChange) :=
  if world.changeFiles thesisId = [] then .ok []
  else
    match world.thesis thesisId with
    | none => .error .thesisMissing
    | some thesis => orderChanges thesis (world.changeFiles thesisId)

def recommendationsOf (world : UsDayWorld) (thesisId : String) : List Recommendation :=
  world.paper.recommendations.filter (·.recommendationId = thesisId)

/-- The history of a recommendation: the method `events` of the store. -/
def eventsOf (world : UsDayWorld) (thesisId : String) : List RecommendationEvent :=
  world.paper.events.filter (·.recommendationId = thesisId)

end UsDayWorld

/-- Work on the stores. -/
abbrev UsDayWriting (env : UsDayEnvironment) (α : Type) :=
  Writing (UsDayWorld.write env) UsDayOperatingError α

section

variable (env : UsDayEnvironment)

/-- Takes what a reader of the stores returns. -/
def fromStore {α : Type} (f : UsDayWorld → Except ThesisStoreError α) : UsDayWriting env α := do
  match ← read f with
  | .ok a => return a
  | .error e => raise (.thesisStore e)

def publishThesis (thesis : UsDayTradeThesis) : UsDayWriting env Bool := do
  match ← read (·.thesis thesis.thesisId) with
  | some existing => if existing ≠ thesis then raise (.thesisStore .conflict) else return false
  | none =>
    Writing.commit (.publishThesis thesis)
    return true

def publishChange (change : UsDayThesisChange) : UsDayWriting env Bool := do
  let some thesis ← read (·.thesis change.thesisId) | raise (.thesisStore .thesisMissing)
  let prior ← fromStore env (·.changesOf change.thesisId)
  match checkChange thesis prior change with
  | .error e => raise (.thesisStore e)
  | .ok false => return false
  | .ok true =>
    Writing.commit (.publishChange change)
    return true

/-- The method `save` of the paper store: two transactions. -/
def saveRecommendation (recommendation : Recommendation) : UsDayWriting env Unit := do
  match ← read (·.paper.saveTransactions recommendation) with
  | none => raise .other
  | some transactions => fun _ => (transactions.map .paper, .ok ())

/-- The recommendation that is kept of a thesis. -/
def recommendationOf (request : UsDaySignalAdmissionRequest) :
    Except UsDayOperatingError Recommendation :=
  let thesis := request.thesis
  match thesis.symbol, thesis.entryPrice, thesis.stopPrice, thesis.targets with
  | some symbol, some entry, some stop, first :: second :: _ =>
    .ok {
      recommendationId := thesis.thesisId
      symbol
      strategy := request.champion.strategyVersion
      createdAt := .utc thesis.observedAt
      entry := env.float entry
      stop := env.float stop
      target1r := env.float first.price
      target2r := env.float second.price
      state := .setup
      rationale := thesis.rationale }
  | some _, some _, some _, _ => .error .other
  | _, _, _, _ => .error (.operating "recommendation_thesis_required")

def ensureCompatibilityRecommendation (request : UsDaySignalAdmissionRequest) :
    UsDayWriting env Unit := do
  match recommendationOf env request with
  | .error e => raise e
  | .ok recommendation =>
    let existing ← read (·.recommendationsOf request.thesis.thesisId)
    if existing ≠ [] then
      if existing ≠ [recommendation] then
        raise (.operating "compatibility_recommendation_mismatch")
      else return ()
    else saveRecommendation env recommendation

end

/-! ## The projection -/

/-- The transitions that are projected. -/
def UsDayOperatingTransition.acknowledged : UsDayOperatingTransition → Bool
  | entryAcknowledged | protectiveOcoAcknowledged | flat | reconciled => true
  | actionable | hermesResultProjected => false

/-- The kind of the change that a transition is projected to. -/
def UsDayOperatingTransition.changeKind : UsDayOperatingTransition → ThesisChangeKind
  | reconciled => .close
  | _ => .hold

/-- The state that a transition is projected to. -/
def UsDayOperatingTransition.state : UsDayOperatingTransition → RecommendationState
  | flat | reconciled => .timeExit
  | _ => .active

section

variable (env : UsDayEnvironment)

/-- The change that a transition is projected to. -/
def changeOf (request : UsDaySignalAdmissionRequest) (parent : String)
    (transition : UsDayOperatingTransition) : UsDayThesisChange :=
  .create env.sha request.thesis.thesisId parent transition.changeKind request.evaluatedAt.instant
    transition.value

/-- The event that a transition is projected to. -/
def eventOf (request : UsDaySignalAdmissionRequest) (transition : UsDayOperatingTransition) :
    RecommendationEvent where
  recommendationId := request.thesis.thesisId
  occurredAt := request.evaluatedAt
  state := transition.state
  price := none
  note := transition.value

/-- The loop over the transitions, from the one of a number on, of which the change follows a
    parent. The events are those that were there before the loop. -/
def projectFrom (request : UsDaySignalAdmissionRequest) (existingEvents : List RecommendationEvent) :
    ℕ → String → List UsDayOperatingTransition → UsDayWriting env Unit
  | _, _, [] => pure ()
  | index, parent, transition :: transitions => do
    let change := changeOf env request parent transition
    let _ ← publishChange env change
    if existingEvents.length ≤ index + 1 then
      Writing.commit (.paper (.setState (eventOf request transition)))
      projectFrom request existingEvents (index + 1) change.eventId transitions
    else projectFrom request existingEvents (index + 1) change.eventId transitions

def projectAcknowledgedTransitions (result : UsDayOperatingResult)
    (request : UsDaySignalAdmissionRequest) : UsDayWriting env Unit := do
  let acknowledged := result.transitions.filter (·.acknowledged)
  let prior ← fromStore env (·.changesOf request.thesis.thesisId)
  if prior ≠ [] ∧ prior.map (·.note) ≠ acknowledged.map (·.value) then
    raise (.operating "thesis_lifecycle_replay_mismatch")
  else
    let existingEvents ← read (·.eventsOf request.thesis.thesisId)
    projectFrom env request existingEvents 0 request.thesis.thesisId acknowledged

/-- The request to the coordinator. -/
def operatingRequest (request : UsDayAgentOperatingRequest)
    (orderAdmission : PaperOrderAdmissionRequest) : UsDayOperatingRequest where
  armRequestId := request.armRequestId
  sessionId := request.admission.sessionId
  strategyVersion := request.admission.champion.strategyVersion
  orderAdmission := orderAdmission
  quoteObservedAt := request.admission.currentMarket.quote.observedAt
  evaluatedAt := request.admission.evaluatedAt
  actionablePayloadSha256 := request.actionablePayloadSha256
  laneId := request.admission.laneId
  thesis := some request.admission.thesis

/-- The operation by services that have the given results: fresh ones have none. -/
def operateUsDayAgent (coordinator : UsDayCoordinator) (results : String → Option UsDayOperatingResult)
    (request : UsDayAgentOperatingRequest) : UsDayWriting env UsDayOperatingResult := do
  match admitUsDaySignal env request.admission with
  | .error e => raise e
  | .ok orderAdmission =>
    match results request.admission.thesis.thesisId with
    | some replay => return replay
    | none =>
      let _ ← publishThesis env request.admission.thesis
      ensureCompatibilityRecommendation env request.admission
      if (operatingRequest request orderAdmission).isValid env = false then raise .invalidRequest
      else
        let result := coordinator (operatingRequest request orderAdmission)
        projectAcknowledgedTransitions env result request.admission
        return result

end

end TradingAgent.UsDay
