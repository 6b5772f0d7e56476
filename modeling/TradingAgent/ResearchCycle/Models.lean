import TradingAgent.AutonomousTask.Models
import TradingAgent.Library.Time

/-!
# The records of the research cycles

What a research agent observes (`ResearchAgentEvidence`), the cycles that it starts for that
(`ResearchAgentCycle`), their results (`ResearchAgentResult`), and the work that is left open
(`ResearchAgentOpenWork`).

* Python compares aware times by their instants: two records are equal if they are once their times
  are shown in UTC (`inUtc`). Their JSON texts are the same only if the records are.
* The identities of the cycles are digests of a text that is made of the parts of a tuple.
-/

namespace TradingAgent.ResearchCycle

inductive ResearchAgentTriggerKind
  | newData
  | marketEvent
  | experimentResult
  | reviewerFeedback
  | scheduledWake
  | openWork
  deriving DecidableEq, Repr

def ResearchAgentTriggerKind.value : ResearchAgentTriggerKind → String
  | newData => "new_data"
  | marketEvent => "market_event"
  | experimentResult => "experiment_result"
  | reviewerFeedback => "reviewer_feedback"
  | scheduledWake => "scheduled_wake"
  | openWork => "open_work"

inductive ResearchAgentDecisionKind
  | investigateCandidate
  | proposeHypothesis
  | runLightExperiment
  | requestHeavyExperiment
  | publishContext
  | publishRecommendation
  | reviewOpenState
  | noAction
  deriving DecidableEq, Repr

inductive ResearchAgentWakeKind
  | newEvidence
  | scheduled
  | openWork
  | terminal
  deriving DecidableEq, Repr

inductive ResearchAgentCycleState
  | started
  | completed
  | failed
  | interrupted
  | blocked
  deriving DecidableEq, Repr

inductive ResearchAgentResultStatus
  | completed
  | failed
  | blocked
  | noAction
  deriving DecidableEq, Repr

inductive ResearchAgentOpenWorkState
  | open
  | terminal
  deriving DecidableEq, Repr

/-- A time on a clock that shows UTC. -/
def inUtc (t : DateTime) : DateTime := .utc t.instant

/-! ## Evidence -/

structure ResearchAgentEvidence where
  evidenceId : String
  agentFamilyId : AgentFamilyId
  triggerKind : ResearchAgentTriggerKind
  sourceKey : String
  evidenceRefs : List String
  observedAt : DateTime
  availableAt : DateTime
  payloadSha256 : String
  marketId : MarketId
  boundedPayloadJson : Option String := none
  payloadTruncated : Bool := false
  subjectRefs : List String := []
  deriving DecidableEq, Repr

def ResearchAgentEvidence.inUtc (evidence : ResearchAgentEvidence) : ResearchAgentEvidence :=
  { evidence with
    observedAt := ResearchCycle.inUtc evidence.observedAt
    availableAt := ResearchCycle.inUtc evidence.availableAt }

/-- Evidence, with its number in the table. -/
structure StoredResearchAgentEvidence where
  sequence : ℕ
  evidence : ResearchAgentEvidence
  deriving DecidableEq, Repr

/-! ## Cycles -/

structure ResearchAgentCycle where
  cycleId : String
  evidenceId : String
  actionRequestId : String
  agentFamilyId : AgentFamilyId
  marketId : MarketId
  evidenceSequence : ℕ
  cursorBefore : ℕ
  state : ResearchAgentCycleState
  startedAt : DateTime
  terminalAt : Option DateTime := none
  resultId : Option String := none
  deriving DecidableEq, Repr

/-- The states of a cycle that has no result. -/
def ResearchAgentCycleState.isOpen : ResearchAgentCycleState → Bool
  | started | interrupted => true
  | completed | failed | blocked => false

namespace ResearchAgentCycle

def inUtc (cycle : ResearchAgentCycle) : ResearchAgentCycle :=
  { cycle with
    startedAt := ResearchCycle.inUtc cycle.startedAt
    terminalAt := cycle.terminalAt.map ResearchCycle.inUtc }

/-- What is validated of a cycle, with the validator `require_cycle_time`. -/
def validate (cycle : ResearchAgentCycle) : Bool :=
  isHex64 cycle.cycleId ∧ isHex64 cycle.evidenceId ∧ isHex64 cycle.actionRequestId ∧
    1 ≤ cycle.evidenceSequence ∧ cycle.startedAt.aware ∧ cycle.terminalAt.all (·.aware) ∧
    cycle.resultId.all isHex64 ∧
    (cycle.state ≠ .started ↔ cycle.terminalAt.isSome) ∧
    ¬ (cycle.state.isOpen ↔ cycle.resultId.isSome) ∧
    cycle.terminalAt.all (cycle.startedAt ≤ ·)

/-- What a cycle keeps when it is restarted: the fields that `require_same_cycle_identity` reads. -/
def identity (cycle : ResearchAgentCycle) :
    String × String × String × AgentFamilyId × MarketId × ℕ × ℕ :=
  (cycle.cycleId, cycle.evidenceId, cycle.actionRequestId, cycle.agentFamilyId, cycle.marketId,
    cycle.evidenceSequence, cycle.cursorBefore)

end ResearchAgentCycle

/-- An entry of the log of a cycle. -/
structure ResearchAgentCycleEvent where
  state : ResearchAgentCycleState
  occurredAt : DateTime
  cycle : ResearchAgentCycle
  deriving DecidableEq, Repr

/-! ## Results and open work -/

structure ResearchAgentResult where
  resultId : String
  cycleId : String
  agentFamilyId : AgentFamilyId
  marketId : MarketId
  status : ResearchAgentResultStatus
  question : String
  summary : String
  reason : Option String
  continuation : Option String
  openWorkRef : Option String
  evidenceRefs : List String
  artifactRefs : List String
  occurredAt : DateTime
  nextWakeKind : ResearchAgentWakeKind
  nextWakeAt : Option DateTime
  decisionKind : Option ResearchAgentDecisionKind := none
  deriving DecidableEq, Repr

def cycleStateForResult : ResearchAgentResultStatus → ResearchAgentCycleState
  | .completed | .noAction => .completed
  | .failed => .failed
  | .blocked => .blocked

structure ResearchAgentOpenWork where
  workId : String
  cycleId : String
  agentFamilyId : AgentFamilyId
  state : ResearchAgentOpenWorkState
  evidenceRefs : List String
  nextWakeAt : Option DateTime
  updatedAt : DateTime
  sourceEvidenceId : Option String := none
  failureCount : ℕ := 0
  deriving DecidableEq, Repr

def ResearchAgentOpenWork.inUtc (work : ResearchAgentOpenWork) : ResearchAgentOpenWork :=
  { work with
    nextWakeAt := work.nextWakeAt.map ResearchCycle.inUtc
    updatedAt := ResearchCycle.inUtc work.updatedAt }

/-! ## Identities -/

variable (sha : Sha256)

def researchAgentCycleId (evidence : ResearchAgentEvidence) (cursorBefore : ℕ) : String :=
  sha.hexdigest [.str evidence.agentFamilyId.value, .str evidence.triggerKind.value,
    .str evidence.evidenceId, .int cursorBefore, .str "cycle-v1"]

def researchAgentSupervisorCycleId (evidence : ResearchAgentEvidence) (checkpointRef : String) :
    String :=
  sha.hexdigest [.str evidence.agentFamilyId.value, .str evidence.triggerKind.value,
    .str evidence.evidenceId, .str checkpointRef, .str "supervisor-cycle-v1"]

def researchAgentActionId (cycleId : String) : String :=
  sha.hexdigest [.str cycleId, .str "action-v1"]

def researchAgentResultId (cycleId : String) : String :=
  sha.hexdigest [.str cycleId, .str "result-v1"]

end TradingAgent.ResearchCycle
