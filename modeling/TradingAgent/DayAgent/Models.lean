import TradingAgent.AutonomousTask.Models

/-!
# Tasks and tools of the day agent

The records of the research tasks of the day agent, of the steps that are taken in them, and of what
passes between the agent, the model and the tools, with what each record validates about itself.

* The texts that records are written as stand for the records: `StepPayload` is what the text
  `payload_json` of a step says. Its length is that of a `DayAgentContext`, as are the digests.
* The identity of a step is the digest of the other fields, and no field here.
* A record has its times in UTC.
-/

namespace TradingAgent.DayAgent

inductive DayAgentTaskState
  | «open»
  | waiting
  | completed
  | blocked
  deriving DecidableEq, Repr

def DayAgentTaskState.isTerminal (state : DayAgentTaskState) : Bool :=
  state = .completed ∨ state = .blocked

inductive DayAgentAction
  | inspectSituation
  | readCatalysts
  | compareLeaders
  | searchPastCases
  | runLightExperiment
  | askCritic
  | submitTradeThesis
  | submitResearchHypothesis
  | defer
  deriving DecidableEq, Repr

def DayAgentAction.value : DayAgentAction → String
  | inspectSituation => "inspect_situation"
  | readCatalysts => "read_catalysts"
  | compareLeaders => "compare_leaders"
  | searchPastCases => "search_past_cases"
  | runLightExperiment => "run_light_experiment"
  | askCritic => "ask_critic"
  | submitTradeThesis => "submit_trade_thesis"
  | submitResearchHypothesis => "submit_research_hypothesis"
  | defer => "defer"

def TOOL_ACTIONS : List DayAgentAction :=
  [.inspectSituation, .readCatalysts, .compareLeaders, .searchPastCases, .runLightExperiment,
    .askCritic]

inductive DayAgentTaskRecordKind
  | decision
  | observation
  deriving DecidableEq, Repr

/-- The roles of a reasoning client. -/
inductive DayAgentRole
  | reasoning
  | coding
  deriving DecidableEq, Repr

structure DayAgentBudget where
  remainingModelCalls : ℤ
  remainingToolCalls : ℤ
  remainingRuntimeSeconds : ℤ
  deriving DecidableEq, Repr

def DayAgentBudget.isValid (budget : DayAgentBudget) : Bool :=
  0 ≤ budget.remainingModelCalls ∧ budget.remainingModelCalls ≤ 12
    ∧ 0 ≤ budget.remainingToolCalls ∧ budget.remainingToolCalls ≤ 24
    ∧ 0 ≤ budget.remainingRuntimeSeconds ∧ budget.remainingRuntimeSeconds ≤ 300

/-! ## Responses of the model -/

/-- A call of a tool. The arguments are those of a dictionary, in the order of their names. -/
structure DayAgentToolCall where
  action : DayAgentAction
  arguments : List (String × String)
  reason : String
  deriving DecidableEq, Repr

structure DayAgentThesisSubmission where
  thesis : String
  evidenceRefs : List String
  reason : String
  deriving DecidableEq, Repr

structure DayAgentHypothesisSubmission where
  hypothesis : String
  mechanism : String
  baseline : String
  falsificationConditions : List String
  evidenceRefs : List String
  freeParameters : List String := []
  dataRequests : List String := []
  experimentCode : Option String := none
  reason : String
  deriving DecidableEq, Repr

structure DayAgentDefer where
  reason : String
  resumeCondition : String
  scheduledWakeAt : Instant
  deriving DecidableEq, Repr

inductive DayAgentReasoningResponse
  | toolCall (call : DayAgentToolCall)
  | thesisSubmission (submission : DayAgentThesisSubmission)
  | hypothesisSubmission (submission : DayAgentHypothesisSubmission)
  | defer (deferral : DayAgentDefer)
  deriving DecidableEq, Repr

namespace DayAgentReasoningResponse

def action : DayAgentReasoningResponse → DayAgentAction
  | toolCall call => call.action
  | thesisSubmission _ => .submitTradeThesis
  | hypothesisSubmission _ => .submitResearchHypothesis
  | defer _ => .defer

def reason : DayAgentReasoningResponse → String
  | toolCall call => call.reason
  | thesisSubmission submission => submission.reason
  | hypothesisSubmission submission => submission.reason
  | defer deferral => deferral.reason

/-- The tests of `_require_sorted_unique`, negated. -/
def isSortedUnique (values : List String) : Bool := !notSortedUnique values

/-- `TypeAdapter(DayAgentReasoningResponse)` accepts the response. -/
def isValid : DayAgentReasoningResponse → Bool
  | toolCall call =>
    call.action ∈ TOOL_ACTIONS ∧ isSized 8 500 call.reason.length
      ∧ call.arguments.length ≤ 8
      ∧ call.arguments.all fun (key, value) =>
          isSized 1 64 key.length ∧ isSized 1 500 value.length
  | thesisSubmission submission =>
    isSized 8 4000 submission.thesis.length ∧ isSized 1 64 submission.evidenceRefs.length
      ∧ isSized 8 500 submission.reason.length ∧ isSortedUnique submission.evidenceRefs
  | hypothesisSubmission submission =>
    isSized 8 4000 submission.hypothesis.length ∧ isSized 8 2000 submission.mechanism.length
      ∧ isSized 8 2000 submission.baseline.length
      ∧ isSized 1 32 submission.falsificationConditions.length
      ∧ isSized 1 64 submission.evidenceRefs.length
      ∧ submission.freeParameters.length ≤ 4 ∧ submission.dataRequests.length ≤ 32
      ∧ submission.experimentCode.all (fun code => isSized 8 8000 code.length)
      ∧ isSized 8 500 submission.reason.length
      ∧ isSortedUnique submission.falsificationConditions
      ∧ isSortedUnique submission.evidenceRefs
      ∧ isSortedUnique submission.freeParameters
      ∧ isSortedUnique submission.dataRequests
  | defer deferral =>
    isSized 8 500 deferral.reason.length ∧ isSized 8 2000 deferral.resumeCondition.length

end DayAgentReasoningResponse

/-- What a tool observed: `boundedJson` is the text that it returned, in its canonical form. -/
structure DayAgentToolObservation where
  action : DayAgentAction
  boundedJson : String
  evidenceRefs : List String
  observedAt : Instant
  contentSha256 : String
  deriving DecidableEq, Repr

/-! ## Tasks and steps -/

structure DayAgentResearchTask where
  taskId : String
  objective : String
  question : String
  currentHypothesis : Option String := none
  falsificationConditions : List String := []
  openQuestions : List String := []
  resumeCondition : Option String := none
  state : DayAgentTaskState
  evidenceRefs : List String := []
  budget : DayAgentBudget
  createdAt : Instant
  updatedAt : Instant
  scheduledWakeAt : Option Instant := none
  terminalReason : Option String := none
  deriving DecidableEq, Repr

/-- What the text `payload_json` of a step says. -/
inductive StepPayload
  | response (response : DayAgentReasoningResponse)
  | observation (observation : DayAgentToolObservation)
  | reason (reason : String)
  deriving DecidableEq, Repr

structure DayAgentTaskStep where
  taskId : String
  sequence : ℕ
  recordKind : DayAgentTaskRecordKind
  payload : StepPayload
  action : DayAgentAction
  reason : String
  evidenceRefs : List String
  budget : DayAgentBudget
  state : DayAgentTaskState
  occurredAt : Instant
  scheduledWakeAt : Option Instant := none
  terminalReason : Option String := none
  currentHypothesis : Option String := none
  falsificationConditions : Option (List String) := none
  openQuestions : Option (List String) := none
  resumeCondition : Option String := none
  deriving DecidableEq, Repr

/-- What the records take from the libraries of the language. -/
structure DayAgentContext where
  /-- The digest of a text. -/
  sha256 : String → String
  /-- The digest of the JSON text of a step. -/
  dayAgentStepId : DayAgentTaskStep → String
  /-- The number of bytes of the text of a payload. -/
  payloadBytes : StepPayload → ℕ
  /-- The canonical JSON text of what a JSON text says, if it can be read and written. -/
  canonicalJson : String → Option String
  /-- Whether a text is JSON, and has no number that JSON has not. -/
  isStrictJson : String → Bool

inductive DayAgentError
  /-- A record is not accepted: by a validator with a reason, or for a constraint on a field. -/
  | validation (reason : Option String)
  | conflict (reason : String)
  | invalidStore (reason : String)
  | runtime (reason : String)
  deriving DecidableEq, Repr

/-- The pattern `[A-Za-z0-9][A-Za-z0-9_.:-]{7,159}`. -/
def isTaskId (s : String) : Bool :=
  match s.toList with
  | [] => false
  | c :: cs => c.isAlphanum ∧ isSized 7 159 cs.length ∧
      cs.all fun c => c.isAlphanum || c = '_' || c = '.' || c = ':' || c = '-'

/-- The first of the checks that fails raises its reason. -/
def requireAll (checks : List (Bool × String)) : Except DayAgentError Unit :=
  match firstReason checks with
  | [] => .ok ()
  | reason :: _ => .error (.validation (some reason))

/-- The checks of `_require_state_invariants`, for a record of which `label` is the name. -/
def stateChecks (state : DayAgentTaskState) (budget : DayAgentBudget)
    (scheduledWakeAt : Option Instant) (terminalReason : Option String) (label : String) :
    List (Bool × String) :=
  match state with
  | .open =>
    [(scheduledWakeAt.isSome ∨ terminalReason.isSome,
        "open_" ++ label ++ "_terminal_fields_invalid"),
      (budget.remainingModelCalls = 0 ∨ budget.remainingToolCalls = 0
        ∨ budget.remainingRuntimeSeconds = 0, "active_task_budget_exhausted")]
  | .waiting =>
    [(scheduledWakeAt.isNone, "waiting_" ++ label ++ "_wake_required"),
      (terminalReason.isSome, "waiting_" ++ label ++ "_terminal_reason_invalid")]
  | .completed | .blocked =>
    [(scheduledWakeAt.isSome, "terminal_" ++ label ++ "_wake_invalid"),
      (terminalReason.isNone, "terminal_" ++ label ++ "_reason_required")]

namespace DayAgentResearchTask

variable (task : DayAgentResearchTask)

/-- The constraints on the fields. -/
def fieldsAreValid : Bool :=
  isTaskId task.taskId
    ∧ isSized 1 2000 task.objective.length
    ∧ isSized 1 2000 task.question.length
    ∧ task.currentHypothesis.all (·.length ≤ 4000)
    ∧ task.falsificationConditions.length ≤ 32
    ∧ task.openQuestions.length ≤ 32
    ∧ task.resumeCondition.all (·.length ≤ 2000)
    ∧ task.evidenceRefs.length ≤ 64
    ∧ task.budget.isValid
    ∧ task.terminalReason.all (·.length ≤ 160)

/-- The checks of `require_invariants`. -/
def checks : List (Bool × String) :=
  ([(notSortedUnique task.evidenceRefs, "sorted_unique_evidence_refs_required"),
    (notSortedUnique task.falsificationConditions,
      "sorted_unique_falsification_conditions_required"),
    (notSortedUnique task.openQuestions, "sorted_unique_open_questions_required"),
    (task.updatedAt < task.createdAt, "task_time_order_invalid")] : List (Bool × String))
    ++ stateChecks task.state task.budget task.scheduledWakeAt task.terminalReason "task"

end DayAgentResearchTask

/-- `DayAgentResearchTask.model_validate`. -/
def validateTask (task : DayAgentResearchTask) : Except DayAgentError DayAgentResearchTask := do
  Except.raiseIf (¬ task.fieldsAreValid) (.validation none)
  requireAll task.checks
  pure task

namespace DayAgentTaskStep

variable (ctx : DayAgentContext) (step : DayAgentTaskStep)

/-- The constraints on the fields. -/
def fieldsAreValid : Bool :=
  isTaskId step.taskId
    ∧ 1 ≤ step.sequence
    ∧ isSized 1 2000 step.reason.length
    ∧ step.evidenceRefs.length ≤ 64
    ∧ step.budget.isValid
    ∧ step.terminalReason.all (·.length ≤ 160)
    ∧ step.currentHypothesis.all (·.length ≤ 4000)
    ∧ step.falsificationConditions.all (·.length ≤ 32)
    ∧ step.openQuestions.all (·.length ≤ 32)
    ∧ step.resumeCondition.all (·.length ≤ 2000)

/-- The checks of `require_invariants_and_identity`. -/
def checks : List (Bool × String) :=
  ([(16384 < ctx.payloadBytes step.payload, "step_payload_json_too_large"),
    (notSortedUnique step.evidenceRefs, "sorted_unique_evidence_refs_required"),
    (step.falsificationConditions.any notSortedUnique,
      "sorted_unique_falsification_conditions_required"),
    (step.openQuestions.any notSortedUnique, "sorted_unique_open_questions_required")] :
      List (Bool × String))
    ++ stateChecks step.state step.budget step.scheduledWakeAt step.terminalReason "step"

end DayAgentTaskStep

/-- `DayAgentTaskStep.model_validate`. -/
def validateStep (ctx : DayAgentContext) (step : DayAgentTaskStep) :
    Except DayAgentError DayAgentTaskStep := do
  Except.raiseIf (¬ step.fieldsAreValid) (.validation none)
  requireAll (step.checks ctx)
  pure step

end TradingAgent.DayAgent
