import TradingAgent.DayAgent.Store
import TradingAgent.Library.Transition

/-!
# The runtime of the day agent

An invocation of `run_day_agent_task` works on one task: it asks the model for the next step, writes
what the model decided, and then applies the decision, which may call a tool. It may be interrupted
anywhere, and is then started again.

* A `DayAgentPoint` is where an invocation is between two of its effects: a request to the model, a
  call of a tool, a step to be written. What the model, the tools and the clock say is that of the
  events (`DayAgentEvent`), which are those of one invocation after the other (`step`).
* An invocation that raises an error ends as one that crashes.
* What was sent to the model and to the tools is kept beside the store, as are the invocations that
  ended early (`interrupted`) and the results of the others.
-/

namespace TradingAgent.DayAgent

open Except Journal

/-! ## Tools -/

structure DayAgentToolBinding where
  action : DayAgentAction
  allowedArguments : List String
  evidenceRefs : List String
  deriving DecidableEq, Repr

/-- What the constructors of the runtime and of its tools check. -/
structure DayAgentRuntime where
  bindings : List DayAgentToolBinding
  maxSteps : ℕ
  bindings_nodup : (bindings.map (·.action)).Nodup
  one_le_maxSteps : 1 ≤ maxSteps
  maxSteps_le : maxSteps ≤ 12

def DayAgentRuntime.allowedToolNames (runtime : DayAgentRuntime) : List String :=
  (runtime.bindings.map (·.action.value)).insertionSort (· ≤ ·)

/-- The validators of `DayAgentToolObservation`. -/
def DayAgentToolObservation.isValid (ctx : DayAgentContext)
    (observation : DayAgentToolObservation) : Bool :=
  isSized 2 16384 observation.boundedJson.length
    ∧ isSized 1 64 observation.evidenceRefs.length
    ∧ isHex64 observation.contentSha256
    ∧ ctx.isStrictJson observation.boundedJson
    ∧ ctx.sha256 observation.boundedJson = observation.contentSha256
    ∧ !notSortedUnique observation.evidenceRefs
    ∧ observation.contentSha256 ∈ observation.evidenceRefs

/-- `DayAgentToolRuntime.dispatch`, where the tool returns the text `raw`, or fails. -/
def dispatch (ctx : DayAgentContext) (bindings : List DayAgentToolBinding) (call : DayAgentToolCall)
    (raw : Option String) (observedAt : Instant) : Except String DayAgentToolObservation :=
  match bindings.find? (·.action = call.action) with
  | none => .error "day_agent_tool_authority_denied"
  | some binding =>
    if call.arguments.any (·.1 ∉ binding.allowedArguments) then
      .error "day_agent_tool_authority_denied"
    else match raw with
    | none => .error "day_agent_tool_call_failed"
    | some text => match ctx.canonicalJson text with
      | none => .error "day_agent_tool_result_invalid"
      | some boundedJson =>
        if 16384 < boundedJson.utf8ByteSize then .error "day_agent_tool_result_too_large"
        else
          let digest := ctx.sha256 boundedJson
          let observation : DayAgentToolObservation :=
            { action := call.action
              boundedJson
              evidenceRefs := sortedSet (digest :: binding.evidenceRefs)
              observedAt
              contentSha256 := digest }
          if observation.isValid ctx then .ok observation
          else .error "day_agent_tool_result_invalid"

/-! ## Budgets -/

def elapsedSeconds (startedAt finishedAt : Instant) : ℤ :=
  max 0 (-((startedAt - finishedAt) / 1000000))

def consumeModel (budget : DayAgentBudget) (elapsed : ℤ) : DayAgentBudget :=
  { budget with
    remainingModelCalls := budget.remainingModelCalls - 1
    remainingRuntimeSeconds := max 0 (budget.remainingRuntimeSeconds - elapsed) }

def consumeTool (budget : DayAgentBudget) (elapsed : ℤ) : DayAgentBudget :=
  { budget with
    remainingToolCalls := budget.remainingToolCalls - 1
    remainingRuntimeSeconds := max 0 (budget.remainingRuntimeSeconds - elapsed) }

/-! ## Steps -/

def pendingDecision (steps : List DayAgentTaskStep) : Option DayAgentTaskStep :=
  steps.getLast?.filter (·.recordKind = .decision)

def parseDecision : StepPayload → Option DayAgentReasoningResponse
  | .response response => if response.isValid then some response else none
  | _ => none

/-- The last twelve observations. -/
def observations (steps : List DayAgentTaskStep) : List DayAgentToolObservation :=
  let all := steps.filterMap fun step =>
    match step.recordKind, step.payload with
    | .observation, .observation observation => some observation
    | _, _ => none
  all.drop (all.length - 12)

/-- The step of `_append_blocked`. -/
def blockedStep (task : DayAgentResearchTask) (steps : List DayAgentTaskStep) (reason : String)
    (budget : DayAgentBudget) (occurredAt : Instant) : DayAgentTaskStep :=
  { taskId := task.taskId
    sequence := steps.length + 1
    recordKind := .observation
    payload := .reason reason
    action := .defer
    reason
    evidenceRefs := task.evidenceRefs
    budget
    state := .blocked
    occurredAt
    terminalReason := some reason }

def decisionStep (task : DayAgentResearchTask) (steps : List DayAgentTaskStep)
    (response : DayAgentReasoningResponse) (budget : DayAgentBudget) (decidedAt : Instant) :
    DayAgentTaskStep :=
  { taskId := task.taskId
    sequence := steps.length + 1
    recordKind := .decision
    payload := .response response
    action := response.action
    reason := response.reason
    evidenceRefs := task.evidenceRefs
    budget
    state := .waiting
    occurredAt := decidedAt
    scheduledWakeAt := some (decidedAt + TimeDelta.seconds 1) }

def observationStep (task : DayAgentResearchTask) (steps : List DayAgentTaskStep)
    (call : DayAgentToolCall) (observation : DayAgentToolObservation) (budget : DayAgentBudget)
    (observedAt : Instant) : DayAgentTaskStep :=
  { taskId := task.taskId
    sequence := steps.length + 1
    recordKind := .observation
    payload := .observation observation
    action := call.action
    reason := "The allowlisted read-only tool returned a bounded observation."
    evidenceRefs := sortedSet (task.evidenceRefs ++ observation.evidenceRefs)
    budget
    state := .waiting
    occurredAt := observedAt
    scheduledWakeAt := some (observedAt + TimeDelta.seconds 1) }

def terminalStep (task : DayAgentResearchTask) (steps : List DayAgentTaskStep)
    (response : DayAgentReasoningResponse) (terminalReason : String) (evidenceRefs : List String)
    (currentHypothesis : String) (falsificationConditions : Option (List String))
    (occurredAt : Instant) : DayAgentTaskStep :=
  { taskId := task.taskId
    sequence := steps.length + 1
    recordKind := .observation
    payload := .response response
    action := response.action
    reason := response.reason
    evidenceRefs := sortedSet (task.evidenceRefs ++ evidenceRefs)
    budget := task.budget
    state := .completed
    occurredAt
    terminalReason := some terminalReason
    currentHypothesis := some currentHypothesis
    falsificationConditions }

def deferStep (task : DayAgentResearchTask) (steps : List DayAgentTaskStep)
    (deferral : DayAgentDefer) (occurredAt : Instant) : DayAgentTaskStep :=
  { taskId := task.taskId
    sequence := steps.length + 1
    recordKind := .observation
    payload := .response (.defer deferral)
    action := .defer
    reason := deferral.reason
    evidenceRefs := task.evidenceRefs
    budget := task.budget
    state := .waiting
    occurredAt
    scheduledWakeAt := some deferral.scheduledWakeAt
    resumeCondition := some deferral.resumeCondition }

/-! ## An invocation -/

/-- A request that its record accepts: there are at most 24 steps and at most 8 tools. -/
structure DayAgentReasoningRequest where
  task : DayAgentResearchTask
  priorSteps : List DayAgentTaskStep
  observations : List DayAgentToolObservation
  allowedToolNames : List String
  remainingBudget : DayAgentBudget
  deriving DecidableEq, Repr

def DayAgentReasoningRequest.isValid (request : DayAgentReasoningRequest) : Bool :=
  request.priorSteps.length ≤ 24 ∧ request.observations.length ≤ 12
    ∧ request.allowedToolNames.length ≤ 8 ∧ !notSortedUnique request.allowedToolNames

/-- What follows the writing of a step. -/
inductive DayAgentNext
  /-- The loop is left. -/
  | stop
  /-- The loop goes on. -/
  | again
  /-- The decision that was written after some steps is applied. -/
  | apply (steps : List DayAgentTaskStep) (response : DayAgentReasoningResponse)
      (role : DayAgentRole)
  deriving DecidableEq, Repr

/-- Where an invocation is. -/
inductive DayAgentPoint
  /-- At the top of the loop. -/
  | looping
  /-- The model was asked. -/
  | reasoning (request : DayAgentReasoningRequest) (role : DayAgentRole) (startedAt : Instant)
  /-- At the start of `_apply_response`. -/
  | applying (task : DayAgentResearchTask) (steps : List DayAgentTaskStep)
      (response : DayAgentReasoningResponse) (role : DayAgentRole)
  /-- A tool was called. -/
  | dispatching (task : DayAgentResearchTask) (steps : List DayAgentTaskStep)
      (call : DayAgentToolCall) (startedAt : Instant)
  /-- A step is to be written. -/
  | appending (step : DayAgentTaskStep) (next : DayAgentNext)
  deriving DecidableEq, Repr

structure DayAgentInvocation where
  runtime : DayAgentRuntime
  taskId : String
  processedSteps : ℕ := 0
  modelCalls : ℕ := 0
  point : DayAgentPoint := .looping

section Functions

variable (ctx : DayAgentContext) (db : DayAgentTaskDatabase)

def requireTask (taskId : String) : Except DayAgentError DayAgentResearchTask := do
  match ← db.readTask ctx taskId with
  | none => .error (.runtime "day_agent_task_missing")
  | some task => .ok task

/-- A step that is made is written next. -/
def appending (step : DayAgentTaskStep) (next : DayAgentNext) :
    Except DayAgentError DayAgentPoint :=
  (DayAgentPoint.appending · next) <$> validateStep ctx step

/-- The body of the loop, up to the first effect. The loop is left where there is none. -/
def iterate (runtime : DayAgentRuntime) (taskId : String) (processedSteps : ℕ)
    (role : Option DayAgentRole) (now : Instant) : Except DayAgentError (Option DayAgentPoint) :=
  if runtime.maxSteps ≤ processedSteps then .ok none
  else do
    let task ← requireTask ctx db taskId
    if task.state.isTerminal then .ok none
    else do
      let steps ← db.stepsForTask ctx taskId
      let blocked (reason : String) : Except DayAgentError (Option DayAgentPoint) :=
        some <$> appending ctx (blockedStep task steps reason task.budget now) .stop
      match role with
      | none => blocked "day_agent_role_invalid"
      | some role =>
        match pendingDecision steps with
        | some decision =>
          match parseDecision decision.payload with
          | none => blocked "day_agent_persisted_decision_invalid"
          | some response => .ok (some (.applying task steps response role))
        | none =>
          if task.budget.remainingModelCalls = 0 then blocked "day_agent_model_budget_exhausted"
          else if task.budget.remainingRuntimeSeconds = 0 then
            blocked "day_agent_runtime_budget_exhausted"
          else do
            let request : DayAgentReasoningRequest :=
              { task
                priorSteps := steps
                observations := observations steps
                allowedToolNames := runtime.allowedToolNames
                remainingBudget := task.budget }
            raiseIf (¬ request.isValid) (.validation none)
            .ok (some (.reasoning request role now))

/-- What is done with what the model said, where `none` is an error that it raised. The clock is
    read when the model is done, and again where the task is blocked. -/
def takeResponse (request : DayAgentReasoningRequest) (role : DayAgentRole) (startedAt : Instant)
    (response : Option DayAgentReasoningResponse) (now later : Instant) :
    Except DayAgentError DayAgentPoint :=
  let budget := consumeModel request.task.budget (elapsedSeconds startedAt now)
  let blocked (reason : String) : Except DayAgentError DayAgentPoint :=
    appending ctx (blockedStep request.task request.priorSteps reason budget later) .stop
  match response with
  | none => blocked "day_agent_model_call_failed"
  | some response =>
    if response.isValid = false then blocked "day_agent_model_response_invalid"
    else if budget.remainingRuntimeSeconds = 0 then blocked "day_agent_runtime_budget_exhausted"
    else
      appending ctx (decisionStep request.task request.priorSteps response budget now)
        (.apply request.priorSteps response role)

/-- `_apply_response`, up to the first effect. -/
def applyResponse (task : DayAgentResearchTask) (steps : List DayAgentTaskStep)
    (response : DayAgentReasoningResponse) (role : DayAgentRole) (now : Instant) :
    Except DayAgentError DayAgentPoint :=
  let blocked (reason : String) : Except DayAgentError DayAgentPoint :=
    appending ctx (blockedStep task steps reason task.budget now) .again
  match response with
  | .toolCall call =>
    if task.budget.remainingRuntimeSeconds = 0 then blocked "day_agent_runtime_budget_exhausted"
    else if task.budget.remainingToolCalls = 0 then blocked "day_agent_tool_budget_exhausted"
    else .ok (.dispatching task steps call now)
  | .thesisSubmission submission =>
    if role ≠ .reasoning then blocked "day_agent_role_authority_denied"
    else
      appending ctx (terminalStep task steps response "day_agent_trade_thesis_submitted"
        submission.evidenceRefs submission.thesis none now) .again
  | .hypothesisSubmission submission =>
    if submission.experimentCode.isSome ∧ role ≠ .coding then
      blocked "day_agent_role_authority_denied"
    else
      appending ctx (terminalStep task steps response "day_agent_research_hypothesis_submitted"
        submission.evidenceRefs submission.hypothesis (some submission.falsificationConditions) now)
        .again
  | .defer deferral => appending ctx (deferStep task steps deferral now) .again

/-- What is done with what a tool said. -/
def takeObservation (bindings : List DayAgentToolBinding) (task : DayAgentResearchTask)
    (steps : List DayAgentTaskStep) (call : DayAgentToolCall) (startedAt : Instant)
    (raw : Option String) (observedAt now later : Instant) : Except DayAgentError DayAgentPoint :=
  let budget := consumeTool task.budget (elapsedSeconds startedAt now)
  match dispatch ctx bindings call raw observedAt with
  | .error reason => appending ctx (blockedStep task steps reason budget later) .again
  | .ok observation =>
    appending ctx (observationStep task steps call observation budget now) .again

structure DayAgentTaskResult where
  task : DayAgentResearchTask
  steps : List DayAgentTaskStep
  observations : List DayAgentToolObservation
  modelCalls : ℕ
  deriving DecidableEq, Repr

def result (taskId : String) (modelCalls : ℕ) : Except DayAgentError DayAgentTaskResult := do
  let stored ← db.stepsForTask ctx taskId
  let task ← requireTask ctx db taskId
  .ok { task
        steps := stored.filter (·.recordKind = .decision)
        observations := observations stored
        modelCalls }

end Functions

/-! ## Runs -/

structure DayAgentSystem where
  store : DayAgentTaskDatabase := {}
  running : Option DayAgentInvocation := none
  /-- What the model was asked. -/
  requests : List DayAgentReasoningRequest := []
  /-- The calls of tools, each for a task. -/
  dispatches : List (String × DayAgentToolCall) := []
  /-- The tasks of the invocations that ended by an error or a crash. -/
  interrupted : List String := []
  results : List DayAgentTaskResult := []

inductive DayAgentEvent
  /-- An invocation starts. -/
  | run (runtime : DayAgentRuntime) (task : DayAgentResearchTask)
  /-- The body of the loop starts, with the role of the client if it has one. -/
  | iterate (role : Option DayAgentRole) (now : Instant)
  /-- The model answers, or raises an error. -/
  | answer (response : Option DayAgentReasoningResponse) (now later : Instant)
  /-- A decision is applied. -/
  | apply (now : Instant)
  /-- A tool returns, or fails. -/
  | observe (raw : Option String) (observedAt now later : Instant)
  /-- A step is written. -/
  | append
  /-- The process is lost. -/
  | crash

namespace DayAgentSystem

variable (ctx : DayAgentContext) (s : DayAgentSystem)

/-- The invocation ends by an error or a crash. -/
def interrupt (inv : DayAgentInvocation) : DayAgentSystem :=
  { s with running := none, interrupted := s.interrupted ++ [inv.taskId] }

/-- The invocation goes on from another point, with the effect of coming there. -/
def enter (inv : DayAgentInvocation) : Except DayAgentError DayAgentPoint → DayAgentSystem
  | .error _ => s.interrupt inv
  | .ok point =>
    { s with
      running := some { inv with point }
      requests := match point with
        | .reasoning request _ _ => s.requests ++ [request]
        | _ => s.requests
      dispatches := match point with
        | .dispatching _ _ call _ => s.dispatches ++ [(inv.taskId, call)]
        | _ => s.dispatches }

/-- The invocation returns. -/
def leave (inv : DayAgentInvocation) : DayAgentSystem :=
  match result ctx s.store inv.taskId inv.modelCalls with
  | .error _ => s.interrupt inv
  | .ok result => { s with running := none, results := s.results ++ [result] }

/-- An invocation starts: the task is created if there is none of its identity. -/
def start (runtime : DayAgentRuntime) (task : DayAgentResearchTask) : DayAgentSystem :=
  let inv : DayAgentInvocation := { runtime, taskId := task.taskId }
  match s.store.readTask ctx task.taskId with
  | .error _ => s.interrupt inv
  | .ok (some _) => { s with running := some inv }
  | .ok none =>
    match createTask task s.store with
    | .error _ => s.interrupt inv
    | .ok (_, store) => { s with store, running := some inv }

/-- A step is written, and the invocation goes on from there. -/
def write (inv : DayAgentInvocation) (step : DayAgentTaskStep) (next : DayAgentNext) :
    DayAgentSystem :=
  match appendStep ctx step s.store with
  | .error _ => s.interrupt inv
  | .ok (_, store) =>
    let s := { s with store }
    match next with
    | .stop => s.leave ctx inv
    | .again => s.enter { inv with processedSteps := inv.processedSteps + 1 } (.ok .looping)
    | .apply steps response role =>
      s.enter inv ((DayAgentPoint.applying · (steps ++ [step]) response role) <$>
        requireTask ctx store inv.taskId)

end DayAgentSystem

/-- What happens in an event, where it can. A record is validated when it is made. -/
def step (ctx : DayAgentContext) (s : DayAgentSystem) : DayAgentEvent → Option DayAgentSystem
  | .run runtime task =>
    if s.running.isNone ∧ task.IsValid then some (s.start ctx runtime task) else none
  | .iterate role now => do
    let inv ← s.running
    match inv.point with
    | .looping =>
      match iterate ctx s.store inv.runtime inv.taskId inv.processedSteps role now with
      | .ok none => some (s.leave ctx inv)
      | .ok (some point) => some (s.enter inv (.ok point))
      | .error e => some (s.enter inv (.error e))
    | _ => none
  | .answer response now later => do
    let inv ← s.running
    match inv.point with
    | .reasoning request role startedAt =>
      some (s.enter { inv with modelCalls := inv.modelCalls + 1 }
        (takeResponse ctx request role startedAt response now later))
    | _ => none
  | .apply now => do
    let inv ← s.running
    match inv.point with
    | .applying task steps response role =>
      some (s.enter inv (applyResponse ctx task steps response role now))
    | _ => none
  | .observe raw observedAt now later => do
    let inv ← s.running
    match inv.point with
    | .dispatching task steps call startedAt =>
      some (s.enter inv (takeObservation ctx inv.runtime.bindings task steps call startedAt raw
        observedAt now later))
    | _ => none
  | .append => do
    let inv ← s.running
    match inv.point with
    | .appending step next => some (s.write ctx inv step next)
    | _ => none
  | .crash => do
    let inv ← s.running
    some (s.interrupt inv)

def system (ctx : DayAgentContext) : Transition.System DayAgentSystem DayAgentEvent :=
  .ofStep {} (step ctx)

end TradingAgent.DayAgent
