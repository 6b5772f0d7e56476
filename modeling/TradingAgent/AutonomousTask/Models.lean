import Mathlib.Data.String.Basic
import TradingAgent.Library.Except
import TradingAgent.Library.Fold
import TradingAgent.Library.SortedSet
import TradingAgent.Library.Text

/-!
# Autonomous tasks and their steps

The records of the tasks of the autonomous agents, and of the steps that are taken in them, with
what each record validates about itself (`validateTask`, `validateStep`).

* The identity of a task is the digest of its authority, and that of a step the digest of its JSON
  text, for which the step stands. The digests, and what `json.loads` and `json.dumps` make of a
  text, are those of a `TaskContext`.
* A record that is accepted has its times in UTC. Of the constraints on single fields it is only
  said that one is not met; the reasons are those of the validators.
-/

namespace TradingAgent

inductive AutonomousAgentRole
  | supervisor
  | marketObserver
  | opportunity
  | trading
  | position
  | research
  | critic
  | loopEngineer
  deriving DecidableEq, Repr

inductive AutonomousTaskState
  | queued
  | observing
  | researching
  | deliberating
  | acting
  | waitingEvent
  | waitingTime
  | blocked
  | evaluating
  | learning
  | completed
  | abandoned
  deriving DecidableEq, Repr

inductive AgentFamilyId
  | opportunityManager
  | dayTrading
  | swingTrading
  | systematicQuant
  | derivativesResearch
  | marketContext
  deriving DecidableEq, Repr

def AgentFamilyId.value : AgentFamilyId → String
  | opportunityManager => "opportunity_manager"
  | dayTrading => "day_trading"
  | swingTrading => "swing_trading"
  | systematicQuant => "systematic_quant"
  | derivativesResearch => "derivatives_research"
  | marketContext => "market_context"

inductive MarketId
  | usEquities
  | krEquities
  | crossMarket
  | none
  deriving DecidableEq, Repr

def MarketId.value : MarketId → String
  | usEquities => "us_equities"
  | krEquities => "kr_equities"
  | crossMarket => "cross_market"
  | none => "none"

structure AutonomousRunBudget where
  remainingModelCalls : ℤ
  remainingToolCalls : ℤ
  remainingRuntimeSeconds : ℤ
  deriving DecidableEq, Repr

structure AutonomousResearchTask where
  taskId : String
  goal : String
  ownerRole : AutonomousAgentRole
  agentFamilyId : AgentFamilyId
  marketScope : MarketId
  state : AutonomousTaskState
  priority : ℤ
  rootSourceEvidenceId : String
  sourceEvidenceIds : List String
  evidenceRefs : List String
  subjectRefs : List String := []
  workingMemoryIds : List String := []
  currentPlan : List String
  completedActions : List String := []
  pendingActions : List String := []
  nextWakeAt : Option DateTime := none
  nextWakeEvent : Option String := none
  blockedReason : Option String := none
  retryCount : ℤ := 0
  agentVersion : String
  createdAt : DateTime
  updatedAt : DateTime
  terminalReason : Option String := none
  deriving DecidableEq, Repr

/-- A step of a task. Its identity `step_id` is not a field here: it always is the digest of the
    other ones. -/
structure AutonomousTaskStep where
  taskId : String
  sequence : ℤ
  role : AutonomousAgentRole
  agentFamilyId : AgentFamilyId
  marketScope : MarketId
  rootSourceEvidenceId : String
  agentVersion : String
  state : AutonomousTaskState
  payloadJson : String := "\x7b\x7d"
  sourceEvidenceIds : List String
  evidenceRefs : List String
  workingMemoryIds : List String := []
  budget : AutonomousRunBudget
  occurredAt : DateTime
  nextWakeAt : Option DateTime := none
  nextWakeEvent : Option String := none
  blockedReason : Option String := none
  terminalReason : Option String := none
  deriving DecidableEq, Repr

/-- What the records take from the libraries of the language. -/
structure TaskContext where
  /-- The digest of a text. -/
  sha256 : String → String
  /-- The digest of the JSON text of a step. -/
  stepSha256 : AutonomousTaskStep → String
  /-- The canonical JSON text of what a JSON text says, if it can be read and written. -/
  canonicalJson : String → Option String

inductive TaskError
  /-- A record is not accepted: by a validator with a reason, or for a constraint on a field. -/
  | validation (reason : Option String)
  | invalidField (reason : String)
  | conflict (reason : String)
  | invalidStore (reason : String)
  deriving DecidableEq, Repr

def autonomousTaskId (ctx : TaskContext) (family : AgentFamilyId) (market : MarketId)
    (root : String) : String :=
  ctx.sha256 (family.value ++ ":" ++ market.value ++ ":" ++ root ++ ":autonomous-task-v1")

def autonomousStepId (ctx : TaskContext) (step : AutonomousTaskStep) : String := ctx.stepSha256 step

def TERMINAL_STATES : List AutonomousTaskState := [.completed, .abandoned]

/-! ## Validation -/

/-- Whether the length of a text or of a tuple is in its bounds. -/
def isSized (low high length : ℕ) : Bool := low ≤ length ∧ length ≤ high

/-- Whether a reason, an event or a version is of the length that is allowed for it. -/
def isShortText (s : String) : Bool := isSized 1 160 s.length

/-- Whether a tuple of identities of evidence is of these, and of its length. -/
def isEvidenceIds (ids : List String) : Bool := ids.all isHex64 ∧ isSized 1 128 ids.length

/-- The tests of `_require_sorted_unique` for a value, negated. -/
def notSortedUnique (values : List String) : Bool :=
  values ≠ sortedSet values ∨ values.any (· = "")

/-- The test of `_require_wake`, negated: there is not one wake, or it is not in the future. -/
def noFutureWake (reference : DateTime) (wakeAt : Option DateTime) (wakeEvent : Option String) :
    Bool :=
  wakeAt.isNone = wakeEvent.isNone ∨ wakeAt.any (· ≤ reference)

/-- The same time, in UTC. -/
def normalizeTime (t : DateTime) : DateTime := .utc t.instant

/-- The first of the checks that fails raises its reason. -/
def requireAll (checks : List (Bool × String)) : Except TaskError Unit :=
  match firstReason checks with
  | [] => .ok ()
  | reason :: _ => .error (.validation (some reason))

/-- Whether an action is to do nothing: `action.lower().replace("-", "_")` is one of these. Only
    ASCII letters become letters of these in lower case. -/
def isNoAction (action : String) : Bool :=
  String.ofList (action.toList.map fun c => if c = '-' then '_' else c.toLower)
    ∈ ["no_action", "no_trade"]

namespace AutonomousResearchTask

variable (ctx : TaskContext) (task : AutonomousResearchTask)

/-- The constraints on the fields. -/
def fieldsAreValid : Bool :=
  isHex64 task.taskId
    ∧ isSized 8 2000 task.goal.length
    ∧ 0 ≤ task.priority ∧ task.priority ≤ 100
    ∧ isHex64 task.rootSourceEvidenceId
    ∧ isEvidenceIds task.sourceEvidenceIds
    ∧ isSized 1 128 task.evidenceRefs.length
    ∧ isSized 0 32 task.subjectRefs.length
    ∧ isSized 0 128 task.workingMemoryIds.length
    ∧ isSized 1 32 task.currentPlan.length
    ∧ isSized 0 128 task.completedActions.length
    ∧ isSized 0 128 task.pendingActions.length
    ∧ task.nextWakeAt.all (·.aware)
    ∧ task.nextWakeEvent.all isShortText
    ∧ task.blockedReason.all isShortText
    ∧ 0 ≤ task.retryCount
    ∧ isShortText task.agentVersion
    ∧ task.createdAt.aware
    ∧ task.updatedAt.aware
    ∧ task.terminalReason.all isShortText

def normalizeTimes : AutonomousResearchTask :=
  { task with
    createdAt := normalizeTime task.createdAt
    updatedAt := normalizeTime task.updatedAt
    nextWakeAt := task.nextWakeAt.map normalizeTime }

/-- The checks of `_require_state_invariants`. -/
def stateChecks : List (Bool × String) :=
  (task.state ≠ .blocked ∧ task.blockedReason.isSome, "blocked_reason_invalid") ::
    match task.state with
    | .waitingEvent =>
      [(task.nextWakeAt.isSome ∨ task.nextWakeEvent.isNone ∨ task.terminalReason.isSome,
        "waiting_event_fields_invalid")]
    | .waitingTime =>
      [(task.terminalReason.isSome, "waiting_time_terminal_reason_invalid"),
        (noFutureWake task.updatedAt task.nextWakeAt task.nextWakeEvent,
          "future_wake_selector_required")]
    | .blocked =>
      [(task.terminalReason.isSome ∨ task.blockedReason.isNone, "blocked_fields_invalid"),
        (noFutureWake task.updatedAt task.nextWakeAt task.nextWakeEvent,
          "future_wake_selector_required")]
    | .completed | .abandoned =>
      [(task.nextWakeAt.isSome ∨ task.nextWakeEvent.isSome ∨ task.terminalReason.isNone
          ∨ (task.completedActions ++ task.pendingActions).any isNoAction,
        "terminal_fields_invalid")]
    | .queued | .observing | .researching | .deliberating | .acting | .evaluating | .learning =>
      [(task.nextWakeAt.isSome ∨ task.nextWakeEvent.isSome ∨ task.terminalReason.isSome
          ∨ task.blockedReason.isSome,
        "active_fields_invalid")]

/-- The checks of `require_invariants`. -/
def checks : List (Bool × String) :=
  ([(task.taskId
      ≠ autonomousTaskId ctx task.agentFamilyId task.marketScope task.rootSourceEvidenceId,
      "task_id_identity_mismatch"),
    (notSortedUnique task.sourceEvidenceIds, "sorted_unique_source_evidence_ids_required"),
    (notSortedUnique task.evidenceRefs, "sorted_unique_evidence_refs_required"),
    (notSortedUnique task.subjectRefs, "sorted_unique_subject_refs_required"),
    (notSortedUnique task.workingMemoryIds, "sorted_unique_working_memory_ids_required"),
    (notSortedUnique task.currentPlan, "sorted_unique_current_plan_required"),
    (notSortedUnique task.completedActions, "sorted_unique_completed_actions_required"),
    (notSortedUnique task.pendingActions, "sorted_unique_pending_actions_required"),
    (task.rootSourceEvidenceId ∉ task.sourceEvidenceIds, "root_source_evidence_required"),
    (task.updatedAt < task.createdAt, "task_time_order_invalid")] : List (Bool × String))
    ++ task.stateChecks

end AutonomousResearchTask

/-- `AutonomousResearchTask.model_validate`. -/
def validateTask (ctx : TaskContext) (fields : AutonomousResearchTask) :
    Except TaskError AutonomousResearchTask := do
  Except.raiseIf (¬ fields.fieldsAreValid) (.validation none)
  let task := fields.normalizeTimes
  requireAll (task.checks ctx)
  pure task

namespace AutonomousTaskStep

variable (ctx : TaskContext) (step : AutonomousTaskStep)

/-- The constraints on the fields. -/
def fieldsAreValid : Bool :=
  isHex64 step.taskId
    ∧ 1 ≤ step.sequence
    ∧ isHex64 step.rootSourceEvidenceId
    ∧ isShortText step.agentVersion
    ∧ isSized 2 16384 step.payloadJson.length
    ∧ isEvidenceIds step.sourceEvidenceIds
    ∧ isSized 1 128 step.evidenceRefs.length
    ∧ isSized 0 128 step.workingMemoryIds.length
    ∧ 0 ≤ step.budget.remainingModelCalls ∧ step.budget.remainingModelCalls ≤ 12
    ∧ 0 ≤ step.budget.remainingToolCalls ∧ step.budget.remainingToolCalls ≤ 24
    ∧ 0 ≤ step.budget.remainingRuntimeSeconds ∧ step.budget.remainingRuntimeSeconds ≤ 300
    ∧ step.occurredAt.aware
    ∧ step.nextWakeAt.all (·.aware)
    ∧ step.nextWakeEvent.all isShortText
    ∧ step.blockedReason.all isShortText
    ∧ step.terminalReason.all isShortText

def normalizeTimes : AutonomousTaskStep :=
  { step with
    occurredAt := normalizeTime step.occurredAt
    nextWakeAt := step.nextWakeAt.map normalizeTime }

/-- The checks of the fields that go with a state. -/
def stateChecks : List (Bool × String) :=
  match step.state with
  | .blocked =>
    [(step.blockedReason.isNone, "blocked_step_reason_required"),
      (noFutureWake step.occurredAt step.nextWakeAt step.nextWakeEvent,
        "future_wake_selector_required")]
  | .waitingTime =>
    [(noFutureWake step.occurredAt step.nextWakeAt step.nextWakeEvent,
      "future_wake_selector_required")]
  | .waitingEvent =>
    [(step.nextWakeAt.isSome ∨ step.nextWakeEvent.isNone, "waiting_event_wake_invalid")]
  | .completed | .abandoned =>
    [(step.nextWakeAt.isSome ∨ step.nextWakeEvent.isSome ∨ step.terminalReason.isNone,
      "terminal_step_fields_invalid")]
  | .queued | .observing | .researching | .deliberating | .acting | .evaluating | .learning =>
    [(step.nextWakeAt.isSome ∨ step.nextWakeEvent.isSome ∨ step.terminalReason.isSome,
      "active_step_terminal_fields_invalid")]

/-- The checks of `require_invariants_and_identity`. -/
def checks : List (Bool × String) :=
  ([(step.taskId
      ≠ autonomousTaskId ctx step.agentFamilyId step.marketScope step.rootSourceEvidenceId,
      "step_task_identity_mismatch"),
    (step.rootSourceEvidenceId ∉ step.sourceEvidenceIds, "step_root_source_evidence_required"),
    (notSortedUnique step.sourceEvidenceIds, "sorted_unique_source_evidence_ids_required"),
    (notSortedUnique step.evidenceRefs, "sorted_unique_evidence_refs_required"),
    (notSortedUnique step.workingMemoryIds, "sorted_unique_working_memory_ids_required"),
    (ctx.canonicalJson step.payloadJson = none, "step_payload_json_invalid"),
    (ctx.canonicalJson step.payloadJson ≠ some step.payloadJson,
      "step_payload_json_not_canonical"),
    (step.state ∉ TERMINAL_STATES ∧ step.terminalReason.isSome,
      "nonterminal_step_terminal_reason_invalid"),
    (step.state ≠ .blocked ∧ step.blockedReason.isSome, "blocked_step_reason_invalid")] :
      List (Bool × String))
    ++ step.stateChecks

end AutonomousTaskStep

/-- `AutonomousTaskStep.model_validate`. -/
def validateStep (ctx : TaskContext) (fields : AutonomousTaskStep) :
    Except TaskError AutonomousTaskStep := do
  Except.raiseIf (¬ fields.fieldsAreValid) (.validation none)
  let step := fields.normalizeTimes
  requireAll (step.checks ctx)
  pure step

def validateAutonomousStepProjection (task : AutonomousResearchTask) (step : AutonomousTaskStep) :
    Except TaskError Unit :=
  Except.raiseIf
    (step.taskId ≠ task.taskId
      ∨ step.agentFamilyId ≠ task.agentFamilyId
      ∨ step.marketScope ≠ task.marketScope
      ∨ step.rootSourceEvidenceId ≠ task.rootSourceEvidenceId
      ∨ step.agentVersion ≠ task.agentVersion)
    (.invalidField "step_projection_authority_mismatch")

section

variable {ctx : TaskContext}

theorem requireAll_eq_ok {checks : List (Bool × String)} {u : Unit} :
    requireAll checks = .ok u ↔ ∀ check ∈ checks, check.1 = false := by
  rw [← firstReason_eq_nil, requireAll]
  cases firstReason checks <;> simp

@[simp] theorem normalizeTime_normalizeTime (t : DateTime) :
    normalizeTime (normalizeTime t) = normalizeTime t := by
  rw [normalizeTime, normalizeTime, DateTime.instant_utc]

theorem validateTask_eq_ok {fields task : AutonomousResearchTask} :
    validateTask ctx fields = .ok task ↔ fields.fieldsAreValid = true
      ∧ (∀ check ∈ fields.normalizeTimes.checks ctx, check.1 = false)
      ∧ fields.normalizeTimes = task := by
  simp only [validateTask, Except.bind_eq_ok, Except.raiseIf_eq_ok, requireAll_eq_ok,
    Except.pure_eq_ok, exists_const, not_not]

theorem validateStep_eq_ok {fields step : AutonomousTaskStep} :
    validateStep ctx fields = .ok step ↔ fields.fieldsAreValid = true
      ∧ (∀ check ∈ fields.normalizeTimes.checks ctx, check.1 = false)
      ∧ fields.normalizeTimes = step := by
  simp only [validateStep, Except.bind_eq_ok, Except.raiseIf_eq_ok, requireAll_eq_ok,
    Except.pure_eq_ok, exists_const, not_not]

end

/-- A task as its record accepts it. -/
def AutonomousResearchTask.IsValid (ctx : TaskContext) (task : AutonomousResearchTask) : Prop :=
  validateTask ctx task = .ok task

/-- A step as its record accepts it. -/
def AutonomousTaskStep.IsValid (ctx : TaskContext) (step : AutonomousTaskStep) : Prop :=
  validateStep ctx step = .ok step

end TradingAgent
