import TradingAgent.DayAgent.Runtime

/-!
# What an invocation does next

An invocation knows the task and its steps from what it read (`Ready`), and moves from one point to
the next one (`Moves`). What it has called and not yet written is in flight (`inFlight`): a request
to the model and a call of a tool are, until a step is written that accounts for them.

* A step follows those before it (`Follows`): it decides what to do next where nothing is pending,
  settles the decision that is pending, or blocks the task.
-/

namespace TradingAgent.DayAgent

open Except Journal

variable {ctx : DayAgentContext} {db : DayAgentTaskDatabase} {task : DayAgentResearchTask}
  {steps : List DayAgentTaskStep} {step : DayAgentTaskStep} {point point' : DayAgentPoint}

/-- What is called within a budget. -/
inductive Resource
  | model
  | tool
  deriving DecidableEq, Repr

/-- The calls that are left. -/
def Resource.remaining (budget : DayAgentBudget) : Resource → ℤ
  | model => budget.remainingModelCalls
  | tool => budget.remainingToolCalls

/-- One call. -/
def Resource.once (r r' : Resource) : ℤ := if r' = r then 1 else 0

theorem Resource.once_le (r r' : Resource) : 0 ≤ r.once r' ∧ r.once r' ≤ 1 := by
  unfold once
  split_ifs <;> simp

theorem DayAgentBudget.nonneg {budget : DayAgentBudget} (h : budget.isValid = true) :
    (∀ r : Resource, 0 ≤ r.remaining budget) ∧ 0 ≤ budget.remainingRuntimeSeconds := by
  simp only [DayAgentBudget.isValid, decide_eq_true_eq] at h
  refine ⟨?_, h.2.2.2.2.1⟩
  rintro (_ | _)
  · exact h.1
  · exact h.2.2.1

theorem DayAgentResearchTask.IsValid.budget (h : task.IsValid) : task.budget.isValid = true := by
  obtain ⟨-, hfields, -⟩ := validateTask_eq_ok.1 h
  simp only [DayAgentResearchTask.fieldsAreValid, decide_eq_true_eq] at hfields
  exact hfields.2.2.2.2.2.2.2.2.1

theorem DayAgentResearchTask.IsValid.nonneg (h : task.IsValid) (r : Resource) :
    0 ≤ r.remaining task.budget := (DayAgentBudget.nonneg h.budget).1 r

theorem DayAgentResearchTask.IsValid.pos (h : task.IsValid) {r : Resource}
    (hne : r.remaining task.budget ≠ 0) : 0 < r.remaining task.budget :=
  lt_of_le_of_ne (h.nonneg r) (Ne.symm hne)

theorem DayAgentResearchTask.IsValid.runtime_nonneg (h : task.IsValid) :
    0 ≤ task.budget.remainingRuntimeSeconds := (DayAgentBudget.nonneg h.budget).2

/-- What is left of a budget after some calls. -/
structure Spends (before after : DayAgentBudget) (spent : Resource → ℤ) : Prop where
  remaining : ∀ r : Resource, r.remaining after = r.remaining before - spent r
  runtime : after.remainingRuntimeSeconds ≤ before.remainingRuntimeSeconds

theorem Spends.refl (budget : DayAgentBudget) : Spends budget budget fun _ => 0 :=
  ⟨fun _ => (sub_zero _).symm, le_rfl⟩

theorem spends_consumeModel {budget : DayAgentBudget} (h : 0 ≤ budget.remainingRuntimeSeconds)
    (startedAt finishedAt : Instant) :
    Spends budget (consumeModel budget (elapsedSeconds startedAt finishedAt))
      (Resource.once .model) := by
  have helapsed : 0 ≤ elapsedSeconds startedAt finishedAt := le_max_left _ _
  refine ⟨?_, max_le h (by omega)⟩
  rintro (_ | _)
  · rfl
  · exact (sub_zero _).symm

theorem spends_consumeTool {budget : DayAgentBudget} (h : 0 ≤ budget.remainingRuntimeSeconds)
    (startedAt finishedAt : Instant) :
    Spends budget (consumeTool budget (elapsedSeconds startedAt finishedAt))
      (Resource.once .tool) := by
  have helapsed : 0 ≤ elapsedSeconds startedAt finishedAt := le_max_left _ _
  refine ⟨?_, max_le h (by omega)⟩
  rintro (_ | _)
  · exact (sub_zero _).symm
  · rfl

theorem pendingDecision_concat : pendingDecision (steps ++ [step]) =
    if step.recordKind = .decision then some step else none := by
  rw [pendingDecision, List.getLast?_concat, Option.filter_some]
  simp

/-- The response that was decided last, and is not applied yet. -/
def IsPending (steps : List DayAgentTaskStep) (response : DayAgentReasoningResponse) : Prop :=
  ∃ decision, pendingDecision steps = some decision ∧ decision.payload = .response response ∧
    response.isValid = true

/-- The state in which a decision leaves the task. -/
def DayAgentReasoningResponse.outcome : DayAgentReasoningResponse → DayAgentTaskState
  | toolCall _ | defer _ => .waiting
  | thesisSubmission _ | hypothesisSubmission _ => .completed

/-- What a decision calls when it is applied. -/
def DayAgentReasoningResponse.cost : DayAgentReasoningResponse → Resource → ℤ
  | toolCall _ => Resource.once .tool
  | _ => fun _ => 0

/-- What the step says that applies a decision. -/
def Reports (response : DayAgentReasoningResponse) (payload : StepPayload) : Prop :=
  match response with
  | .toolCall call => ∃ observation, payload = .observation observation ∧
      observation.action = call.action
  | response => payload = .response response

/-- The steps that may follow others in a task. -/
inductive Follows (task : DayAgentResearchTask) (steps : List DayAgentTaskStep)
    (step : DayAgentTaskStep) : Prop
  /-- The model decides what to do next, if nothing is pending. -/
  | decides (response : DayAgentReasoningResponse) (free : pendingDecision steps = none)
      (left : 0 < Resource.model.remaining task.budget) (kind : step.recordKind = .decision)
      (payload : step.payload = .response response) (valid : response.isValid = true)
      (action : step.action = response.action) (state : step.state = .waiting)
      (spends : Spends task.budget step.budget (Resource.once .model))
  /-- The decision that is pending is applied. -/
  | settles (response : DayAgentReasoningResponse) (pending : IsPending steps response)
      (left : ∀ r, response.cost r ≤ r.remaining task.budget)
      (kind : step.recordKind = .observation) (payload : Reports response step.payload)
      (action : step.action = response.action) (state : step.state = response.outcome)
      (spends : Spends task.budget step.budget response.cost)
  /-- The task is over: what was pending is not applied, and what failed is paid for. -/
  | blocks (spent : Resource → ℤ) (kind : step.recordKind = .observation)
      (state : step.state = .blocked) (left : ∀ r, spent r ≤ r.remaining task.budget)
      (spent_of : (spent = fun _ => 0) ∨
        spent = Resource.once .model ∧ pendingDecision steps = none ∨
        spent = Resource.once .tool ∧ ∃ call, IsPending steps (.toolCall call))
      (spends : Spends task.budget step.budget spent)

/-- What goes before the next act. -/
def IsFor (steps : List DayAgentTaskStep) (step : DayAgentTaskStep) : DayAgentNext → Prop
  | .stop => step.state.isTerminal = true
  | .again => step.recordKind = .observation
  | .apply steps' response _ => steps' = steps ∧ step.recordKind = .decision ∧
      step.payload = .response response ∧ response.isValid = true

/-- What an invocation knows of what is stored. -/
def Ready (ctx : DayAgentContext) (task : DayAgentResearchTask) (steps : List DayAgentTaskStep) :
    DayAgentPoint → Prop
  | .looping => True
  | .reasoning request _ _ =>
    request.task = task ∧ request.priorSteps = steps ∧ pendingDecision steps = none ∧
      0 < Resource.model.remaining task.budget
  | .applying task' steps' response _ => task' = task ∧ steps' = steps ∧ IsPending steps response
  | .dispatching task' steps' call _ =>
    task' = task ∧ steps' = steps ∧ IsPending steps (.toolCall call) ∧
      0 < Resource.tool.remaining task.budget
  | .appending step next =>
    (step.taskId = task.taskId ∧ step.sequence = steps.length + 1) ∧ step.IsValid ctx ∧
      Follows task steps step ∧ IsFor steps step next

/-- What coming to a point calls. -/
def starts : DayAgentPoint → Resource → ℤ
  | .reasoning .. => Resource.once .model
  | .dispatching .. => Resource.once .tool
  | _ => fun _ => 0

/-- What was called, and is not in the budget yet. -/
def inFlight (budget : DayAgentBudget) (point : DayAgentPoint) (r : Resource) : ℤ :=
  match point with
  | .appending step _ => r.remaining budget - r.remaining step.budget
  | point => starts point r

/-- The next point, and what is in flight there. -/
structure Moves (ctx : DayAgentContext) (task : DayAgentResearchTask)
    (steps : List DayAgentTaskStep) (point point' : DayAgentPoint) : Prop where
  ready : Ready ctx task steps point'
  flight : ∀ r, inFlight task.budget point' r = inFlight task.budget point r + starts point' r

theorem appending_eq_ok {next : DayAgentNext} :
    appending ctx step next = .ok point ↔ step.IsValid ctx ∧ point = .appending step next := by
  rw [appending]
  cases h : validateStep ctx step with
  | error e => simp [DayAgentTaskStep.IsValid, h]
  | ok made =>
    obtain ⟨rfl, hvalid⟩ := isValid_of_validateStep h
    simp [hvalid, eq_comm]

/-- A step of which the calls in flight are known is written next. -/
theorem moves_appending {next : DayAgentNext} (h : appending ctx step next = .ok point')
    (hid : step.taskId = task.taskId ∧ step.sequence = steps.length + 1)
    (hfollows : Follows task steps step)
    (hnext : IsFor steps step next)
    (hspends : Spends task.budget step.budget (inFlight task.budget point)) :
    Moves ctx task steps point point' := by
  obtain ⟨hvalid, rfl⟩ := appending_eq_ok.1 h
  refine ⟨⟨hid, hvalid, hfollows, hnext⟩, fun r => ?_⟩
  simp [inFlight, starts, hspends.remaining]

/-- A task that is blocked with nothing in flight. -/
theorem follows_blocked (hvalid : task.IsValid) {reason : String} {now : Instant} :
    Follows task steps (blockedStep task steps reason task.budget now) :=
  .blocks (fun _ => 0) rfl rfl hvalid.nonneg (.inl rfl) (.refl _)

/-- One call is within a budget that is not spent. -/
theorem once_le_remaining (hvalid : task.IsValid) {r : Resource}
    (hleft : 0 < r.remaining task.budget) (r' : Resource) :
    r.once r' ≤ r'.remaining task.budget := by
  unfold Resource.once
  split_ifs with h
  · exact h ▸ hleft
  · exact hvalid.nonneg r'

theorem parseDecision_eq_some {payload : StepPayload} {response : DayAgentReasoningResponse}
    (h : parseDecision payload = some response) :
    payload = .response response ∧ response.isValid = true := by
  cases payload with
  | response response' =>
    rw [parseDecision] at h
    split_ifs at h with hvalid
    cases h
    exact ⟨rfl, hvalid⟩
  | observation => cases h
  | reason => cases h

/-- The body of the loop comes to its first effect. -/
theorem moves_iterate {runtime : DayAgentRuntime} {taskId : String} {processedSteps : ℕ}
    {role : Option DayAgentRole} {now : Instant} (hvalid : task.IsValid)
    (htask : requireTask ctx db taskId = .ok task) (hsteps : db.stepsForTask ctx taskId = .ok steps)
    (h : iterate ctx db runtime taskId processedSteps role now = .ok (some point')) :
    task.state.isTerminal = false ∧ Moves ctx task steps .looping point' := by
  -- A blocked task has nothing in flight.
  have hblocked : ∀ reason, some <$> appending ctx (blockedStep task steps reason task.budget now)
      .stop = Except.ok (some point') → Moves ctx task steps .looping point' := by
    intro reason hmade
    cases happ : appending ctx (blockedStep task steps reason task.budget now) .stop with
    | error e => rw [happ] at hmade; cases hmade
    | ok made =>
      rw [happ] at hmade
      cases hmade
      exact moves_appending happ ⟨rfl, rfl⟩ (follows_blocked hvalid) rfl (.refl _)
  rw [iterate] at h
  by_cases hprocessed : runtime.maxSteps ≤ processedSteps
  · rw [if_pos hprocessed] at h
    cases h
  rw [if_neg hprocessed, htask, ok_bind] at h
  by_cases hterminal : task.state.isTerminal = true
  · rw [if_pos hterminal] at h
    cases h
  rw [if_neg hterminal, hsteps, ok_bind] at h
  refine ⟨by simpa using hterminal, ?_⟩
  cases role with
  | none => exact hblocked _ h
  | some role =>
    cases hpending : pendingDecision steps with
    | some decision =>
      simp only [hpending] at h
      cases hparse : parseDecision decision.payload with
      | none =>
        rw [hparse] at h
        exact hblocked _ h
      | some response =>
        rw [hparse] at h
        cases h
        exact ⟨⟨rfl, rfl, decision, hpending, parseDecision_eq_some hparse⟩, fun _ => rfl⟩
    | none =>
      simp only [hpending] at h
      split_ifs at h with hmodel hruntime
      · exact hblocked _ h
      · exact hblocked _ h
      · obtain ⟨⟨⟩, -, hpoint⟩ := bind_eq_ok.1 h
        cases hpoint
        exact ⟨⟨rfl, rfl, hpending, hvalid.pos (r := .model) hmodel⟩, fun _ => (zero_add _).symm⟩

/-- The loop is left if all steps are taken, or the task is over. -/
theorem iterate_eq_none {runtime : DayAgentRuntime} {taskId : String} {processedSteps : ℕ}
    {role : Option DayAgentRole} {now : Instant} (htask : requireTask ctx db taskId = .ok task)
    (h : iterate ctx db runtime taskId processedSteps role now = .ok none) :
    runtime.maxSteps ≤ processedSteps ∨ task.state.isTerminal = true := by
  by_contra hactive
  obtain ⟨hprocessed, hterminal⟩ := not_or.1 hactive
  have hblocked : ∀ steps reason, some <$> appending ctx (blockedStep task steps reason task.budget
      now) .stop ≠ (Except.ok none : Except DayAgentError (Option DayAgentPoint)) := by
    intro steps reason
    cases appending ctx (blockedStep task steps reason task.budget now) .stop <;> simp
  rw [iterate, if_neg hprocessed, htask, ok_bind, if_neg hterminal, bind_eq_ok] at h
  obtain ⟨steps, -, h⟩ := h
  cases role with
  | none => exact hblocked _ _ h
  | some role =>
    cases hpending : pendingDecision steps with
    | some decision =>
      simp only [hpending] at h
      cases hparse : parseDecision decision.payload with
      | none =>
        rw [hparse] at h
        exact hblocked _ _ h
      | some response =>
        rw [hparse] at h
        cases h
    | none =>
      simp only [hpending] at h
      split_ifs at h
      · exact hblocked _ _ h
      · exact hblocked _ _ h
      · obtain ⟨⟨⟩, -, hpoint⟩ := bind_eq_ok.1 h
        cases hpoint

/-- What the model says is written as a decision, or blocks the task. Either way it is paid for. -/
theorem moves_takeResponse {request : DayAgentReasoningRequest} {role : DayAgentRole}
    {startedAt now later : Instant} {response : Option DayAgentReasoningResponse}
    (hvalid : task.IsValid) (hready : Ready ctx task steps (.reasoning request role startedAt))
    (h : takeResponse ctx request role startedAt response now later = .ok point') :
    Moves ctx task steps (.reasoning request role startedAt) point' := by
  obtain ⟨htask, hsteps, hfree, hleft⟩ := hready
  have hspends := spends_consumeModel hvalid.runtime_nonneg startedAt now
  have hblocked : ∀ reason, Follows task steps (blockedStep task steps reason
      (consumeModel task.budget (elapsedSeconds startedAt now)) later) :=
    fun reason => .blocks _ rfl rfl (once_le_remaining hvalid hleft) (.inr (.inl ⟨rfl, hfree⟩))
      hspends
  cases response with
  | none =>
    simp only [takeResponse, htask, hsteps] at h
    exact moves_appending h ⟨rfl, rfl⟩ (hblocked _) rfl hspends
  | some response =>
    simp only [takeResponse, htask, hsteps] at h
    split_ifs at h with hresponse hruntime
    · exact moves_appending h ⟨rfl, rfl⟩ (hblocked _) rfl hspends
    · exact moves_appending h ⟨rfl, rfl⟩ (hblocked _) rfl hspends
    · have hresponse : response.isValid = true := by simpa using hresponse
      exact moves_appending h ⟨rfl, rfl⟩
        (.decides response hfree hleft rfl rfl hresponse rfl rfl hspends)
        ⟨rfl, rfl, rfl, hresponse⟩ hspends

/-- A decision calls its tool, is settled, or blocks the task. -/
theorem moves_applyResponse {response : DayAgentReasoningResponse} {role : DayAgentRole}
    {now : Instant} (hvalid : task.IsValid)
    (hready : Ready ctx task steps (.applying task steps response role))
    (h : applyResponse ctx task steps response role now = .ok point') :
    Moves ctx task steps (.applying task steps response role) point' := by
  obtain ⟨-, -, hpending⟩ := hready
  have hspends : Spends task.budget task.budget fun _ => 0 := .refl _
  cases response with
  | toolCall call =>
    simp only [applyResponse] at h
    split_ifs at h with hruntime htools
    · exact moves_appending h ⟨rfl, rfl⟩ (follows_blocked hvalid) rfl hspends
    · exact moves_appending h ⟨rfl, rfl⟩ (follows_blocked hvalid) rfl hspends
    · cases h
      exact ⟨⟨rfl, rfl, hpending, hvalid.pos (r := .tool) htools⟩, fun _ => (zero_add _).symm⟩
  | thesisSubmission submission =>
    simp only [applyResponse] at h
    split_ifs at h with hrole
    · exact moves_appending h ⟨rfl, rfl⟩ (follows_blocked hvalid) rfl hspends
    · exact moves_appending h ⟨rfl, rfl⟩
        (.settles _ hpending hvalid.nonneg rfl rfl rfl rfl hspends) rfl hspends
  | hypothesisSubmission submission =>
    simp only [applyResponse] at h
    split_ifs at h with hrole
    · exact moves_appending h ⟨rfl, rfl⟩ (follows_blocked hvalid) rfl hspends
    · exact moves_appending h ⟨rfl, rfl⟩
        (.settles _ hpending hvalid.nonneg rfl rfl rfl rfl hspends) rfl hspends
  | defer deferral =>
    exact moves_appending h ⟨rfl, rfl⟩
      (.settles _ hpending hvalid.nonneg rfl rfl rfl rfl hspends) rfl hspends

theorem dispatch_action {bindings : List DayAgentToolBinding} {call : DayAgentToolCall}
    {raw : Option String} {observedAt : Instant} {observation : DayAgentToolObservation}
    (h : dispatch ctx bindings call raw observedAt = .ok observation) :
    observation.action = call.action := by
  simp only [dispatch] at h
  repeat' split at h
  all_goals first | (cases h; rfl) | cases h

/-- What a tool says is written, or blocks the task. Either way the call is paid for. -/
theorem moves_takeObservation {bindings : List DayAgentToolBinding} {call : DayAgentToolCall}
    {raw : Option String} {startedAt observedAt now later : Instant} (hvalid : task.IsValid)
    (hready : Ready ctx task steps (.dispatching task steps call startedAt))
    (h : takeObservation ctx bindings task steps call startedAt raw observedAt now later =
      .ok point') :
    Moves ctx task steps (.dispatching task steps call startedAt) point' := by
  obtain ⟨-, -, hpending, hleft⟩ := hready
  have hspends := spends_consumeTool hvalid.runtime_nonneg startedAt now
  simp only [takeObservation] at h
  cases hdispatch : dispatch ctx bindings call raw observedAt with
  | error reason =>
    rw [hdispatch] at h
    exact moves_appending h ⟨rfl, rfl⟩
      (.blocks _ rfl rfl (once_le_remaining hvalid hleft) (.inr (.inr ⟨rfl, call, hpending⟩))
        hspends)
      rfl hspends
  | ok observation =>
    rw [hdispatch] at h
    exact moves_appending h ⟨rfl, rfl⟩
      (.settles (.toolCall call) hpending (once_le_remaining hvalid hleft) rfl
        ⟨observation, rfl, dispatch_action hdispatch⟩
        rfl rfl hspends) rfl hspends

theorem Spends.inFlight_le {spent : Resource → ℤ} {next : DayAgentNext}
    (h : Spends task.budget step.budget spent)
    (hspent : ∀ r, spent r ≤ 1 ∧ spent r ≤ r.remaining task.budget) (r : Resource) :
    inFlight task.budget (.appending step next) r ≤ 1 ∧
      inFlight task.budget (.appending step next) r ≤ r.remaining task.budget := by
  simp only [inFlight, h.remaining r, sub_sub_cancel]
  exact hspent r

/-- At most one call of each kind is in flight, and it is within the budget. -/
theorem Ready.inFlight_le (hvalid : task.IsValid) (h : Ready ctx task steps point) (r : Resource) :
    inFlight task.budget point r ≤ 1 ∧ inFlight task.budget point r ≤ r.remaining task.budget := by
  have hnone : (0 : ℤ) ≤ 1 ∧ 0 ≤ r.remaining task.budget := ⟨zero_le_one, hvalid.nonneg r⟩
  cases point with
  | reasoning request role startedAt =>
    exact ⟨(Resource.once_le _ r).2, once_le_remaining hvalid h.2.2.2 r⟩
  | dispatching task' steps' call startedAt =>
    exact ⟨(Resource.once_le _ r).2, once_le_remaining hvalid h.2.2.2 r⟩
  | appending step next =>
    obtain ⟨-, -, hfollows, -⟩ := h
    cases hfollows with
    | decides _ _ hleft _ _ _ _ _ hspends =>
      exact hspends.inFlight_le
        (fun r => ⟨(Resource.once_le _ r).2, once_le_remaining hvalid hleft r⟩) r
    | settles response _ hleft _ _ _ _ hspends =>
      refine hspends.inFlight_le (fun r => ⟨?_, hleft r⟩) r
      cases response with
      | toolCall => exact (Resource.once_le _ r).2
      | thesisSubmission => exact zero_le_one
      | hypothesisSubmission => exact zero_le_one
      | defer => exact zero_le_one
    | blocks spent _ _ hleft hspent hspends =>
      refine hspends.inFlight_le (fun r => ⟨?_, hleft r⟩) r
      rcases hspent with rfl | ⟨rfl, -⟩ | ⟨rfl, -⟩
      · exact zero_le_one
      · exact (Resource.once_le _ r).2
      · exact (Resource.once_le _ r).2
  | looping => exact hnone
  | applying task' steps' response role => exact hnone

end TradingAgent.DayAgent
