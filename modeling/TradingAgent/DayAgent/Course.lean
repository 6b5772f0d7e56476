import TradingAgent.DayAgent.Trace

/-!
# The course of a task

What the agent does with a task over all its invocations, however often they are interrupted.

* The steps of a task are the `Course` of it: decisions and what came of them, in turn, up to the
  one that ends the task (`course_of_reachable`).
* The model and the tools are called within the budget of the task, but for one call that is lost in
  each interruption (`callsOf_le`).
* A decision that was written is applied before the model is asked again (`pending_until_settled`).
* Every call of the model allows one invocation to return with the task unfinished
  (`unfinished_le`).
-/

namespace TradingAgent.DayAgent

open Except Journal Transition

variable {ctx : DayAgentContext} {s t : DayAgentSystem} {base : DayAgentResearchTask}
  {inv : DayAgentInvocation} {taskId : String} {events : List DayAgentEvent}

theorem Invariant.isTrace (h : Invariant ctx s) (hrow : s.store.taskRow taskId = some base) :
    IsTrace ctx base (s.stepsOf taskId) := by
  obtain ⟨hmem, rfl⟩ := WellFormed.mem_of_taskRow hrow
  exact (h.store.histories base hmem).and (h.follows base hmem)

/-! ## The steps of a task -/

/-- The steps of a task, in turn. -/
structure Course (base : DayAgentResearchTask) (steps : List DayAgentTaskStep) : Prop where
  starts : ∀ first ∈ steps.head?, first.sequence = 1 ∧ base.updatedAt ≤ first.occurredAt ∧
    (first.recordKind = .decision ∨ first.state = .blocked)
  goesOn : steps.IsChain GoesOn
  ends : ∀ before step after, steps = before ++ step :: after → step.state.isTerminal = true →
    after = []
  /-- A task is completed by the submission that was decided just before. -/
  completed : ∀ before step, steps = before ++ [step] → step.state = .completed →
    ∃ earlier decision response, before = earlier ++ [decision] ∧
      decision.recordKind = .decision ∧ decision.payload = .response response ∧
      response.outcome = .completed ∧ step.payload = .response response
  length : steps.length ≤ 2 * base.budget.remainingModelCalls + 1

theorem IsTrace.course (hvalid : base.IsValid) {steps : List DayAgentTaskStep}
    (h : IsTrace ctx base steps) : Course base steps where
  starts := by
    intro first hfirst
    obtain ⟨rest, rfl⟩ := List.head?_eq_some_iff.1 hfirst
    obtain ⟨hadmissible, hfollows⟩ := (Admitted.of_append_cons (l := []) h).2
    refine ⟨hadmissible.sequence, hadmissible.since, ?_⟩
    exact (hfollows.of_free rfl).imp And.left And.right
  goesOn := h.isChain
  ends := fun _ _ _ hsplit hterminal => h.eq_nil_of_isTerminal hsplit hterminal
  completed := by
    rintro before step rfl hstate
    obtain ⟨-, -, hfollows⟩ := admitted_concat.1 h
    cases hfollows with
    | decides _ _ _ _ _ _ _ hwaiting =>
      rw [hstate] at hwaiting
      cases hwaiting
    | settles response hresponse _ _ hpayload _ houtcome =>
      obtain ⟨decision, hpending, hdecided, -⟩ := hresponse
      obtain ⟨hkind, earlier, rfl⟩ := pendingDecision_eq_some hpending
      rw [hstate] at houtcome
      refine ⟨earlier, decision, response, rfl, hkind, hdecided, houtcome.symm, ?_⟩
      -- What a tool returned leaves the task waiting.
      cases response with
      | toolCall => cases houtcome
      | thesisSubmission => exact hpayload
      | hypothesisSubmission => exact hpayload
      | defer => cases houtcome
    | blocks _ _ hblocked =>
      rw [hstate] at hblocked
      cases hblocked
  length := by
    have hlength := h.isPaid.length
    have hcurrent := (DayAgent.isValid_current hvalid (h.mono fun _ _ _ ha => ha.1)).nonneg .model
    change _ ≤ 2 * Resource.model.remaining base.budget + 1
    split_ifs at hlength <;> omega

/-- At any time, a task can be read as its steps left it, and these are its course. -/
theorem course_of_reachable (h : (system ctx).Reachable s)
    (hrow : s.store.taskRow taskId = some base) :
    s.store.readTask ctx taskId = .ok (some (current base (s.stepsOf taskId))) ∧
      s.store.stepsForTask ctx taskId = .ok (s.stepsOf taskId) ∧
      Course base (s.stepsOf taskId) := by
  have hinvariant := invariant_of_reachable h
  refine ⟨?_, hinvariant.store.stepsForTask_eq taskId, ?_⟩
  · rw [hinvariant.store.readTask_eq, hrow]
    rfl
  · have hvalid := hinvariant.store.tasks base (WellFormed.mem_of_taskRow hrow).1
    exact (hinvariant.isTrace hrow).course hvalid

theorem ThesisSample.course_submitted :
    submitted.store.readTask env "day-agent-task" =
        .ok (some (current assessment (submitted.stepsOf "day-agent-task"))) ∧
      submitted.store.stepsForTask env "day-agent-task" =
        .ok (submitted.stepsOf "day-agent-task") ∧
      Course assessment (submitted.stepsOf "day-agent-task") :=
  course_of_reachable reachable_submitted taskRow_submitted

/-! ## Calls -/

/-- The calls for a task are within its budget, but for one in each interruption. -/
theorem callsOf_le (h : (system ctx).Reachable s) (hrow : s.store.taskRow taskId = some base)
    (r : Resource) :
    s.callsOf taskId r ≤ r.remaining base.budget + s.interruptions taskId := by
  have hinvariant := invariant_of_reachable h
  obtain ⟨hmem, rfl⟩ := WellFormed.mem_of_taskRow hrow
  have haccounts := hinvariant.accounts base hmem r
  have hvalid := hinvariant.isValid_current hrow
  -- What is in flight is still in the budget.
  have hflight : s.inFlight base.taskId (current base (s.stepsOf base.taskId)).budget r ≤
      r.remaining (current base (s.stepsOf base.taskId)).budget := by
    cases hrun : s.running with
    | none =>
      rw [DayAgentSystem.inFlight_of_none hrun]
      exact hvalid.nonneg r
    | some inv =>
      by_cases hid : inv.taskId = base.taskId
      · obtain ⟨task, hrow', hready⟩ := hinvariant.ready inv hrun
        rw [hid] at hrow' hready
        cases hrow.symm.trans hrow'
        rw [← hid, DayAgentSystem.inFlight_of_eq hrun, hid]
        exact (hready.inFlight_le hvalid r).2
      · rw [DayAgentSystem.inFlight_of_ne hrun hid]
        exact hvalid.nonneg r
  omega

theorem ThesisSample.callsOf_submitted_le :
    submitted.callsOf "day-agent-task" .tool ≤
      Resource.tool.remaining assessment.budget + submitted.interruptions "day-agent-task" :=
  callsOf_le reachable_submitted taskRow_submitted .tool

/-- The tool was called twice, and a thesis was submitted. -/
example : ThesisSample.submitted.callsOf "day-agent-task" .tool = 2 ∧
    (ThesisSample.submitted.results.map fun r => (r.task.state, r.modelCalls)) =
      [(.completed, 1)] := by
  decide +kernel

/-! ## Decisions -/

section Frame

/-- What an invocation does that leaves the steps and the calls as they are. -/
theorem frame_leave : (s.leave ctx inv).stepsOf taskId = s.stepsOf taskId ∧
    ∀ r, (s.leave ctx inv).callsOf taskId r = s.callsOf taskId r := by
  rw [DayAgentSystem.leave]
  split
  · exact ⟨rfl, fun r => by cases r <;> rfl⟩
  · exact ⟨rfl, fun r => by cases r <;> rfl⟩

theorem frame_start {runtime : DayAgentRuntime} {task : DayAgentResearchTask} :
    (s.start ctx runtime task).stepsOf taskId = s.stepsOf taskId ∧
      ∀ r, (s.start ctx runtime task).callsOf taskId r = s.callsOf taskId r := by
  simp only [DayAgentSystem.start]
  split
  · exact ⟨rfl, fun r => by cases r <;> rfl⟩
  · exact ⟨rfl, fun r => by cases r <;> rfl⟩
  · split
    · exact ⟨rfl, fun r => by cases r <;> rfl⟩
    · rename_i created store hcreate
      rcases createTask_cases hcreate with ⟨-, rfl, -⟩ | ⟨-, -, rfl⟩
      · exact ⟨rfl, fun r => by cases r <;> rfl⟩
      · exact ⟨rfl, fun r => by cases r <;> rfl⟩

end Frame

/-- The steps of a task after a step was written. -/
theorem history_wrote {next : DayAgentNext} {step : DayAgentTaskStep} {store : DayAgentTaskDatabase}
    (h : Wrote ctx s inv step next store) (taskId : String) :
    history (·.taskId) store.dayTaskSteps taskId =
      if inv.taskId = taskId then s.stepsOf taskId ++ [step] else s.stepsOf taskId := by
  obtain ⟨hid, rfl, -⟩ := h
  rw [← hid]
  exact history_concat

/-- What is done when a step is written, for the steps and the calls. -/
theorem frame_write (h : Invariant ctx s) (hrun : s.running = some inv) {step : DayAgentTaskStep}
    {next : DayAgentNext} (hpoint : inv.point = .appending step next) :
    s.write ctx inv step next = s.interrupt inv ∨
      ∃ store, Wrote ctx s inv step next store ∧
        (s.write ctx inv step next).stepsOf taskId = history (·.taskId) store.dayTaskSteps taskId ∧
        ∀ r, (s.write ctx inv step next).callsOf taskId r = s.callsOf taskId r := by
  rw [DayAgentSystem.write]
  cases happend : appendStep ctx step s.store with
  | error e => exact .inl rfl
  | ok made =>
    obtain ⟨inserted, store⟩ := made
    have hwrote := h.wrote hrun hpoint happend
    refine .inr ⟨store, hwrote, ?_⟩
    cases next with
    | stop => exact frame_leave
    | again => exact ⟨rfl, fun r => by cases r <;> rfl⟩
    | apply steps response role =>
      obtain ⟨-, rfl, ⟨task, hrow, -, -⟩, -, hinvariant⟩ := hwrote
      have hrequire := hinvariant.store.requireTask_eq hrow
      simp only [hrequire]
      exact ⟨rfl, fun r => by cases r <;> rfl⟩

/-- In an event, the steps of a task stay as they are, and the model is not asked about it while a
    decision is pending, or there is one step more that follows them. -/
theorem Invariant.frame (h : Invariant ctx s) (hchange : Change ctx s t) (taskId : String) :
    (t.stepsOf taskId = s.stepsOf taskId ∧ (pendingDecision (s.stepsOf taskId) ≠ none →
        t.callsOf taskId .model = s.callsOf taskId .model)) ∨
      ∃ base step, s.store.taskRow taskId = some base ∧
        t.stepsOf taskId = s.stepsOf taskId ++ [step] ∧
        Follows (current base (s.stepsOf taskId)) (s.stepsOf taskId) step := by
  cases hchange with
  | start runtime task => exact .inl ⟨frame_start.1, fun _ => frame_start.2 .model⟩
  | interrupt inv => exact .inl ⟨rfl, fun _ => rfl⟩
  | leave inv => exact .inl ⟨frame_leave.1, fun _ => frame_leave.2 .model⟩
  | enter inv inv' point hrun hid _ hmoves =>
    refine .inl ⟨rfl, fun hpending => ?_⟩
    obtain ⟨task, hrow, -⟩ := h.ready inv hrun
    have hready := (hmoves task hrow).ready
    have hrequest : ∀ request role startedAt, point = .reasoning request role startedAt →
        request.task.taskId = inv'.taskId := by
      rintro request role startedAt rfl
      rw [hready.1, current_taskId, (WellFormed.mem_of_taskRow hrow).2, hid]
    rw [Invariant.callsOf_enter hrequest, hid]
    split_ifs with htask
    · subst htask
      -- The model is not asked, as something is pending.
      cases point with
      | reasoning => exact absurd hready.2.2.1 hpending
      | _ => simp [starts, Resource.once]
    · rw [add_zero]
  | write inv step next hrun hpoint =>
    rcases frame_write h hrun hpoint with hinterrupt | ⟨store, hwrote, hsteps, hcalls⟩
    · rw [hinterrupt]
      exact .inl ⟨rfl, fun _ => rfl⟩
    · rw [history_wrote hwrote taskId] at hsteps
      split_ifs at hsteps with hid
      · subst hid
        obtain ⟨base, hrow, -, hfollows⟩ := hwrote.follows
        exact .inr ⟨base, step, hrow, hsteps, hfollows⟩
      · exact .inl ⟨hsteps, fun _ => hcalls .model⟩

/-- A decision that was written is applied before the model is asked again, however often the agent
    is interrupted and started. -/
theorem pending_until_settled (h : (system ctx).Reachable s) {decision : DayAgentTaskStep}
    (hpending : pendingDecision (s.stepsOf taskId) = some decision)
    (hrun : (system ctx).Run s events t) :
    (t.stepsOf taskId = s.stepsOf taskId ∧
        t.callsOf taskId .model = s.callsOf taskId .model) ∨
      ∃ step after, t.stepsOf taskId = s.stepsOf taskId ++ step :: after ∧
        CameOf decision step := by
  refine hrun.stable (P := fun t => (t.stepsOf taskId = s.stepsOf taskId ∧
    t.callsOf taskId .model = s.callsOf taskId .model) ∨ ∃ step after,
      t.stepsOf taskId = s.stepsOf taskId ++ step :: after ∧ CameOf decision step) ?_ h
    (.inl ⟨rfl, rfl⟩)
  intro u event v hu hsettled hstep
  have hinvariant := invariant_of_reachable hu
  have hframe := hinvariant.frame (hinvariant.change hstep) taskId
  rcases hsettled with ⟨hsteps, hcalls⟩ | ⟨step, after, hsteps, hcame⟩
  · rw [hsteps, hpending] at hframe
    rcases hframe with ⟨hsame, hasked⟩ | ⟨base, step, -, hadded, hfollows⟩
    · exact .inl ⟨hsame, (hasked (by simp)).trans hcalls⟩
    · exact .inr ⟨step, [], hadded, hfollows.cameOf hpending⟩
  · refine .inr ⟨step, ?_⟩
    rcases hframe with ⟨hsame, -⟩ | ⟨base, more, -, hadded, -⟩
    · exact ⟨after, hsame.trans hsteps, hcame⟩
    · refine ⟨after ++ [more], ?_, hcame⟩
      rw [hadded, hsteps, List.append_assoc, List.cons_append]

theorem ThesisSample.inspect_settled :
    (submitted.stepsOf "day-agent-task" = afterLoss.stepsOf "day-agent-task" ∧
        submitted.callsOf "day-agent-task" .model = afterLoss.callsOf "day-agent-task" .model) ∨
      ∃ step after, submitted.stepsOf "day-agent-task" =
          afterLoss.stepsOf "day-agent-task" ++ step :: after ∧
        CameOf decided step :=
  pending_until_settled reachable_afterLoss pending_afterLoss run_submitted

/-! ## Results -/

/-- Whether a step is what came of a decision, and left the task unfinished. -/
def isSettled (step : DayAgentTaskStep) : Bool :=
  step.recordKind = .observation ∧ step.state = .waiting

/-- Whether the steps of a task are over. -/
def isOver (steps : List DayAgentTaskStep) : Bool := steps.getLast?.any (·.state.isTerminal)

theorem isOver_of_current {steps : List DayAgentTaskStep}
    (h : (current base steps).state.isTerminal = false) : isOver steps = false := by
  rcases List.eq_nil_or_concat' steps with rfl | ⟨before, last, rfl⟩
  · rfl
  · rw [isOver, List.getLast?_concat]
    rw [current_concat, updated_state] at h
    exact h

namespace DayAgentSystem

/-- How many invocations returned with a task unfinished. -/
def unfinished (s : DayAgentSystem) (taskId : String) : ℕ :=
  s.results.countP fun result => result.task.taskId = taskId ∧ result.task.state.isTerminal = false

/-- What the invocation that is running has done for a task that is not over. -/
def processed (s : DayAgentSystem) (taskId : String) : ℕ :=
  match s.running with
  | none => 0
  | some inv => if inv.taskId = taskId ∧ isOver (s.stepsOf taskId) = false then inv.processedSteps
      else 0

/-- Whatever an invocation has done is settled. -/
def IsSettled (s : DayAgentSystem) (taskId : String) : Prop :=
  s.unfinished taskId + s.processed taskId ≤ (s.stepsOf taskId).countP isSettled

theorem processed_of_none (h : s.running = none) : s.processed taskId = 0 := by
  rw [processed, h]

theorem processed_of_some (h : s.running = some inv) : s.processed taskId =
    if inv.taskId = taskId ∧ isOver (s.stepsOf taskId) = false then inv.processedSteps else 0 := by
  rw [processed, h]

theorem IsSettled.of_none (h : s.IsSettled taskId) (hrun : t.running = none)
    (hresults : t.results = s.results) (hsteps : t.stepsOf taskId = s.stepsOf taskId) :
    t.IsSettled taskId := by
  rw [IsSettled, processed_of_none hrun, hsteps, unfinished, hresults]
  exact (Nat.le_add_right _ _).trans h

/-- An invocation returns with the task unfinished only after it has settled something. -/
theorem IsSettled.leave (h : s.IsSettled taskId) (hinvariant : Invariant ctx s)
    (hrun : s.running = some inv)
    (hdone : ∀ base, s.store.taskRow inv.taskId = some base →
      1 ≤ inv.processedSteps ∨ (current base (s.stepsOf inv.taskId)).state.isTerminal = true) :
    (s.leave ctx inv).IsSettled taskId := by
  obtain ⟨base, hrow, -⟩ := hinvariant.ready inv hrun
  obtain ⟨r, hresult, htask⟩ := hinvariant.store.result_eq hrow inv.modelCalls
  rw [DayAgentSystem.leave, hresult]
  simp only [IsSettled, unfinished, List.countP_append, List.countP_singleton, htask]
  have hsettled := h
  rw [IsSettled, processed_of_some hrun, unfinished] at hsettled
  have hsteps : ({ s with running := none, results := s.results ++ [r] } : DayAgentSystem).stepsOf
      taskId = s.stepsOf taskId := rfl
  rw [hsteps, processed_of_none rfl, add_zero]
  change _ + (if decide ((current base (s.stepsOf inv.taskId)).taskId = taskId ∧
    (current base (s.stepsOf inv.taskId)).state.isTerminal = false) = true then 1 else 0) ≤ _
  rw [current_taskId, (WellFormed.mem_of_taskRow hrow).2]
  by_cases hopen : inv.taskId = taskId ∧
      (current base (s.stepsOf inv.taskId)).state.isTerminal = false
  · obtain ⟨rfl, hactive⟩ := hopen
    rw [if_pos ⟨rfl, isOver_of_current hactive⟩] at hsettled
    have hone : 1 ≤ inv.processedSteps := by
      rcases hdone base hrow with hone | hterminal
      · exact hone
      · rw [hactive] at hterminal
        cases hterminal
    rw [if_pos (by simp [hactive])]
    omega
  · rw [if_neg (by simpa using hopen)]
    omega

end DayAgentSystem

/-- What follows a decision and leaves the task unfinished has settled it. -/
theorem Follows.isSettled {task : DayAgentResearchTask} {steps : List DayAgentTaskStep}
    {step : DayAgentTaskStep} (h : Follows task steps step) (hkind : step.recordKind = .observation)
    (hactive : step.state.isTerminal = false) : isSettled step = true := by
  cases h with
  | decides _ _ _ hdecision =>
    rw [hkind] at hdecision
    cases hdecision
  | settles response _ _ _ _ _ hstate =>
    rw [hstate] at hactive
    cases response with
    | toolCall => exact decide_eq_true ⟨hkind, hstate⟩
    | thesisSubmission => cases hactive
    | hypothesisSubmission => cases hactive
    | defer => exact decide_eq_true ⟨hkind, hstate⟩
  | blocks _ _ hstate =>
    rw [hstate] at hactive
    cases hactive

/-- A step that is written settles what the invocation has done in it. -/
theorem Wrote.isSettled {next : DayAgentNext} {step : DayAgentTaskStep}
    {store : DayAgentTaskDatabase} (h : Wrote ctx s inv step next store)
    (hsettled : s.IsSettled taskId) (hrun : s.running = some inv) {inv' : DayAgentInvocation}
    (hid : inv'.taskId = inv.taskId)
    (hdone : step.state.isTerminal = false →
      inv'.processedSteps ≤ inv.processedSteps + if isSettled step = true then 1 else 0) :
    ({ s with store, running := some inv' } : DayAgentSystem).IsSettled taskId := by
  obtain ⟨base, -, hadmissible, -⟩ := h.follows
  rw [DayAgentSystem.IsSettled, DayAgentSystem.processed_of_some hrun] at hsettled
  rw [DayAgentSystem.IsSettled, DayAgentSystem.processed_of_some rfl, hid]
  have hunfinished : ({ s with store, running := some inv' } : DayAgentSystem).unfinished taskId =
      s.unfinished taskId := rfl
  have hsteps : ({ s with store, running := some inv' } : DayAgentSystem).stepsOf taskId =
      if inv.taskId = taskId then s.stepsOf taskId ++ [step] else s.stepsOf taskId :=
    history_wrote h taskId
  rw [hunfinished, hsteps]
  by_cases htask : inv.taskId = taskId
  · subst htask
    simp only [if_true, true_and, List.countP_append, List.countP_singleton, isOver,
      List.getLast?_concat, Option.any_some] at hsettled ⊢
    have hopen := isOver_of_current hadmissible.active
    rw [isOver] at hopen
    rw [if_pos hopen] at hsettled
    by_cases hstate : step.state.isTerminal = false
    · have hstep := hdone hstate
      rw [if_pos hstate]
      omega
    · rw [if_neg hstate]
      omega
  · simp only [htask, false_and, if_false] at hsettled ⊢
    exact hsettled

theorem Invariant.isSettled (h : Invariant ctx s) (hsettled : s.IsSettled taskId)
    (hchange : Change ctx s t) : t.IsSettled taskId := by
  cases hchange with
  | start runtime task hrun =>
    -- Nothing is done yet.
    simp only [DayAgentSystem.start]
    split
    · exact hsettled.of_none rfl rfl rfl
    · rw [DayAgentSystem.IsSettled, DayAgentSystem.processed_of_none hrun] at hsettled
      rw [DayAgentSystem.IsSettled, DayAgentSystem.processed_of_some rfl, ite_self]
      exact hsettled
    · split
      · exact hsettled.of_none rfl rfl rfl
      · rename_i created store hcreate
        rw [DayAgentSystem.IsSettled, DayAgentSystem.processed_of_none hrun] at hsettled
        rw [DayAgentSystem.IsSettled, DayAgentSystem.processed_of_some rfl, ite_self]
        rcases createTask_cases hcreate with ⟨-, rfl, -⟩ | ⟨-, -, rfl⟩
        · exact hsettled
        · exact hsettled
  | interrupt inv hrun => exact hsettled.of_none rfl rfl rfl
  | leave inv hrun _ hdone =>
    refine hsettled.leave h hrun fun base hrow => (hdone base hrow).imp_left ?_
    exact inv.runtime.one_le_maxSteps.trans
  | enter inv inv' point hrun hid hprocessed =>
    rw [DayAgentSystem.IsSettled, DayAgentSystem.processed_of_some hrun, ← hid, ← hprocessed]
      at hsettled
    exact hsettled
  | write inv step next hrun hpoint =>
    rw [DayAgentSystem.write]
    cases happend : appendStep ctx step s.store with
    | error e => exact hsettled.of_none rfl rfl rfl
    | ok made =>
      obtain ⟨inserted, store⟩ := made
      have hwrote := h.wrote hrun hpoint happend
      cases next with
      | stop =>
        have hterminal : step.state.isTerminal = true := hwrote.next
        have hlooping : { inv with point := .looping }.taskId = inv.taskId := rfl
        have hafter := hwrote.isSettled hsettled hrun hlooping fun hactive => by
          rw [hterminal] at hactive
          cases hactive
        have hleave := hafter.leave hwrote.invariant rfl fun base _ => .inr (by
          have hsteps := history_wrote hwrote inv.taskId
          rw [if_pos rfl] at hsteps
          change (current base (history (·.taskId) store.dayTaskSteps
            inv.taskId)).state.isTerminal = true
          rw [hsteps, current_concat, updated_state, hterminal])
        exact hleave
      | again =>
        obtain ⟨base, -, -, hfollows⟩ := hwrote.follows
        refine hwrote.isSettled hsettled hrun rfl fun hactive => ?_
        rw [if_pos (hfollows.isSettled hwrote.next hactive)]
      | apply steps response role =>
        obtain ⟨base, hrow, -⟩ := hwrote.follows
        have hrow' : store.taskRow inv.taskId = some base := by
          rw [hwrote.stored]
          exact hrow
        have hrequire := hwrote.invariant.store.requireTask_eq hrow'
        simp only [hrequire]
        exact hwrote.isSettled hsettled hrun rfl fun _ => Nat.le_add_right _ _

/-- At most as many invocations return with a task unfinished as the model may be called for it. All
    others that return have found or left it over. -/
theorem unfinished_le (h : (system ctx).Reachable s) (hrow : s.store.taskRow taskId = some base) :
    s.unfinished taskId ≤ base.budget.remainingModelCalls := by
  have hsettled : s.IsSettled taskId := by
    refine h.invariant (P := fun s => s.IsSettled taskId) ?_ ?_
    · rintro _ rfl
      exact le_rfl
    · intro u event v hu hsettled hstep
      have hinvariant := invariant_of_reachable hu
      exact hinvariant.isSettled hsettled (hinvariant.change hstep)
  have hinvariant := invariant_of_reachable h
  have hpaid := (hinvariant.isTrace hrow).isPaid.settled
  have hleft := (hinvariant.isValid_current hrow).nonneg .model
  have hunfinished := (Nat.le_add_right _ _).trans hsettled
  change _ ≤ Resource.model.remaining base.budget
  change ((List.countP isSettled (s.stepsOf taskId) : ℕ) : ℤ) + _ + _ ≤ _ at hpaid
  split_ifs at hpaid <;> omega

theorem ThesisSample.unfinished_submitted_le :
    submitted.unfinished "day-agent-task" ≤ assessment.budget.remainingModelCalls :=
  unfinished_le reachable_submitted taskRow_submitted

end TradingAgent.DayAgent
