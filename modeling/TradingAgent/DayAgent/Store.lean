import TradingAgent.DayAgent.Models
import TradingAgent.Library.Journal

/-!
# The store of the day agent's tasks

The tables of tasks and of their steps, with what reading and writing them checks. The rows stand
for the JSON texts of the records, and every write is a transaction.

* A task is read as its latest step left it (`projectTask`).
* A step is written only if it comes next, after the one before it, and within what that one left of
  the budget; none is written once the task is over (`Admissible`).
* Whatever is written by whomever, every task and its steps can be read (`WellFormed.readTask_eq`).
-/

namespace TradingAgent.DayAgent

open Except Journal

structure DayAgentTaskDatabase where
  dayTasks : List DayAgentResearchTask := []
  dayTaskSteps : List DayAgentTaskStep := []
  deriving DecidableEq, Repr

def taskFromRow (row : DayAgentResearchTask) : Except DayAgentError DayAgentResearchTask :=
  match validateTask row with
  | .ok task => .ok task
  | .error _ => .error (.invalidStore "task_payload_invalid")

def stepFromRow (ctx : DayAgentContext) (row : DayAgentTaskStep) :
    Except DayAgentError DayAgentTaskStep :=
  match validateStep ctx row with
  | .ok step => .ok step
  | .error _ => .error (.invalidStore "step_payload_invalid")

/-- The latest value that a step has set. -/
def latestOf {α : Type} (field : DayAgentTaskStep → Option α) (initial : Option α)
    (steps : List DayAgentTaskStep) : Option α :=
  steps.foldl (fun value step => (field step).or value) initial

/-- The fields of a task after its steps, the last of which is `latest`. -/
def updated (task : DayAgentResearchTask) (steps : List DayAgentTaskStep)
    (latest : DayAgentTaskStep) : DayAgentResearchTask :=
  { task with
    state := latest.state
    evidenceRefs := latest.evidenceRefs
    budget := latest.budget
    updatedAt := latest.occurredAt
    scheduledWakeAt := latest.scheduledWakeAt
    terminalReason := latest.terminalReason
    currentHypothesis := latestOf (·.currentHypothesis) task.currentHypothesis steps
    falsificationConditions :=
      (latestOf (·.falsificationConditions) none steps).getD task.falsificationConditions
    openQuestions := (latestOf (·.openQuestions) none steps).getD task.openQuestions
    resumeCondition := latestOf (·.resumeCondition) task.resumeCondition steps }

def projectTask (task : DayAgentResearchTask) (steps : List DayAgentTaskStep) :
    Except DayAgentError DayAgentResearchTask :=
  match steps.getLast? with
  | none => .ok task
  | some latest => validateTask (updated task steps latest)

namespace DayAgentTaskDatabase

variable (ctx : DayAgentContext) (db : DayAgentTaskDatabase)

def taskRow (taskId : String) : Option DayAgentResearchTask :=
  db.dayTasks.find? fun row => row.taskId = taskId

/-- The steps of a task, `ORDER BY sequence`. -/
def stepsForTask (taskId : String) : Except DayAgentError (List DayAgentTaskStep) :=
  ((history (·.taskId) db.dayTaskSteps taskId).insertionSort
    fun a b => a.sequence ≤ b.sequence).mapM (stepFromRow ctx)

/-- `DayAgentTaskReader.task`. -/
def readTask (taskId : String) : Except DayAgentError (Option DayAgentResearchTask) :=
  match db.taskRow taskId with
  | none => .ok none
  | some row => do
    let task ← taskFromRow row
    let steps ← db.stepsForTask ctx task.taskId
    some <$> projectTask task steps

end DayAgentTaskDatabase

/-! ## Writing -/

def createTask (task : DayAgentResearchTask) (db : DayAgentTaskDatabase) :
    Except DayAgentError (Bool × DayAgentTaskDatabase) :=
  match db.taskRow task.taskId with
  | some existing =>
    if existing = task then .ok (false, db) else .error (.conflict "task_replay_conflict")
  | none => .ok (true, { db with dayTasks := db.dayTasks ++ [task] })

def requireStepProgress (task : DayAgentResearchTask) (steps : List DayAgentTaskStep)
    (step : DayAgentTaskStep) : Except DayAgentError Unit := do
  let previousTime := (steps.getLast?.map (·.occurredAt)).getD task.updatedAt
  let previousBudget := (steps.getLast?.map (·.budget)).getD task.budget
  raiseIf (step.occurredAt < previousTime) (.conflict "step_timestamp_invalid")
  raiseIf (step.budget.remainingModelCalls > previousBudget.remainingModelCalls
      ∨ step.budget.remainingToolCalls > previousBudget.remainingToolCalls
      ∨ step.budget.remainingRuntimeSeconds > previousBudget.remainingRuntimeSeconds)
    (.conflict "step_budget_increase")

def requireAppendable (task : DayAgentResearchTask) (steps : List DayAgentTaskStep)
    (step : DayAgentTaskStep) : Except DayAgentError Unit := do
  raiseIf (task.state.isTerminal = true) (.conflict "terminal_task_step_rejected")
  raiseIf (step.sequence ≠ steps.length + 1) (.conflict "step_sequence_invalid")
  match steps.getLast? with
  | none => .ok ()
  | some previous =>
    match previous.state with
    | .completed | .blocked => .error (.conflict "terminal_task_step_rejected")
    | .open => raiseIf (step.state = .open) (.conflict "open_step_already_exists")
    | .waiting => .ok ()

def appendStep (ctx : DayAgentContext) (step : DayAgentTaskStep) (db : DayAgentTaskDatabase) :
    Except DayAgentError (Bool × DayAgentTaskDatabase) :=
  match db.taskRow step.taskId with
  | none => .error (.conflict "task_missing")
  | some row => do
    let task ← taskFromRow row
    match db.dayTaskSteps.find? fun s => s.taskId = step.taskId ∧ s.sequence = step.sequence with
    | some existing =>
      if existing = step then .ok (false, db) else .error (.conflict "step_replay_conflict")
    | none => do
      let steps ← db.stepsForTask ctx task.taskId
      requireStepProgress task steps step
      requireAppendable task steps step
      -- The identity of a step is the primary key.
      raiseIf (∃ s ∈ db.dayTaskSteps, ctx.dayAgentStepId s = ctx.dayAgentStepId step)
        (.invalidStore "step_insert_failed")
      .ok (true, { db with dayTaskSteps := db.dayTaskSteps ++ [step] })

/-! ## Validation -/

section Validation

variable {ctx : DayAgentContext} {task : DayAgentResearchTask} {step : DayAgentTaskStep}

theorem requireAll_eq_ok {checks : List (Bool × String)} {u : Unit} :
    requireAll checks = .ok u ↔ ∀ check ∈ checks, check.1 = false := by
  rw [← firstReason_eq_nil, requireAll]
  cases firstReason checks <;> simp

theorem validateTask_eq_ok {fields : DayAgentResearchTask} :
    validateTask fields = .ok task ↔ fields = task ∧ fields.fieldsAreValid = true
      ∧ ∀ check ∈ fields.checks, check.1 = false := by
  simp only [validateTask, bind_eq_ok, raiseIf_eq_ok, requireAll_eq_ok, pure_eq_ok, exists_const,
    not_not]
  tauto

theorem validateStep_eq_ok {fields : DayAgentTaskStep} :
    validateStep ctx fields = .ok step ↔ fields = step ∧ fields.fieldsAreValid = true
      ∧ ∀ check ∈ fields.checks ctx, check.1 = false := by
  simp only [validateStep, bind_eq_ok, raiseIf_eq_ok, requireAll_eq_ok, pure_eq_ok, exists_const,
    not_not]
  tauto

/-- A task as its record accepts it. -/
def DayAgentResearchTask.IsValid (task : DayAgentResearchTask) : Prop :=
  validateTask task = .ok task

/-- A step as its record accepts it. -/
def DayAgentTaskStep.IsValid (ctx : DayAgentContext) (step : DayAgentTaskStep) : Prop :=
  validateStep ctx step = .ok step

instance : Decidable task.IsValid := inferInstanceAs (Decidable (validateTask task = .ok task))

instance : Decidable (step.IsValid ctx) :=
  inferInstanceAs (Decidable (validateStep ctx step = .ok step))

theorem taskFromRow_eq (h : task.IsValid) : taskFromRow task = .ok task := by
  rw [taskFromRow, h]

theorem stepFromRow_eq (h : step.IsValid ctx) : stepFromRow ctx step = .ok step := by
  rw [stepFromRow, h]

theorem isValid_of_validateStep {fields : DayAgentTaskStep}
    (h : validateStep ctx fields = .ok step) : fields = step ∧ step.IsValid ctx := by
  obtain ⟨rfl, -, -⟩ := validateStep_eq_ok.1 h
  exact ⟨rfl, h⟩

theorem DayAgentTaskStep.IsValid.budget (h : step.IsValid ctx) : step.budget.isValid = true := by
  obtain ⟨-, hfields, -⟩ := validateStep_eq_ok.1 h
  simp only [DayAgentTaskStep.fieldsAreValid, decide_eq_true_eq] at hfields
  exact hfields.2.2.2.2.1

/-- The checks of the state are the same for a task as for its latest step, up to their names. -/
theorem stateChecks_label {state : DayAgentTaskState} {budget : DayAgentBudget}
    {wake : Option Instant} {terminal : Option String} {label label' : String}
    (h : ∀ check ∈ stateChecks state budget wake terminal label, check.1 = false) :
    ∀ check ∈ stateChecks state budget wake terminal label', check.1 = false := by
  cases state <;> simpa [stateChecks] using h

end Validation

/-! ## What is stored -/

/-- A task as its steps left it. -/
def current (task : DayAgentResearchTask) (steps : List DayAgentTaskStep) : DayAgentResearchTask :=
  match steps.getLast? with
  | none => task
  | some latest => updated task steps latest

section Current

variable {task : DayAgentResearchTask} {steps : List DayAgentTaskStep} {step : DayAgentTaskStep}

@[simp] theorem current_nil : current task [] = task := rfl

@[simp] theorem current_concat :
    current task (steps ++ [step]) = updated task (steps ++ [step]) step := by
  rw [current, List.getLast?_concat]

@[simp] theorem updated_state : (updated task steps step).state = step.state := rfl

@[simp] theorem updated_budget : (updated task steps step).budget = step.budget := rfl

@[simp] theorem current_taskId : (current task steps).taskId = task.taskId := by
  rcases List.eq_nil_or_concat' steps with rfl | ⟨before, latest, rfl⟩
  · rfl
  · rw [current_concat, updated]

theorem current_updatedAt :
    (current task steps).updatedAt = (steps.getLast?.map (·.occurredAt)).getD task.updatedAt := by
  rcases List.eq_nil_or_concat' steps with rfl | ⟨before, latest, rfl⟩
  · rfl
  · rw [current_concat, List.getLast?_concat, updated, Option.map_some, Option.getD_some]

theorem current_budget :
    (current task steps).budget = (steps.getLast?.map (·.budget)).getD task.budget := by
  rcases List.eq_nil_or_concat' steps with rfl | ⟨before, latest, rfl⟩
  · rfl
  · rw [current_concat, List.getLast?_concat, updated, Option.map_some, Option.getD_some]

end Current

/-- One budget is within another one. -/
def DayAgentBudget.IsWithin (budget previous : DayAgentBudget) : Prop :=
  budget.remainingModelCalls ≤ previous.remainingModelCalls ∧
    budget.remainingToolCalls ≤ previous.remainingToolCalls ∧
    budget.remainingRuntimeSeconds ≤ previous.remainingRuntimeSeconds

variable {ctx : DayAgentContext} {db later : DayAgentTaskDatabase} {task : DayAgentResearchTask}
  {steps : List DayAgentTaskStep} {step : DayAgentTaskStep} {taskId : String}

/-- The steps that may follow some others. -/
structure Admissible (ctx : DayAgentContext) (task : DayAgentResearchTask)
    (steps : List DayAgentTaskStep) (step : DayAgentTaskStep) : Prop where
  valid : step.IsValid ctx
  sequence : step.sequence = steps.length + 1
  active : (current task steps).state.isTerminal = false
  since : (current task steps).updatedAt ≤ step.occurredAt
  within : step.budget.IsWithin (current task steps).budget

theorem requireStepProgress_eq_ok :
    requireStepProgress task steps step = .ok () ↔
      (current task steps).updatedAt ≤ step.occurredAt ∧
        step.budget.IsWithin (current task steps).budget := by
  simp only [requireStepProgress, current_updatedAt, current_budget, DayAgentBudget.IsWithin,
    bind_eq_ok, raiseIf_eq_ok, exists_const, not_or, not_lt, gt_iff_lt]

theorem sequence_of_requireAppendable (h : requireAppendable task steps step = .ok ()) :
    step.sequence = steps.length + 1 ∧ (current task steps).state.isTerminal = false := by
  simp only [requireAppendable, bind_eq_ok, raiseIf_eq_ok, exists_const, not_not] at h
  obtain ⟨hbase, hsequence, hlast⟩ := h
  refine ⟨hsequence, ?_⟩
  rcases List.eq_nil_or_concat' steps with rfl | ⟨before, latest, rfl⟩
  · simpa using hbase
  · rw [List.getLast?_concat] at hlast
    rw [current_concat, updated]
    cases hstate : latest.state <;> simp_all [DayAgentTaskState.isTerminal]

/-- What the tables hold: each task with the steps that may be taken in it. -/
structure WellFormed (ctx : DayAgentContext) (db : DayAgentTaskDatabase) : Prop where
  ids : (db.dayTasks.map (·.taskId)).Nodup
  tasks : ∀ task ∈ db.dayTasks, task.IsValid
  known : ∀ step ∈ db.dayTaskSteps, ∃ task ∈ db.dayTasks, task.taskId = step.taskId
  histories : ∀ task ∈ db.dayTasks,
    Admitted (Admissible ctx task) (history (·.taskId) db.dayTaskSteps task.taskId)

theorem wellFormed_empty : WellFormed ctx {} where
  ids := .nil
  tasks := by simp
  known := by simp
  histories := by simp

/-- The steps are numbered in their order. -/
theorem pairwise_sequence (h : Admitted (Admissible ctx task) steps) :
    steps.Pairwise fun a b => a.sequence ≤ b.sequence := by
  have htrans : IsTrans DayAgentTaskStep fun a b => a.sequence ≤ b.sequence :=
    ⟨fun _ _ _ => le_trans⟩
  refine (h.isChain fun m b a hm ha => ?_).pairwise
  have hb := (admitted_concat.1 hm).2.sequence
  have ha := ha.sequence
  rw [List.length_append, List.length_singleton] at ha
  omega

theorem isValid_of_admitted (h : Admitted (Admissible ctx task) steps) :
    ∀ step ∈ steps, step.IsValid ctx :=
  h.forall_mem fun _ _ _ _ ha => ha.valid

theorem createdAt_le (hvalid : task.IsValid) (h : Admitted (Admissible ctx task) steps) :
    task.createdAt ≤ (current task steps).updatedAt := by
  induction h with
  | nil =>
    obtain ⟨-, -, hchecks⟩ := validateTask_eq_ok.1 hvalid
    have htimes := hchecks _ (List.mem_append_left _ (List.mem_cons_of_mem _
      (List.mem_cons_of_mem _ (List.mem_cons_of_mem _ List.mem_cons_self))))
    simpa using htimes
  | concat h ha ih =>
    rw [current_concat, updated]
    exact ih.trans ha.since

theorem latestOf_all {α : Type} {field : DayAgentTaskStep → Option α} {P : α → Bool}
    {initial : Option α} (hinitial : initial.all P = true)
    (hsteps : ∀ step ∈ steps, (field step).all P = true) :
    (latestOf field initial steps).all P = true := by
  induction steps generalizing initial with
  | nil => exact hinitial
  | cons step steps ih =>
    refine ih ?_ fun s hs => hsteps s (List.mem_cons_of_mem step hs)
    have hstep := hsteps step List.mem_cons_self
    cases hfield : field step with
    | none => simpa [hfield] using hinitial
    | some a => simpa [hfield] using hstep

theorem latestOf_getD {α : Type} {field : DayAgentTaskStep → Option α} {P : α → Bool} {a : α}
    (ha : P a = true) (hsteps : ∀ step ∈ steps, (field step).all P = true) :
    P ((latestOf field none steps).getD a) = true := by
  have hall := latestOf_all (P := P) (Option.all_none) hsteps
  cases hset : latestOf field none steps with
  | none => exact ha
  | some b => simpa [hset] using hall

/-- The record of a task is accepted after its steps. -/
theorem isValid_current (hvalid : task.IsValid) (h : Admitted (Admissible ctx task) steps) :
    (current task steps).IsValid := by
  rcases List.eq_nil_or_concat' steps with rfl | ⟨before, latest, rfl⟩
  · exact hvalid
  have hsteps := isValid_of_admitted h
  have hcreated := createdAt_le hvalid h
  rw [current_concat] at hcreated ⊢
  -- Each field is one of the task, or of a step.
  have hfield : ∀ step ∈ before ++ [latest], step.currentHypothesis.all (·.length ≤ 4000) = true ∧
      step.falsificationConditions.all (fun l => l.length ≤ 32 ∧ notSortedUnique l = false) = true ∧
      step.openQuestions.all (fun l => l.length ≤ 32 ∧ notSortedUnique l = false) = true ∧
      step.resumeCondition.all (·.length ≤ 2000) = true := by
    intro step hstep
    obtain ⟨-, hfields, hchecks⟩ := validateStep_eq_ok.1 (hsteps step hstep)
    simp only [DayAgentTaskStep.fieldsAreValid, decide_eq_true_eq] at hfields
    simp only [DayAgentTaskStep.checks, List.cons_append, List.forall_mem_cons] at hchecks
    obtain ⟨-, -, -, -, -, -, hhypothesis, hfalsification, hquestions, hresume⟩ := hfields
    obtain ⟨-, -, hfalsification', hquestions', -⟩ := hchecks
    refine ⟨hhypothesis, ?_, ?_, hresume⟩
    · cases hset : step.falsificationConditions <;> simp_all
    · cases hset : step.openQuestions <;> simp_all
  obtain ⟨-, htask, htaskChecks⟩ := validateTask_eq_ok.1 hvalid
  obtain ⟨-, hlatest, hlatestChecks⟩ :=
    validateStep_eq_ok.1 (hsteps latest List.mem_concat_self)
  simp only [DayAgentResearchTask.fieldsAreValid, decide_eq_true_eq] at htask
  simp only [DayAgentTaskStep.fieldsAreValid, decide_eq_true_eq] at hlatest
  simp only [DayAgentResearchTask.checks, List.cons_append, List.forall_mem_cons] at htaskChecks
  simp only [DayAgentTaskStep.checks, List.cons_append, List.forall_mem_cons] at hlatestChecks
  obtain ⟨hid, hobjective, hquestion, hhypothesis, hlengthF, hlengthQ, hresume, -, -, -⟩ := htask
  obtain ⟨-, -, -, hrefs, hbudget, hterminal, -⟩ := hlatest
  obtain ⟨-, hsortedF, hsortedQ, -, -⟩ := htaskChecks
  obtain ⟨-, hsortedRefs, -, -, hstate⟩ := hlatestChecks
  have hfalsification := latestOf_getD (a := task.falsificationConditions)
    (P := fun l => l.length ≤ 32 ∧ notSortedUnique l = false) (by simp_all)
    fun s hs => (hfield s hs).2.1
  have hquestions := latestOf_getD (a := task.openQuestions)
    (P := fun l => l.length ≤ 32 ∧ notSortedUnique l = false) (by simp_all)
    fun s hs => (hfield s hs).2.2.1
  simp only [decide_eq_true_eq] at hfalsification hquestions
  refine validateTask_eq_ok.2 ⟨rfl, ?_, ?_⟩
  · exact decide_eq_true ⟨hid, hobjective, hquestion,
      latestOf_all hhypothesis fun s hs => (hfield s hs).1, hfalsification.1, hquestions.1,
      latestOf_all hresume fun s hs => (hfield s hs).2.2.2, hrefs, hbudget, hterminal⟩
  · simp only [DayAgentResearchTask.checks, List.cons_append, List.forall_mem_cons, updated]
    exact ⟨hsortedRefs, hfalsification.2, hquestions.2, decide_eq_false (not_lt.2 hcreated),
      stateChecks_label hstate⟩

theorem projectTask_eq (hvalid : task.IsValid) (h : Admitted (Admissible ctx task) steps) :
    projectTask task steps = .ok (current task steps) := by
  have hcurrent := isValid_current hvalid h
  rcases List.eq_nil_or_concat' steps with rfl | ⟨before, latest, rfl⟩
  · rfl
  · rw [projectTask, List.getLast?_concat]
    rw [current_concat] at hcurrent ⊢
    exact hcurrent

namespace WellFormed

theorem mem_of_taskRow (h : db.taskRow taskId = some task) :
    task ∈ db.dayTasks ∧ task.taskId = taskId :=
  ⟨List.mem_of_find?_eq_some h, by simpa using List.find?_some h⟩

theorem admitted (h : WellFormed ctx db) (hrow : db.taskRow taskId = some task) :
    Admitted (Admissible ctx task) (history (·.taskId) db.dayTaskSteps taskId) := by
  obtain ⟨hmem, rfl⟩ := mem_of_taskRow hrow
  exact h.histories task hmem

theorem history_eq_nil (h : WellFormed ctx db) (hrow : db.taskRow taskId = none) :
    history (·.taskId) db.dayTaskSteps taskId = [] := by
  refine List.filter_eq_nil_iff.2 fun step hstep => ?_
  obtain ⟨task, htask, hid⟩ := h.known step hstep
  have hother := List.find?_eq_none.1 hrow task htask
  rwa [hid] at hother

theorem stepsForTask_eq (h : WellFormed ctx db) (taskId : String) :
    db.stepsForTask ctx taskId = .ok (history (·.taskId) db.dayTaskSteps taskId) := by
  cases hrow : db.taskRow taskId with
  | none =>
    rw [DayAgentTaskDatabase.stepsForTask, h.history_eq_nil hrow]
    rfl
  | some task =>
    have hadmitted := h.admitted hrow
    rw [DayAgentTaskDatabase.stepsForTask, (pairwise_sequence hadmitted).insertionSort_eq]
    exact mapM_self fun step hstep => stepFromRow_eq (isValid_of_admitted hadmitted step hstep)

/-- Every task can be read, as its steps left it. -/
theorem readTask_eq (h : WellFormed ctx db) (taskId : String) :
    db.readTask ctx taskId = .ok ((db.taskRow taskId).map fun task =>
      current task (history (·.taskId) db.dayTaskSteps taskId)) := by
  cases hrow : db.taskRow taskId with
  | none => rw [DayAgentTaskDatabase.readTask, hrow, Option.map_none]
  | some task =>
    obtain ⟨hmem, hid⟩ := mem_of_taskRow hrow
    rw [DayAgentTaskDatabase.readTask, hrow, Option.map_some]
    change (taskFromRow task >>= _) = _
    rw [taskFromRow_eq (h.tasks task hmem), ok_bind, h.stepsForTask_eq, hid, ok_bind,
      projectTask_eq (h.tasks task hmem) (h.admitted hrow)]
    rfl

end WellFormed

/-- What a new task changes. -/
theorem createTask_cases {inserted : Bool} (h : createTask task db = .ok (inserted, later)) :
    (inserted = false ∧ later = db ∧ db.taskRow task.taskId = some task) ∨
    (inserted = true ∧ db.taskRow task.taskId = none ∧
      later = { db with dayTasks := db.dayTasks ++ [task] }) := by
  rw [createTask] at h
  cases hrow : db.taskRow task.taskId with
  | none =>
    rw [hrow] at h
    cases h
    exact .inr ⟨rfl, rfl, rfl⟩
  | some existing =>
    rw [hrow] at h
    by_cases hsame : existing = task
    · simp only [if_pos hsame] at h
      cases h
      exact .inl ⟨rfl, rfl, hsame ▸ rfl⟩
    · simp only [if_neg hsame] at h
      cases h

theorem WellFormed.createTask (h : WellFormed ctx db) (hvalid : task.IsValid)
    (hnew : db.taskRow task.taskId = none) :
    WellFormed ctx { db with dayTasks := db.dayTasks ++ [task] } where
  ids := nodup_map_concat h.ids hnew
  tasks := by
    intro t ht
    rcases List.mem_append.1 ht with ht | ht
    · exact h.tasks t ht
    · rwa [List.mem_singleton.1 ht]
  known := by
    intro step hstep
    obtain ⟨t, ht, hid⟩ := h.known step hstep
    exact ⟨t, List.mem_append_left _ ht, hid⟩
  histories := by
    intro t ht
    rcases List.mem_append.1 ht with ht | ht
    · exact h.histories t ht
    · rw [List.mem_singleton.1 ht, h.history_eq_nil hnew]
      exact .nil

/-- What a step changes. -/
theorem WellFormed.appendStep_cases (h : WellFormed ctx db) {inserted : Bool}
    (hvalid : step.IsValid ctx) (happend : appendStep ctx step db = .ok (inserted, later)) :
    ∃ task, db.taskRow step.taskId = some task ∧
      ((inserted = false ∧ later = db ∧ step ∈ db.dayTaskSteps) ∨
        (inserted = true ∧
          Admissible ctx task (history (·.taskId) db.dayTaskSteps step.taskId) step ∧
          later = { db with dayTaskSteps := db.dayTaskSteps ++ [step] })) := by
  rw [appendStep] at happend
  cases hrow : db.taskRow step.taskId with
  | none =>
    rw [hrow] at happend
    cases happend
  | some task =>
    obtain ⟨hmem, hid⟩ := mem_of_taskRow hrow
    rw [hrow] at happend
    simp only [taskFromRow_eq (h.tasks task hmem), ok_bind] at happend
    refine ⟨task, rfl, ?_⟩
    split at happend
    · rename_i existing hfind
      by_cases hsame : existing = step
      · rw [if_pos hsame] at happend
        cases happend
        exact .inl ⟨rfl, rfl, hsame ▸ List.mem_of_find?_eq_some hfind⟩
      · rw [if_neg hsame] at happend
        cases happend
    · simp only [h.stepsForTask_eq, hid, ok_bind, bind_eq_ok, raiseIf_eq_ok] at happend
      obtain ⟨⟨⟩, hprogress, ⟨⟩, happendable, ⟨⟩, -, hlater⟩ := happend
      cases hlater
      obtain ⟨hsince, hwithin⟩ := requireStepProgress_eq_ok.1 hprogress
      obtain ⟨hsequence, hactive⟩ := sequence_of_requireAppendable happendable
      exact .inr ⟨rfl, ⟨hvalid, hsequence, hactive, hsince, hwithin⟩, rfl⟩

theorem WellFormed.appendStep (h : WellFormed ctx db) (hrow : db.taskRow step.taskId = some task)
    (hadmissible : Admissible ctx task (history (·.taskId) db.dayTaskSteps step.taskId) step) :
    WellFormed ctx { db with dayTaskSteps := db.dayTaskSteps ++ [step] } := by
  obtain ⟨hmem, hid⟩ := mem_of_taskRow hrow
  refine ⟨h.ids, h.tasks, fun s hs => ?_, fun t ht => ?_⟩
  · rcases List.mem_append.1 hs with hs | hs
    · exact h.known s hs
    · exact ⟨task, hmem, by rw [List.mem_singleton.1 hs, hid]⟩
  · rw [history_concat]
    split_ifs with hstep
    · -- It is the task of the step.
      obtain rfl : t = task := by
        have hrow' : db.taskRow t.taskId = some t := find?_key_of_mem h.ids ht
        rw [← hstep] at hrow'
        exact Option.some.inj (hrow'.symm.trans hrow)
      rw [← hstep]
      exact (h.admitted hrow).concat hadmissible
    · exact h.histories t ht

end TradingAgent.DayAgent
