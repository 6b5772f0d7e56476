import TradingAgent.AutonomousTask.Store

/-!
# When the store of tasks can be read

Before a step is appended, the task is projected through its steps, but not through the new one.
The readers do project it through the new one.

* What the writer accepts keeps the store well formed (`isWellFormed_of_reachable`).
* An event that is accepted leaves a store that can be read exactly if it could be read before and
  the step of the event fits its task (`write_readable_iff`).
* A step that does not fit is accepted nevertheless, and then neither its task nor the list of all
  tasks can be read (`TaskSample.completed_task_is_unreadable`).
-/

namespace TradingAgent

open Transition

/-- A store that the readers can read. -/
structure AutonomousTaskStore.IsReadable (ctx : TaskContext) (store : AutonomousTaskStore) :
    Prop where
  tasks : ∃ tasks, store.readTasks ctx = .ok tasks
  task : ∀ taskId, ∃ task, store.readTask ctx taskId = .ok task
  runnable : ∀ now : DateTime, now.aware = true → ∀ events, ∃ tasks,
    store.readRunnable ctx now events = .ok tasks

/-- If an event adds a step, it fits its task. -/
def EventFits (ctx : TaskContext) (store : AutonomousTaskStore) : TaskStoreEvent → Prop
  | .createTask _ => True
  | .createTaskWithInitialStep task step => store.existingTask task = none → StepFits task step
  | .appendStep step => store.existingStep ctx step = none →
    ∀ task, store.readTask ctx step.taskId = .ok (some task) → StepFits task step

/-- The runs whose steps all fit. -/
def fittingStoreSystem (ctx : TaskContext) : System AutonomousTaskStore TaskStoreEvent where
  init := (taskStoreSystem ctx).init
  step store event store' :=
    EventFits ctx store event ∧ (taskStoreSystem ctx).step store event store'

structure AutonomousTaskStore.IsWellFormed (ctx : TaskContext) (store : AutonomousTaskStore) :
    Prop where
  tasksValid : ∀ row ∈ store.taskRows, row.IsValid ctx
  stepsValid : ∀ row ∈ store.stepRows, row.IsValid ctx
  keyed : (store.taskRows.map (·.taskId)).Nodup
  known : ∀ step ∈ store.stepRows, ∃ task ∈ store.taskRows, task.taskId = step.taskId
  steps : ∀ task ∈ store.taskRows, ∀ step ∈ store.stepsOf task.taskId,
    step.IsOf task ∧ task.updatedAt ≤ step.occurredAt
  numbered : ∀ taskId, (store.stepsOf taskId).map (·.sequence) =
    (List.range (store.stepsOf taskId).length).map fun n : ℕ => (n : ℤ) + 1

section

variable {ctx : TaskContext} {store store' : AutonomousTaskStore}
  {task : AutonomousResearchTask} {step : AutonomousTaskStep} {new : Bool}

theorem AutonomousResearchTask.IsValid.created_le (h : task.IsValid ctx) :
    task.createdAt ≤ task.updatedAt := by
  have hchecks := (AutonomousResearchTask.isValid_iff.1 h).2.2
  rw [AutonomousResearchTask.checks, List.forall_mem_append] at hchecks
  simp only [List.forall_mem_cons, decide_eq_false_iff_not] at hchecks
  exact DateTime.not_lt.1 hchecks.1.2.2.2.2.2.2.2.2.2.1

theorem readerConnection_eq_ok {α : Type} {result : Except TaskError α} {a : α} :
    AutonomousTaskStore.readerConnection result = .ok a ↔ result = .ok a := by
  rcases result with (_ | _ | _ | _) | _ <;> simp [AutonomousTaskStore.readerConnection]

/-! ## What the operations do -/

theorem createTask_cases (h : store.createTask task = .ok (new, store')) :
    store.existingTask task ≠ none ∧ store' = store
      ∨ store.existingTask task = none
        ∧ store' = { store with taskRows := store.taskRows ++ [task] } := by
  rw [AutonomousTaskStore.createTask] at h
  cases hexisting : store.existingTask task with
  | none =>
    rw [hexisting] at h
    cases h
    exact .inr ⟨rfl, rfl⟩
  | some row =>
    rw [hexisting] at h
    simp only [Except.bind_eq_ok, Except.pure_eq_ok] at h
    obtain ⟨-, -, h⟩ := h
    cases h
    exact .inl ⟨Option.some_ne_none row, rfl⟩

theorem requireAppendable_eq_ok {steps : List AutonomousTaskStep} {u : Unit}
    (h : requireAppendable ctx task steps step = .ok u) :
    ∃ projected, projectTask ctx task steps = .ok projected
      ∧ projected.state ∉ TERMINAL_STATES
      ∧ step.sequence = steps.length + 1
      ∧ (steps.getLast?.map (·.occurredAt)).getD task.updatedAt ≤ step.occurredAt := by
  simp only [requireAppendable, Except.bind_eq_ok, Except.raiseIf_eq_ok, exists_const,
    not_not, DateTime.not_lt] at h
  exact h

theorem createTaskWithInitialStep_cases
    (h : store.createTaskWithInitialStep ctx task step = .ok (new, store')) :
    store.existingTask task ≠ none ∧ store' = store
      ∨ store.existingTask task = none ∧ step.IsOf task ∧ step.sequence = 1
        ∧ task.updatedAt ≤ step.occurredAt
        ∧ store' = ⟨store.taskRows ++ [task], store.stepRows ++ [step]⟩ := by
  rw [AutonomousTaskStore.createTaskWithInitialStep] at h
  obtain ⟨u, hof, h⟩ := Except.bind_eq_ok.1 h
  obtain ⟨v, happendable, h⟩ := Except.bind_eq_ok.1 h
  obtain ⟨-, -, -, hsequence, htime⟩ := requireAppendable_eq_ok happendable
  cases hexisting : store.existingTask task with
  | none =>
    cases hstep : store.existingStep ctx step with
    | none =>
      rw [hexisting, hstep] at h
      cases h
      exact .inr ⟨rfl, validateAutonomousStepProjection_eq_ok.1 hof, by simpa using hsequence,
        htime, rfl⟩
    | some stepRow =>
      rw [hexisting, hstep] at h
      cases h
  | some row =>
    refine .inl ⟨nofun, ?_⟩
    cases hstep : store.existingStep ctx step with
    | none =>
      rw [hexisting, hstep] at h
      cases h
    | some stepRow =>
      rw [hexisting, hstep] at h
      obtain ⟨-, -, h⟩ := Except.bind_eq_ok.1 h
      cases h
      rfl

namespace AutonomousTaskStore.IsWellFormed

theorem stepsForTask_eq (h : store.IsWellFormed ctx) (taskId : String) :
    store.stepsForTask ctx taskId = .ok (store.stepsOf taskId) := by
  have hsorted : (store.stepsOf taskId).Pairwise (·.sequence ≤ ·.sequence) := by
    rw [← List.pairwise_map, h.numbered taskId, List.pairwise_map]
    exact List.pairwise_lt_range.imp fun hlt => by omega
  rw [stepsForTask, hsorted.insertionSort_eq]
  refine Except.mapM_self fun row hrow => ?_
  exact if_pos (h.stepsValid row (List.mem_of_mem_filter hrow))

theorem projectRow_eq (h : store.IsWellFormed ctx) (htask : task ∈ store.taskRows) :
    store.projectRow ctx task = projectTask ctx task (store.stepsOf task.taskId) := by
  have hrow : taskFromRow ctx task = .ok task := if_pos (h.tasksValid task htask)
  rw [projectRow, hrow, Except.ok_bind, h.stepsForTask_eq, Except.ok_bind]

theorem find?_task (h : store.IsWellFormed ctx) (htask : task ∈ store.taskRows) :
    store.taskRows.find? (·.taskId = task.taskId) = some task := by
  rw [← List.head?_filter, filter_key_eq_singleton h.keyed htask]
  rfl

theorem readTask_eq (h : store.IsWellFormed ctx) (htask : task ∈ store.taskRows)
    {projected : AutonomousResearchTask} (hprojected : store.projectRow ctx task = .ok projected) :
    store.readTask ctx task.taskId = .ok (some projected) := by
  rw [readTask, taskForConnection, h.find?_task htask]
  dsimp only
  rw [hprojected]
  rfl

/-- A store can be read exactly if each of its tasks can be projected. -/
theorem isReadable_iff (h : store.IsWellFormed ctx) : store.IsReadable ctx
    ↔ ∀ task ∈ store.taskRows, ∃ projected, store.projectRow ctx task = .ok projected := by
  have hall : (∃ tasks, store.readTasks ctx = .ok tasks) ↔ ∀ task ∈ store.taskRows,
      ∃ projected, store.projectRow ctx task = .ok projected := by
    simp only [readTasks, readerConnection_eq_ok, tasksForConnection, Except.exists_mapM_eq_ok,
      List.mem_insertionSort]
  refine ⟨fun hreadable => hall.1 hreadable.tasks, fun hprojected => ?_⟩
  obtain ⟨tasks, htasks⟩ := hall.2 hprojected
  refine ⟨⟨tasks, htasks⟩, fun taskId => ?_, fun now hnow events => ?_⟩
  · cases hfind : store.taskRows.find? (·.taskId = taskId) with
    | none => exact ⟨none, by rw [readTask, taskForConnection, hfind]; rfl⟩
    | some task =>
      have htask := List.mem_of_find?_eq_some hfind
      obtain ⟨projected, hprojected⟩ := hprojected task htask
      have hid : task.taskId = taskId := by simpa using List.find?_some hfind
      exact ⟨some projected, hid ▸ h.readTask_eq htask hprojected⟩
  · rw [readRunnable, htasks, Except.raiseIf, if_neg (not_not.2 hnow)]
    exact ⟨_, rfl⟩

end AutonomousTaskStore.IsWellFormed

/-- What appending a step does. -/
theorem appendStep_cases (hstore : store.IsWellFormed ctx)
    (h : store.appendStep ctx step = .ok (new, store')) :
    store.existingStep ctx step ≠ none ∧ store' = store
      ∨ store.existingStep ctx step = none ∧ ∃ task ∈ store.taskRows, step.IsOf task
        ∧ (∃ projected, store.projectRow ctx task = .ok projected)
        ∧ step.sequence = (store.stepsOf task.taskId).length + 1
        ∧ task.updatedAt ≤ step.occurredAt
        ∧ store' = { store with stepRows := store.stepRows ++ [step] } := by
  rw [AutonomousTaskStore.appendStep] at h
  cases hfind : store.taskRows.find? (·.taskId = step.taskId) with
  | none =>
    rw [hfind] at h
    cases h
  | some task =>
    have htask := List.mem_of_find?_eq_some hfind
    rw [hfind] at h
    dsimp only at h
    rw [show taskFromRow ctx task = .ok task from if_pos (hstore.tasksValid task htask),
      Except.ok_bind] at h
    cases hexisting : store.existingStep ctx step with
    | some row =>
      rw [hexisting] at h
      obtain ⟨-, -, h⟩ := Except.bind_eq_ok.1 h
      cases h
      exact .inl ⟨nofun, rfl⟩
    | none =>
      rw [hexisting] at h
      dsimp only at h
      rw [hstore.stepsForTask_eq, Except.ok_bind] at h
      obtain ⟨u, happendable, h⟩ := Except.bind_eq_ok.1 h
      obtain ⟨v, hof, h⟩ := Except.bind_eq_ok.1 h
      cases h
      obtain ⟨projected, hprojected, -, hsequence, htime⟩ := requireAppendable_eq_ok happendable
      refine .inr ⟨rfl, task, htask, validateAutonomousStepProjection_eq_ok.1 hof,
        ⟨projected, hstore.projectRow_eq htask ▸ hprojected⟩, hsequence, ?_, rfl⟩
      -- The last step is not before the task.
      cases hlast : (store.stepsOf task.taskId).getLast? with
      | none => rwa [hlast] at htime
      | some last =>
        rw [hlast] at htime
        have hafter := (hstore.steps task htask last (List.mem_of_getLast? hlast)).2
        exact DateTime.le_def.2 (le_trans hafter htime)

theorem existingTask_eq_none (h : store.existingTask task = none) :
    ∀ row ∈ store.taskRows, row.taskId ≠ task.taskId := by
  simpa [AutonomousTaskStore.existingTask] using h

/-- A new step is one of its task. -/
theorem stepsOf_append_self (step : AutonomousTaskStep) :
    AutonomousTaskStore.stepsOf { store with stepRows := store.stepRows ++ [step] } step.taskId =
      store.stepsOf step.taskId ++ [step] := by
  simp [AutonomousTaskStore.stepsOf]

theorem stepsOf_append_of_ne {taskId : String} (h : taskId ≠ step.taskId) :
    AutonomousTaskStore.stepsOf { store with stepRows := store.stepRows ++ [step] } taskId =
      store.stepsOf taskId := by
  simp [AutonomousTaskStore.stepsOf, Ne.symm h]

namespace AutonomousTaskStore.IsWellFormed

theorem empty : IsWellFormed ctx {} where
  tasksValid _ h := absurd h List.not_mem_nil
  stepsValid _ h := absurd h List.not_mem_nil
  keyed := List.nodup_nil
  known _ h := absurd h List.not_mem_nil
  steps _ h := absurd h List.not_mem_nil
  numbered _ := rfl

/-- There are no steps of a task that is new. -/
theorem stepsOf_new (h : store.IsWellFormed ctx) (hnew : store.existingTask task = none) :
    store.stepsOf task.taskId = [] := by
  rw [stepsOf, List.filter_eq_nil_iff]
  intro step hstep hid
  obtain ⟨row, hrow, heq⟩ := h.known step hstep
  exact existingTask_eq_none hnew row hrow (heq.trans (of_decide_eq_true hid))

theorem addTask (h : store.IsWellFormed ctx) (hvalid : task.IsValid ctx)
    (hnew : store.existingTask task = none) :
    IsWellFormed ctx { store with taskRows := store.taskRows ++ [task] } where
  tasksValid row hrow := by
    rcases List.mem_append.1 hrow with hrow | hrow
    · exact h.tasksValid row hrow
    · exact List.mem_singleton.1 hrow ▸ hvalid
  stepsValid := h.stepsValid
  keyed := by
    rw [List.map_append, List.map_singleton, List.nodup_append]
    refine ⟨h.keyed, List.nodup_singleton _, fun a ha b hb heq => ?_⟩
    obtain ⟨row, hrow, rfl⟩ := List.mem_map.1 ha
    exact existingTask_eq_none hnew row hrow (heq.trans (List.mem_singleton.1 hb))
  known step hstep := by
    obtain ⟨row, hrow, heq⟩ := h.known step hstep
    exact ⟨row, List.mem_append_left _ hrow, heq⟩
  steps row hrow := by
    rcases List.mem_append.1 hrow with hrow | hrow
    · exact h.steps row hrow
    · rw [List.mem_singleton.1 hrow]
      intro step hstep
      have hnil : store.stepsOf task.taskId = [] := h.stepsOf_new hnew
      exact absurd (hnil ▸ hstep) List.not_mem_nil
  numbered := h.numbered

theorem addStep (h : store.IsWellFormed ctx) (hvalid : step.IsValid ctx)
    (htask : task ∈ store.taskRows) (hof : step.IsOf task)
    (hsequence : step.sequence = (store.stepsOf task.taskId).length + 1)
    (htime : task.updatedAt ≤ step.occurredAt) :
    IsWellFormed ctx { store with stepRows := store.stepRows ++ [step] } where
  tasksValid := h.tasksValid
  stepsValid row hrow := by
    rcases List.mem_append.1 hrow with hrow | hrow
    · exact h.stepsValid row hrow
    · exact List.mem_singleton.1 hrow ▸ hvalid
  keyed := h.keyed
  known row hrow := by
    rcases List.mem_append.1 hrow with hrow | hrow
    · exact h.known row hrow
    · exact ⟨task, htask, List.mem_singleton.1 hrow ▸ hof.taskId.symm⟩
  steps row hrow s hs := by
    by_cases hid : row.taskId = step.taskId
    · have heq : row = task :=
        List.inj_on_of_nodup_map h.keyed hrow htask (hid.trans hof.taskId)
      rw [hid, stepsOf_append_self] at hs
      rcases List.mem_append.1 hs with hs | hs
      · exact h.steps row hrow s (hid ▸ hs)
      · rw [List.mem_singleton.1 hs, heq]
        exact ⟨hof, htime⟩
    · rw [stepsOf_append_of_ne hid] at hs
      exact h.steps row hrow s hs
  numbered taskId := by
    by_cases hid : taskId = step.taskId
    · rw [hid, stepsOf_append_self, List.map_append, h.numbered, List.length_append,
        List.length_singleton, List.range_succ, List.map_append, hof.taskId, List.map_singleton,
        List.map_singleton, hsequence]
    · rw [stepsOf_append_of_ne hid, h.numbered]

/-- What the writer accepts keeps the store well formed. -/
theorem write (h : store.IsWellFormed ctx) {event : TaskStoreEvent} (hvalid : event.IsValid ctx)
    (hwrite : store.write ctx event = .ok (new, store')) : store'.IsWellFormed ctx := by
  cases event with
  | createTask task =>
    rcases createTask_cases hwrite with ⟨-, rfl⟩ | ⟨hnew, rfl⟩
    · exact h
    · exact h.addTask hvalid hnew
  | createTaskWithInitialStep task step =>
    rcases createTaskWithInitialStep_cases hwrite with
      ⟨-, rfl⟩ | ⟨hnew, hof, hsequence, htime, rfl⟩
    · exact h
    · refine (h.addTask hvalid.1 hnew).addStep hvalid.2
        (List.mem_append_right _ (List.mem_singleton_self task)) hof ?_ htime
      have hnil : store.stepsOf task.taskId = [] := h.stepsOf_new hnew
      rw [hsequence, show AutonomousTaskStore.stepsOf
        { store with taskRows := store.taskRows ++ [task] } task.taskId = [] from hnil]
      rfl
  | appendStep step =>
    rcases appendStep_cases h hwrite with
      ⟨-, rfl⟩ | ⟨-, task, htask, hof, -, hsequence, htime, rfl⟩
    · exact h
    · exact h.addStep hvalid htask hof hsequence htime

end AutonomousTaskStore.IsWellFormed

theorem isWellFormed_of_reachable (h : (taskStoreSystem ctx).Reachable store) :
    store.IsWellFormed ctx := by
  refine h.invariant ?_ ?_
  · rintro _ rfl
    exact .empty
  · rintro store event store' - hstore ⟨hvalid, new, hwrite⟩
    exact hstore.write hvalid hwrite

/-! ## Reading after an event -/

namespace AutonomousTaskStore.IsWellFormed

/-- The steps of a task are after it was created. -/
theorem steps_spec (h : store.IsWellFormed ctx) (htask : task ∈ store.taskRows) :
    ∀ step ∈ store.stepsOf task.taskId,
      step.IsValid ctx ∧ step.IsOf task ∧ task.createdAt ≤ step.occurredAt := by
  intro step hstep
  obtain ⟨hof, htime⟩ := h.steps task htask step hstep
  exact ⟨h.stepsValid step (List.mem_of_mem_filter hstep), hof,
    DateTime.le_def.2 (le_trans (h.tasksValid task htask).created_le htime)⟩

/-- A new task is read as it is. -/
theorem projectRow_addTask (h : store.IsWellFormed ctx) (hvalid : task.IsValid ctx)
    (hnew : store.existingTask task = none) :
    projectRow ctx { store with taskRows := store.taskRows ++ [task] } task = .ok task := by
  have hnil : store.stepsOf task.taskId = [] := h.stepsOf_new hnew
  have hmem := List.mem_append_right store.taskRows (List.mem_singleton_self task)
  rw [(h.addTask hvalid hnew).projectRow_eq hmem, show AutonomousTaskStore.stepsOf
    { store with taskRows := store.taskRows ++ [task] } task.taskId = [] from hnil]
  rfl

section

variable (h : store.IsWellFormed ctx) (hvalid : step.IsValid ctx) (htask : task ∈ store.taskRows)
  (hof : step.IsOf task) (hsequence : step.sequence = (store.stepsOf task.taskId).length + 1)
  (htime : task.updatedAt ≤ step.occurredAt)

include h hvalid htask hof hsequence htime

/-- A new step is applied to what its task was read as, if it fits. -/
theorem projectRow_addStep_self {projected later : AutonomousResearchTask}
    (hprojected : store.projectRow ctx task = .ok projected) :
    projectRow ctx { store with stepRows := store.stepRows ++ [step] } task = .ok later
      ↔ StepFits projected step ∧ later = projected.withStep step := by
  rw [h.projectRow_eq htask] at hprojected
  obtain ⟨hprojectedvalid, hcontinues⟩ :=
    projectTask_spec (h.tasksValid task htask) (h.steps_spec htask) hprojected
  have hcreated : projected.createdAt ≤ step.occurredAt := hcontinues.created ▸
    DateTime.le_def.2 (le_trans (h.tasksValid task htask).created_le htime)
  rw [(h.addStep hvalid htask hof hsequence htime).projectRow_eq htask, ← hof.taskId,
    stepsOf_append_self, hof.taskId, projectTask_concat, hprojected, Except.ok_bind]
  exact projectStep_eq_ok_iff hprojectedvalid hvalid (hof.continues hcontinues) hcreated

/-- A new step does not matter to the other tasks. -/
theorem projectRow_addStep_of_ne {row : AutonomousResearchTask} (hrow : row ∈ store.taskRows)
    (hne : row ≠ task) :
    projectRow ctx { store with stepRows := store.stepRows ++ [step] } row =
      store.projectRow ctx row := by
  have hid : row.taskId ≠ step.taskId := fun hid =>
    hne (List.inj_on_of_nodup_map h.keyed hrow htask (hid.trans hof.taskId))
  rw [(h.addStep hvalid htask hof hsequence htime).projectRow_eq hrow, stepsOf_append_of_ne hid,
    h.projectRow_eq hrow]

/-- A new step leaves a store that can be read exactly if it fits what its task is read as. -/
theorem addStep_readable_iff {projected : AutonomousResearchTask}
    (hprojected : store.projectRow ctx task = .ok projected) :
    IsReadable ctx { store with stepRows := store.stepRows ++ [step] }
      ↔ store.IsReadable ctx ∧ StepFits projected step := by
  have hself := fun later =>
    @projectRow_addStep_self _ _ _ _ h hvalid htask hof hsequence htime _ later hprojected
  have hother := @projectRow_addStep_of_ne _ _ _ _ h hvalid htask hof hsequence htime
  rw [(h.addStep hvalid htask hof hsequence htime).isReadable_iff, h.isReadable_iff]
  constructor
  · intro hall
    obtain ⟨later, hlater⟩ := hall task htask
    refine ⟨fun row hrow => ?_, ((hself later).1 hlater).1⟩
    by_cases hne : row = task
    · exact ⟨projected, hne ▸ hprojected⟩
    · rw [← hother hrow hne]
      exact hall row hrow
  · rintro ⟨hall, hfits⟩ row hrow
    by_cases hne : row = task
    · exact ⟨_, hne ▸ (hself _).2 ⟨hfits, rfl⟩⟩
    · rw [hother hrow hne]
      exact hall row hrow

end

/-- A new task does not matter to whether a store can be read. -/
theorem addTask_readable_iff (h : store.IsWellFormed ctx) (hvalid : task.IsValid ctx)
    (hnew : store.existingTask task = none) :
    IsReadable ctx { store with taskRows := store.taskRows ++ [task] } ↔ store.IsReadable ctx := by
  rw [(h.addTask hvalid hnew).isReadable_iff, h.isReadable_iff, List.forall_mem_append,
    List.forall_mem_singleton]
  exact and_iff_left ⟨task, h.projectRow_addTask hvalid hnew⟩

end AutonomousTaskStore.IsWellFormed

/-- **When an event leaves a store that can be read**: if it could be read before, and the step of
    the event fits its task. -/
theorem write_readable_iff (h : store.IsWellFormed ctx) {event : TaskStoreEvent}
    (hvalid : event.IsValid ctx) (hwrite : store.write ctx event = .ok (new, store')) :
    store'.IsReadable ctx ↔ store.IsReadable ctx ∧ EventFits ctx store event := by
  cases event with
  | createTask task =>
    rw [EventFits, and_true]
    rcases createTask_cases hwrite with ⟨-, rfl⟩ | ⟨hnew, rfl⟩
    · rfl
    · exact h.addTask_readable_iff hvalid hnew
  | createTaskWithInitialStep task step =>
    rw [EventFits]
    rcases createTaskWithInitialStep_cases hwrite with
      ⟨hold, rfl⟩ | ⟨hnew, hof, hsequence, htime, rfl⟩
    · exact (and_iff_left fun hnew => absurd hnew hold).symm
    · have hadd := h.addTask hvalid.1 hnew
      have hnil : AutonomousTaskStore.stepsOf
          { store with taskRows := store.taskRows ++ [task] } task.taskId = [] :=
        h.stepsOf_new hnew
      have htask := List.mem_append_right store.taskRows (List.mem_singleton_self task)
      rw [← h.addTask_readable_iff hvalid.1 hnew, forall_prop_of_true hnew]
      refine hadd.addStep_readable_iff hvalid.2 htask hof ?_ htime
        (h.projectRow_addTask hvalid.1 hnew)
      rw [hnil, hsequence]
      rfl
  | appendStep step =>
    rw [EventFits]
    rcases appendStep_cases h hwrite with
      ⟨hold, rfl⟩ | ⟨hnew, task, htask, hof, ⟨projected, hprojected⟩, hsequence, htime, rfl⟩
    · exact (and_iff_left fun hnew => absurd hnew hold).symm
    · have hread : store.readTask ctx step.taskId = .ok (some projected) := by
        rw [hof.taskId, h.readTask_eq htask hprojected]
      rw [h.addStep_readable_iff hvalid htask hof hsequence htime hprojected,
        forall_prop_of_true hnew]
      refine and_congr_right fun _ => ⟨fun hfits task htask => ?_, fun hfits => hfits _ hread⟩
      rw [hread] at htask
      cases htask
      exact hfits

/-- **The store of tasks stays readable** in every run whose steps fit their tasks; and there, an
    event that is accepted leaves a store that can be read exactly if its step fits. -/
theorem reachable_readable (h : (fittingStoreSystem ctx).Reachable store) :
    store.IsReadable ctx ∧ ∀ event new store', event.IsValid ctx →
      store.write ctx event = .ok (new, store') →
        (store'.IsReadable ctx ↔ EventFits ctx store event) := by
  have hinv : store.IsWellFormed ctx ∧ store.IsReadable ctx := by
    refine h.invariant (P := fun store => store.IsWellFormed ctx ∧ store.IsReadable ctx) ?_ ?_
    · rintro _ rfl
      exact ⟨.empty, AutonomousTaskStore.IsWellFormed.empty.isReadable_iff.2
        fun _ h => absurd h List.not_mem_nil⟩
    · rintro store event store' - ⟨hstore, hreadable⟩ ⟨hfits, hvalid, new, hwrite⟩
      exact ⟨hstore.write hvalid hwrite,
        (write_readable_iff hstore hvalid hwrite).2 ⟨hreadable, hfits⟩⟩
  refine ⟨hinv.2, fun event new store' hvalid hwrite => ?_⟩
  rw [write_readable_iff hinv.1 hvalid hwrite]
  exact and_iff_right hinv.2

end

namespace TaskSample

def root : String := "aaaaaaaaaaaaaaaaaaaaaaaaaaaaaaaaaaaaaaaaaaaaaaaaaaaaaaaaaaaaaaaa"

def taskId : String := "14660bc7e18199d3561cf7c1b13ab88a46ac8d218e8bce6cadc7f0baefe83e56"

def ctx : TaskContext where
  sha256 _ := taskId
  stepSha256 step := if step.sequence = 1 then "STEP1" else "STEP2"
  canonicalJson text := some text

def start : DateTime := .utc (Date.ofCivil 2026 8 26).start

def task : AutonomousResearchTask where
  taskId
  goal := "Observe the market."
  ownerRole := .supervisor
  agentFamilyId := .dayTrading
  marketScope := .krEquities
  state := .queued
  priority := 50
  rootSourceEvidenceId := root
  sourceEvidenceIds := [root]
  evidenceRefs := ["evidence:a"]
  currentPlan := ["observe_market"]
  pendingActions := ["no_trade"]
  agentVersion := "supervisor-v1"
  createdAt := start
  updatedAt := start

def step (state : AutonomousTaskState) (terminalReason : Option String) : AutonomousTaskStep where
  taskId
  sequence := 1
  role := .marketObserver
  agentFamilyId := .dayTrading
  marketScope := .krEquities
  rootSourceEvidenceId := root
  agentVersion := "supervisor-v1"
  state
  sourceEvidenceIds := [root]
  evidenceRefs := ["evidence:a"]
  budget := ⟨12, 24, 300⟩
  occurredAt := start
  terminalReason

/-- The store that has admitted the task. -/
def admitted : AutonomousTaskStore := ⟨[task], []⟩

theorem task_isValid : task.IsValid ctx := by
  rw [AutonomousResearchTask.IsValid]
  decide +kernel

/-- The task is not to trade; a step that completes it is accepted, and then neither the task nor
    the list of tasks can be read. -/
theorem completed_task_is_unreadable :
    (taskStoreSystem ctx).Reachable admitted
      ∧ (step .completed (some "resolved")).IsValid ctx
      ∧ ∃ store, admitted.appendStep ctx (step .completed (some "resolved")) = .ok (true, store)
        ∧ store.readTask ctx taskId = .error (.invalidStore "database_read_failed")
        ∧ store.readTasks ctx = .error (.invalidStore "database_read_failed") := by
  refine ⟨⟨{}, [.createTask task], rfl, .single ⟨task_isValid, true, rfl⟩⟩, ?_,
    ⟨[task], [step .completed (some "resolved")]⟩, by decide +kernel, by decide +kernel,
    by decide +kernel⟩
  rw [AutonomousTaskStep.IsValid]
  decide +kernel

theorem reachable_admitted : (fittingStoreSystem ctx).Reachable admitted :=
  ⟨{}, [.createTask task], rfl, .single ⟨trivial, task_isValid, true, rfl⟩⟩

/-- A step that observes leaves a store that can be read. -/
theorem observed_task_is_readable :
    ∃ store, admitted.appendStep ctx (step .observing none) = .ok (true, store)
      ∧ store.IsReadable ctx := by
  have hvalid : (step .observing none).IsValid ctx := by
    rw [AutonomousTaskStep.IsValid]
    decide +kernel
  have hwrite : admitted.appendStep ctx (step .observing none) =
      .ok (true, ⟨[task], [step .observing none]⟩) := by decide +kernel
  have hread : admitted.readTask ctx taskId = .ok (some task) := by decide +kernel
  refine ⟨_, hwrite, ((reachable_readable reachable_admitted).2
    (.appendStep (step .observing none)) _ _ hvalid hwrite).2 ?_⟩
  intro _ projected hprojected
  cases hread.symm.trans hprojected
  decide +kernel

end TaskSample

end TradingAgent
