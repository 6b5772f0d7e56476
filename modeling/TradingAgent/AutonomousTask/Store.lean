import TradingAgent.Library.Transition
import TradingAgent.AutonomousTask.Projection

/-!
# The store of autonomous tasks

Tasks and steps are rows that are never changed. The writer admits tasks and appends steps
(`createTask`, `createTaskWithInitialStep`, `appendStep`); each either changes the store by one
transaction, or raises an error and leaves it as it is. The readers project each task through its
steps (`readTask`, `readTasks`, `readRunnable`).

* A row is the JSON text of a record, with digests of it; the record stands for it, and is validated
  again when it is read.
* The rows of a store that is made by the writer are well formed (`IsWellFormed`): a task has the
  steps `1` to `n`, in this order, all of its own authority and none before it.
-/

namespace TradingAgent

open Transition

structure AutonomousTaskStore where
  taskRows : List AutonomousResearchTask := []
  stepRows : List AutonomousTaskStep := []
  deriving DecidableEq, Repr

/-! ## Reading -/

def taskFromRow (ctx : TaskContext) (row : AutonomousResearchTask) :
    Except TaskError AutonomousResearchTask :=
  if validateTask ctx row = .ok row then .ok row else .error (.invalidStore "task_payload_invalid")

def stepFromRow (ctx : TaskContext) (row : AutonomousTaskStep) :
    Except TaskError AutonomousTaskStep :=
  if validateStep ctx row = .ok row then .ok row else .error (.invalidStore "step_payload_invalid")

namespace AutonomousTaskStore

variable (ctx : TaskContext) (store : AutonomousTaskStore)

/-- The rows of the steps of a task. -/
def stepsOf (taskId : String) : List AutonomousTaskStep := store.stepRows.filter (·.taskId = taskId)

def stepsForTask (taskId : String) : Except TaskError (List AutonomousTaskStep) :=
  ((store.stepsOf taskId).insertionSort (·.sequence ≤ ·.sequence)).mapM (stepFromRow ctx)

/-- The task of a row, projected through its steps. -/
def projectRow (row : AutonomousResearchTask) : Except TaskError AutonomousResearchTask := do
  let task ← taskFromRow ctx row
  let steps ← store.stepsForTask ctx row.taskId
  projectTask ctx task steps

def taskForConnection (taskId : String) : Except TaskError (Option AutonomousResearchTask) :=
  match store.taskRows.find? (·.taskId = taskId) with
  | none => .ok none
  | some row => some <$> store.projectRow ctx row

def tasksForConnection : Except TaskError (List AutonomousResearchTask) :=
  (store.taskRows.insertionSort (·.taskId ≤ ·.taskId)).mapM (store.projectRow ctx)

/-- What a reader raises: errors that are not those of the store are told as one of its own. -/
def readerConnection {α : Type} : Except TaskError α → Except TaskError α
  | .error (.validation _) | .error (.invalidField _) =>
    .error (.invalidStore "database_read_failed")
  | result => result

def readTask (taskId : String) : Except TaskError (Option AutonomousResearchTask) :=
  readerConnection (store.taskForConnection ctx taskId)

def readTasks : Except TaskError (List AutonomousResearchTask) :=
  readerConnection (store.tasksForConnection ctx)

end AutonomousTaskStore

def isRunnable (task : AutonomousResearchTask) (now : DateTime) (events : List String) : Bool :=
  match task.state with
  | .completed | .abandoned => false
  | .waitingEvent => task.nextWakeEvent.any (· ∈ events)
  | .waitingTime => task.nextWakeAt.any (· ≤ now)
  | .blocked =>
    match task.nextWakeEvent with
    | some event => event ∈ events
    | none => task.nextWakeAt.any (· ≤ now)
  | .queued | .observing | .researching | .deliberating | .acting | .evaluating | .learning => true

def wakeOrCreated (task : AutonomousResearchTask) : DateTime :=
  task.nextWakeAt.getD task.createdAt

/-- The order of the tasks that are runnable. -/
def runsBefore (a b : AutonomousResearchTask) : Prop :=
  b.priority < a.priority
    ∨ a.priority = b.priority ∧ (wakeOrCreated a < wakeOrCreated b
      ∨ (wakeOrCreated a).instant = (wakeOrCreated b).instant ∧ a.taskId ≤ b.taskId)

instance : DecidableRel runsBefore := fun _ _ => inferInstanceAs (Decidable (_ ∨ _))

/-- The tasks that are runnable at a time, with some events. -/
def AutonomousTaskStore.readRunnable (ctx : TaskContext) (store : AutonomousTaskStore)
    (now : DateTime) (events : List String) : Except TaskError (List AutonomousResearchTask) := do
  Except.raiseIf (¬ now.aware) (.invalidStore "naive_time_input")
  let tasks ← store.readTasks ctx
  pure ((tasks.filter (isRunnable · (normalizeTime now) events)).insertionSort runsBefore)

/-! ## Writing -/

def requireAppendable (ctx : TaskContext) (task : AutonomousResearchTask)
    (steps : List AutonomousTaskStep) (step : AutonomousTaskStep) : Except TaskError Unit := do
  let projected ← projectTask ctx task steps
  Except.raiseIf (projected.state ∈ TERMINAL_STATES) (.conflict "terminal_task_step_rejected")
  Except.raiseIf (step.sequence ≠ steps.length + 1) (.conflict "step_sequence_invalid")
  let previous := (steps.getLast?.map (·.occurredAt)).getD task.updatedAt
  Except.raiseIf (step.occurredAt < previous) (.conflict "step_timestamp_invalid")

namespace AutonomousTaskStore

variable (ctx : TaskContext) (store : AutonomousTaskStore)

def existingTask (task : AutonomousResearchTask) : Option AutonomousResearchTask :=
  store.taskRows.find? (·.taskId = task.taskId)

def existingStep (step : AutonomousTaskStep) : Option AutonomousTaskStep :=
  store.stepRows.find? fun row => autonomousStepId ctx row = autonomousStepId ctx step
    ∨ (row.taskId = step.taskId ∧ row.sequence = step.sequence)

/-- Admits a task. Returns whether it is new, with the store. -/
def createTask (task : AutonomousResearchTask) : Except TaskError (Bool × AutonomousTaskStore) :=
  match store.existingTask task with
  | some row => do
    Except.raiseIf (row ≠ task) (.conflict "task_replay_conflict")
    pure (false, store)
  | none => pure (true, { store with taskRows := store.taskRows ++ [task] })

/-- Admits a task with its first step. Returns whether they are new, with the store. -/
def createTaskWithInitialStep (task : AutonomousResearchTask) (step : AutonomousTaskStep) :
    Except TaskError (Bool × AutonomousTaskStore) := do
  validateAutonomousStepProjection task step
  requireAppendable ctx task [] step
  match store.existingTask task, store.existingStep ctx step with
  | none, none =>
    pure (true, ⟨store.taskRows ++ [task], store.stepRows ++ [step]⟩)
  | some row, some stepRow =>
    Except.raiseIf (row ≠ task ∨ stepRow ≠ step) (.conflict "initial_admission_replay_conflict")
    pure (false, store)
  | _, _ => throw (.conflict "initial_admission_replay_conflict")

/-- Appends a step. Returns whether it is new, with the store. -/
def appendStep (step : AutonomousTaskStep) : Except TaskError (Bool × AutonomousTaskStore) :=
  match store.taskRows.find? (·.taskId = step.taskId) with
  | none => throw (.conflict "task_missing")
  | some row => do
    let task ← taskFromRow ctx row
    match store.existingStep ctx step with
    | some stepRow =>
      Except.raiseIf (stepRow ≠ step) (.conflict "step_replay_conflict")
      pure (false, store)
    | none =>
      let steps ← store.stepsForTask ctx task.taskId
      requireAppendable ctx task steps step
      validateAutonomousStepProjection task step
      pure (true, { store with stepRows := store.stepRows ++ [step] })

end AutonomousTaskStore

inductive TaskStoreEvent
  | createTask (task : AutonomousResearchTask)
  | createTaskWithInitialStep (task : AutonomousResearchTask) (step : AutonomousTaskStep)
  | appendStep (step : AutonomousTaskStep)

/-- The records of an event are accepted ones. -/
def TaskStoreEvent.IsValid (ctx : TaskContext) : TaskStoreEvent → Prop
  | createTask task => task.IsValid ctx
  | createTaskWithInitialStep task step => task.IsValid ctx ∧ step.IsValid ctx
  | appendStep step => step.IsValid ctx

def AutonomousTaskStore.write (ctx : TaskContext) (store : AutonomousTaskStore) :
    TaskStoreEvent → Except TaskError (Bool × AutonomousTaskStore)
  | .createTask task => store.createTask task
  | .createTaskWithInitialStep task step => store.createTaskWithInitialStep ctx task step
  | .appendStep step => store.appendStep ctx step

/-- The store, with the events that the writer accepts, from an empty one. -/
def taskStoreSystem (ctx : TaskContext) : System AutonomousTaskStore TaskStoreEvent where
  init store := store = {}
  step store event store' := event.IsValid ctx ∧ ∃ new, store.write ctx event = .ok (new, store')

end TradingAgent
