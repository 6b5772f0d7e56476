import TradingAgent.AutonomousTask.Readable

/-!
# When a task runs again

A task that is not ended waits for a time or for an event, or runs at once. The records accept a
task that waits for a time with an event only, as they do a blocked one; but unlike a blocked one, it
is then never runnable (`exists_isRunnable_iff`).

* In every run whose steps fit their tasks, and whose records that wait for a time have one, the
  query for the runnable tasks returns each task that is not ended, at some time and with some
  events (`reachable_noneStranded`).
* Otherwise a task may be stranded (`TaskSample.waiting_task_is_stranded`).
-/

namespace TradingAgent

open Transition

/-- If a record waits for a time, it has one. -/
def HasWakeTime (state : AutonomousTaskState) (nextWakeAt : Option DateTime) : Prop :=
  state = .waitingTime → nextWakeAt.isSome = true

instance (state : AutonomousTaskState) (nextWakeAt : Option DateTime) :
    Decidable (HasWakeTime state nextWakeAt) :=
  inferInstanceAs (Decidable (_ → _))

/-- The query for the runnable tasks returns a task, at some time and with some events. -/
def IsEventuallyRunnable (ctx : TaskContext) (store : AutonomousTaskStore)
    (task : AutonomousResearchTask) : Prop :=
  ∃ now events tasks, store.readRunnable ctx now events = .ok tasks ∧ task ∈ tasks

/-- Every task that is not ended is eventually runnable. -/
def NoneStranded (ctx : TaskContext) (store : AutonomousTaskStore) : Prop :=
  ∀ row ∈ store.taskRows, ∀ task, store.projectRow ctx row = .ok task →
    task.state ∉ TERMINAL_STATES → IsEventuallyRunnable ctx store task

/-- If an event adds a record that decides how a task waits, and that waits for a time, it has
    one. -/
def EventWakes (ctx : TaskContext) (store : AutonomousTaskStore) : TaskStoreEvent → Prop
  | .createTask task => store.existingTask task = none → HasWakeTime task.state task.nextWakeAt
  | .createTaskWithInitialStep task step =>
    store.existingTask task = none → HasWakeTime step.state step.nextWakeAt
  | .appendStep step =>
    store.existingStep ctx step = none → HasWakeTime step.state step.nextWakeAt

/-- The runs whose steps all fit, and whose records that wait for a time have one. -/
def wakingStoreSystem (ctx : TaskContext) : System AutonomousTaskStore TaskStoreEvent where
  init := (fittingStoreSystem ctx).init
  step store event store' :=
    EventWakes ctx store event ∧ (fittingStoreSystem ctx).step store event store'

section

variable {ctx : TaskContext} {store store' : AutonomousTaskStore} {task : AutonomousResearchTask}
  {new : Bool}

theorem AutonomousResearchTask.IsValid.stateChecks (h : task.IsValid ctx) :
    ∀ check ∈ task.stateChecks, check.1 = false := by
  have hchecks := (AutonomousResearchTask.isValid_iff.1 h).2.2
  rw [AutonomousResearchTask.checks, List.forall_mem_append] at hchecks
  exact hchecks.2

/-- A task that waits for an event has one. -/
theorem AutonomousResearchTask.IsValid.waitingEvent (h : task.IsValid ctx)
    (hstate : task.state = .waitingEvent) : ∃ event, task.nextWakeEvent = some event := by
  have hchecks := h.stateChecks
  rw [AutonomousResearchTask.stateChecks, List.forall_mem_cons, hstate] at hchecks
  have hwake := of_decide_eq_false (hchecks.2 _ List.mem_cons_self)
  rw [not_or, not_or, Option.isNone_iff_eq_none] at hwake
  exact Option.ne_none_iff_exists'.1 hwake.2.1

/-- A blocked task waits for an event or for a time. -/
theorem AutonomousResearchTask.IsValid.blocked (h : task.IsValid ctx)
    (hstate : task.state = .blocked) :
    (∃ event, task.nextWakeEvent = some event)
      ∨ task.nextWakeEvent = none ∧ ∃ wakeAt, task.nextWakeAt = some wakeAt := by
  have hchecks := h.stateChecks
  rw [AutonomousResearchTask.stateChecks, List.forall_mem_cons, hstate] at hchecks
  have hwake := hchecks.2 _ (List.mem_cons_of_mem _ List.mem_cons_self)
  dsimp only at hwake
  rw [noFutureWake, decide_eq_false_iff_not, not_or] at hwake
  cases hevent : task.nextWakeEvent with
  | some event => exact .inl ⟨event, rfl⟩
  | none =>
    rw [hevent] at hwake
    exact .inr ⟨rfl, Option.ne_none_iff_exists'.1 (by simpa using hwake.1)⟩

/-- **Which tasks may run again**: of the tasks that are not ended, those that do not wait for a
    time without one. -/
theorem exists_isRunnable_iff (hvalid : task.IsValid ctx) (hopen : task.state ∉ TERMINAL_STATES) :
    (∃ now : DateTime, now.aware = true
        ∧ ∃ events, isRunnable task (normalizeTime now) events = true)
      ↔ HasWakeTime task.state task.nextWakeAt := by
  have hwake : ∀ wakeAt ∈ task.nextWakeAt, ∃ now : DateTime, now.aware = true
      ∧ task.nextWakeAt.any (· ≤ normalizeTime now) = true := by
    intro wakeAt hwakeAt
    refine ⟨.utc wakeAt.instant, rfl, ?_⟩
    rw [Option.mem_def.1 hwakeAt]
    refine decide_eq_true (DateTime.le_def.2 ?_)
    rw [normalizeTime, DateTime.instant_utc, DateTime.instant_utc]
  have hevent : ∀ event ∈ task.nextWakeEvent, task.nextWakeEvent.any (· ∈ [event]) = true := by
    intro event hevent
    rw [Option.mem_def.1 hevent]
    exact decide_eq_true List.mem_cons_self
  have hnow : (DateTime.utc 0).aware = true := rfl
  cases hstate : task.state with
  | completed => exact absurd (hstate ▸ hopen) (by decide)
  | abandoned => exact absurd (hstate ▸ hopen) (by decide)
  | waitingEvent =>
    obtain ⟨event, hsome⟩ := hvalid.waitingEvent hstate
    refine iff_of_true ⟨_, hnow, [event], ?_⟩ fun heq => by cases heq
    rw [isRunnable, hstate]
    exact hevent event hsome
  | waitingTime =>
    simp only [isRunnable, hstate]
    constructor
    · rintro ⟨now, -, -, hnow⟩ -
      cases hwakeAt : task.nextWakeAt with
      | none => simp [hwakeAt] at hnow
      | some wakeAt => rfl
    · intro htime
      obtain ⟨wakeAt, hwakeAt⟩ := Option.isSome_iff_exists.1 (htime rfl)
      obtain ⟨now, haware, hnow⟩ := hwake wakeAt hwakeAt
      exact ⟨now, haware, [], hnow⟩
  | blocked =>
    refine iff_of_true ?_ fun heq => by cases heq
    simp only [isRunnable, hstate]
    rcases hvalid.blocked hstate with ⟨event, hsome⟩ | ⟨hnone, wakeAt, hwakeAt⟩
    · refine ⟨_, hnow, [event], ?_⟩
      rw [hsome]
      exact decide_eq_true List.mem_cons_self
    · obtain ⟨now, haware, hnow⟩ := hwake wakeAt hwakeAt
      refine ⟨now, haware, [], ?_⟩
      rw [hnone]
      exact hnow
  | queued | observing | researching | deliberating | acting | evaluating | learning =>
    refine iff_of_true ⟨_, hnow, [], ?_⟩ fun heq => by cases heq
    rw [isRunnable, hstate]

/-! ## The query -/

namespace AutonomousTaskStore.IsWellFormed

theorem isValid_of_projectRow (h : store.IsWellFormed ctx) {row : AutonomousResearchTask}
    (hrow : row ∈ store.taskRows) (htask : store.projectRow ctx row = .ok task) :
    task.IsValid ctx := by
  rw [h.projectRow_eq hrow] at htask
  exact (projectTask_spec (h.tasksValid row hrow) (h.steps_spec hrow) htask).1

/-- The query returns a task of a store that can be read, at some time and with some events, unless
    it waits for a time without one. -/
theorem isEventuallyRunnable_iff (h : store.IsWellFormed ctx) (hreadable : store.IsReadable ctx)
    {row : AutonomousResearchTask} (hrow : row ∈ store.taskRows)
    (htask : store.projectRow ctx row = .ok task) (hopen : task.state ∉ TERMINAL_STATES) :
    IsEventuallyRunnable ctx store task ↔ HasWakeTime task.state task.nextWakeAt := by
  obtain ⟨tasks, htasks⟩ := hreadable.tasks
  have hmem : task ∈ tasks := by
    rw [readTasks, readerConnection_eq_ok] at htasks
    obtain ⟨projected, hprojected, heq⟩ := exists_right_of_forall₂
      (Except.forall₂_of_mapM_eq_ok htasks) ((List.mem_insertionSort _).2 hrow)
    cases htask.symm.trans heq
    exact hprojected
  have hquery : ∀ now events ready, store.readRunnable ctx now events = .ok ready ↔
      now.aware = true ∧
        (tasks.filter (isRunnable · (normalizeTime now) events)).insertionSort runsBefore = ready := by
    intro now events ready
    simp [readRunnable, htasks]
  rw [← exists_isRunnable_iff (h.isValid_of_projectRow hrow htask) hopen]
  constructor
  · rintro ⟨now, events, ready, hready, hin⟩
    obtain ⟨haware, rfl⟩ := (hquery now events ready).1 hready
    rw [List.mem_insertionSort, List.mem_filter] at hin
    exact ⟨now, haware, events, hin.2⟩
  · rintro ⟨now, haware, events, hrunnable⟩
    refine ⟨now, events, _, (hquery now events _).2 ⟨haware, rfl⟩, ?_⟩
    rw [List.mem_insertionSort, List.mem_filter]
    exact ⟨hmem, hrunnable⟩

theorem noneStranded_iff (h : store.IsWellFormed ctx) (hreadable : store.IsReadable ctx) :
    NoneStranded ctx store ↔ ∀ row ∈ store.taskRows, ∀ task, store.projectRow ctx row = .ok task →
      HasWakeTime task.state task.nextWakeAt := by
  refine forall₄_congr fun row hrow task htask => ?_
  by_cases hopen : task.state ∈ TERMINAL_STATES
  · refine iff_of_true (fun hnot => absurd hopen hnot) fun hstate => ?_
    rw [hstate] at hopen
    exact absurd hopen (by decide)
  · rw [forall_prop_of_true hopen]
    exact h.isEventuallyRunnable_iff hreadable hrow htask hopen

/-- A new task strands none, if it has a time to wait for. -/
theorem addTask_noneStranded_iff (h : store.IsWellFormed ctx) (hreadable : store.IsReadable ctx)
    (hvalid : task.IsValid ctx) (hnew : store.existingTask task = none) :
    NoneStranded ctx { store with taskRows := store.taskRows ++ [task] }
      ↔ NoneStranded ctx store ∧ HasWakeTime task.state task.nextWakeAt := by
  rw [(h.addTask hvalid hnew).noneStranded_iff ((h.addTask_readable_iff hvalid hnew).2 hreadable),
    h.noneStranded_iff hreadable, List.forall_mem_append, List.forall_mem_singleton]
  refine and_congr_right fun _ => ?_
  rw [h.projectRow_addTask hvalid hnew]
  simp

/-- A new step strands no task, if it has a time to wait for. -/
theorem addStep_noneStranded_iff {step : AutonomousTaskStep} (h : store.IsWellFormed ctx)
    (hreadable : store.IsReadable ctx) (hvalid : step.IsValid ctx) (htask : task ∈ store.taskRows)
    (hof : step.IsOf task) (hsequence : step.sequence = (store.stepsOf task.taskId).length + 1)
    (htime : task.updatedAt ≤ step.occurredAt) {projected : AutonomousResearchTask}
    (hprojected : store.projectRow ctx task = .ok projected) (hfits : StepFits projected step) :
    NoneStranded ctx { store with stepRows := store.stepRows ++ [step] }
      ↔ (∀ row ∈ store.taskRows, row ≠ task → ∀ other, store.projectRow ctx row = .ok other →
          HasWakeTime other.state other.nextWakeAt)
        ∧ HasWakeTime step.state step.nextWakeAt := by
  have hother := @projectRow_addStep_of_ne _ _ _ _ h hvalid htask hof hsequence htime
  have hself := (h.projectRow_addStep_self hvalid htask hof hsequence htime hprojected).2
    ⟨hfits, rfl⟩
  rw [(h.addStep hvalid htask hof hsequence htime).noneStranded_iff
    ((h.addStep_readable_iff hvalid htask hof hsequence htime hprojected).2 ⟨hreadable, hfits⟩)]
  constructor
  · intro hall
    refine ⟨fun row hrow hne other hread => ?_, hall task htask _ hself⟩
    exact hall row hrow other ((hother hrow hne).trans hread)
  · rintro ⟨hall, hwakes⟩ row hrow later hlater
    by_cases hne : row = task
    · subst hne
      cases hself.symm.trans hlater
      exact hwakes
    · exact hall row hrow hne later ((hother hrow hne).symm.trans hlater)

end AutonomousTaskStore.IsWellFormed

/-- An event whose step fits leaves a store where no task is stranded, if none was, exactly if its
    record has a time to wait for. -/
theorem write_noneStranded_iff (h : store.IsWellFormed ctx) (hreadable : store.IsReadable ctx)
    (hnone : NoneStranded ctx store) {event : TaskStoreEvent} (hvalid : event.IsValid ctx)
    (hfits : EventFits ctx store event) (hwrite : store.write ctx event = .ok (new, store')) :
    NoneStranded ctx store' ↔ EventWakes ctx store event := by
  cases event with
  | createTask task =>
    rw [EventWakes]
    rcases createTask_cases hwrite with ⟨hold, rfl⟩ | ⟨hnew, rfl⟩
    · exact iff_of_true hnone fun hnew => absurd hnew hold
    · rw [h.addTask_noneStranded_iff hreadable hvalid hnew, forall_prop_of_true hnew]
      exact and_iff_right hnone
  | createTaskWithInitialStep task step =>
    rw [EventWakes]
    rw [EventFits] at hfits
    rcases createTaskWithInitialStep_cases hwrite with
      ⟨hold, rfl⟩ | ⟨hnew, hof, hsequence, htime, rfl⟩
    · exact iff_of_true hnone fun hnew => absurd hnew hold
    · have hnil : AutonomousTaskStore.stepsOf
          { store with taskRows := store.taskRows ++ [task] } task.taskId = [] :=
        h.stepsOf_new hnew
      have htask := List.mem_append_right store.taskRows (List.mem_singleton_self task)
      rw [(h.addTask hvalid.1 hnew).addStep_noneStranded_iff
        ((h.addTask_readable_iff hvalid.1 hnew).2 hreadable) hvalid.2 htask hof
        (by rw [hnil, hsequence]; rfl) htime (h.projectRow_addTask hvalid.1 hnew) (hfits hnew),
        forall_prop_of_true hnew]
      refine and_iff_right fun row hrow hne other hread => ?_
      rcases List.mem_append.1 hrow with hrow | hrow
      · exact (h.noneStranded_iff hreadable).1 hnone row hrow other hread
      · exact absurd (List.mem_singleton.1 hrow) hne
  | appendStep step =>
    rw [EventWakes]
    rw [EventFits] at hfits
    rcases appendStep_cases h hwrite with
      ⟨hold, rfl⟩ | ⟨hnew, task, htask, hof, ⟨projected, hprojected⟩, hsequence, htime, rfl⟩
    · exact iff_of_true hnone fun hnew => absurd hnew hold
    · rw [h.addStep_noneStranded_iff hreadable hvalid htask hof hsequence htime hprojected
        (hfits hnew projected (hof.taskId ▸ h.readTask_eq htask hprojected)),
        forall_prop_of_true hnew]
      exact and_iff_right fun row hrow _ other hread =>
        (h.noneStranded_iff hreadable).1 hnone row hrow other hread

/-- **No task is stranded** in a run whose steps fit their tasks, and whose records that wait for a
    time have one: each task that is not ended is returned by the query at some time, with some
    events. And there, an event that fits strands no task exactly if its record is such a one. -/
theorem reachable_noneStranded (h : (wakingStoreSystem ctx).Reachable store) :
    NoneStranded ctx store ∧ ∀ event new store', event.IsValid ctx → EventFits ctx store event →
      store.write ctx event = .ok (new, store') →
        (NoneStranded ctx store' ↔ EventWakes ctx store event) := by
  have hinv : store.IsWellFormed ctx ∧ store.IsReadable ctx ∧ NoneStranded ctx store := by
    refine h.invariant (P := fun store =>
      store.IsWellFormed ctx ∧ store.IsReadable ctx ∧ NoneStranded ctx store) ?_ ?_
    · rintro _ rfl
      exact ⟨.empty, AutonomousTaskStore.IsWellFormed.empty.isReadable_iff.2
        fun _ h => absurd h List.not_mem_nil, fun _ h => absurd h List.not_mem_nil⟩
    · rintro store event store' - ⟨hstore, hreadable, hnone⟩ ⟨hwakes, hfits, hvalid, new, hwrite⟩
      exact ⟨hstore.write hvalid hwrite,
        (write_readable_iff hstore hvalid hwrite).2 ⟨hreadable, hfits⟩,
        (write_noneStranded_iff hstore hreadable hnone hvalid hfits hwrite).2 hwakes⟩
  obtain ⟨hstore, hreadable, hnone⟩ := hinv
  exact ⟨hnone, fun event new store' hvalid hfits hwrite =>
    write_noneStranded_iff hstore hreadable hnone hvalid hfits hwrite⟩

end

namespace TaskSample

/-- The task, waiting for a time, but with the name of an event. -/
def waitingTask : AutonomousResearchTask :=
  { task with state := .waitingTime, nextWakeEvent := some "new_evidence" }

/-- The task that waits for a time with the name of an event is accepted, and the query never
    returns it. -/
theorem waiting_task_is_stranded :
    (taskStoreSystem ctx).Reachable ⟨[waitingTask], []⟩
      ∧ AutonomousTaskStore.readTask ctx ⟨[waitingTask], []⟩ taskId = .ok (some waitingTask)
      ∧ ¬ IsEventuallyRunnable ctx ⟨[waitingTask], []⟩ waitingTask := by
  have hvalid : waitingTask.IsValid ctx := by
    rw [AutonomousResearchTask.IsValid]
    decide +kernel
  have hread : AutonomousTaskStore.readTasks ctx ⟨[waitingTask], []⟩ = .ok [waitingTask] := by
    decide +kernel
  refine ⟨⟨{}, [.createTask waitingTask], rfl, .single ⟨hvalid, true, rfl⟩⟩, by decide +kernel, ?_⟩
  rintro ⟨now, events, tasks, htasks, hmem⟩
  rw [AutonomousTaskStore.readRunnable, hread] at htasks
  obtain ⟨-, -, htasks⟩ := Except.bind_eq_ok.1 htasks
  cases htasks
  have hrunnable := (List.mem_filter.1 ((List.mem_insertionSort _).1 hmem)).2
  exact absurd hrunnable Bool.false_ne_true

/-- A step that waits for a time. -/
def timedStep : AutonomousTaskStep :=
  { step .waitingTime none with nextWakeAt := some (start + TimeDelta.hours 1) }

/-- The task runs again after a step that waits for a time. -/
theorem timed_task_is_runnable :
    ∃ store, admitted.appendStep ctx timedStep = .ok (true, store) ∧ NoneStranded ctx store := by
  have hreachable : (wakingStoreSystem ctx).Reachable admitted :=
    ⟨{}, [.createTask task], rfl, .single ⟨fun _ => nofun, trivial, task_isValid, true, rfl⟩⟩
  have hvalid : timedStep.IsValid ctx := by
    rw [AutonomousTaskStep.IsValid]
    decide +kernel
  have hwrite : admitted.appendStep ctx timedStep = .ok (true, ⟨[task], [timedStep]⟩) := by
    decide +kernel
  have hread : admitted.readTask ctx taskId = .ok (some task) := by decide +kernel
  refine ⟨_, hwrite, ((reachable_noneStranded hreachable).2 (.appendStep timedStep) _ _ hvalid ?_
    hwrite).2 fun _ _ => rfl⟩
  intro _ projected hprojected
  cases hread.symm.trans hprojected
  decide +kernel

end TaskSample

end TradingAgent
