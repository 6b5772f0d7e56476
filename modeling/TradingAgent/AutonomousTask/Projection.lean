import TradingAgent.AutonomousTask.Models

/-!
# The projection of a task

A task is read as its record with its steps applied, one after the other (`projectTask`), each
giving a record that is validated again.

* Steps do not change the identity of a task, nor its actions (`projectTask_spec`).
* A step that is valid, that is of the task and not before it, may still not fit it: the record
  with the step applied is accepted exactly if the evidence of both is not too much, and the step
  does not end a task whose actions include doing nothing (`projectStep_eq_ok_iff`).
-/

namespace TradingAgent

/-- The record of a task with a step applied. -/
def AutonomousResearchTask.withStep (task : AutonomousResearchTask) (step : AutonomousTaskStep) :
    AutonomousResearchTask :=
  { task with
    state := step.state
    ownerRole := step.role
    sourceEvidenceIds := sortedSet (task.sourceEvidenceIds ++ step.sourceEvidenceIds)
    evidenceRefs := step.evidenceRefs
    workingMemoryIds := step.workingMemoryIds
    updatedAt := step.occurredAt
    nextWakeAt := step.nextWakeAt
    nextWakeEvent := step.nextWakeEvent
    blockedReason := step.blockedReason
    terminalReason := step.terminalReason }

def projectStep (ctx : TaskContext) (projected : AutonomousResearchTask)
    (step : AutonomousTaskStep) : Except TaskError AutonomousResearchTask := do
  validateAutonomousStepProjection projected step
  validateTask ctx (projected.withStep step)

def projectTask (ctx : TaskContext) (task : AutonomousResearchTask)
    (steps : List AutonomousTaskStep) : Except TaskError AutonomousResearchTask :=
  steps.foldlM (projectStep ctx) task

/-- What a step must be like for the task, beyond what its own record says. -/
def StepFits (task : AutonomousResearchTask) (step : AutonomousTaskStep) : Prop :=
  (sortedSet (task.sourceEvidenceIds ++ step.sourceEvidenceIds)).length ≤ 128
    ∧ (step.state ∈ TERMINAL_STATES →
      ∀ action ∈ task.completedActions ++ task.pendingActions, isNoAction action = false)

instance (task : AutonomousResearchTask) (step : AutonomousTaskStep) :
    Decidable (StepFits task step) :=
  inferInstanceAs (Decidable (_ ∧ _))

/-- A step is of a task: it is of the same authority. -/
structure AutonomousTaskStep.IsOf (step : AutonomousTaskStep) (task : AutonomousResearchTask) :
    Prop where
  taskId : step.taskId = task.taskId
  family : step.agentFamilyId = task.agentFamilyId
  market : step.marketScope = task.marketScope
  root : step.rootSourceEvidenceId = task.rootSourceEvidenceId
  version : step.agentVersion = task.agentVersion

/-- A task is what another one may become: of the same identity and with the same actions. -/
structure AutonomousResearchTask.Continues (later task : AutonomousResearchTask) : Prop where
  taskId : later.taskId = task.taskId
  family : later.agentFamilyId = task.agentFamilyId
  market : later.marketScope = task.marketScope
  root : later.rootSourceEvidenceId = task.rootSourceEvidenceId
  version : later.agentVersion = task.agentVersion
  created : later.createdAt = task.createdAt
  completed : later.completedActions = task.completedActions
  pending : later.pendingActions = task.pendingActions

section

variable {ctx : TaskContext} {task later : AutonomousResearchTask} {step : AutonomousTaskStep}

theorem AutonomousResearchTask.Continues.refl (task : AutonomousResearchTask) :
    task.Continues task :=
  ⟨rfl, rfl, rfl, rfl, rfl, rfl, rfl, rfl⟩

theorem AutonomousResearchTask.Continues.withStep (h : later.Continues task)
    (step : AutonomousTaskStep) : (later.withStep step).Continues task :=
  ⟨h.taskId, h.family, h.market, h.root, h.version, h.created, h.completed, h.pending⟩

theorem AutonomousTaskStep.IsOf.continues (h : step.IsOf task) (hlater : later.Continues task) :
    step.IsOf later :=
  ⟨h.taskId.trans hlater.taskId.symm, h.family.trans hlater.family.symm,
    h.market.trans hlater.market.symm, h.root.trans hlater.root.symm,
    h.version.trans hlater.version.symm⟩

theorem validateAutonomousStepProjection_eq_ok {u : Unit} :
    validateAutonomousStepProjection task step = .ok u ↔ step.IsOf task := by
  rw [validateAutonomousStepProjection, Except.raiseIf_eq_ok]
  simp only [not_or, ne_eq, not_not]
  exact ⟨fun ⟨h₁, h₂, h₃, h₄, h₅⟩ => ⟨h₁, h₂, h₃, h₄, h₅⟩,
    fun h => ⟨h.taskId, h.family, h.market, h.root, h.version⟩⟩

/-! ## Accepted records -/

theorem AutonomousResearchTask.isValid_iff : task.IsValid ctx ↔ task.fieldsAreValid = true
    ∧ task.normalizeTimes = task ∧ ∀ check ∈ task.checks ctx, check.1 = false := by
  rw [AutonomousResearchTask.IsValid, validateTask_eq_ok]
  constructor
  · rintro ⟨hfields, hchecks, htimes⟩
    exact ⟨hfields, htimes, htimes ▸ hchecks⟩
  · rintro ⟨hfields, htimes, hchecks⟩
    exact ⟨hfields, by rwa [htimes], htimes⟩

theorem AutonomousTaskStep.isValid_iff : step.IsValid ctx ↔ step.fieldsAreValid = true
    ∧ step.normalizeTimes = step ∧ ∀ check ∈ step.checks ctx, check.1 = false := by
  rw [AutonomousTaskStep.IsValid, validateStep_eq_ok]
  constructor
  · rintro ⟨hfields, hchecks, htimes⟩
    exact ⟨hfields, htimes, htimes ▸ hchecks⟩
  · rintro ⟨hfields, htimes, hchecks⟩
    exact ⟨hfields, by rwa [htimes], htimes⟩

/-! ## Applying a step -/

theorem isEvidenceIds_iff {ids : List String} : isEvidenceIds ids = true
    ↔ (∀ id ∈ ids, isHex64 id = true) ∧ 1 ≤ ids.length ∧ ids.length ≤ 128 := by
  simp [isEvidenceIds, isSized]

theorem notSortedUnique_eq_false {values : List String} : notSortedUnique values = false
    ↔ sortedSet values = values ∧ "" ∉ values := by
  rw [notSortedUnique, decide_eq_false_iff_not, not_or, not_not, @eq_comm _ values]
  refine and_congr_right fun _ => ?_
  simp

/-- The evidence of a task and of a step, together. -/
theorem isEvidenceIds_sortedSet {ids ids' : List String} (h : isEvidenceIds ids = true)
    (h' : isEvidenceIds ids' = true) :
    isEvidenceIds (sortedSet (ids ++ ids')) = true ↔ (sortedSet (ids ++ ids')).length ≤ 128 := by
  rw [isEvidenceIds_iff] at h h' ⊢
  refine ⟨fun h => h.2.2, fun hlength => ⟨fun id hid => ?_, ?_, hlength⟩⟩
  · rw [mem_sortedSet, List.mem_append] at hid
    exact hid.elim (h.1 id) (h'.1 id)
  · obtain ⟨id, hid⟩ := List.exists_mem_of_length_pos h.2.1
    exact List.length_pos_of_mem (mem_sortedSet.2 (List.mem_append_left ids' hid))

theorem notSortedUnique_sortedSet {ids ids' : List String} (h : notSortedUnique ids = false)
    (h' : notSortedUnique ids' = false) : notSortedUnique (sortedSet (ids ++ ids')) = false := by
  rw [notSortedUnique_eq_false] at h h' ⊢
  refine ⟨sortedSet_sortedSet _, fun hmem => ?_⟩
  rw [mem_sortedSet, List.mem_append] at hmem
  exact hmem.elim h.2 h'.2

theorem fieldsAreValid_withStep (htask : task.fieldsAreValid = true)
    (hstep : step.fieldsAreValid = true) :
    (task.withStep step).fieldsAreValid = true
      ↔ (sortedSet (task.sourceEvidenceIds ++ step.sourceEvidenceIds)).length ≤ 128 := by
  rw [AutonomousResearchTask.fieldsAreValid, decide_eq_true_eq] at htask ⊢
  rw [AutonomousTaskStep.fieldsAreValid, decide_eq_true_eq] at hstep
  obtain ⟨hid, hgoal, hpriority, hpriority', hroot, hids, -, hsubjects, -, hplan, hcompleted,
    hpending, -, -, -, hretries, hversion, hcreated, -, -⟩ := htask
  obtain ⟨-, -, -, -, -, hids', hrefs, hmemory, -, -, -, -, -, -, hoccurred, hwake, hevent,
    hblocked, hterminal⟩ := hstep
  rw [← isEvidenceIds_sortedSet hids hids']
  exact ⟨fun h => h.2.2.2.2.2.1, fun h => ⟨hid, hgoal, hpriority, hpriority', hroot, h, hrefs,
    hsubjects, hmemory, hplan, hcompleted, hpending, hwake, hevent, hblocked, hretries, hversion,
    hcreated, hoccurred, hterminal⟩⟩

theorem normalizeTimes_withStep (htask : task.normalizeTimes = task)
    (hstep : step.normalizeTimes = step) :
    (task.withStep step).normalizeTimes = task.withStep step := by
  have hcreated := congrArg AutonomousResearchTask.createdAt htask
  have hoccurred := congrArg AutonomousTaskStep.occurredAt hstep
  have hwake := congrArg AutonomousTaskStep.nextWakeAt hstep
  simp only [AutonomousResearchTask.normalizeTimes, AutonomousTaskStep.normalizeTimes] at *
  simp only [AutonomousResearchTask.withStep, hcreated, hoccurred, hwake]

/-- The state that a step gives to a task is accepted, if it does not end a task that is to do
    nothing. -/
theorem stateChecks_withStep
    (hstep : ∀ check ∈ step.stateChecks, check.1 = false)
    (hterminal : ¬ (step.state ∉ TERMINAL_STATES ∧ step.terminalReason.isSome = true))
    (hblocked : ¬ (step.state ≠ .blocked ∧ step.blockedReason.isSome = true)) :
    (∀ check ∈ (task.withStep step).stateChecks, check.1 = false)
      ↔ (step.state ∈ TERMINAL_STATES →
        ∀ action ∈ task.completedActions ++ task.pendingActions, isNoAction action = false) := by
  rw [AutonomousTaskStep.stateChecks] at hstep
  rw [AutonomousResearchTask.stateChecks, List.forall_mem_cons]
  have hstate : (task.withStep step).state = step.state := rfl
  rw [hstate]
  cases hcase : step.state <;>
    simp_all [AutonomousResearchTask.withStep, TERMINAL_STATES, Option.isSome_iff_ne_none, or_imp,
      forall_and]

/-- **When a step fits its task**: the record with the step applied is accepted. -/
theorem isValid_withStep_iff (htask : task.IsValid ctx) (hstep : step.IsValid ctx)
    (hof : step.IsOf task) (htime : task.createdAt ≤ step.occurredAt) :
    (task.withStep step).IsValid ctx ↔ StepFits task step := by
  rw [AutonomousResearchTask.isValid_iff] at htask ⊢
  rw [AutonomousTaskStep.isValid_iff] at hstep
  obtain ⟨hfields, htimes, hchecks⟩ := htask
  obtain ⟨hfields', htimes', hchecks'⟩ := hstep
  rw [fieldsAreValid_withStep hfields hfields', StepFits]
  refine and_congr_right fun _ => ?_
  rw [AutonomousResearchTask.checks, List.forall_mem_append] at hchecks ⊢
  rw [AutonomousTaskStep.checks, List.forall_mem_append] at hchecks'
  simp only [List.forall_mem_cons, decide_eq_false_iff_not, not_not] at hchecks hchecks' ⊢
  obtain ⟨⟨hid, hids, -, hsubjects, -, hplan, hcompleted, hpending, hroot, -⟩, -⟩ := hchecks
  obtain ⟨⟨-, -, hids', hrefs, hmemory, -, -, hterminal, hblocked, -⟩, hstate⟩ := hchecks'
  rw [← stateChecks_withStep hstate hterminal hblocked]
  refine ⟨fun h => h.2.2, fun h => ⟨normalizeTimes_withStep htimes htimes', ?_, h⟩⟩
  exact ⟨hid, notSortedUnique_sortedSet hids hids', hrefs, hsubjects, hmemory, hplan, hcompleted,
    hpending, mem_sortedSet.2 (List.mem_append_left _ hroot),
    DateTime.not_lt.2 htime, List.forall_mem_nil _⟩

/-- What a step makes of a projected task: the record with the step applied, if the step fits. -/
theorem projectStep_eq_ok_iff (htask : task.IsValid ctx) (hstep : step.IsValid ctx)
    (hof : step.IsOf task) (htime : task.createdAt ≤ step.occurredAt) :
    projectStep ctx task step = .ok later ↔ StepFits task step ∧ later = task.withStep step := by
  rw [projectStep, Except.bind_eq_ok]
  rw [← isValid_withStep_iff htask hstep hof htime]
  constructor
  · rintro ⟨-, -, hlater⟩
    have htimes : (task.withStep step).normalizeTimes = task.withStep step :=
      normalizeTimes_withStep (AutonomousResearchTask.isValid_iff.1 htask).2.1
        (AutonomousTaskStep.isValid_iff.1 hstep).2.1
    have heq := (validateTask_eq_ok.1 hlater).2.2
    rw [htimes] at heq
    exact ⟨heq ▸ hlater, heq.symm⟩
  · rintro ⟨hvalid, rfl⟩
    exact ⟨(), validateAutonomousStepProjection_eq_ok.2 hof, hvalid⟩

theorem projectTask_concat (steps : List AutonomousTaskStep) (step : AutonomousTaskStep) :
    projectTask ctx task (steps ++ [step]) =
      projectTask ctx task steps >>= fun projected => projectStep ctx projected step := by
  simp [projectTask]

/-- What a task projects to is valid, and continues the task. -/
theorem projectTask_spec (htask : task.IsValid ctx) {steps : List AutonomousTaskStep}
    (hsteps : ∀ step ∈ steps, step.IsValid ctx ∧ step.IsOf task ∧ task.createdAt ≤ step.occurredAt)
    (h : projectTask ctx task steps = .ok later) : later.IsValid ctx ∧ later.Continues task := by
  induction steps using List.reverseRecOn generalizing later with
  | nil =>
    cases h
    exact ⟨htask, .refl task⟩
  | append_singleton steps step ih =>
    rw [projectTask_concat] at h
    obtain ⟨before, hbefore, h⟩ := Except.bind_eq_ok.1 h
    obtain ⟨hvalid, hcontinues⟩ :=
      ih (fun s hs => hsteps s (List.mem_append_left _ hs)) hbefore
    obtain ⟨hstep, hof, htime⟩ := hsteps step (List.mem_append_right _ (List.mem_singleton_self _))
    have hof := hof.continues hcontinues
    have htime : before.createdAt ≤ step.occurredAt := hcontinues.created ▸ htime
    obtain ⟨hfits, rfl⟩ := (projectStep_eq_ok_iff hvalid hstep hof htime).1 h
    exact ⟨(isValid_withStep_iff hvalid hstep hof htime).2 hfits, hcontinues.withStep step⟩

end

end TradingAgent
