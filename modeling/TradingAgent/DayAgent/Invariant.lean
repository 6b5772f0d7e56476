import TradingAgent.DayAgent.Progress

/-!
# What is true of the day agent at any time

* What is stored can be read, and each step follows those before it.
* An invocation knows what is stored, as nobody else writes.
* What was called is paid for, is in flight, or was lost with an invocation that was interrupted
  (`Accounts`).
-/

namespace TradingAgent.DayAgent

open Except Journal Transition

variable {ctx : DayAgentContext} {s t : DayAgentSystem} {task base : DayAgentResearchTask}
  {inv inv' : DayAgentInvocation} {point : DayAgentPoint} {taskId : String}
  {event : DayAgentEvent}

namespace DayAgentSystem

/-- The steps of a task. -/
def stepsOf (s : DayAgentSystem) (taskId : String) : List DayAgentTaskStep :=
  history (·.taskId) s.store.dayTaskSteps taskId

/-- How often the model, or a tool, was called for a task. -/
def callsOf (s : DayAgentSystem) (taskId : String) : Resource → ℤ
  | .model => (history (·.task.taskId) s.requests taskId).length
  | .tool => (history (·.1) s.dispatches taskId).length

/-- How often an invocation for a task was interrupted. -/
def interruptions (s : DayAgentSystem) (taskId : String) : ℤ := s.interrupted.count taskId

/-- What is in flight for a task with a budget. -/
def inFlight (s : DayAgentSystem) (taskId : String) (budget : DayAgentBudget) (r : Resource) : ℤ :=
  match s.running with
  | none => 0
  | some inv => if inv.taskId = taskId then DayAgent.inFlight budget inv.point r else 0

theorem inFlight_of_ne {budget : DayAgentBudget} {r : Resource} (h : s.running = some inv)
    (hne : inv.taskId ≠ taskId) : s.inFlight taskId budget r = 0 := by
  rw [inFlight, h]
  exact if_neg hne

theorem inFlight_of_eq {budget : DayAgentBudget} {r : Resource} (h : s.running = some inv) :
    s.inFlight inv.taskId budget r = DayAgent.inFlight budget inv.point r := by
  rw [inFlight, h]
  exact if_pos rfl

theorem inFlight_of_none {budget : DayAgentBudget} {r : Resource} (h : s.running = none) :
    s.inFlight taskId budget r = 0 := by
  rw [inFlight, h]

theorem interruptions_interrupt : (s.interrupt inv).interruptions taskId =
    s.interruptions taskId + if inv.taskId = taskId then 1 else 0 := by
  rw [interruptions, interrupt, List.count_append, Nat.cast_add, interruptions]
  split_ifs with h
  · simp [h]
  · simp [h]

end DayAgentSystem

/-- What was called for a task is paid for, in flight, or lost. -/
def Accounts (s : DayAgentSystem) (base : DayAgentResearchTask) : Prop :=
  let budget := (current base (s.stepsOf base.taskId)).budget
  ∀ r : Resource, s.callsOf base.taskId r + r.remaining budget ≤
    r.remaining base.budget + s.interruptions base.taskId + s.inFlight base.taskId budget r

structure Invariant (ctx : DayAgentContext) (s : DayAgentSystem) : Prop where
  store : WellFormed ctx s.store
  follows : ∀ base ∈ s.store.dayTasks,
    Admitted (fun steps step => Follows (current base steps) steps step) (s.stepsOf base.taskId)
  ready : ∀ inv, s.running = some inv → ∃ base, s.store.taskRow inv.taskId = some base ∧
    Ready ctx (current base (s.stepsOf inv.taskId)) (s.stepsOf inv.taskId) inv.point
  accounts : ∀ base ∈ s.store.dayTasks, Accounts s base
  /-- Nothing is done for a task that there is not. -/
  unknown : ∀ taskId, s.store.taskRow taskId = none → ∀ r, s.callsOf taskId r = 0

theorem invariant_init : Invariant ctx {} where
  store := wellFormed_empty
  follows := by simp
  ready := by simp
  accounts := by simp
  unknown := by
    rintro taskId - (_ | _)
    · rfl
    · rfl

namespace WellFormed

variable {db : DayAgentTaskDatabase}

theorem taskRow_of_mem (h : WellFormed ctx db) (hmem : base ∈ db.dayTasks) :
    db.taskRow base.taskId = some base :=
  find?_key_of_mem h.ids hmem

theorem eq_of_taskRow (h : WellFormed ctx db) (hmem : base ∈ db.dayTasks)
    (hrow : db.taskRow base.taskId = some task) : task = base :=
  Option.some.inj (hrow.symm.trans (h.taskRow_of_mem hmem))

theorem isValid_current (h : WellFormed ctx db) (hrow : db.taskRow taskId = some base) :
    (current base (history (·.taskId) db.dayTaskSteps taskId)).IsValid :=
  DayAgent.isValid_current (h.tasks base (mem_of_taskRow hrow).1) (h.admitted hrow)

theorem requireTask_eq (h : WellFormed ctx db) (hrow : db.taskRow taskId = some base) :
    requireTask ctx db taskId =
      .ok (current base (history (·.taskId) db.dayTaskSteps taskId)) := by
  rw [requireTask, h.readTask_eq, hrow]
  rfl

theorem result_eq (h : WellFormed ctx db) (hrow : db.taskRow taskId = some base)
    (modelCalls : ℕ) : ∃ r, result ctx db taskId modelCalls = .ok r ∧
      r.task = current base (history (·.taskId) db.dayTaskSteps taskId) := by
  rw [result, h.stepsForTask_eq, ok_bind, h.requireTask_eq hrow]
  exact ⟨_, rfl, rfl⟩

end WellFormed

/-- What is called in a step is in flight after it, and what is not in flight any more was lost. -/
theorem Accounts.mono (h : Accounts s base) (hsteps : t.stepsOf base.taskId = s.stepsOf base.taskId)
    (hcalls : ∀ budget r, budget = (current base (s.stepsOf base.taskId)).budget →
      t.callsOf base.taskId r + s.interruptions base.taskId + s.inFlight base.taskId budget r ≤
        s.callsOf base.taskId r + t.interruptions base.taskId
          + t.inFlight base.taskId budget r) :
    Accounts t base := by
  intro r
  have hbefore := h r
  have hstep := hcalls _ r rfl
  rw [hsteps]
  omega

/-- What is stored once a step is written, with the invocation back at the top of the loop. -/
structure Wrote (ctx : DayAgentContext) (s : DayAgentSystem) (inv : DayAgentInvocation)
    (step : DayAgentTaskStep) (next : DayAgentNext) (store : DayAgentTaskDatabase) : Prop where
  taskId : step.taskId = inv.taskId
  stored : store = { s.store with dayTaskSteps := s.store.dayTaskSteps ++ [step] }
  follows : ∃ base, s.store.taskRow inv.taskId = some base ∧
    Admissible ctx base (s.stepsOf inv.taskId) step ∧
    Follows (current base (s.stepsOf inv.taskId)) (s.stepsOf inv.taskId) step
  next : IsFor (s.stepsOf inv.taskId) step next
  invariant : Invariant ctx { s with store, running := some { inv with point := .looping } }

/-- What happens in an event. -/
inductive Change (ctx : DayAgentContext) (s : DayAgentSystem) : DayAgentSystem → Prop
  | start (runtime : DayAgentRuntime) (task : DayAgentResearchTask) (free : s.running = none)
      (valid : task.IsValid) : Change ctx s (s.start ctx runtime task)
  | interrupt (inv : DayAgentInvocation) (running : s.running = some inv) :
      Change ctx s (s.interrupt inv)
  | leave (inv : DayAgentInvocation) (running : s.running = some inv) (point : inv.point = .looping)
      (done : ∀ base, s.store.taskRow inv.taskId = some base →
        inv.runtime.maxSteps ≤ inv.processedSteps ∨
          (current base (s.stepsOf inv.taskId)).state.isTerminal = true) :
      Change ctx s (s.leave ctx inv)
  | enter (inv inv' : DayAgentInvocation) (point : DayAgentPoint) (running : s.running = some inv)
      (taskId : inv'.taskId = inv.taskId) (processed : inv'.processedSteps = inv.processedSteps)
      (moves : ∀ base, s.store.taskRow inv.taskId = some base →
        Moves ctx (current base (s.stepsOf inv.taskId)) (s.stepsOf inv.taskId) inv.point point) :
      Change ctx s (s.enter inv' (.ok point))
  | write (inv : DayAgentInvocation) (step : DayAgentTaskStep) (next : DayAgentNext)
      (running : s.running = some inv) (point : inv.point = .appending step next) :
      Change ctx s (s.write ctx inv step next)

/-- An invocation goes on, or ends by an error. -/
theorem Change.of_enter {moved : Except DayAgentError DayAgentPoint} (hrun : s.running = some inv)
    (hid : inv'.taskId = inv.taskId) (hprocessed : inv'.processedSteps = inv.processedSteps)
    (hmoves : ∀ base point, s.store.taskRow inv.taskId = some base → moved = .ok point →
      Moves ctx (current base (s.stepsOf inv.taskId)) (s.stepsOf inv.taskId) inv.point point) :
    Change ctx s (s.enter inv' moved) := by
  cases moved with
  | error e =>
    have hinterrupt : s.enter inv' (.error e) = s.interrupt inv := by
      rw [DayAgentSystem.enter, DayAgentSystem.interrupt, hid, DayAgentSystem.interrupt]
    exact hinterrupt ▸ .interrupt inv hrun
  | ok point =>
    exact .enter inv inv' point hrun hid hprocessed fun base hrow => hmoves base point hrow rfl

/-- The steps are numbered from one. -/
theorem sequence_le {steps : List DayAgentTaskStep} (h : Admitted (Admissible ctx task) steps) :
    ∀ step ∈ steps, step.sequence ≤ steps.length := by
  induction h with
  | nil => simp
  | concat h ha ih =>
    intro step hstep
    rw [List.length_append, List.length_singleton]
    rcases List.mem_append.1 hstep with hstep | hstep
    · exact Nat.le_succ_of_le (ih step hstep)
    · rw [List.mem_singleton.1 hstep, ha.sequence]

namespace Invariant

theorem isValid_current (h : Invariant ctx s) (hrow : s.store.taskRow taskId = some base) :
    (current base (s.stepsOf taskId)).IsValid := h.store.isValid_current hrow

/-- What was in flight is lost with the invocation. -/
theorem interrupt (h : Invariant ctx s) (hrun : s.running = some inv) :
    Invariant ctx (s.interrupt inv) where
  store := h.store
  follows := h.follows
  ready := by
    rintro _ ⟨⟩
  accounts := by
    intro base hbase
    obtain ⟨task, hrow, hready⟩ := h.ready inv hrun
    refine (h.accounts base hbase).mono rfl ?_
    rintro _ r rfl
    have hafter : (s.interrupt inv).running = none := rfl
    rw [DayAgentSystem.interruptions_interrupt, DayAgentSystem.inFlight_of_none hafter]
    change s.callsOf _ r + _ + _ ≤ _
    by_cases hid : inv.taskId = base.taskId
    · -- At most one call was in flight.
      rw [hid] at hrow hready
      obtain rfl := h.store.eq_of_taskRow hbase hrow
      have hflight := (hready.inFlight_le (h.isValid_current hrow) r).1
      rw [← hid, DayAgentSystem.inFlight_of_eq hrun, if_pos rfl, hid]
      omega
    · rw [DayAgentSystem.inFlight_of_ne hrun hid, if_neg hid]
      omega
  unknown := h.unknown

/-- An invocation that returns has nothing in flight. -/
theorem halt (h : Invariant ctx s) (hrun : s.running = some inv) (hpoint : inv.point = .looping)
    (results : List DayAgentTaskResult) :
    Invariant ctx { s with running := none, results } where
  store := h.store
  follows := h.follows
  ready := by
    rintro _ ⟨⟩
  accounts := by
    intro base hbase
    refine (h.accounts base hbase).mono rfl ?_
    rintro _ r rfl
    have hafter : ({ s with running := none, results } : DayAgentSystem).running = none := rfl
    rw [DayAgentSystem.inFlight_of_none hafter]
    change s.callsOf _ r + s.interruptions _ + _ ≤ s.callsOf _ r + s.interruptions _ + 0
    by_cases hid : inv.taskId = base.taskId
    · rw [← hid, DayAgentSystem.inFlight_of_eq hrun, hpoint]
      exact le_rfl
    · rw [DayAgentSystem.inFlight_of_ne hrun hid]
  unknown := h.unknown

theorem leave (h : Invariant ctx s) (hrun : s.running = some inv) (hpoint : inv.point = .looping) :
    Invariant ctx (s.leave ctx inv) := by
  rw [DayAgentSystem.leave]
  split
  · exact h.interrupt hrun
  · exact h.halt hrun hpoint _

/-- What coming to a point calls, for the task of the invocation. -/
theorem callsOf_enter (hid : ∀ request role startedAt, point = .reasoning request role startedAt →
      request.task.taskId = inv.taskId) (r : Resource) :
    (s.enter inv (.ok point)).callsOf taskId r =
      s.callsOf taskId r + if inv.taskId = taskId then starts point r else 0 := by
  cases point with
  | reasoning request role startedAt =>
    cases r with
    | model =>
      simp only [DayAgentSystem.callsOf, DayAgentSystem.enter, history_concat, hid _ _ _ rfl]
      split_ifs <;> simp [starts, Resource.once]
    | tool => simp [DayAgentSystem.callsOf, DayAgentSystem.enter, starts, Resource.once]
  | dispatching task' steps' call startedAt =>
    cases r with
    | model => simp [DayAgentSystem.callsOf, DayAgentSystem.enter, starts, Resource.once]
    | tool =>
      simp only [DayAgentSystem.callsOf, DayAgentSystem.enter, history_concat]
      split_ifs <;> simp [starts, Resource.once]
  | looping => cases r <;> simp [DayAgentSystem.callsOf, DayAgentSystem.enter, starts]
  | applying => cases r <;> simp [DayAgentSystem.callsOf, DayAgentSystem.enter, starts]
  | appending => cases r <;> simp [DayAgentSystem.callsOf, DayAgentSystem.enter, starts]

/-- An invocation goes on. -/
theorem enter (h : Invariant ctx s) (hrun : s.running = some inv) (hid : inv'.taskId = inv.taskId)
    (hmoves : ∀ base, s.store.taskRow inv.taskId = some base →
      Moves ctx (current base (s.stepsOf inv.taskId)) (s.stepsOf inv.taskId) inv.point point) :
    Invariant ctx (s.enter inv' (.ok point)) := by
  obtain ⟨task, hrow, hready⟩ := h.ready inv hrun
  have hpoint := hmoves task hrow
  have hrequest : ∀ request role startedAt, point = .reasoning request role startedAt →
      request.task.taskId = inv'.taskId := by
    rintro request role startedAt rfl
    rw [hpoint.ready.1, current_taskId, (WellFormed.mem_of_taskRow hrow).2, hid]
  refine ⟨h.store, h.follows, ?_, fun base hbase => ?_, fun taskId hnone r => ?_⟩
  · rintro _ ⟨⟩
    exact ⟨task, hid ▸ hrow, hid ▸ hpoint.ready⟩
  · refine (h.accounts base hbase).mono rfl ?_
    rintro _ r rfl
    have hafter : (s.enter inv' (.ok point)).running = some { inv' with point } := rfl
    rw [callsOf_enter hrequest]
    change _ + s.interruptions _ + _ ≤ _ + s.interruptions _ + _
    by_cases hbase' : inv.taskId = base.taskId
    · rw [hbase'] at hrow hpoint
      obtain rfl := h.store.eq_of_taskRow hbase hrow
      rw [if_pos (hid.trans hbase'), ← hbase', DayAgentSystem.inFlight_of_eq hrun, ← hid,
        DayAgentSystem.inFlight_of_eq hafter, hid, hbase', hpoint.flight r]
      omega
    · rw [if_neg (hid ▸ hbase'), DayAgentSystem.inFlight_of_ne hrun hbase',
        DayAgentSystem.inFlight_of_ne hafter (hid ▸ hbase')]
      omega
  · rw [callsOf_enter hrequest, h.unknown taskId hnone, if_neg, add_zero]
    rintro rfl
    rw [hid] at hnone
    cases hrow.symm.trans hnone

/-- Once a step is written, its calls are in the budget. -/
theorem wrote (h : Invariant ctx s) (hrun : s.running = some inv) {step : DayAgentTaskStep}
    {next : DayAgentNext} (hpoint : inv.point = .appending step next) {inserted : Bool}
    {store : DayAgentTaskDatabase} (happend : appendStep ctx step s.store = .ok (inserted, store)) :
    Wrote ctx s inv step next store := by
  obtain ⟨task, hrow, hready⟩ := h.ready inv hrun
  rw [hpoint] at hready
  obtain ⟨⟨hid, hsequence⟩, hvalid, hfollows, hfor⟩ := hready
  rw [current_taskId, (WellFormed.mem_of_taskRow hrow).2] at hid
  obtain ⟨task', hrow', ⟨-, -, hmem⟩ | ⟨-, hadmissible, rfl⟩⟩ :=
    h.store.appendStep_cases hvalid happend
  · -- The steps that are written have smaller numbers.
    have hle := sequence_le (h.store.admitted hrow) step (mem_history.2 ⟨hmem, hid⟩)
    rw [hsequence] at hle
    exact absurd hle (by simp [DayAgentSystem.stepsOf])
  · obtain rfl : task' = task := Option.some.inj (hrow'.symm.trans (hid ▸ hrow))
    have hsteps : history (·.taskId) (s.store.dayTaskSteps ++ [step]) inv.taskId =
        s.stepsOf inv.taskId ++ [step] := by
      rw [history_concat, if_pos hid, DayAgentSystem.stepsOf]
    have hadmissible' : Admissible ctx task' (s.stepsOf inv.taskId) step := hid ▸ hadmissible
    refine ⟨hid, rfl, ⟨task', hrow, hadmissible', hfollows⟩, hfor,
      h.store.appendStep hrow' hadmissible, fun base hbase => ?_, ?_, fun base hbase => ?_,
      h.unknown⟩
    · change Admitted _ (history _ (s.store.dayTaskSteps ++ [step]) base.taskId)
      by_cases hbase' : inv.taskId = base.taskId
      · obtain rfl := h.store.eq_of_taskRow hbase (hbase' ▸ hrow)
        rw [← hbase', hsteps]
        exact (hbase' ▸ h.follows _ hbase).concat hfollows
      · rw [history_concat, if_neg (hid ▸ hbase')]
        exact h.follows base hbase
    · rintro _ ⟨⟩
      exact ⟨task', hrow, trivial⟩
    · intro r
      have hbefore := h.accounts base hbase r
      change s.callsOf _ r + r.remaining (current base (history (·.taskId)
        (s.store.dayTaskSteps ++ [step]) base.taskId)).budget ≤ _ + s.interruptions _ +
          if inv.taskId = base.taskId then 0 else 0
      rw [ite_self]
      by_cases hbase' : inv.taskId = base.taskId
      · obtain rfl := h.store.eq_of_taskRow hbase (hbase' ▸ hrow)
        rw [← hbase', DayAgentSystem.inFlight_of_eq hrun, hpoint, DayAgent.inFlight] at hbefore
        rw [← hbase', hsteps, current_concat, updated]
        change s.callsOf _ r + r.remaining step.budget ≤ _
        omega
      · rw [history_concat, if_neg (hid ▸ hbase')]
        rw [DayAgentSystem.inFlight_of_ne hrun hbase'] at hbefore
        exact hbefore

/-- A step is written, and the invocation goes on. -/
theorem write (h : Invariant ctx s) (hrun : s.running = some inv) {step : DayAgentTaskStep}
    {next : DayAgentNext} (hpoint : inv.point = .appending step next) :
    Invariant ctx (s.write ctx inv step next) := by
  rw [DayAgentSystem.write]
  cases happend : appendStep ctx step s.store with
  | error e => exact h.interrupt hrun
  | ok made =>
    obtain ⟨inserted, store⟩ := made
    obtain ⟨hid, rfl, ⟨task, hrow, -, -⟩, hfor, hwrote⟩ := h.wrote hrun hpoint happend
    cases next with
    | stop =>
      have hleave := hwrote.leave rfl rfl
      exact hleave
    | again =>
      have hid' : { inv with processedSteps := inv.processedSteps + 1 }.taskId =
          { inv with point := .looping }.taskId := rfl
      exact hwrote.enter rfl hid' fun base _ => ⟨trivial, fun _ => rfl⟩
    | apply steps response role =>
      obtain ⟨rfl, hkind, hpayload, hresponse⟩ := hfor
      have hid' : inv.taskId = { inv with point := .looping }.taskId := rfl
      have hrequire := hwrote.store.requireTask_eq hrow
      simp only [hrequire]
      refine hwrote.enter rfl hid' fun base hbase => ?_
      cases hrow.symm.trans hbase
      have hsteps : history (·.taskId) (s.store.dayTaskSteps ++ [step]) inv.taskId =
          s.stepsOf inv.taskId ++ [step] := by
        rw [history_concat, if_pos hid, DayAgentSystem.stepsOf]
      refine ⟨⟨rfl, hsteps.symm, step, ?_, hpayload, hresponse⟩, fun _ => rfl⟩
      change pendingDecision (history (·.taskId) (s.store.dayTaskSteps ++ [step]) inv.taskId) =
        some step
      rw [hsteps, pendingDecision_concat, if_pos hkind]

/-- A task that is new has all of its budget. -/
theorem create (h : Invariant ctx s) (hrun : s.running = none) (hvalid : task.IsValid)
    (hnew : s.store.taskRow task.taskId = none) (hpoint : inv.point = .looping)
    (hid : inv.taskId = task.taskId) :
    Invariant ctx { s with
      store := { s.store with dayTasks := s.store.dayTasks ++ [task] }, running := some inv } := by
  have hsteps := h.store.history_eq_nil hnew
  have hrow : ({ s.store with dayTasks := s.store.dayTasks ++ [task] } :
      DayAgentTaskDatabase).taskRow inv.taskId = some task := by
    rw [hid]
    exact find?_key_of_mem (h.store.createTask hvalid hnew).ids List.mem_concat_self
  refine ⟨h.store.createTask hvalid hnew, fun base hbase => ?_, ?_, fun base hbase r => ?_,
    fun taskId hnone r => h.unknown taskId ?_ r⟩
  · rcases List.mem_append.1 hbase with hbase | hbase
    · exact h.follows base hbase
    · obtain rfl := List.mem_singleton.1 hbase
      change Admitted _ (history _ s.store.dayTaskSteps _)
      rw [hsteps]
      exact .nil
  · rintro _ ⟨⟩
    exact ⟨task, hrow, hpoint ▸ trivial⟩
  · have hflight : ∀ budget, (if inv.taskId = base.taskId then
        DayAgent.inFlight budget inv.point r else 0) = 0 := by
      intro budget
      rw [hpoint]
      exact ite_self 0
    rcases List.mem_append.1 hbase with hbase | hbase
    · have hbefore := h.accounts base hbase r
      rw [DayAgentSystem.inFlight_of_none hrun] at hbefore
      exact hbefore.trans_eq (congrArg (_ + ·) (hflight _).symm)
    · obtain rfl := List.mem_singleton.1 hbase
      have hcalls := h.unknown base.taskId hnew r
      change s.callsOf base.taskId r + r.remaining (current base (history (·.taskId)
        s.store.dayTaskSteps base.taskId)).budget ≤ _ + s.interruptions _ + (if _ then _ else _)
      rw [hflight, hsteps, current_nil, hcalls]
      have hinterrupted : 0 ≤ s.interruptions base.taskId := Int.natCast_nonneg _
      omega
  · rw [DayAgentTaskDatabase.taskRow, List.find?_append] at hnone
    exact (Option.or_eq_none_iff.1 hnone).1

/-- An invocation starts. -/
theorem start (h : Invariant ctx s) (hrun : s.running = none) (hvalid : task.IsValid)
    (runtime : DayAgentRuntime) : Invariant ctx (s.start ctx runtime task) := by
  simp only [DayAgentSystem.start, h.store.readTask_eq]
  cases hrow : s.store.taskRow task.taskId with
  | none =>
    simp only [Option.map_none, createTask, hrow]
    exact h.create hrun hvalid hrow rfl rfl
  | some base =>
    simp only [Option.map_some]
    refine ⟨h.store, h.follows, ?_, fun other hother => ?_, h.unknown⟩
    · rintro _ ⟨⟩
      exact ⟨base, hrow, trivial⟩
    · refine (h.accounts other hother).mono rfl ?_
      rintro _ r rfl
      rw [DayAgentSystem.inFlight_of_none hrun]
      change s.callsOf _ r + s.interruptions _ + 0 ≤ s.callsOf _ r + s.interruptions _ +
        if task.taskId = other.taskId then 0 else 0
      rw [ite_self]

/-- What an event is, in a state where the invariant holds. -/
theorem change (h : Invariant ctx s) (hstep : step ctx s event = some t) : Change ctx s t := by
  cases event with
  | run runtime task =>
    simp only [DayAgent.step] at hstep
    split_ifs at hstep with hstart
    cases hstep
    exact .start runtime task (by simpa using hstart.1) hstart.2
  | crash =>
    simp only [DayAgent.step, Option.bind_eq_bind, Option.bind_eq_some_iff, Option.some.injEq]
      at hstep
    obtain ⟨inv, hrun, rfl⟩ := hstep
    exact .interrupt inv hrun
  | append =>
    simp only [DayAgent.step, Option.bind_eq_bind, Option.bind_eq_some_iff] at hstep
    obtain ⟨inv, hrun, hstep⟩ := hstep
    cases hpoint : inv.point with
    | appending step next =>
      simp only [hpoint, Option.some.injEq] at hstep
      exact hstep ▸ .write inv step next hrun hpoint
    | _ => simp [hpoint] at hstep
  | iterate role now =>
    simp only [DayAgent.step, Option.bind_eq_bind, Option.bind_eq_some_iff] at hstep
    obtain ⟨inv, hrun, hstep⟩ := hstep
    cases hpoint : inv.point with
    | looping =>
      simp only [hpoint] at hstep
      split at hstep
      · rename_i hiterate
        cases hstep
        exact .leave inv hrun hpoint fun base hrow =>
          iterate_eq_none (h.store.requireTask_eq hrow) hiterate
      · rename_i point hiterate
        cases hstep
        refine .enter inv inv point hrun rfl rfl fun base hrow => ?_
        rw [hpoint]
        exact (moves_iterate (h.isValid_current hrow) (h.store.requireTask_eq hrow)
          (h.store.stepsForTask_eq _) hiterate).2
      · cases hstep
        exact .interrupt inv hrun
    | _ => simp [hpoint] at hstep
  | answer response now later =>
    simp only [DayAgent.step, Option.bind_eq_bind, Option.bind_eq_some_iff] at hstep
    obtain ⟨inv, hrun, hstep⟩ := hstep
    cases hpoint : inv.point with
    | reasoning request role startedAt =>
      simp only [hpoint, Option.some.injEq] at hstep
      subst hstep
      refine .of_enter hrun rfl rfl fun base point hrow hmoved => ?_
      obtain ⟨task, hrow', hready⟩ := h.ready inv hrun
      cases hrow.symm.trans hrow'
      rw [hpoint] at hready ⊢
      exact moves_takeResponse (h.isValid_current hrow) hready hmoved
    | _ => simp [hpoint] at hstep
  | apply now =>
    simp only [DayAgent.step, Option.bind_eq_bind, Option.bind_eq_some_iff] at hstep
    obtain ⟨inv, hrun, hstep⟩ := hstep
    cases hpoint : inv.point with
    | applying task steps response role =>
      simp only [hpoint, Option.some.injEq] at hstep
      subst hstep
      refine .of_enter hrun rfl rfl fun base point hrow hmoved => ?_
      obtain ⟨task', hrow', hready⟩ := h.ready inv hrun
      cases hrow.symm.trans hrow'
      rw [hpoint] at hready ⊢
      obtain ⟨rfl, rfl, -⟩ := id hready
      exact moves_applyResponse (h.isValid_current hrow) hready hmoved
    | _ => simp [hpoint] at hstep
  | observe raw observedAt now later =>
    simp only [DayAgent.step, Option.bind_eq_bind, Option.bind_eq_some_iff] at hstep
    obtain ⟨inv, hrun, hstep⟩ := hstep
    cases hpoint : inv.point with
    | dispatching task steps call startedAt =>
      simp only [hpoint, Option.some.injEq] at hstep
      subst hstep
      refine .of_enter hrun rfl rfl fun base point hrow hmoved => ?_
      obtain ⟨task', hrow', hready⟩ := h.ready inv hrun
      cases hrow.symm.trans hrow'
      rw [hpoint] at hready ⊢
      obtain ⟨rfl, rfl, -⟩ := id hready
      exact moves_takeObservation (h.isValid_current hrow) hready hmoved
    | _ => simp [hpoint] at hstep

/-- Every event keeps the invariant. -/
theorem step (h : Invariant ctx s) (hstep : step ctx s event = some t) : Invariant ctx t := by
  cases h.change hstep with
  | start runtime task hrun hvalid => exact h.start hrun hvalid runtime
  | interrupt inv hrun => exact h.interrupt hrun
  | leave inv hrun hpoint _ => exact h.leave hrun hpoint
  | enter inv inv' point hrun hid _ hmoves => exact h.enter hrun hid hmoves
  | write inv step next hrun hpoint => exact h.write hrun hpoint

end Invariant

theorem invariant_of_reachable (h : (system ctx).Reachable s) : Invariant ctx s :=
  h.invariant (fun _ hinit => hinit ▸ invariant_init) fun _ _ _ _ hs hstep => hs.step hstep

/-! ## A thesis -/

namespace ThesisSample

def env : DayAgentContext where
  sha256 _ := String.ofList (List.replicate 64 'a')
  dayAgentStepId step := step.taskId ++ toString step.sequence
  payloadBytes _ := 100
  canonicalJson := some
  isStrictJson _ := true

def situation : DayAgentToolBinding where
  action := .inspectSituation
  allowedArguments := ["symbol"]
  evidenceRefs := ["evidence.situation"]

theorem situation_nodup : ([situation].map (·.action)).Nodup := by decide

theorem one_le_four : 1 ≤ 4 := by decide

theorem four_le : 4 ≤ 12 := by decide

def runtime : DayAgentRuntime := ⟨[situation], 4, situation_nodup, one_le_four, four_le⟩

def second (n : ℤ) : Instant := TimeDelta.seconds n

def assessment : DayAgentResearchTask where
  taskId := "day-agent-task"
  objective := "assess the setup"
  question := "does the session support a thesis"
  state := .open
  budget := ⟨2, 1, 60⟩
  createdAt := second 0
  updatedAt := second 0

def inspect : DayAgentReasoningResponse := .toolCall
  { action := .inspectSituation, arguments := [("symbol", "NVDA")], reason := "inspect it first" }

def thesis : DayAgentReasoningResponse := .thesisSubmission
  { thesis := "the leader persists", evidenceRefs := ["evidence.situation"],
    reason := "it was observed" }

/-- The agent decides to call a tool, and is lost before it returns. -/
def lost : List DayAgentEvent :=
  [.run runtime assessment, .iterate (some .reasoning) (second 1),
    .answer (some inspect) (second 3) (second 3), .append, .apply (second 3), .crash]

/-- It is started again, calls the tool, and submits a thesis. -/
def resumed : List DayAgentEvent :=
  [.run runtime assessment, .iterate (some .reasoning) (second 9), .apply (second 9),
    .observe (some "true") (second 10) (second 10) (second 10), .append,
    .iterate (some .reasoning) (second 11), .answer (some thesis) (second 12) (second 12), .append,
    .apply (second 12), .append, .iterate (some .reasoning) (second 13)]

theorem replay_lost : (System.replay (step env) {} lost).isSome = true := by decide +kernel

def afterLoss : DayAgentSystem := (System.replay (step env) {} lost).get replay_lost

theorem replay_resumed : (System.replay (step env) afterLoss resumed).isSome = true := by
  decide +kernel

def submitted : DayAgentSystem := (System.replay (step env) afterLoss resumed).get replay_resumed

theorem reachable_afterLoss : (system env).Reachable afterLoss :=
  .of_replay lost (Option.some_get replay_lost).symm

theorem run_submitted : (system env).Run afterLoss resumed submitted :=
  .of_replay (Option.some_get replay_resumed).symm

theorem reachable_submitted : (system env).Reachable submitted :=
  reachable_afterLoss.run run_submitted

theorem taskRow_submitted : submitted.store.taskRow "day-agent-task" = some assessment := by
  decide +kernel

/-- The decision that was written before the loss. -/
def decided : DayAgentTaskStep :=
  decisionStep assessment [] inspect ⟨1, 1, 58⟩ (second 3)

theorem pending_afterLoss :
    pendingDecision (afterLoss.stepsOf "day-agent-task") = some decided := by
  decide +kernel

end ThesisSample

end TradingAgent.DayAgent
