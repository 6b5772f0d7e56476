import TradingAgent.DayAgent.Invariant

/-!
# The steps of a task

What follows for the steps of a task from what each of them follows: decisions and what came of them
alternate, a task is over at its last step, and each decision takes one call of the model from the
budget, so that there are at most two steps for each call.
-/

namespace TradingAgent.DayAgent

open Except Journal

variable {ctx : DayAgentContext} {base : DayAgentResearchTask} {steps : List DayAgentTaskStep}
  {step : DayAgentTaskStep}

theorem pendingDecision_eq_some {decision : DayAgentTaskStep}
    (h : pendingDecision steps = some decision) :
    decision.recordKind = .decision ∧ ∃ before, steps = before ++ [decision] := by
  rcases List.eq_nil_or_concat' steps with rfl | ⟨before, last, rfl⟩
  · cases h
  · rw [pendingDecision_concat] at h
    split_ifs at h with hkind
    cases h
    exact ⟨hkind, before, rfl⟩

/-- What came of a decision: it was applied, or the task was blocked. -/
def CameOf (decision step : DayAgentTaskStep) : Prop :=
  step.recordKind = .observation ∧ (step.state = .blocked ∨ ∃ response,
    decision.payload = .response response ∧ step.state = response.outcome ∧
      step.action = response.action ∧ Reports response step.payload)

/-- What follows a decision came of it. -/
theorem Follows.cameOf {decision : DayAgentTaskStep} {task : DayAgentResearchTask}
    (h : Follows task steps step) (hpending : pendingDecision steps = some decision) :
    CameOf decision step := by
  cases h with
  | decides _ hfree =>
    rw [hpending] at hfree
    cases hfree
  | settles response hresponse _ hkind hpayload haction hstate =>
    obtain ⟨decision', hdecision, hdecided, -⟩ := hresponse
    rw [hpending] at hdecision
    cases hdecision
    exact ⟨hkind, .inr ⟨response, hdecided, hstate, haction, hpayload⟩⟩
  | blocks _ hkind hstate => exact ⟨hkind, .inl hstate⟩

/-- What follows another step, if nothing is pending, decides something or blocks the task. -/
theorem Follows.of_free {task : DayAgentResearchTask} (h : Follows task steps step)
    (hfree : pendingDecision steps = none) :
    (step.recordKind = .decision ∧ step.state = .waiting) ∨
      (step.recordKind = .observation ∧ step.state = .blocked) := by
  cases h with
  | decides _ _ _ hkind _ _ _ hstate => exact .inl ⟨hkind, hstate⟩
  | settles _ hresponse =>
    obtain ⟨decision, hdecision, -⟩ := hresponse
    rw [hfree] at hdecision
    cases hdecision
  | blocks _ hkind hstate => exact .inr ⟨hkind, hstate⟩

/-- How one step goes on from the one before it. -/
def GoesOn (a b : DayAgentTaskStep) : Prop :=
  a.state.isTerminal = false ∧ a.occurredAt ≤ b.occurredAt ∧ b.budget.IsWithin a.budget ∧
    b.sequence = a.sequence + 1 ∧
    match a.recordKind with
    | .decision => CameOf a b
    | .observation => (b.recordKind = .decision ∧ b.state = .waiting) ∨
        (b.recordKind = .observation ∧ b.state = .blocked)

/-- What was called for the steps that there are. -/
structure IsPaid (base : DayAgentResearchTask) (steps : List DayAgentTaskStep) : Prop where
  /-- Each call of the model makes two steps, and the last step may block the task. -/
  length : steps.length + 2 * Resource.model.remaining (current base steps).budget ≤
    2 * Resource.model.remaining base.budget +
      if (current base steps).state.isTerminal = true then 1
      else if (pendingDecision steps).isSome = true then -1 else 0
  /-- Each decision that was applied was paid for, as was the one that is pending. -/
  settled : (steps.countP fun step => step.recordKind = .observation ∧ step.state = .waiting) +
      Resource.model.remaining (current base steps).budget +
      (if (pendingDecision steps).isSome = true then 1 else 0) ≤
    Resource.model.remaining base.budget

/-- The steps of a task, as they were written. -/
def IsTrace (ctx : DayAgentContext) (base : DayAgentResearchTask) (steps : List DayAgentTaskStep) :
    Prop :=
  Admitted (fun steps step => Admissible ctx base steps step ∧
    Follows (current base steps) steps step) steps

theorem IsTrace.isChain (h : IsTrace ctx base steps) : steps.IsChain GoesOn := by
  refine Admitted.isChain h fun m a b hm hb => ?_
  obtain ⟨hadmissible, hfollows⟩ := hb
  obtain ⟨⟨hfirst, -⟩⟩ := (admitted_concat.1 hm).2
  have hsequence := (admitted_concat.1 hm).2.1.sequence
  have hactive := hadmissible.active
  have hsince := hadmissible.since
  have hwithin := hadmissible.within
  have hnext := hadmissible.sequence
  rw [current_concat] at hactive hsince hwithin
  rw [List.length_append, List.length_singleton] at hnext
  refine ⟨hactive, hsince, hwithin, by omega, ?_⟩
  cases hkind : a.recordKind with
  | decision => exact hfollows.cameOf (by rw [pendingDecision_concat, if_pos hkind])
  | observation =>
    refine hfollows.of_free ?_
    rw [pendingDecision_concat, if_neg]
    simp [hkind]

/-- A task is over at its last step. -/
theorem IsTrace.eq_nil_of_isTerminal (h : IsTrace ctx base steps)
    {before after : List DayAgentTaskStep} (hsplit : steps = before ++ step :: after)
    (hterminal : step.state.isTerminal = true) : after = [] := by
  cases after with
  | nil => rfl
  | cons next after =>
    have hchain := h.isChain
    rw [hsplit] at hchain
    have hgoes := (List.isChain_append_cons_cons.1 hchain).2.1
    rw [hgoes.1] at hterminal
    cases hterminal

/-- A step that is written keeps the steps paid for. -/
theorem IsPaid.concat (h : IsPaid base steps)
    (hactive : (current base steps).state.isTerminal = false)
    (hfollows : Follows (current base steps) steps step) : IsPaid base (steps ++ [step]) := by
  obtain ⟨hlength, hsettled⟩ := h
  rw [hactive] at hlength
  simp only [Bool.false_eq_true, if_false] at hlength
  cases hfollows with
  | decides _ hfree _ hkind _ _ _ hstate hspends =>
    have hmodel : Resource.model.remaining step.budget = _ - 1 := hspends.remaining .model
    rw [hfree] at hlength hsettled
    constructor
    · simp [pendingDecision_concat, hkind, hstate, hmodel, DayAgentTaskState.isTerminal]
        at hlength ⊢
      omega
    · simp [pendingDecision_concat, hkind, hstate, hmodel, List.countP_append] at hsettled ⊢
      omega
  | settles response hresponse _ hkind _ _ hstate hspends =>
    obtain ⟨decision, hpending, -⟩ := hresponse
    have hmodel : Resource.model.remaining step.budget = Resource.model.remaining
        (current base steps).budget := by
      rw [hspends.remaining .model]
      cases response <;> simp [DayAgentReasoningResponse.cost, Resource.once]
    rw [hpending] at hlength hsettled
    constructor
    · simp [pendingDecision_concat, hkind, hmodel] at hlength ⊢
      split_ifs <;> omega
    · simp [pendingDecision_concat, hkind, hmodel, List.countP_append, List.countP_singleton]
        at hsettled ⊢
      split_ifs <;> omega
  | blocks spent hkind hstate _ hspent hspends =>
    have hmodel := hspends.remaining .model
    have hnonneg : 0 ≤ spent .model := by
      rcases hspent with rfl | ⟨rfl, -⟩ | ⟨rfl, -⟩
      · exact le_rfl
      · exact (Resource.once_le _ _).1
      · exact (Resource.once_le _ _).1
    constructor
    · simp [hstate, hmodel, DayAgentTaskState.isTerminal] at hlength ⊢
      split_ifs at hlength <;> omega
    · simp [pendingDecision_concat, hkind, hstate, hmodel, List.countP_append] at hsettled ⊢
      split_ifs at hsettled <;> omega

theorem IsTrace.isPaid (h : IsTrace ctx base steps) : IsPaid base steps := by
  induction h with
  | nil =>
    constructor
    · simp [pendingDecision]
      split_ifs <;> simp
    · simp [pendingDecision]
  | concat _ hstep ih => exact ih.concat hstep.1.active hstep.2

end TradingAgent.DayAgent
