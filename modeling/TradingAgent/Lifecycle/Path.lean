import TradingAgent.Library.Journal
import TradingAgent.Lifecycle.Models

/-!
# The paths of lifecycles

What the lifecycle of a version is for, in terms of its states alone: it starts in some of them, goes
along the closed table, and comes back from a suspension to no more than it was (`Follows`).

* Nothing follows a rejection (`getLast?_of_mem_rejected`).
* There is no champion that has not been a challenger (`challenger_mem`).
* Where a rejection is no exception to the rule of the suspensions, a suspended version is not
  rejected before it has recovered (`ne_rejected_of_suspended`).
-/

namespace TradingAgent.Lifecycle

open Journal

namespace StrategyLifecycleState

def isChampion : StrategyLifecycleState → Bool
  | shadowChampion | paperChampion => true
  | idea | historical | experimentalShadow | experimentalPaper | challenger | suspended
  | rejected => false

end StrategyLifecycleState

/-- The last state that was not a suspension. -/
def lastActive (states : List StrategyLifecycleState) : Option StrategyLifecycleState :=
  states.reverse.find? (· ≠ .suspended)

/-- Whether a state may follow others. With `exempt`, a suspended version may be rejected. -/
inductive Follows (initial : List StrategyLifecycleState) (exempt : Bool)
    (states : List StrategyLifecycleState) (state : StrategyLifecycleState) : Prop
  | start : states = [] → state ∈ initial → Follows initial exempt states state
  | next {earlier : List StrategyLifecycleState} {previous : StrategyLifecycleState} :
      states = earlier ++ [previous] → lifecycleTransitionAllowed previous state = true →
      (previous = .suspended → exempt = true ∧ state = .rejected ∨ ∃ active,
        lastActive states = some active ∧ lifecycleStateRank state ≤ lifecycleStateRank active) →
      Follows initial exempt states state

variable {initial states : List StrategyLifecycleState} {exempt : Bool}
  {state active : StrategyLifecycleState}

theorem lastActive_eq_some (h : lastActive states = some active) :
    active ∈ states ∧ active ≠ .suspended :=
  ⟨List.mem_reverse.1 (List.mem_of_find?_eq_some h), by simpa using List.find?_some h⟩

/-- Nothing follows a rejection. -/
theorem getLast?_of_mem_rejected (h : Admitted (Follows initial exempt) states)
    (hmem : StrategyLifecycleState.rejected ∈ states) : states.getLast? = some .rejected := by
  induction h with
  | nil => cases hmem
  | @concat states state _ hfollows ih =>
    rw [List.getLast?_concat]
    rcases List.mem_append.1 hmem with hmem | hmem
    · -- The one before would have been the rejection, and its row of the table is empty.
      have hlast := ih hmem
      cases hfollows with
      | start hnil => rw [hnil] at hmem; cases hmem
      | @next earlier previous heq hallowed _ =>
        rw [heq, List.getLast?_concat] at hlast
        cases hlast
        cases hallowed
    · rw [← List.mem_singleton.1 hmem]

/-- A suspended version has not been rejected. -/
theorem lastActive_ne_rejected (h : Admitted (Follows initial exempt) states)
    (hlast : states.getLast? = some .suspended) (hactive : lastActive states = some active) :
    active ≠ .rejected := by
  rintro rfl
  have hrejected := getLast?_of_mem_rejected h (lastActive_eq_some hactive).1
  rw [hlast] at hrejected
  cases hrejected

/-- Only a challenger or a suspended version becomes a champion. -/
theorem previous_of_isChampion {previous : StrategyLifecycleState}
    (h : lifecycleTransitionAllowed previous state = true) (hchampion : state.isChampion = true) :
    previous = .challenger ∨ previous = .suspended := by
  revert h hchampion
  cases previous <;> cases state <;> decide

/-- What has the rank of a champion is one, unless it is suspended or rejected. -/
theorem isChampion_of_rank {champion : StrategyLifecycleState}
    (hchampion : champion.isChampion = true)
    (hrank : lifecycleStateRank champion ≤ lifecycleStateRank active)
    (hsuspended : active ≠ .suspended) (hrejected : active ≠ .rejected) :
    active.isChampion = true := by
  revert hchampion hrank hsuspended hrejected
  cases champion <;> cases active <;> decide

/-- A state that is no initial one follows another one. -/
theorem Follows.previous (h : Follows initial exempt states state) (hstate : state ∉ initial) :
    ∃ earlier previous, states = earlier ++ [previous] ∧
      lifecycleTransitionAllowed previous state = true ∧
      (previous = .suspended → exempt = true ∧ state = .rejected ∨ ∃ active,
        lastActive states = some active ∧ lifecycleStateRank state ≤ lifecycleStateRank active) := by
  cases h with
  | start _ hmem => exact absurd hmem hstate
  | next heq hallowed hsuspended => exact ⟨_, _, heq, hallowed, hsuspended⟩

/-- If the champions before have been challengers, so has the next one. -/
theorem challenger_mem_of_follows (hinitial : ∀ s ∈ initial, s.isChampion = false)
    (h : Admitted (Follows initial exempt) states)
    (hbefore : ∀ s ∈ states, s.isChampion = true → StrategyLifecycleState.challenger ∈ states)
    (hfollows : Follows initial exempt states state) (hchampion : state.isChampion = true) :
    StrategyLifecycleState.challenger ∈ states := by
  have hstate : state ∉ initial := fun hmem => by simp [hinitial state hmem] at hchampion
  obtain ⟨earlier, previous, heq, hallowed, hsuspended⟩ := hfollows.previous hstate
  rcases previous_of_isChampion hallowed hchampion with rfl | rfl
  · simp [heq]
  · -- It was a champion before the suspension already.
    rcases hsuspended rfl with ⟨-, rfl⟩ | ⟨active, hactive, hrank⟩
    · cases hchampion
    · obtain ⟨hmem, hne⟩ := lastActive_eq_some hactive
      have hrejected := lastActive_ne_rejected h (by rw [heq, List.getLast?_concat]) hactive
      exact hbefore active hmem (isChampion_of_rank hchampion hrank hne hrejected)

/-- There is no champion that has not been a challenger. -/
theorem challenger_mem (hinitial : ∀ s ∈ initial, s.isChampion = false)
    (h : Admitted (Follows initial exempt) states) :
    ∀ s ∈ states, s.isChampion = true → StrategyLifecycleState.challenger ∈ states := by
  induction h with
  | nil => simp
  | concat h hfollows ih =>
    intro s hs hchampion
    refine List.mem_append_left _ ?_
    rcases List.mem_append.1 hs with hs | hs
    · exact ih s hs hchampion
    · obtain rfl := List.mem_singleton.1 hs
      exact challenger_mem_of_follows hinitial h ih hfollows hchampion

/-- Without an exemption, a version is not rejected while it is suspended. -/
theorem ne_rejected_of_suspended (hinitial : StrategyLifecycleState.rejected ∉ initial)
    (h : Admitted (Follows initial false) states)
    (hfollows : Follows initial false states .rejected) :
    states.getLast? ≠ some .suspended := by
  intro hlast
  obtain ⟨earlier, previous, heq, -, hsuspended⟩ := hfollows.previous hinitial
  rw [heq, List.getLast?_concat, Option.some.injEq] at hlast
  rcases hsuspended hlast with ⟨hexempt, -⟩ | ⟨active, hactive, hrank⟩
  · cases hexempt
  · -- Nothing but a rejection ranks as high as one.
    have hrejected := lastActive_ne_rejected h (by rw [heq, List.getLast?_concat, hlast]) hactive
    have hne := (lastActive_eq_some hactive).2
    revert hrank hrejected hne
    cases active <;> decide

end TradingAgent.Lifecycle
