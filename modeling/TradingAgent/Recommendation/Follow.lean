import TradingAgent.Recommendation.Engine

/-!
# What following a bar does to the store

Following the recommendations through a bar appends the events of its transitions, and moves each
recommendation to the last state of its own transitions (`stateAfterBar`); nothing else changes
(`update_spec`). A recommendation that is no longer open stays as it is.
-/

namespace TradingAgent

/-- The state of the recommendation of an identity after some events, from a state. -/
def stateAfter (events : List RecommendationEvent) (id : String) (state : RecommendationState) :
    RecommendationState :=
  events.foldl (fun state event => if id = event.recommendationId then event.state else state) state

/-- The state of a recommendation after a bar. -/
def stateAfterBar (env : Environment) (bar : BarInput) (r : Recommendation) :
    RecommendationState :=
  (transitions env bar r).foldl (fun _ transition => transition.state) r.state

/-- The events of a bar. -/
def barEvents (env : Environment) (bar : BarInput) (recommendations : List Recommendation) :
    List RecommendationEvent :=
  recommendations.flatMap fun r => (transitions env bar r).map (transitionEvent bar r)

/-- The store after some bars. -/
def afterBars (env : Environment) (bars : List BarInput) (store : PaperStore) : PaperStore :=
  bars.foldl (fun store bar =>
    (updateOpenRecommendations env bar store).foldl (PaperStore.commit env) store) store

section

variable {env : Environment} {bar : BarInput} {store : PaperStore} {r : Recommendation}

/-- The store after some events are recorded. -/
theorem foldl_setState (events : List RecommendationEvent) (store : PaperStore) :
    (events.map .setState).foldl (PaperStore.commit env) store =
      { store with
        recommendations := store.recommendations.map fun r =>
          { r with state := stateAfter events r.recommendationId r.state }
        events := store.events ++ events } := by
  induction events generalizing store with
  | nil => simp [stateAfter]
  | cons event events ih =>
    rw [List.map_cons, List.foldl_cons, ih]
    simp only [PaperStore.commit, List.map_map, List.append_assoc, List.singleton_append,
      PaperStore.mk.injEq, and_true]
    refine List.map_congr_left fun r _ => ?_
    rw [Function.comp_apply, stateAfter, stateAfter, List.foldl_cons]
    split_ifs <;> rfl

theorem updateOpenRecommendations_eq (store : PaperStore) :
    updateOpenRecommendations env bar store =
      (barEvents env bar store.recommendations).map .setState := by
  rw [updateOpenRecommendations, barEvents, List.map_flatMap]
  simp only [List.map_map]
  rfl

theorem mem_barEvents {recommendations : List Recommendation} {event : RecommendationEvent} :
    event ∈ barEvents env bar recommendations ↔ ∃ r ∈ recommendations,
      ∃ transition ∈ transitions env bar r, event = transitionEvent bar r transition := by
  simp [barEvents, eq_comm]

theorem stateAfter_append (events events' : List RecommendationEvent) (id : String)
    (state : RecommendationState) :
    stateAfter (events ++ events') id state = stateAfter events' id (stateAfter events id state) :=
  List.foldl_append

/-- Events of other recommendations do not change the state. -/
theorem stateAfter_of_ne {events : List RecommendationEvent} {id : String}
    {state : RecommendationState} (h : ∀ event ∈ events, id ≠ event.recommendationId) :
    stateAfter events id state = state := by
  rw [stateAfter]
  induction events with
  | nil => rfl
  | cons event events ih =>
    rw [List.foldl_cons, if_neg (h event List.mem_cons_self)]
    exact ih fun e he => h e (List.mem_cons_of_mem event he)

/-- The own events of a recommendation move it as the transitions do. -/
theorem stateAfter_own (r : Recommendation) :
    stateAfter ((transitions env bar r).map (transitionEvent bar r)) r.recommendationId r.state =
      stateAfterBar env bar r := by
  rw [stateAfter, stateAfterBar, List.foldl_map]
  congr 1
  funext state transition
  exact if_pos rfl

/-- Where each recommendation has events of its own, only those matter to it. -/
theorem stateAfter_flatMap {recommendations : List Recommendation}
    {events : Recommendation → List RecommendationEvent}
    (hkeys : (recommendations.map (·.recommendationId)).Nodup)
    (hown : ∀ s ∈ recommendations, ∀ event ∈ events s, event.recommendationId = s.recommendationId)
    (hr : r ∈ recommendations) (state : RecommendationState) :
    stateAfter (recommendations.flatMap events) r.recommendationId state =
      stateAfter (events r) r.recommendationId state := by
  obtain ⟨before, after, rfl⟩ := List.append_of_mem hr
  rw [List.map_append, List.map_cons, List.nodup_append, List.nodup_cons] at hkeys
  obtain ⟨-, ⟨hafter, -⟩, hbefore⟩ := hkeys
  have hother : ∀ l ⊆ before ++ r :: after, (∀ s ∈ l, r.recommendationId ≠ s.recommendationId) →
      ∀ state, stateAfter (l.flatMap events) r.recommendationId state = state := by
    intro l hsub hl state
    refine stateAfter_of_ne fun event hevent => ?_
    obtain ⟨s, hs, hevent⟩ := List.mem_flatMap.1 hevent
    rw [hown s (hsub hs) event hevent]
    exact hl s hs
  rw [List.flatMap_append, List.flatMap_cons, stateAfter_append, stateAfter_append,
    hother before (by simp), hother after (by simp)]
  · intro s hs heq
    exact hafter (List.mem_map.2 ⟨s, hs, heq.symm⟩)
  · intro s hs heq
    exact hbefore _ (List.mem_map_of_mem hs) _ List.mem_cons_self heq.symm

/-- Of the events of a bar, only the own ones of a recommendation matter to it. -/
theorem stateAfter_barEvents {recommendations : List Recommendation}
    (hkeys : (recommendations.map (·.recommendationId)).Nodup) (hr : r ∈ recommendations) :
    stateAfter (barEvents env bar recommendations) r.recommendationId r.state =
      stateAfterBar env bar r := by
  rw [barEvents, stateAfter_flatMap hkeys (fun s _ event hevent => ?_) hr, stateAfter_own]
  obtain ⟨transition, -, rfl⟩ := List.mem_map.1 hevent
  rfl

/-- What following a bar does to the store. -/
theorem update_spec (hkeyed : store.Keyed) :
    (updateOpenRecommendations env bar store).foldl (PaperStore.commit env) store =
      { store with
        recommendations := store.recommendations.map fun r =>
          { r with state := stateAfterBar env bar r }
        events := store.events ++ barEvents env bar store.recommendations } := by
  rw [updateOpenRecommendations_eq, foldl_setState, PaperStore.mk.injEq]
  refine ⟨List.map_congr_left fun r hr => ?_, rfl, rfl⟩
  rw [stateAfter_barEvents hkeyed hr]

/-- A recommendation that is not open has no transitions. -/
theorem transitions_of_closed (h : r.state.isOpen = false) : transitions env bar r = [] := by
  rw [transitions]
  split_ifs
  · cases hstate : r.state <;> simp_all [RecommendationState.isOpen, barTransitions]
  · rfl

theorem stateAfterBar_of_closed (h : r.state.isOpen = false) :
    stateAfterBar env bar r = r.state := by
  rw [stateAfterBar, transitions_of_closed h]
  rfl

theorem foldl_updateTransactions (batch : Batch) :
    (updateTransactions env store batch).foldl (PaperStore.commit env) store =
      afterBars env (pendingBars store batch) store := by
  rw [updateTransactions, foldl_writesOf, List.foldl_map, afterBars]

/-! ## New recommendations -/

/-- The event that records that a recommendation was made. -/
def creationEvent (r : Recommendation) : RecommendationEvent where
  recommendationId := r.recommendationId
  occurredAt := r.createdAt
  state := r.state
  price := none
  note := "추천 생성"

theorem signalRecommendation_spec {risk : RiskConfig} {availableAt : Option DateTime}
    {signal : StrategySignal}
    (h : signalRecommendation env risk bar availableAt signal = some r) :
    r.symbol = signal.symbol ∧ r.strategy = signal.strategy
      ∧ r.createdAt = signalCreatedAt env signal availableAt ∧ r.state = .setup
      ∧ ∃ plan, buildTradePlan signal.entry signal.stop bar.spreadBps risk = some plan
        ∧ r.entry = plan.entry ∧ r.stop = plan.stop ∧ r.target1r = plan.target1r
        ∧ r.target2r = plan.target2r := by
  obtain ⟨plan, hplan, rfl⟩ := Option.map_eq_some_iff.1 h
  exact ⟨rfl, rfl, rfl, rfl, plan, hplan, rfl, rfl, rfl, rfl⟩

/-- A signal makes nothing, or saves a recommendation of a new identity in two transactions. -/
theorem creationTransactions_cases {risk : RiskConfig} {availableAt : Option DateTime}
    {signal : Option StrategySignal} {created : List Transaction}
    (h : creationTransactions env risk store bar availableAt signal = some created) :
    created = []
      ∨ ∃ s ∈ signal, ∃ r, signalRecommendation env risk bar availableAt s = some r
        ∧ hasRecommendation env store s = false
        ∧ store.recommendations.any (·.recommendationId = r.recommendationId) = false
        ∧ created = [.insertRecommendation r, .setState (creationEvent r)] := by
  cases signal with
  | none => exact .inl (Option.some.inj h).symm
  | some s =>
    rw [creationTransactions] at h
    split_ifs at h with hhas
    · exact .inl (Option.some.inj h).symm
    · cases hr : signalRecommendation env risk bar availableAt s with
      | none =>
        rw [hr] at h
        exact .inl (Option.some.inj h).symm
      | some r =>
        rw [hr] at h
        dsimp only at h
        rw [PaperStore.saveTransactions] at h
        split_ifs at h with hid
        exact .inr ⟨s, rfl, r, hr, by simpa using hhas, by simpa using hid,
          (Option.some.inj h).symm⟩

/-- What there is after a recommendation is made: it, and what there was before. -/
theorem mem_create_cases {s : Recommendation}
    (hnew : store.recommendations.any (·.recommendationId = r.recommendationId) = false)
    (hs : s ∈ ([.insertRecommendation r, .setState (creationEvent r)].foldl
      (PaperStore.commit env) store).recommendations) :
    s = r ∨ s ∈ store.recommendations ∧ s.recommendationId ≠ r.recommendationId := by
  obtain ⟨s₀, hs₀, rfl⟩ := List.mem_map.1 hs
  rcases PaperStore.mem_commit_insert.1 hs₀ with rfl | hs₀
  · exact .inl (if_pos rfl)
  · have hne : s₀.recommendationId ≠ r.recommendationId :=
      fun heq => List.any_eq_false.1 hnew s₀ hs₀ (decide_eq_true heq)
    rw [if_neg (show s₀.recommendationId ≠ (creationEvent r).recommendationId from hne)]
    exact .inr ⟨hs₀, hne⟩

/-- What there is, stays as it is when a recommendation is made. -/
theorem mem_create {s : Recommendation}
    (hnew : store.recommendations.any (·.recommendationId = r.recommendationId) = false)
    (hs : s ∈ store.recommendations) :
    s ∈ ([.insertRecommendation r, .setState (creationEvent r)].foldl
      (PaperStore.commit env) store).recommendations := by
  have hne : s.recommendationId ≠ (creationEvent r).recommendationId :=
    fun heq => List.any_eq_false.1 hnew s hs (decide_eq_true heq)
  exact List.mem_map.2 ⟨s, PaperStore.mem_commit_insert.2 (.inr hs), if_neg hne⟩

theorem mem_create_self : r ∈ ([.insertRecommendation r, .setState (creationEvent r)].foldl
    (PaperStore.commit env) store).recommendations :=
  List.mem_map.2 ⟨r, PaperStore.mem_commit_insert.2 (.inl rfl), if_pos rfl⟩

/-- The bar that is processed last becomes the checkpoint. -/
theorem setLastProcessedBar_of_pending {batch : Batch} {newest : BarInput} {store' : PaperStore}
    (h : newest ∈ pendingBars store batch) (hcheckpoints : store'.checkpoints = store.checkpoints) :
    store'.setLastProcessedBar batch.symbol newest.timestamp newest.close =
      [.setCheckpoint ⟨batch.symbol, newest.timestamp, some newest.close⟩] := by
  have hpending := of_decide_eq_true (List.mem_filter.1 h).2
  rw [PaperStore.setLastProcessedBar, PaperStore.lastProcessedBar, PaperStore.lastProcessed,
    hcheckpoints]
  exact if_neg hpending

/-- What is committed after the newest bar has been followed: nothing if the identity of its
    recommendation is taken, and else the recommendation that it makes, if any, and the checkpoint. -/
theorem finalTransactions_cases {risk : RiskConfig} {batch : Batch} {newest : BarInput}
    {signal : Option StrategySignal} {store' : PaperStore} (hpending : newest ∈ pendingBars store batch)
    (hcheckpoints : store'.checkpoints = store.checkpoints) :
    finalTransactions env risk store' batch newest signal = []
      ∨ finalTransactions env risk store' batch newest signal =
        [.setCheckpoint ⟨batch.symbol, newest.timestamp, some newest.close⟩]
      ∨ ∃ s ∈ signal, ∃ r,
        signalRecommendation env risk newest batch.submission.availableAt s = some r
          ∧ store'.recommendations.any (·.recommendationId = r.recommendationId) = false
          ∧ finalTransactions env risk store' batch newest signal =
            [.insertRecommendation r, .setState (creationEvent r),
              .setCheckpoint ⟨batch.symbol, newest.timestamp, some newest.close⟩] := by
  rw [finalTransactions, setLastProcessedBar_of_pending hpending hcheckpoints]
  cases hcreation : creationTransactions env risk store' newest batch.submission.availableAt
      signal with
  | none => exact .inl rfl
  | some created =>
    rcases creationTransactions_cases hcreation with rfl | ⟨s, hs, r, hr, -, hnew, rfl⟩
    · exact .inr (.inl rfl)
    · exact .inr (.inr ⟨s, hs, r, hr, hnew, rfl⟩)

end

end TradingAgent
