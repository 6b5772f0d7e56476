import TradingAgent.Recommendation.Follow

/-!
# The history of a recommendation

The events of a recommendation are its history. A store is *consistent* (`IsConsistent`) if the
history of each recommendation starts with its creation, and ends with the state that it is in.

* Following the recommendations through bars keeps the store consistent after each transaction,
  and so does making a recommendation, but only after both of its transactions.
* Following a bar is resumable (`resumable_updates`): interrupted between any two transactions, it
  makes just the rest of them when the bar is followed again; and so do several bars, which are
  then all followed again from the first one. A recommendation that a bar has left as it is, is not
  changed by that bar either after another bar has changed it (`transitions_stable`): for this,
  its targets are not below its entry.
-/

namespace TradingAgent

/-- The events of a recommendation: the method `events`. -/
def PaperStore.eventsOf (store : PaperStore) (id : String) : List RecommendationEvent :=
  store.events.filter (·.recommendationId = id)

structure PaperStore.IsConsistent (store : PaperStore) : Prop where
  keyed : store.Keyed
  known : ∀ event ∈ store.events, ∃ r ∈ store.recommendations,
    r.recommendationId = event.recommendationId
  targets : ∀ r ∈ store.recommendations, r.entry ≤ r.target1r ∧ r.entry ≤ r.target2r
  created : ∀ r ∈ store.recommendations,
    (store.eventsOf r.recommendationId).head? = some (creationEvent { r with state := .setup })
  current : ∀ r ∈ store.recommendations,
    (store.eventsOf r.recommendationId).getLast?.map (·.state) = some r.state

section

variable {env : Environment} {bar : BarInput} {store : PaperStore} {r : Recommendation}

theorem eventsOf_setState (event : RecommendationEvent) (id : String) :
    (store.commit env (.setState event)).eventsOf id =
      store.eventsOf id ++ if event.recommendationId = id then [event] else [] := by
  rw [PaperStore.eventsOf, PaperStore.commit_setState_events, List.filter_append,
    PaperStore.eventsOf]
  by_cases h : event.recommendationId = id <;> simp [h]

namespace PaperStore.IsConsistent

theorem empty : IsConsistent {} where
  keyed := List.nodup_nil
  known _ h := absurd h List.not_mem_nil
  targets _ h := absurd h List.not_mem_nil
  created _ h := absurd h List.not_mem_nil
  current _ h := absurd h List.not_mem_nil

theorem setCheckpoint (h : store.IsConsistent) (checkpoint : BarCheckpoint) :
    (store.commit env (.setCheckpoint checkpoint)).IsConsistent :=
  ⟨h.keyed, h.known, h.targets, h.created, h.current⟩

/-- A new state of a recommendation, with its event. -/
theorem setState (h : store.IsConsistent) (hr : r ∈ store.recommendations)
    {event : RecommendationEvent} (hid : r.recommendationId = event.recommendationId) :
    (store.commit env (.setState event)).IsConsistent := by
  refine ⟨h.keyed.setState event, ?_, ?_, ?_, ?_⟩
  · intro e he
    have hknown : ∃ r ∈ store.recommendations, r.recommendationId = e.recommendationId := by
      rcases List.mem_append.1 he with he | he
      · exact h.known e he
      · rw [List.mem_singleton.1 he]
        exact ⟨r, hr, hid⟩
    obtain ⟨s, hs, hse⟩ := hknown
    refine ⟨_, List.mem_map_of_mem hs, ?_⟩
    split_ifs <;> exact hse
  all_goals
    intro s' hs'
    obtain ⟨s, hs, rfl⟩ := List.mem_map.1 hs'
  · have htargets := h.targets s hs
    split_ifs <;> exact htargets
  · have hcreated := h.created s hs
    rw [eventsOf_setState]
    split_ifs
    all_goals
      rw [List.head?_append, hcreated]
      rfl
  · rw [eventsOf_setState]
    by_cases hevent : s.recommendationId = event.recommendationId
    · rw [if_pos hevent, if_pos hevent.symm, List.getLast?_append]
      rfl
    · rw [if_neg hevent, if_neg (Ne.symm hevent), List.append_nil]
      exact h.current s hs

/-- The history of an identity that is not taken is empty. -/
theorem eventsOf_new (h : store.IsConsistent)
    (hnew : store.recommendations.any (·.recommendationId = r.recommendationId) = false) :
    store.eventsOf r.recommendationId = [] := by
  rw [PaperStore.eventsOf, List.filter_eq_nil_iff]
  intro event hevent hid
  obtain ⟨s, hs, heq⟩ := h.known event hevent
  exact List.any_eq_false.1 hnew s hs
    (decide_eq_true (heq.trans (of_decide_eq_true hid)))

/-- Making a recommendation, in its two transactions. -/
theorem create (h : store.IsConsistent) (hsetup : r.state = .setup)
    (hnew : store.recommendations.any (·.recommendationId = r.recommendationId) = false)
    (htargets : r.entry ≤ r.target1r ∧ r.entry ≤ r.target2r) :
    ([.insertRecommendation r, .setState (creationEvent r)].foldl
      (PaperStore.commit env) store).IsConsistent := by
  have hhistory : ∀ id, ([.insertRecommendation r, .setState (creationEvent r)].foldl
      (PaperStore.commit env) store).eventsOf id =
        store.eventsOf id ++ if r.recommendationId = id then [creationEvent r] else [] :=
    fun id => @eventsOf_setState env (store.commit env (.insertRecommendation r)) (creationEvent r) id
  refine ⟨@Keyed.setState env _ (@Keyed.insert env _ h.keyed r hnew) _, ?_, ?_, ?_, ?_⟩
  · intro e he
    have hknown : ∃ s, (s = r ∨ s ∈ store.recommendations)
        ∧ s.recommendationId = e.recommendationId := by
      rcases List.mem_append.1 he with he | he
      · obtain ⟨s, hs, heq⟩ := h.known e he
        exact ⟨s, .inr hs, heq⟩
      · rw [List.mem_singleton.1 he]
        exact ⟨r, .inl rfl, rfl⟩
    obtain ⟨s, hs, heq⟩ := hknown
    refine ⟨_, List.mem_map_of_mem (PaperStore.mem_commit_insert.2 hs), ?_⟩
    split_ifs <;> exact heq
  · intro s hs
    rcases mem_create_cases hnew hs with rfl | ⟨hs, -⟩
    · exact htargets
    · exact h.targets s hs
  · intro s hs
    rw [hhistory]
    rcases mem_create_cases hnew hs with rfl | ⟨hs, hne⟩
    · rw [if_pos rfl, h.eventsOf_new hnew, ← hsetup]
      rfl
    · rw [if_neg (Ne.symm hne), List.append_nil]
      exact h.created s hs
  · intro s hs
    rw [hhistory]
    rcases mem_create_cases hnew hs with rfl | ⟨hs, hne⟩
    · rw [if_pos rfl, h.eventsOf_new hnew]
      rfl
    · rw [if_neg (Ne.symm hne), List.append_nil]
      exact h.current s hs

end PaperStore.IsConsistent

/-! ## Following bars again -/

/-- Whether a bar concerns a recommendation does not depend on its state. -/
theorem transitions_of_state (state : RecommendationState) :
    transitions env bar { r with state } =
      if r.symbol = bar.symbol ∧ isEligible env.newYork bar r then
        barTransitions bar { r with state }
      else [] := rfl

/-- After its first transition on a bar, a recommendation has the other ones. -/
theorem transitions_resume {transition : StateTransition} {rest : List StateTransition}
    (h : transitions env bar r = transition :: rest) :
    transitions env bar { r with state := transition.state } = rest := by
  rw [transitions_of_state]
  rw [transitions] at h
  split_ifs at h with heligible
  rw [if_pos heligible]
  cases hstate : r.state <;> simp only [barTransitions, hstate] at h
  case setup =>
    split_ifs at h
    all_goals
      cases h
      rfl
  case active =>
    rw [heldTransitions] at h
    split_ifs at h with hstop htarget2r htarget1r
    all_goals cases h
    · rfl
    · rfl
    · simp [barTransitions, heldTransitions, hstop, htarget2r]
  case target1r =>
    rw [heldTransitions] at h
    split_ifs at h with hstop htarget2r htarget1r
    all_goals cases h
    · rfl
    · rfl
    · exact absurd htarget1r.1 (by decide)
  all_goals cases h

/-- A bar that leaves a recommendation as it is does so as well after a transition on another
    bar. -/
theorem transitions_stable {other : BarInput} {transition : StateTransition}
    {rest : List StateTransition} (htargets : r.entry ≤ r.target1r ∧ r.entry ≤ r.target2r)
    (h : transitions env bar r = []) (hother : transitions env other r = transition :: rest) :
    transitions env bar { r with state := transition.state } = [] := by
  rw [transitions_of_state]
  rw [transitions] at h hother
  split_ifs at hother with heligible
  split_ifs at h ⊢
  swap
  · rfl
  cases hstate : r.state <;> simp only [barTransitions, hstate] at h hother
  case setup =>
    -- The bar is below the entry, and above the stop.
    split_ifs at h with hentry hstop
    · split_ifs at hother
      all_goals
        cases hother
      · rfl
      · simp only [barTransitions, heldTransitions]
        rw [if_neg hstop, if_neg (hentry.trans_le htargets.2).not_ge, if_neg]
        exact fun h => (hentry.trans_le htargets.1).not_ge h.2
  case active =>
    -- The bar is above the stop, and below both targets.
    rw [heldTransitions] at h hother
    split_ifs at h with hstop htarget2r htarget1r
    split_ifs at hother
    all_goals cases hother
    · rfl
    · rfl
    · simp [barTransitions, heldTransitions, hstop, htarget2r]
  case target1r =>
    rw [heldTransitions] at hother
    split_ifs at hother with _ _ htarget1r
    all_goals cases hother
    · rfl
    · rfl
    · exact absurd htarget1r.1 (by decide)
  all_goals cases hother

/-- The first transaction of a bar, and the other ones. -/
theorem update_cons (hkeyed : store.Keyed) {e : Transaction} {es : List Transaction}
    (h : updateOpenRecommendations env bar store = e :: es) :
    ∃ before r after transition rest, store.recommendations = before ++ r :: after
      ∧ (∀ s ∈ before, transitions env bar s = [])
      ∧ transitions env bar r = transition :: rest
      ∧ e = .setState (transitionEvent bar r transition)
      ∧ es = rest.map (fun transition => Transaction.setState (transitionEvent bar r transition))
        ++ after.flatMap (fun s => (transitions env bar s).map fun transition =>
          Transaction.setState (transitionEvent bar s transition))
      ∧ (store.commit env e).recommendations
        = before ++ { r with state := transition.state } :: after := by
  obtain ⟨before, r, after, writes, hsplit, hbefore, hr, rfl⟩ := flatMap_eq_cons h
  obtain ⟨transition, rest, htransitions, rfl, rfl⟩ := List.map_eq_cons_iff.1 hr
  refine ⟨before, r, after, transition, rest, hsplit, fun s hs => List.map_eq_nil_iff.1 (hbefore s hs),
    htransitions, rfl, rfl, ?_⟩
  rw [PaperStore.Keyed, hsplit, List.map_append, List.map_cons, List.nodup_append,
    List.nodup_cons] at hkeyed
  obtain ⟨-, ⟨hafter, -⟩, hbefore⟩ := hkeyed
  have hother : ∀ l : List Recommendation, (∀ s ∈ l, s.recommendationId ≠ r.recommendationId) →
      (l.map fun s => if s.recommendationId = (transitionEvent bar r transition).recommendationId
        then { s with state := transition.state } else s) = l := by
    intro l hl
    conv_rhs => rw [← List.map_id l]
    exact List.map_congr_left fun s hs => if_neg (hl s hs)
  rw [PaperStore.commit_setState_recommendations, hsplit, List.map_append, List.map_cons]
  congr 1
  · exact hother before fun s hs heq =>
      hbefore _ (List.mem_map_of_mem hs) _ List.mem_cons_self heq
  · exact congrArg₂ List.cons (if_pos rfl)
      (hother after fun s hs heq => hafter (List.mem_map.2 ⟨s, hs, heq⟩))

/-- Following bars is resumable. -/
theorem resumable_updates (bars : List BarInput) :
    Resumable (PaperStore.commit env) PaperStore.IsConsistent
      (bars.map (updateOpenRecommendations env)) where
  inv := by
    rintro _ htask store e es hstore h
    obtain ⟨bar, -, rfl⟩ := List.mem_map.1 htask
    obtain ⟨before, r, after, transition, rest, hsplit, -, -, rfl, -⟩ := update_cons hstore.keyed h
    exact hstore.setState (by rw [hsplit]; exact List.mem_append_cons_self) rfl
  resume := by
    rintro _ htask store e es hstore h
    obtain ⟨bar, -, rfl⟩ := List.mem_map.1 htask
    obtain ⟨before, r, after, transition, rest, -, hbefore, hr, -, rfl, hcommit⟩ :=
      update_cons hstore.keyed h
    have hsilent : ∀ s ∈ before, (transitions env bar s).map
        (fun transition => Transaction.setState (transitionEvent bar s transition)) = [] :=
      fun s hs => List.map_eq_nil_iff.2 (hbefore s hs)
    rw [updateOpenRecommendations, hcommit, List.flatMap_append, List.flatMap_cons,
      List.flatMap_eq_nil_iff.2 hsilent, transitions_resume hr]
    rfl
  stable := by
    rintro _ htask _ hother store e es hstore hnil h
    obtain ⟨bar, -, rfl⟩ := List.mem_map.1 htask
    obtain ⟨other, -, rfl⟩ := List.mem_map.1 hother
    obtain ⟨before, r, after, transition, rest, hsplit, -, hr, -, -, hcommit⟩ :=
      update_cons hstore.keyed h
    rw [updateOpenRecommendations, List.flatMap_eq_nil_iff] at hnil ⊢
    simp only [List.map_eq_nil_iff] at hnil ⊢
    rw [hcommit]
    rw [hsplit] at hnil
    intro s hs
    rcases List.mem_append.1 hs with hs | hs
    · exact hnil s (List.mem_append_left _ hs)
    rcases List.mem_cons.1 hs with rfl | hs
    · have hmem : r ∈ before ++ r :: after := List.mem_append_cons_self
      exact transitions_stable (hstore.targets r (hsplit ▸ hmem)) (hnil r hmem) hr
    · exact hnil s (List.mem_append_right _ (List.mem_cons_of_mem r hs))

end

end TradingAgent
