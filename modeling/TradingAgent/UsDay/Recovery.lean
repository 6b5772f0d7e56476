import Mathlib.Tactic.IntervalCases
import TradingAgent.UsDay.Projection

/-!
# The recovery of the operation

The operation of a thesis that is new may crash after any of its writes, and is repeated then, by
fresh services and with the same result of the coordinator. It completes, with one change and one
event for each transition that is acknowledged, exactly if each crash left it where it is resumed
(`isResumable`).
-/

namespace TradingAgent.UsDay

open Writing (interrupted)
open Kr (EvidenceRef)
open Swing (TradeSignalEnvelope QuoteValidation StrategyLaneRef)

/-! ## The completed projection -/

/-- The status that a thesis has after the last of some transitions. -/
def lastStatus (acknowledged : List UsDayOperatingTransition) : UsDayLifecycleStatus :=
  (acknowledged.getLast?.map fun transition => paperStatus transition.state).getD .armed

/-- One change, and one event after the setup, are kept for each transition, and the lifecycle is
    that of the last one. -/
structure IsProjected (sha : Sha256) (thesis : UsDayTradeThesis)
    (acknowledged : List UsDayOperatingTransition) (world : UsDayWorld) : Prop where
  changes : ∃ changes, world.changesOf thesis.thesisId = .ok changes ∧
    changes.map (·.note) = acknowledged.map (·.value) ∧
    IsChain thesis.thesisId thesis.observedAt changes
  history : (world.eventsOf thesis.thesisId).map (fun e => (e.state, e.note)) =
    (.setup, "추천 생성") :: acknowledged.map fun transition => (transition.state, transition.value)
  lifecycle : ∃ lifecycle,
    deriveUsDayLifecycle sha thesis (world.eventsOf thesis.thesisId) = .ok lifecycle ∧
      lifecycle.getLast?.map (·.status) = some (lastStatus acknowledged)

/-- Whether the operation is resumed after a number of its writes, for a number of transitions that
    are acknowledged. -/
def isResumable (transitions writes : ℕ) : Bool :=
  writes = 0 ∨ writes = 1 ∨ writes = 3 ∨ writes = 4 ∧ transitions = 1 ∨
    3 ≤ writes ∧ transitions = 0

/-- Nothing is kept of a thesis. -/
structure IsNew (thesisId : String) (world : UsDayWorld) : Prop where
  thesis : world.thesis thesisId = none
  changes : world.changeFiles thesisId = []
  recommendations : world.recommendationsOf thesisId = []
  events : world.eventsOf thesisId = []

/-- The recommendation of a thesis has its first event only. -/
structure IsStarted (thesis : UsDayTradeThesis) (recommendation : Recommendation)
    (world : UsDayWorld) : Prop where
  published : world.thesis thesis.thesisId = some thesis
  recommendations : world.recommendationsOf thesis.thesisId = [recommendation]
  events : world.eventsOf thesis.thesisId = [setupEvent recommendation]

variable {env : UsDayEnvironment} {coordinator : UsDayCoordinator}
  {request : UsDayAgentOperatingRequest} {orderAdmission : PaperOrderAdmissionRequest}
  {recommendation : Recommendation} {acknowledged : List UsDayOperatingTransition}
  {transition : UsDayOperatingTransition} {world : UsDayWorld}

/-! ## Where the operation is resumed -/

section Resume

variable (h : IsOperable env coordinator request orderAdmission recommendation acknowledged)
include h

theorem isStarted_of_isNew (hnew : IsNew request.admission.thesis.thesisId world) :
    IsStarted request.admission.thesis recommendation
      (((operationWrites env request.admission recommendation acknowledged).take 3).foldl
        (UsDayWorld.write env) world) := by
  have hid := (recommendationOf_cases h.recommended).1
  have hevent : (setupEvent recommendation).recommendationId =
      request.admission.thesis.thesisId := hid
  refine ⟨?_, ?_, ?_⟩
  · exact @UsDayWorld.thesis_publishThesis env _ _ _ rfl hnew.thesis
  · show ((((world.write env _).write env _).write env
      (.paper (.setState (setupEvent recommendation)))).recommendationsOf _) = _
    have hinserted := @UsDayWorld.recommendationsOf_insert env
      (world.write env (.publishThesis request.admission.thesis)) _ _ hid hnew.recommendations
    rw [UsDayWorld.recommendationsOf_setState hevent, hinserted]
    rfl
  · show ((((world.write env _).write env (.paper (.insertRecommendation recommendation))).write env
      (.paper (.setState (setupEvent recommendation)))).eventsOf _) = _
    rw [UsDayWorld.eventsOf_setState hevent, UsDayWorld.eventsOf_insert,
      UsDayWorld.eventsOf_publishThesis, hnew.events]
    rfl

/-- Before there are changes, the transitions are all projected. -/
theorem projectAcknowledgedTransitions_of_isStarted
    (hstarted : IsStarted request.admission.thesis recommendation world)
    (hchanges : world.changeFiles request.admission.thesis.thesisId = []) :
    projectAcknowledgedTransitions env (coordinator (operatingRequest request orderAdmission))
      request.admission world = (projectionWrites env request.admission
        request.admission.thesis.thesisId acknowledged, .ok ()) := by
  have hread : world.changesOf request.admission.thesis.thesisId = .ok [] := by
    rw [UsDayWorld.changesOf, if_pos hchanges]
  rw [projectAcknowledgedTransitions_of_eq hread (.inl rfl), h.acknowledged_eq, hstarted.events]
  exact projectFrom_eq hstarted.published hchanges h.chain h.nodup le_rfl

theorem operate_of_isStarted
    (hstarted : IsStarted request.admission.thesis recommendation world)
    (hchanges : world.changeFiles request.admission.thesis.thesisId = []) :
    (operate env coordinator request world).1 = projectionWrites env request.admission
      request.admission.thesis.thesisId acknowledged ∧
      (operate env coordinator request).isOk world = true :=
  operate_eq h (publishThesis_of_some hstarted.published)
    (ensureCompatibilityRecommendation_of_same h.recommended hstarted.recommendations)
    (projectAcknowledgedTransitions_of_isStarted h hstarted hchanges)

theorem operate_of_isNew (hnew : IsNew request.admission.thesis.thesisId world) :
    (operate env coordinator request world).1 =
      operationWrites env request.admission recommendation acknowledged ∧
      (operate env coordinator request).isOk world = true :=
  operate_eq h (publishThesis_of_none hnew.thesis)
    (ensureCompatibilityRecommendation_of_nil h.recommended hnew.recommendations)
    (projectAcknowledgedTransitions_of_isStarted h (isStarted_of_isNew h hnew) hnew.changes)

/-- The thesis is not published again. -/
theorem operate_of_thesis (hnew : IsNew request.admission.thesis.thesisId world) :
    (operate env coordinator request
      (world.write env (.publishThesis request.admission.thesis))).1 =
      (operationWrites env request.admission recommendation acknowledged).drop 1 ∧
      (operate env coordinator request).isOk
        (world.write env (.publishThesis request.admission.thesis)) = true :=
  operate_eq h (publishThesis_of_some (UsDayWorld.thesis_publishThesis rfl hnew.thesis))
    (ensureCompatibilityRecommendation_of_nil h.recommended hnew.recommendations)
    (projectAcknowledgedTransitions_of_isStarted h (isStarted_of_isNew h hnew) hnew.changes)

/-- After the change of a single transition, its event is missing. -/
theorem operate_of_single (hstarted : IsStarted request.admission.thesis recommendation world)
    (hsingle : acknowledged = [transition])
    (hchanges : world.changeFiles request.admission.thesis.thesisId =
      [changeOf env request.admission request.admission.thesis.thesisId transition]) :
    (operate env coordinator request world).1 =
      [.paper (.setState (eventOf request.admission transition))] ∧
      (operate env coordinator request).isOk world = true := by
  subst hsingle
  have hread := changesOf_eq hstarted.published hchanges h.chain h.nodup
  have hpublish := publishChange_of_mem env hstarted.published hchanges rfl h.chain h.nodup
    (List.mem_singleton_self _)
  have hproject : projectAcknowledgedTransitions env
      (coordinator (operatingRequest request orderAdmission)) request.admission world =
        ([.paper (.setState (eventOf request.admission transition))], .ok ()) := by
    rw [projectAcknowledgedTransitions_of_eq hread (.inr (by rw [h.acknowledged_eq]; rfl)),
      h.acknowledged_eq, hstarted.events, projectFrom,
      Writing.bind_of_ok (congrArg Prod.snd hpublish), hpublish]
    rfl
  exact operate_eq h (publishThesis_of_some hstarted.published)
    (ensureCompatibilityRecommendation_of_same h.recommended hstarted.recommendations) hproject

/-- Some of the changes, but not all of them, are refused. -/
theorem operate_of_some (hstarted : IsStarted request.admission.thesis recommendation world)
    {transitions : List UsDayOperatingTransition} (hsome : transitions ≠ [])
    (hacknowledged : acknowledged = transition :: transitions)
    (hchanges : world.changeFiles request.admission.thesis.thesisId =
      [changeOf env request.admission request.admission.thesis.thesisId transition]) :
    (operate env coordinator request world).1 = [] ∧
      (operate env coordinator request).isOk world = false := by
  subst hacknowledged
  have hchain := isChain_of_append (show IsChain _ _ ([_] ++ _) from h.chain)
  have hnodup := List.Nodup.of_append_left (show ([_, _] ++ _).Nodup from h.nodup)
  have hread := changesOf_eq hstarted.published hchanges hchain hnodup
  refine operate_eq h (publishThesis_of_some hstarted.published)
    (ensureCompatibilityRecommendation_of_same h.recommended hstarted.recommendations)
    (projectAcknowledgedTransitions_of_ne hread (List.cons_ne_nil _ _) ?_)
  rw [h.acknowledged_eq]
  exact fun heq => hsome (List.map_eq_nil_iff.1 (List.cons.inj heq).2.symm)

/-- A recommendation that is no longer in the setup is refused. -/
theorem operate_of_isMoved
    (hthesis : world.thesis request.admission.thesis.thesisId = some request.admission.thesis)
    (hmoved : IsMoved request.admission.thesis.thesisId world) :
    (operate env coordinator request world).1 = [] ∧
      (operate env coordinator request).isOk world = false := by
  have hne : world.recommendationsOf request.admission.thesis.thesisId ≠ [recommendation] := by
    intro heq
    refine hmoved.moved recommendation ?_ (recommendationOf_cases h.recommended).2.1
    rw [heq]
    exact List.mem_singleton_self _
  have hensure := ensureCompatibilityRecommendation_of_ne h.recommended hmoved.some hne
  rw [Writing.isOk, operate, operateUsDayAgent, h.admitted]
  dsimp only
  rw [Writing.bind_of_ok (congrArg Prod.snd (publishThesis_of_some hthesis)), Writing.after,
    publishThesis_of_some hthesis, List.foldl_nil,
    Writing.bind_of_error (congrArg Prod.snd hensure), hensure]
  exact ⟨rfl, rfl⟩

end Resume

/-! ## Where it ends -/

theorem prefix_acknowledgedOrder (h : acknowledged <+: acknowledgedOrder) :
    acknowledged = [] ∨ acknowledged = [.entryAcknowledged] ∨
      acknowledged = [.entryAcknowledged, .protectiveOcoAcknowledged] ∨
      acknowledged = [.entryAcknowledged, .protectiveOcoAcknowledged, .flat] ∨
      acknowledged = acknowledgedOrder := by
  rw [List.prefix_iff_eq_take] at h
  have hlength : acknowledged.length ≤ 4 := by
    rw [h, List.length_take]
    exact Nat.min_le_right _ _
  interval_cases hk : acknowledged.length <;> simp [h, acknowledgedOrder]

/-- The statuses of transitions in their order lead to one another, up to that of the last one. -/
theorem legalStatuses_of_prefix (h : acknowledged <+: acknowledgedOrder)
    (request : UsDaySignalAdmissionRequest) :
    legalStatuses (.armed :: toldStatuses .armed (acknowledged.map (eventOf request))) = true ∧
      (UsDayLifecycleStatus.armed ::
        toldStatuses .armed (acknowledged.map (eventOf request))).getLast? =
          some (lastStatus acknowledged) := by
  rcases prefix_acknowledgedOrder h with rfl | rfl | rfl | rfl | rfl <;>
    exact ⟨rfl, rfl⟩

/-- After all the writes of the operation, the transitions are projected. -/
theorem isProjected_operationWrites
    (h : IsOperable env coordinator request orderAdmission recommendation acknowledged)
    (hvalid : request.admission.thesis.validateThesis env.sha = true)
    (horder : acknowledged <+: acknowledgedOrder)
    (hnew : IsNew request.admission.thesis.thesisId world) :
    IsProjected env.sha request.admission.thesis acknowledged
      ((operationWrites env request.admission recommendation acknowledged).foldl
        (UsDayWorld.write env) world) := by
  have hstarted := isStarted_of_isNew h hnew
  obtain ⟨hdecision, -, -, -, -, hobserved, haware⟩ := admitted_cases h.admitted
  obtain ⟨hid, hsetup, hcreated⟩ := recommendationOf_cases h.recommended
  -- The first three writes start the recommendation, and the others are those of the projection.
  generalize hend : (operationWrites env request.admission recommendation acknowledged).foldl
    (UsDayWorld.write env) world = last
  have hthesis : last.thesis request.admission.thesis.thesisId = some request.admission.thesis := by
    rw [← hend]
    exact thesis_projectionWrites.trans hstarted.published
  have hfiles : last.changeFiles request.admission.thesis.thesisId =
      changesFor env request.admission request.admission.thesis.thesisId acknowledged := by
    rw [← hend]
    exact changeFiles_projectionWrites.trans (congrArg (· ++ _) hnew.changes)
  have hevents : last.eventsOf request.admission.thesis.thesisId =
      setupEvent recommendation :: acknowledged.map (eventOf request.admission) := by
    rw [← hend]
    exact eventsOf_projectionWrites.trans (congrArg (· ++ _) hstarted.events)
  refine ⟨⟨_, changesOf_eq hthesis hfiles h.chain h.nodup, note_changesFor, h.chain⟩, ?_, ?_⟩
  · rw [hevents, List.map_cons, List.map_map, setupEvent, hsetup]
    rfl
  · obtain ⟨hlegal, hlast⟩ := legalStatuses_of_prefix horder request.admission
    have hids : ∀ e ∈ setupEvent recommendation :: acknowledged.map (eventOf request.admission),
        e.recommendationId = request.admission.thesis.thesisId :=
      List.forall_mem_cons.2 ⟨hid, List.forall_mem_map.2 fun _ _ => rfl⟩
    have hawares : ∀ e ∈ setupEvent recommendation :: acknowledged.map (eventOf request.admission),
        e.occurredAt.aware = true :=
      List.forall_mem_cons.2 ⟨by rw [setupEvent, hcreated]; rfl, List.forall_mem_map.2 fun _ _ => haware⟩
    -- All the events after the first one are at the time of the evaluation.
    have htimes : (setupEvent recommendation :: acknowledged.map (eventOf request.admission)).IsChain
        fun e f => e.occurredAt ≤ f.occurredAt := by
      refine List.Pairwise.isChain (List.pairwise_cons.2 ⟨List.forall_mem_map.2 fun _ _ => ?_, ?_⟩)
      · rw [setupEvent, hcreated, DateTime.le_def, DateTime.instant_utc]
        exact hobserved
      · exact List.pairwise_map.2 (List.pairwise_of_forall fun _ _ => Int.le_refl _)
    obtain ⟨lifecycle, hderive, hstatuses⟩ := deriveUsDayLifecycle_eq_ok hvalid hdecision hsetup hids
      hawares htimes (by rw [setupEvent, hcreated]; exact Int.le_refl _) hlegal
    rw [hevents]
    refine ⟨lifecycle, hderive, ?_⟩
    rw [← List.getLast?_map, hstatuses, hlast]

/-! ## After crashes -/

/-- The operation cannot complete any more: the first event is missing, or the operation is refused
    before it writes anything. -/
def IsLost (env : UsDayEnvironment) (coordinator : UsDayCoordinator)
    (request : UsDayAgentOperatingRequest) (world : UsDayWorld) : Prop :=
  IsHeadless request.admission.thesis.thesisId world ∨
    (operate env coordinator request world).1 = [] ∧
      (operate env coordinator request).isOk world = false

/-- The operation completes, and projects the transitions. -/
def Recovers (env : UsDayEnvironment) (coordinator : UsDayCoordinator)
    (request : UsDayAgentOperatingRequest) (acknowledged : List UsDayOperatingTransition)
    (world : UsDayWorld) : Prop :=
  (operate env coordinator request).isOk world = true ∧
    IsProjected env.sha request.admission.thesis acknowledged
      ((operate env coordinator request).after world)

theorem IsLost.interrupted (h : IsLost env coordinator request world) (crashes : List ℕ) :
    IsLost env coordinator request ((operate env coordinator request).interrupted crashes world) := by
  induction crashes generalizing world with
  | nil => exact h
  | cons n crashes ih =>
    refine ih ?_
    rcases h with hheadless | ⟨hnothing, hraises⟩
    · exact .inl ((hheadless.operate env) _ _ (List.take_append_drop n _).symm)
    · show IsLost env coordinator request (((operate env coordinator request world).1.take n).foldl
        (UsDayWorld.write env) world)
      rw [hnothing, List.take_nil]
      exact .inr ⟨hnothing, hraises⟩

theorem IsLost.not_recovers (h : IsLost env coordinator request world) :
    ¬ Recovers env coordinator request acknowledged world := by
  rintro ⟨hok, hprojected⟩
  rcases h with hheadless | ⟨-, hraises⟩
  · -- The first event would be that of the setup.
    have hhistory := hprojected.history
    have hafter : IsHeadless request.admission.thesis.thesisId
        ((operate env coordinator request).after world) := (hheadless.operate env).after
    cases hevents : ((operate env coordinator request).after world).eventsOf
        request.admission.thesis.thesisId with
    | nil =>
      rw [hevents] at hhistory
      cases hhistory
    | cons first events =>
      rw [hevents, List.map_cons, List.cons.injEq, Prod.mk.injEq] at hhistory
      refine hafter.headless first ?_ hhistory.1.1
      rw [hevents]
      exact List.mem_cons_self
  · exact Bool.false_ne_true (hraises.symm.trans hok)

section Crashes

variable (h : IsOperable env coordinator request orderAdmission recommendation acknowledged)
  (hnew : IsNew request.admission.thesis.thesisId world)

/-- The stores after a number of the writes of the operation. -/
def crashedAfter (env : UsDayEnvironment) (request : UsDayAgentOperatingRequest)
    (recommendation : Recommendation) (acknowledged : List UsDayOperatingTransition)
    (world : UsDayWorld) (n : ℕ) : UsDayWorld :=
  ((operationWrites env request.admission recommendation acknowledged).take n).foldl
    (UsDayWorld.write env) world

include h hnew

/-- After the first change, the recommendation is still as it was. -/
theorem isStarted_crashedAfter_four {transitions : List UsDayOperatingTransition}
    (hacknowledged : acknowledged = transition :: transitions) :
    IsStarted request.admission.thesis recommendation
        (crashedAfter env request recommendation acknowledged world 4) ∧
      (crashedAfter env request recommendation acknowledged world 4).changeFiles
        request.admission.thesis.thesisId =
          [changeOf env request.admission request.admission.thesis.thesisId transition] := by
  have hstarted := isStarted_of_isNew h hnew
  subst hacknowledged
  refine ⟨⟨hstarted.published, hstarted.recommendations, hstarted.events⟩, ?_⟩
  have hchange := @UsDayWorld.changeFiles_publishChange env
    (crashedAfter env request recommendation (transition :: transitions) world 3) _
    (changeOf env request.admission request.admission.thesis.thesisId transition) rfl
  exact hchange.trans (congrArg (· ++ [_]) hnew.changes)

/-- The operation makes the rest of its writes. -/
theorem operate_resumes {n : ℕ} (hn : isResumable acknowledged.length n = true) :
    (operate env coordinator request
        (crashedAfter env request recommendation acknowledged world n)).1 =
      (operationWrites env request.admission recommendation acknowledged).drop n ∧
      (operate env coordinator request).isOk
        (crashedAfter env request recommendation acknowledged world n) = true := by
  rw [isResumable, decide_eq_true_eq] at hn
  rcases hn with rfl | rfl | rfl | ⟨rfl, hone⟩ | ⟨hn, hzero⟩
  · exact operate_of_isNew h hnew
  · exact operate_of_thesis h hnew
  · exact operate_of_isStarted h (isStarted_of_isNew h hnew) hnew.changes
  · obtain ⟨transition, rfl⟩ := List.length_eq_one_iff.1 hone
    obtain ⟨hstarted, hchanges⟩ := isStarted_crashedAfter_four h hnew rfl
    exact operate_of_single h hstarted rfl hchanges
  · -- Nothing is left to write.
    obtain rfl := List.length_eq_zero_iff.1 hzero
    have htake : (operationWrites env request.admission recommendation []).take n =
        (operationWrites env request.admission recommendation []).take 3 :=
      List.take_of_length_le hn
    rw [crashedAfter, htake, List.drop_of_length_le (by exact hn)]
    exact operate_of_isStarted h (isStarted_of_isNew h hnew) hnew.changes

/-- Elsewhere the operation cannot complete any more. -/
theorem isLost_crashedAfter {n : ℕ} (hn : ¬ isResumable acknowledged.length n = true) :
    IsLost env coordinator request
      (crashedAfter env request recommendation acknowledged world n) := by
  rw [isResumable, decide_eq_true_eq] at hn
  have hstarted := isStarted_of_isNew h hnew
  match n with
  | 0 => exact absurd (.inl rfl) hn
  | 1 => exact absurd (.inr (.inl rfl)) hn
  | 2 =>
    -- Between the recommendation and its first event.
    left
    refine ⟨?_, ?_⟩
    · have hinserted := @UsDayWorld.recommendationsOf_insert env
        (world.write env (.publishThesis request.admission.thesis)) _ _
        (recommendationOf_cases h.recommended).1 hnew.recommendations
      exact fun hnil => List.cons_ne_nil _ _ (hinserted.symm.trans hnil)
    · have hevents : (crashedAfter env request recommendation acknowledged world 2).eventsOf
          request.admission.thesis.thesisId = [] := hnew.events
      rw [hevents]
      exact List.forall_mem_nil _
  | 3 => exact absurd (.inr (.inr (.inl rfl))) hn
  | 4 =>
    cases acknowledged with
    | nil => exact absurd (.inr (.inr (.inr (.inr ⟨by decide, rfl⟩)))) hn
    | cons transition transitions =>
      obtain ⟨hstarted, hchanges⟩ := isStarted_crashedAfter_four h hnew rfl
      refine .inr (operate_of_some h hstarted ?_ rfl hchanges)
      rintro rfl
      exact hn (.inr (.inr (.inr (.inl ⟨rfl, rfl⟩))))
  | m + 5 =>
    cases acknowledged with
    | nil => exact absurd (.inr (.inr (.inr (.inr ⟨Nat.le_add_left 3 (m + 2), rfl⟩)))) hn
    | cons transition transitions =>
      -- The first event of a transition has moved the recommendation on.
      obtain ⟨hstarted, -⟩ := isStarted_crashedAfter_four h hnew rfl
      have hmoved : IsMoved request.admission.thesis.thesisId
          ((crashedAfter env request recommendation (transition :: transitions) world 4).write env
            (.paper (.setState (eventOf request.admission transition)))) := by
        refine isMoved_setState ?_
        rw [hstarted.recommendations]
        exact List.cons_ne_nil _ _
      exact .inr (operate_of_isMoved h ((thesis_take_projectionWrites m).trans hstarted.published)
        (hmoved.projectionWrites m))

/-- After crashes, each of which follows some more writes, the operation completes exactly if it was
    resumed each time. -/
theorem recovers_iff {n : ℕ} (hvalid : request.admission.thesis.validateThesis env.sha = true)
    (horder : acknowledged <+: acknowledgedOrder)
    (hn : isResumable acknowledged.length n = true) (crashes : List ℕ) :
    Recovers env coordinator request acknowledged ((operate env coordinator request).interrupted
        crashes (crashedAfter env request recommendation acknowledged world n)) ↔
      ∀ done, done <+: crashes → isResumable acknowledged.length (n + done.sum) = true := by
  obtain ⟨hrest, hok⟩ := operate_resumes h hnew hn
  induction crashes generalizing n with
  | nil =>
    refine iff_of_true ⟨hok, ?_⟩ fun done hdone => ?_
    · show IsProjected _ _ _ ((operate env coordinator request
        (crashedAfter env request recommendation acknowledged world n)).1.foldl _
          (crashedAfter env request recommendation acknowledged world n))
      rw [hrest, crashedAfter, ← List.foldl_append, List.take_append_drop]
      exact isProjected_operationWrites h hvalid horder hnew
    · rw [List.prefix_nil.1 hdone]
      exact hn
  | cons m crashes ih =>
    -- The crash leaves some more of the writes.
    have hcrash : (operate env coordinator request).interrupted (m :: crashes)
        (crashedAfter env request recommendation acknowledged world n) =
          (operate env coordinator request).interrupted crashes
            (crashedAfter env request recommendation acknowledged world (n + m)) := by
      show Writing.interrupted _ crashes ((((operate env coordinator request _).1).take m).foldl _ _) = _
      rw [hrest, crashedAfter, ← List.foldl_append, ← List.take_add, ← crashedAfter]
    rw [hcrash]
    by_cases hm : isResumable acknowledged.length (n + m) = true
    · obtain ⟨hrest', hok'⟩ := operate_resumes h hnew hm
      rw [ih hm hrest' hok']
      refine ⟨fun hall done hdone => ?_, fun hall done hdone => ?_⟩
      · rcases List.prefix_cons_iff.1 hdone with rfl | ⟨later, rfl, hlater⟩
        · exact hn
        · rw [List.sum_cons, ← Nat.add_assoc]
          exact hall later hlater
      · have hlater := hall (m :: done) ((List.prefix_cons_inj m).2 hdone)
        rwa [List.sum_cons, ← Nat.add_assoc] at hlater
    · refine iff_of_false ((isLost_crashedAfter h hnew hm).interrupted crashes).not_recovers
        fun hall => hm ?_
      have hfirst := hall [m] ((List.prefix_cons_inj m).2 List.nil_prefix)
      rwa [List.sum_singleton] at hfirst

end Crashes

/-- What holds of an operation that is admitted, if no two texts of its run have one digest. -/
theorem exists_isOperable (hvalid : request.admission.thesis.validateThesis env.sha = true)
    (hadmitted : admitUsDaySignal env request.admission = .ok orderAdmission)
    (hrequest : (operatingRequest request orderAdmission).isValid env = true)
    (hacknowledged : (coordinator (operatingRequest request orderAdmission)).transitions.filter
      (·.acknowledged) = acknowledged)
    (horder : acknowledged <+: acknowledgedOrder)
    (hsha : env.sha.Separates {m | m ∈ request.admission.thesis.payload :: (changesFor env
      request.admission request.admission.thesis.thesisId acknowledged).map (·.payload)}) :
    ∃ recommendation,
      IsOperable env coordinator request orderAdmission recommendation acknowledged := by
  obtain ⟨-, hsymbol, hentry, hstop, ⟨first, second, rest, htargets⟩, hobserved, -⟩ :=
    admitted_cases hadmitted
  have hnodup : acknowledged.Nodup ∧ UsDayOperatingTransition.reconciled ∉ acknowledged.dropLast := by
    rcases prefix_acknowledgedOrder horder with rfl | rfl | rfl | rfl | rfl <;> decide
  obtain ⟨recommendation, hrecommended⟩ :
      ∃ recommendation, recommendationOf env request.admission = .ok recommendation := by
    rw [recommendationOf, hsymbol, hentry, hstop, htargets]
    exact ⟨_, rfl⟩
  refine ⟨recommendation, hadmitted, hrequest, hrecommended, hacknowledged,
    isChain_changesFor hobserved hnodup.2, ?_⟩
  -- The identities are the digests of different texts.
  have htexts := @nodup_payload env request.admission acknowledged
    request.admission.thesis.thesisId hnodup.1 request.admission.thesis
  have hids := htexts.map_on fun m hm m' hm' => hsha hm hm'
  rwa [List.map_cons, ← eventId_changesFor, ← UsDayTradeThesis.thesisId_of_validateThesis hvalid]
    at hids

/-- An operation that is admitted, for a thesis that is new, may crash several times, each time
    after some more of its writes, and is repeated. It completes, with one change and one event for
    each transition that is acknowledged, exactly if each crash left it where it is resumed. -/
theorem operate_recovers_iff (hvalid : request.admission.thesis.validateThesis env.sha = true)
    (hadmitted : admitUsDaySignal env request.admission = .ok orderAdmission)
    (hrequest : (operatingRequest request orderAdmission).isValid env = true)
    (hacknowledged : (coordinator (operatingRequest request orderAdmission)).transitions.filter
      (·.acknowledged) = acknowledged)
    (horder : acknowledged <+: acknowledgedOrder)
    (hsha : env.sha.Separates {m | m ∈ request.admission.thesis.payload :: (changesFor env
      request.admission request.admission.thesis.thesisId acknowledged).map (·.payload)})
    (hnew : IsNew request.admission.thesis.thesisId world) (crashes : List ℕ) :
    ((operate env coordinator request).isOk
          ((operate env coordinator request).interrupted crashes world) = true ∧
        IsProjected env.sha request.admission.thesis acknowledged
          ((operate env coordinator request).after
            ((operate env coordinator request).interrupted crashes world))) ↔
      ∀ done, done <+: crashes → isResumable acknowledged.length done.sum = true := by
  obtain ⟨recommendation, h⟩ := exists_isOperable hvalid hadmitted hrequest hacknowledged horder hsha
  have hiff := @recovers_iff env coordinator request orderAdmission recommendation acknowledged world
    h hnew 0 hvalid horder rfl crashes
  simp only [Nat.zero_add] at hiff
  exact hiff

namespace OperatingSample

def hex (c : Char) : String := String.ofList (List.replicate 64 c)

def digest : Sha256 where
  hexdigest material :=
    hex (if .str "entry_acknowledged" ∈ material then 'b'
      else if .str "protective_oco_acknowledged" ∈ material then 'c' else 'a')
  isHex64_hexdigest material := by split_ifs <;> decide +kernel

def environment : UsDayEnvironment where
  sha := digest
  paper := ⟨⟨fun _ => .hours (-4)⟩, fun _ => .hours (-4), fun _ => "2026-08-20T14:05:00+00:00"⟩
  float := Decimal.toRat
  allowedQuantity _ := 10

/-- The 20th of August 2026, some seconds after 10:00 in New York. -/
def clock (seconds : ℤ) : DateTime :=
  DateTime.combine (Date.ofCivil 2026 8 20) 14 0 0 + TimeDelta.seconds seconds

/-- The bar that is complete at 10:05. -/
def bar : EvidenceRef := ⟨"alpaca/bars", "AAPL-1004", clock 300⟩

def rationale : EvidenceBoundRationale := ⟨"The leader breaks out.", .observed, [bar]⟩

def thesis : UsDayTradeThesis where
  thesisId := hex 'a'
  decision := .recommend
  situationId := hex 'a'
  agentVersionId := hex '1'
  playbookId := "breakout"
  themeId := hex '2'
  catalystEventId := hex '3'
  flowInferenceKind := none
  themeName := "chips"
  symbol := some "AAPL"
  entryPrice := some (.finite 100)
  stopPrice := some (.finite 99)
  targets := [⟨"t1", .finite 101⟩, ⟨"t2", .finite 102⟩]
  invalidationRule := "The bar closes below the stop."
  confidenceBps := 6000
  evidenceRefs := [bar]
  observedAt := (clock 310).instant
  validUntil := (clock 600).instant
  reasonCode := none
  themeRationale := some rationale
  catalystRationale := some rationale
  leaderRationale := some rationale
  flowRationale := some rationale

def quote : QuoteValidation :=
  ⟨.finite 99, .finite 100, clock 305, clock 330, .finite 10, .finite 20⟩

def lane : StrategyLaneRef := ⟨.usEquities, .dayTrading, "breakout"⟩

def signal : TradeSignalEnvelope where
  signalId := thesis.thesisId
  strategyLane := lane
  producerStrategyVersion := "v1"
  symbol := "AAPL"
  observedAt := clock 310
  validUntil := clock 600
  side := .long
  entryType := .limit
  entryPrice := .finite 100
  stopPrice := .finite 99
  targets := thesis.targets
  actionability := .currentQuoteValidated
  invalidationRule := thesis.invalidationRule
  rationale := thesis.rationale
  evidenceRefs := [bar]
  quoteValidation := some quote

def entryRequest : UsDayAgentOperatingRequest where
  admission := {
    sessionId := "XNYS-2026-08-20"
    laneId := .intradayMomentum
    thesis
    signal
    champion := ⟨hex '1', "v1", lane⟩
    situation := ⟨"XNYS-2026-08-20", Date.ofCivil 2026 8 20, clock 240, [bar], []⟩
    currentMarket := ⟨"AAPL", quote, bar, clock 240⟩
    promotion := ⟨hex '4', hex '1', .usEquities, .paperChampionCandidate⟩
    executionEligibility := ⟨hex '4', hex '1', .eligible, true, Date.ofCivil 2026 8 20, clock 0,
      clock 3600⟩
    evaluatedAt := clock 320 }
  armRequestId := hex '5'
  actionablePayloadSha256 := hex '6'

/-- The entry and its protection are acknowledged. -/
def protectedEntry : UsDayCoordinator := fun request => {
  status := .blocked
  transitions := [.actionable, .entryAcknowledged, .protectiveOcoAcknowledged,
    .hermesResultProjected]
  reasons := ["position_open"]
  sessionId := request.sessionId
  strategyVersion := request.strategyVersion
  parentIntentId := request.orderAdmission.intentId
  actionableDeliveryId := some "d1"
  outcomeDeliveryId := "d2" }

/-- What the signal is admitted as. -/
def entryAdmission : PaperOrderAdmissionRequest where
  barStartedAt := clock 240
  barFirstObservedAt := thesis.observedAt
  intentId := thesis.thesisId
  strategyId := "breakout"
  strategyVersion := "v1"
  symbol := "AAPL"
  createdAt := clock 310
  entryLimit := 100
  stop := 99
  target1r := 101
  target2r := 102
  liquidityAllowedQuantity := 10
  estimatedSpreadBps := 10

theorem admitted :
    admitUsDaySignal environment entryRequest.admission = .ok entryAdmission := by decide +kernel

/-- After the event of the entry, and before the change of the protection, the operation raises an
    error when it is repeated. -/
theorem entry_is_refused :
    thesis.validateThesis digest = true ∧
      admitUsDaySignal environment entryRequest.admission = .ok entryAdmission ∧
      (operate environment protectedEntry entryRequest).isOk {} = true ∧
      (operate environment protectedEntry entryRequest).isOk
        ((operate environment protectedEntry entryRequest).interrupted [5] {}) = false := by
  decide +kernel

/-- After the first event of the recommendation, the operation is resumed. -/
theorem setup_is_resumed :
    (operate environment protectedEntry entryRequest).isOk
          ((operate environment protectedEntry entryRequest).interrupted [3] {}) = true ∧
      IsProjected digest thesis [.entryAcknowledged, .protectiveOcoAcknowledged]
        ((operate environment protectedEntry entryRequest).after
          ((operate environment protectedEntry entryRequest).interrupted [3] {})) := by
  have hdigests : ((thesis.payload :: (changesFor environment entryRequest.admission
      thesis.thesisId [.entryAcknowledged, .protectiveOcoAcknowledged]).map (·.payload)).map
        digest.hexdigest).Nodup := by decide +kernel
  have hsha : digest.Separates {m | m ∈ thesis.payload :: (changesFor environment
      entryRequest.admission thesis.thesisId
        [.entryAcknowledged, .protectiveOcoAcknowledged]).map (·.payload)} :=
    fun m hm m' hm' => List.inj_on_of_nodup_map hdigests hm hm'
  have hiff := @operate_recovers_iff environment protectedEntry entryRequest entryAdmission
    [.entryAcknowledged, .protectiveOcoAcknowledged] {} (by decide +kernel) admitted
    (by decide +kernel) (by decide +kernel) (by decide) hsha ⟨rfl, rfl, rfl, rfl⟩ [3]
  refine hiff.2 fun done hdone => ?_
  rcases List.prefix_cons_iff.1 hdone with rfl | ⟨later, rfl, hlater⟩
  · rfl
  · rw [List.prefix_nil.1 hlater]
    rfl

end OperatingSample

end TradingAgent.UsDay
