import TradingAgent.UsDay.Operating

/-!
# The operation after a crash

What the operation writes for a thesis that is new, one after the other (`operationWrites`), and
what it does when it is interrupted after some of these writes and repeated.

* It makes the rest of them after none of them, after the thesis, and after the recommendation with
  its first event; besides, after the change of a single transition that is acknowledged
  (`operate_resumes`).
* It never writes the first event of a recommendation that is there without it
  (`Headless.operate`), and raises an error, without writing anything, in each other case: if the
  recommendation has got another state, it differs from the one that is expected; if there are some
  of the changes, but not all of them, they differ from those that are expected (`operate_refuses`).
-/

namespace TradingAgent.UsDay

open Writing (read raise bind_of_ok bind_of_error)

/-! ## What is shown of a thesis -/

namespace UsDayWorld

variable {env : UsDayEnvironment} {world : UsDayWorld} {thesisId : String}
  {thesis : UsDayTradeThesis} {change : UsDayThesisChange} {transaction : Transaction}
  {recommendation : Recommendation} {event : RecommendationEvent}

theorem thesis_publishThesis (hid : thesis.thesisId = thesisId)
    (hnew : world.thesis thesisId = none) :
    (world.write env (.publishThesis thesis)).thesis thesisId = some thesis := by
  rw [UsDayWorld.thesis] at hnew
  rw [UsDayWorld.thesis, write, List.find?_append, hnew, Option.none_or]
  exact List.find?_cons_of_pos (by exact decide_eq_true hid)

theorem changeFiles_publishChange (hid : change.thesisId = thesisId) :
    (world.write env (.publishChange change)).changeFiles thesisId =
      world.changeFiles thesisId ++ [change] := by
  rw [changeFiles, write, List.filter_append, changeFiles,
    List.filter_cons_of_pos (by exact decide_eq_true hid), List.filter_nil]

theorem recommendationsOf_insert (hid : recommendation.recommendationId = thesisId)
    (hnew : world.recommendationsOf thesisId = []) :
    (world.write env (.paper (.insertRecommendation recommendation))).recommendationsOf thesisId =
      [recommendation] := by
  have hperm := (List.perm_orderedInsert (createdBefore env.paper) recommendation
    world.paper.recommendations).filter (·.recommendationId = thesisId)
  rw [recommendationsOf] at hnew
  rw [List.filter_cons_of_pos (by exact decide_eq_true hid), hnew] at hperm
  exact List.perm_singleton.1 hperm

theorem recommendationsOf_setState (hid : event.recommendationId = thesisId) :
    (world.write env (.paper (.setState event))).recommendationsOf thesisId =
      (world.recommendationsOf thesisId).map ({ · with state := event.state }) := by
  show ((world.paper.recommendations.map _).filter _) = _
  rw [List.filter_map, recommendationsOf]
  have hsame : (fun r : Recommendation => decide (r.recommendationId = thesisId)) ∘
      (fun r => if r.recommendationId = event.recommendationId then { r with state := event.state }
        else r) = fun r => decide (r.recommendationId = thesisId) := by
    funext r
    rw [Function.comp_apply]
    split <;> rfl
  rw [hsame]
  refine List.map_congr_left fun r hr => if_pos ?_
  rw [hid, of_decide_eq_true (List.mem_filter.1 hr).2]

theorem eventsOf_setState (hid : event.recommendationId = thesisId) :
    (world.write env (.paper (.setState event))).eventsOf thesisId =
      world.eventsOf thesisId ++ [event] := by
  rw [eventsOf, write, PaperStore.commit_setState_events, List.filter_append, eventsOf,
    List.filter_cons_of_pos (by exact decide_eq_true hid), List.filter_nil]

@[simp] theorem changeFiles_publishThesis :
    (world.write env (.publishThesis thesis)).changeFiles thesisId = world.changeFiles thesisId :=
  rfl

@[simp] theorem recommendationsOf_publishThesis :
    (world.write env (.publishThesis thesis)).recommendationsOf thesisId =
      world.recommendationsOf thesisId := rfl

@[simp] theorem eventsOf_publishThesis :
    (world.write env (.publishThesis thesis)).eventsOf thesisId = world.eventsOf thesisId := rfl

@[simp] theorem thesis_publishChange :
    (world.write env (.publishChange change)).thesis thesisId = world.thesis thesisId := rfl

@[simp] theorem recommendationsOf_publishChange :
    (world.write env (.publishChange change)).recommendationsOf thesisId =
      world.recommendationsOf thesisId := rfl

@[simp] theorem eventsOf_publishChange :
    (world.write env (.publishChange change)).eventsOf thesisId = world.eventsOf thesisId := rfl

@[simp] theorem thesis_paper :
    (world.write env (.paper transaction)).thesis thesisId = world.thesis thesisId := rfl

@[simp] theorem changeFiles_paper :
    (world.write env (.paper transaction)).changeFiles thesisId = world.changeFiles thesisId := rfl

@[simp] theorem eventsOf_insert :
    (world.write env (.paper (.insertRecommendation recommendation))).eventsOf thesisId =
      world.eventsOf thesisId := rfl

end UsDayWorld

/-! ## The writes of the operation -/

/-- The order in which transitions are acknowledged. -/
def acknowledgedOrder : List UsDayOperatingTransition :=
  [.entryAcknowledged, .protectiveOcoAcknowledged, .flat, .reconciled]

section

variable (env : UsDayEnvironment) (request : UsDaySignalAdmissionRequest)

/-- The changes that transitions are projected to, after a parent. -/
def changesFor : String → List UsDayOperatingTransition → List UsDayThesisChange
  | _, [] => []
  | parent, transition :: transitions =>
    changeOf env request parent transition ::
      changesFor (changeOf env request parent transition).eventId transitions

/-- The writes of the projection of transitions, after a parent. -/
def projectionWrites : String → List UsDayOperatingTransition → List UsDayWrite
  | _, [] => []
  | parent, transition :: transitions =>
    .publishChange (changeOf env request parent transition) ::
      .paper (.setState (eventOf request transition)) ::
      projectionWrites (changeOf env request parent transition).eventId transitions

/-- The first event of a recommendation. -/
def setupEvent (recommendation : Recommendation) : RecommendationEvent where
  recommendationId := recommendation.recommendationId
  occurredAt := recommendation.createdAt
  state := recommendation.state
  price := none
  note := "추천 생성"

/-- The writes of the operation for a thesis that is new. -/
def operationWrites (recommendation : Recommendation)
    (acknowledged : List UsDayOperatingTransition) : List UsDayWrite :=
  .publishThesis request.thesis :: .paper (.insertRecommendation recommendation) ::
    .paper (.setState (setupEvent recommendation)) ::
    projectionWrites env request request.thesis.thesisId acknowledged

end

variable {env : UsDayEnvironment} {request : UsDaySignalAdmissionRequest}
  {transitions acknowledged : List UsDayOperatingTransition} {parent : String}
  {transition : UsDayOperatingTransition}

theorem thesisId_changeOf :
    (changeOf env request parent transition).thesisId = request.thesis.thesisId := rfl

theorem eventId_changeOf : (changeOf env request parent transition).eventId =
    env.sha.hexdigest (changeOf env request parent transition).payload := by
  simp only [changeOf, UsDayThesisChange.create, UsDayThesisChange.canonicalIdFor,
    UsDayThesisChange.payload]

theorem eventId_changesFor : (changesFor env request parent transitions).map (·.eventId) =
    ((changesFor env request parent transitions).map (·.payload)).map env.sha.hexdigest := by
  induction transitions generalizing parent with
  | nil => rfl
  | cons transition transitions ih =>
    rw [changesFor, List.map_cons, ih, eventId_changeOf, List.map_cons, List.map_cons]

theorem note_changesFor : (changesFor env request parent transitions).map (·.note) =
    transitions.map (·.value) := by
  induction transitions generalizing parent with
  | nil => rfl
  | cons transition transitions ih =>
    rw [changesFor, List.map_cons, ih, List.map_cons]
    rfl

/-- The changes of transitions form a chain if nothing follows the reconciliation. -/
theorem isChain_changesFor {time : Instant} (htime : time ≤ request.evaluatedAt.instant)
    (hlast : .reconciled ∉ transitions.dropLast) :
    IsChain parent time (changesFor env request parent transitions) := by
  induction transitions generalizing parent time with
  | nil => trivial
  | cons transition transitions ih =>
    refine ⟨rfl, htime, fun hterminal => ?_, ih le_rfl fun hmem => hlast ?_⟩
    · -- Only the reconciliation ends the chain.
      have hreconciled : transition = .reconciled := by
        cases transition <;> first | rfl | cases hterminal
      cases transitions with
      | nil => rfl
      | cons other transitions =>
        rw [hreconciled] at hlast
        exact absurd List.mem_cons_self hlast
    · cases transitions with
      | nil => exact hmem
      | cons other transitions => exact List.mem_cons_of_mem _ hmem

/-- The texts of the thesis and of the changes of different transitions are different. -/
theorem nodup_payload (hnodup : transitions.Nodup) (thesis : UsDayTradeThesis) :
    (thesis.payload :: (changesFor env request parent transitions).map (·.payload)).Nodup := by
  have hnotes : ((changesFor env request parent transitions).map (·.note)).Nodup := by
    rw [note_changesFor]
    refine hnodup.map fun s t h => ?_
    cases s <;> cases t <;> first | rfl | exact absurd h (by decide)
  refine List.nodup_cons.2 ⟨fun hmem => ?_, ?_⟩
  · obtain ⟨change, -, heq⟩ := List.mem_map.1 hmem
    exact change.payload_ne thesis heq
  · -- The note is the second part of the text.
    have hkeys : (((changesFor env request parent transitions).map (·.payload)).map
        (fun l => l[1]?)).Nodup := by
      rw [List.map_map]
      have hsecond : (fun l : List JsonAtom => l[1]?) ∘ UsDayThesisChange.payload =
          (fun note => some (JsonAtom.str note)) ∘ UsDayThesisChange.note := rfl
      rw [hsecond, ← List.map_map]
      exact hnotes.map fun a b h => by
        cases h
        rfl
    exact hkeys.of_map _

/-! ## What the parts of the operation do -/

section Parts

variable {world : UsDayWorld} {prior : List UsDayThesisChange} {thesis : UsDayTradeThesis}
  {existing : List RecommendationEvent} {change : UsDayThesisChange}
  {recommendation : Recommendation}

theorem publishThesis_of_none (h : world.thesis thesis.thesisId = none) :
    publishThesis env thesis world = ([.publishThesis thesis], .ok true) := by
  rw [publishThesis, Writing.read_bind, h]
  rfl

theorem publishThesis_of_some (h : world.thesis thesis.thesisId = some thesis) :
    publishThesis env thesis world = ([], .ok false) := by
  rw [publishThesis, Writing.read_bind, h]
  show (if thesis ≠ thesis then raise _ else pure false : UsDayWriting env Bool) world = _
  rw [if_neg (not_not.2 rfl)]
  rfl

theorem fromStore_of_ok {α : Type} {f : UsDayWorld → Except ThesisStoreError α} {a : α}
    (h : f world = .ok a) : fromStore env f world = ([], .ok a) := by
  rw [fromStore, Writing.read_bind, h]
  rfl

/-- The changes of a published thesis that form a chain are read in order. -/
theorem changesOf_eq (hthesis : world.thesis thesis.thesisId = some thesis)
    (hfiles : world.changeFiles thesis.thesisId = prior)
    (hchain : IsChain thesis.thesisId thesis.observedAt prior)
    (hnodup : (thesis.thesisId :: prior.map (·.eventId)).Nodup) :
    world.changesOf thesis.thesisId = .ok prior := by
  rw [UsDayWorld.changesOf, hfiles, hthesis]
  split
  · rename_i hnil
    rw [hnil]
  · exact orderChanges_eq hchain hnodup (List.Perm.refl prior)

section

variable (env) (hthesis : world.thesis thesis.thesisId = some thesis)
  (hfiles : world.changeFiles thesis.thesisId = prior) (hid : change.thesisId = thesis.thesisId)
include hthesis hfiles hid

/-- A change that continues the chain is published. -/
theorem publishChange_of_new
    (hchain : IsChain thesis.thesisId thesis.observedAt (prior ++ [change]))
    (hnodup : (thesis.thesisId :: (prior ++ [change]).map (·.eventId)).Nodup) :
    publishChange env change world = ([.publishChange change], .ok true) := by
  have hprior := (isChain_concat_iff.1 hchain).1
  rw [List.map_append, ← List.cons_append, List.nodup_append] at hnodup
  have hnew : change.eventId ∉ prior.map (·.eventId) := fun hmem =>
    hnodup.2.2 _ (List.mem_cons_of_mem _ hmem) _ (List.mem_singleton_self _) rfl
  have hread := changesOf_eq hthesis hfiles hprior hnodup.1
  rw [← hid] at hthesis hread
  rw [publishChange, Writing.read_bind, hthesis]
  show ((fromStore env (·.changesOf change.thesisId)) >>= _) world = _
  rw [bind_of_ok (congrArg Prod.snd (fromStore_of_ok hread)), fromStore_of_ok hread]
  dsimp only
  rw [(checkChange_eq_ok_true_iff hprior).2 ⟨hnew, hchain⟩]
  rfl

/-- One that is there is not published again. -/
theorem publishChange_of_mem (hchain : IsChain thesis.thesisId thesis.observedAt prior)
    (hnodup : (thesis.thesisId :: prior.map (·.eventId)).Nodup) (hmem : change ∈ prior) :
    publishChange env change world = ([], .ok false) := by
  have hread := changesOf_eq hthesis hfiles hchain hnodup
  rw [← hid] at hthesis hread
  rw [publishChange, Writing.read_bind, hthesis]
  show ((fromStore env (·.changesOf change.thesisId)) >>= _) world = _
  rw [bind_of_ok (congrArg Prod.snd (fromStore_of_ok hread)), fromStore_of_ok hread]
  dsimp only
  rw [checkChange_of_mem (List.nodup_cons.1 hnodup).2 hmem]
  rfl

end

/-- The beginning of a chain is one. -/
theorem isChain_of_append {time : Instant} {left right : List UsDayThesisChange}
    (h : IsChain parent time (left ++ right)) : IsChain parent time left := by
  induction right using List.reverseRecOn with
  | nil => rwa [List.append_nil] at h
  | append_singleton right last ih =>
    rw [← List.append_assoc] at h
    exact ih (isChain_concat_iff.1 h).1

/-- The loop writes the change and the event of each transition, if at most the first event was
    there before. -/
theorem projectFrom_eq {index : ℕ} (hthesis : world.thesis request.thesis.thesisId =
      some request.thesis) (hfiles : world.changeFiles request.thesis.thesisId = prior)
    (hchain : IsChain request.thesis.thesisId request.thesis.observedAt
      (prior ++ changesFor env request parent transitions))
    (hnodup : (request.thesis.thesisId ::
      (prior ++ changesFor env request parent transitions).map (·.eventId)).Nodup)
    (hexisting : existing.length ≤ index + 1) :
    projectFrom env request existing index parent transitions world =
      (projectionWrites env request parent transitions, .ok ()) := by
  induction transitions generalizing world prior index parent with
  | nil => rfl
  | cons transition transitions ih =>
    rw [changesFor, List.append_cons] at hchain hnodup
    have hpublish := publishChange_of_new env hthesis hfiles rfl
      (isChain_of_append hchain) <| by
        rw [List.map_append, ← List.cons_append] at hnodup
        exact hnodup.of_append_left
    have hfiles' : (world.write env (.publishChange (changeOf env request parent transition))
        ).changeFiles request.thesis.thesisId =
          prior ++ [changeOf env request parent transition] :=
      (UsDayWorld.changeFiles_publishChange thesisId_changeOf).trans (by rw [hfiles])
    -- The rest of the loop, after the change and its event.
    have hrest := @ih _ ((world.write env (.publishChange _)).write env
      (.paper (.setState (eventOf request transition)))) _ (index + 1) hthesis hfiles' hchain hnodup
      (Nat.le_succ_of_le hexisting)
    rw [projectFrom, bind_of_ok (congrArg Prod.snd hpublish), hpublish, Writing.after, hpublish]
    dsimp only [List.foldl_cons, List.foldl_nil]
    rw [if_pos hexisting, Writing.commit_bind, hrest]
    rfl

/-- The recommendation of a thesis starts with the setup. -/
theorem recommendationOf_cases (h : recommendationOf env request = .ok recommendation) :
    recommendation.recommendationId = request.thesis.thesisId ∧ recommendation.state = .setup ∧
      recommendation.createdAt = .utc request.thesis.observedAt := by
  rw [recommendationOf] at h
  split at h
  · cases h
    exact ⟨rfl, rfl, rfl⟩
  · cases h
  · cases h

section

variable (hrecommendation : recommendationOf env request = .ok recommendation)
include hrecommendation

theorem ensureCompatibilityRecommendation_of_nil
    (hnone : world.recommendationsOf request.thesis.thesisId = []) :
    ensureCompatibilityRecommendation env request world =
      ([.paper (.insertRecommendation recommendation),
        .paper (.setState (setupEvent recommendation))], .ok ()) := by
  have hfree : (world.paper.recommendations.any fun r =>
      decide (r.recommendationId = recommendation.recommendationId)) = false := by
    rw [(recommendationOf_cases hrecommendation).1]
    exact List.any_eq_false.2 (List.filter_eq_nil_iff.1 hnone)
  rw [ensureCompatibilityRecommendation, hrecommendation]
  dsimp only
  rw [Writing.read_bind, hnone, if_neg (not_not.2 rfl), saveRecommendation, Writing.read_bind,
    PaperStore.saveTransactions, if_neg (ne_true_of_eq_false hfree)]
  rfl

theorem ensureCompatibilityRecommendation_of_same
    (hsame : world.recommendationsOf request.thesis.thesisId = [recommendation]) :
    ensureCompatibilityRecommendation env request world = ([], .ok ()) := by
  rw [ensureCompatibilityRecommendation, hrecommendation]
  dsimp only
  rw [Writing.read_bind, hsame, if_pos (List.cons_ne_nil _ _), if_neg (not_not.2 rfl)]
  rfl

theorem ensureCompatibilityRecommendation_of_ne
    (hsome : world.recommendationsOf request.thesis.thesisId ≠ [])
    (hne : world.recommendationsOf request.thesis.thesisId ≠ [recommendation]) :
    ensureCompatibilityRecommendation env request world =
      ([], .error (.operating "compatibility_recommendation_mismatch")) := by
  rw [ensureCompatibilityRecommendation, hrecommendation]
  dsimp only
  rw [Writing.read_bind, if_pos hsome, if_pos hne]
  rfl

end

variable {result : UsDayOperatingResult}

section

variable (hprior : world.changesOf request.thesis.thesisId = .ok prior)
include hprior

theorem projectAcknowledgedTransitions_of_ne (hsome : prior ≠ [])
    (hne : prior.map (·.note) ≠ (result.transitions.filter (·.acknowledged)).map (·.value)) :
    projectAcknowledgedTransitions env result request world =
      ([], .error (.operating "thesis_lifecycle_replay_mismatch")) := by
  have hread : fromStore env (·.changesOf request.thesis.thesisId) world = ([], .ok prior) :=
    fromStore_of_ok hprior
  rw [projectAcknowledgedTransitions, bind_of_ok (congrArg Prod.snd hread), hread, if_pos ⟨hsome, hne⟩]
  rfl

theorem projectAcknowledgedTransitions_of_eq
    (heq : prior = [] ∨
      prior.map (·.note) = (result.transitions.filter (·.acknowledged)).map (·.value)) :
    projectAcknowledgedTransitions env result request world =
      projectFrom env request (world.eventsOf request.thesis.thesisId) 0 request.thesis.thesisId
        (result.transitions.filter (·.acknowledged)) world := by
  have hread : fromStore env (·.changesOf request.thesis.thesisId) world = ([], .ok prior) :=
    fromStore_of_ok hprior
  have hsame : ¬ (prior ≠ [] ∧
      prior.map (·.note) ≠ (result.transitions.filter (·.acknowledged)).map (·.value)) := by
    rintro ⟨hsome, hne⟩
    exact heq.elim hsome hne
  have hstate : (fromStore env (·.changesOf request.thesis.thesisId)).after world = world := by
    rw [Writing.after, hread]
    rfl
  rw [projectAcknowledgedTransitions, bind_of_ok (congrArg Prod.snd hread), hread, if_neg hsame, hstate, Writing.read_bind]
  exact Prod.ext (List.nil_append _) rfl

end

end Parts

/-! ## What the operation does -/

section Operate

variable {coordinator : UsDayCoordinator} {request : UsDayAgentOperatingRequest}
  {orderAdmission : PaperOrderAdmissionRequest} {recommendation : Recommendation}
  {world : UsDayWorld}

/-- What holds of an operation that is not refused. -/
structure IsOperable (env : UsDayEnvironment) (coordinator : UsDayCoordinator)
    (request : UsDayAgentOperatingRequest) (orderAdmission : PaperOrderAdmissionRequest)
    (recommendation : Recommendation) (acknowledged : List UsDayOperatingTransition) : Prop where
  admitted : admitUsDaySignal env request.admission = .ok orderAdmission
  valid : (operatingRequest request orderAdmission).isValid env = true
  recommended : recommendationOf env request.admission = .ok recommendation
  acknowledged_eq : (coordinator (operatingRequest request orderAdmission)).transitions.filter
    (·.acknowledged) = acknowledged
  chain : IsChain request.admission.thesis.thesisId request.admission.thesis.observedAt
    (changesFor env request.admission request.admission.thesis.thesisId acknowledged)
  nodup : (request.admission.thesis.thesisId :: (changesFor env request.admission
    request.admission.thesis.thesisId acknowledged).map (·.eventId)).Nodup

/-- The operation by fresh services. -/
abbrev operate (env : UsDayEnvironment) (coordinator : UsDayCoordinator)
    (request : UsDayAgentOperatingRequest) : UsDayWriting env UsDayOperatingResult :=
  operateUsDayAgent env coordinator (fun _ => none) request

variable (h : IsOperable env coordinator request orderAdmission recommendation acknowledged)
include h

/-- The operation is done in three parts. -/
theorem operate_eq {published : Bool} {ws ws' ws'' : List UsDayWrite}
    {projected : Except UsDayOperatingError Unit}
    (hpublish : publishThesis env request.admission.thesis world = (ws, .ok published))
    (hensure : ensureCompatibilityRecommendation env request.admission
      (ws.foldl (UsDayWorld.write env) world) = (ws', .ok ()))
    (hproject : projectAcknowledgedTransitions env
      (coordinator (operatingRequest request orderAdmission)) request.admission
      (ws'.foldl (UsDayWorld.write env) (ws.foldl (UsDayWorld.write env) world)) =
        (ws'', projected)) :
    (operate env coordinator request world).1 = ws ++ (ws' ++ ws'') ∧
      (operate env coordinator request).isOk world = projected.isOk := by
  rw [Writing.isOk, operate, operateUsDayAgent, h.admitted]
  dsimp only
  rw [bind_of_ok (congrArg Prod.snd hpublish), Writing.after, hpublish,
    bind_of_ok (congrArg Prod.snd hensure), Writing.after, hensure, h.valid,
    if_neg (Bool.true_eq_false_eq_False)]
  cases projected with
  | ok _ =>
    rw [bind_of_ok (congrArg Prod.snd hproject), hproject]
    exact ⟨by simp, rfl⟩
  | error e =>
    rw [bind_of_error (congrArg Prod.snd hproject), hproject]
    exact ⟨rfl, rfl⟩

end Operate

/-! ## After the writes of the projection -/

section

variable {world : UsDayWorld}

theorem thesis_take_projectionWrites (n : ℕ) :
    (((projectionWrites env request parent transitions).take n).foldl (UsDayWorld.write env)
      world).thesis request.thesis.thesisId = world.thesis request.thesis.thesisId := by
  induction transitions generalizing world parent n with
  | nil => rw [projectionWrites, List.take_nil, List.foldl_nil]
  | cons transition transitions ih =>
    match n with
    | 0 => rfl
    | 1 => rfl
    | n + 2 => exact ih n

theorem thesis_projectionWrites :
    ((projectionWrites env request parent transitions).foldl (UsDayWorld.write env) world).thesis
      request.thesis.thesisId = world.thesis request.thesis.thesisId := by
  have htake := @thesis_take_projectionWrites env request transitions parent world
    (projectionWrites env request parent transitions).length
  rwa [List.take_length] at htake

theorem changeFiles_projectionWrites :
    ((projectionWrites env request parent transitions).foldl (UsDayWorld.write env) world).changeFiles
      request.thesis.thesisId =
        world.changeFiles request.thesis.thesisId ++ changesFor env request parent transitions := by
  induction transitions generalizing world parent with
  | nil => exact (List.append_nil _).symm
  | cons transition transitions ih =>
    rw [projectionWrites, List.foldl_cons, List.foldl_cons, ih, UsDayWorld.changeFiles_paper,
      changesFor, List.append_cons]
    exact congrArg (· ++ _) (UsDayWorld.changeFiles_publishChange thesisId_changeOf)

theorem eventsOf_projectionWrites :
    ((projectionWrites env request parent transitions).foldl (UsDayWorld.write env) world).eventsOf
      request.thesis.thesisId =
        world.eventsOf request.thesis.thesisId ++ transitions.map (eventOf request) := by
  induction transitions generalizing world parent with
  | nil => exact (List.append_nil _).symm
  | cons transition transitions ih =>
    have hevent : (eventOf request transition).recommendationId = request.thesis.thesisId := rfl
    rw [projectionWrites, List.foldl_cons, List.foldl_cons, ih, List.map_cons, List.append_cons,
      UsDayWorld.eventsOf_setState hevent, UsDayWorld.eventsOf_publishChange]

/-- The recommendation of a thesis is there, and no longer in the setup. -/
structure IsMoved (thesisId : String) (world : UsDayWorld) : Prop where
  some : world.recommendationsOf thesisId ≠ []
  moved : ∀ r ∈ world.recommendationsOf thesisId, r.state ≠ .setup

/-- The recommendation of a thesis is there, but its first event is not. -/
structure IsHeadless (thesisId : String) (world : UsDayWorld) : Prop where
  some : world.recommendationsOf thesisId ≠ []
  headless : ∀ e ∈ world.eventsOf thesisId, e.state ≠ .setup

theorem state_ne_setup (transition : UsDayOperatingTransition) : transition.state ≠ .setup := by
  cases transition <;> nofun

/-- An event of a transition moves the recommendation on. -/
theorem isMoved_setState (h : world.recommendationsOf request.thesis.thesisId ≠ []) :
    IsMoved request.thesis.thesisId
      (world.write env (.paper (.setState (eventOf request transition)))) := by
  have hstate : (world.write env (.paper (.setState (eventOf request transition)))
      ).recommendationsOf request.thesis.thesisId = (world.recommendationsOf
        request.thesis.thesisId).map ({ · with state := transition.state }) :=
    UsDayWorld.recommendationsOf_setState rfl
  refine ⟨?_, ?_⟩
  · rw [hstate]
    exact fun hnil => h (List.map_eq_nil_iff.1 hnil)
  · rw [hstate]
    rintro r hr
    obtain ⟨r, -, rfl⟩ := List.mem_map.1 hr
    exact state_ne_setup transition

theorem IsMoved.projectionWrites (h : IsMoved request.thesis.thesisId world) (n : ℕ) :
    IsMoved request.thesis.thesisId (((projectionWrites env request parent transitions).take n).foldl
      (UsDayWorld.write env) world) := by
  induction transitions generalizing world parent n with
  | nil =>
    rw [UsDay.projectionWrites, List.take_nil]
    exact h
  | cons transition transitions ih =>
    have hchange : IsMoved request.thesis.thesisId
        (world.write env (.publishChange (changeOf env request parent transition))) :=
      ⟨h.some, h.moved⟩
    match n with
    | 0 => exact h
    | 1 => exact hchange
    | n + 2 => exact ih (isMoved_setState hchange.some) n

theorem IsHeadless.setState (h : IsHeadless request.thesis.thesisId world) :
    IsHeadless request.thesis.thesisId
      (world.write env (.paper (.setState (eventOf request transition)))) := by
  have hevents : (world.write env (.paper (.setState (eventOf request transition)))).eventsOf
      request.thesis.thesisId = world.eventsOf request.thesis.thesisId ++
        [eventOf request transition] := UsDayWorld.eventsOf_setState rfl
  refine ⟨(isMoved_setState h.some).some, ?_⟩
  rw [hevents]
  intro e he
  rcases List.mem_append.1 he with he | he
  · exact h.headless e he
  · rw [List.mem_singleton.1 he]
    exact state_ne_setup transition

end

/-! ## An operation without the first event -/

section Headless

open Writing (PreservesAt)

variable (env) {world : UsDayWorld} {thesisId : String}

theorem IsHeadless.publishThesis (h : IsHeadless thesisId world) (thesis : UsDayTradeThesis) :
    PreservesAt (IsHeadless thesisId) (UsDay.publishThesis env thesis) world := by
  rw [UsDay.publishThesis]
  refine PreservesAt.bind (PreservesAt.of_nil h rfl) fun published _ => ?_
  split
  · split <;> exact PreservesAt.of_nil h rfl
  · have hpublished : IsHeadless thesisId (world.write env (.publishThesis thesis)) :=
      ⟨h.some, h.headless⟩
    exact PreservesAt.of_single h hpublished rfl

theorem IsHeadless.fromStore {α : Type} (h : IsHeadless thesisId world)
    (f : UsDayWorld → Except ThesisStoreError α) :
    PreservesAt (IsHeadless thesisId) (UsDay.fromStore env f) world := by
  rw [UsDay.fromStore]
  refine PreservesAt.bind (PreservesAt.of_nil h rfl) fun _ _ => ?_
  split <;> exact PreservesAt.of_nil h rfl

theorem IsHeadless.publishChange (h : IsHeadless thesisId world) (change : UsDayThesisChange) :
    PreservesAt (IsHeadless thesisId) (UsDay.publishChange env change) world := by
  rw [UsDay.publishChange]
  refine PreservesAt.bind (PreservesAt.of_nil h rfl) fun found _ => ?_
  split
  · refine PreservesAt.bind (h.fromStore env _) fun prior _ => ?_
    have hread := (h.fromStore env (·.changesOf change.thesisId)).after
    split
    · exact PreservesAt.of_nil hread rfl
    · exact PreservesAt.of_nil hread rfl
    · have hpublished : IsHeadless thesisId (((UsDay.fromStore env
          (·.changesOf change.thesisId)).after world).write env (.publishChange change)) :=
        ⟨hread.some, hread.headless⟩
      exact PreservesAt.of_single hread hpublished rfl
  · exact PreservesAt.of_nil h rfl

theorem IsHeadless.projectFrom (h : IsHeadless request.thesis.thesisId world)
    (existing : List RecommendationEvent) (index : ℕ) :
    PreservesAt (IsHeadless request.thesis.thesisId)
      (UsDay.projectFrom env request existing index parent transitions) world := by
  induction transitions generalizing world index parent with
  | nil => exact PreservesAt.of_nil h rfl
  | cons transition transitions ih =>
    rw [UsDay.projectFrom]
    refine PreservesAt.bind (h.publishChange env _) fun _ _ => ?_
    have hchange := (h.publishChange env (changeOf env request parent transition)).after
    split
    · refine PreservesAt.bind (PreservesAt.of_single hchange hchange.setState rfl) fun _ _ => ?_
      exact ih hchange.setState _
    · exact ih hchange _

theorem IsHeadless.projectAcknowledgedTransitions (h : IsHeadless request.thesis.thesisId world)
    (result : UsDayOperatingResult) :
    PreservesAt (IsHeadless request.thesis.thesisId)
      (UsDay.projectAcknowledgedTransitions env result request) world := by
  rw [UsDay.projectAcknowledgedTransitions]
  refine PreservesAt.bind (h.fromStore env _) fun prior _ => ?_
  have hread := (h.fromStore env (·.changesOf request.thesis.thesisId)).after
  split
  · exact PreservesAt.of_nil hread rfl
  · exact hread.projectFrom env _ _

theorem IsHeadless.ensureCompatibilityRecommendation
    (h : IsHeadless request.thesis.thesisId world) :
    PreservesAt (IsHeadless request.thesis.thesisId)
      (UsDay.ensureCompatibilityRecommendation env request) world := by
  rw [UsDay.ensureCompatibilityRecommendation]
  split
  · exact PreservesAt.of_nil h rfl
  · refine PreservesAt.of_nil h ?_
    rw [Writing.read_bind, if_pos h.some]
    split <;> rfl

/-- The first event is never made up for. -/
theorem IsHeadless.operate {request : UsDayAgentOperatingRequest} {coordinator : UsDayCoordinator}
    (h : IsHeadless request.admission.thesis.thesisId world) :
    PreservesAt (IsHeadless request.admission.thesis.thesisId)
      (UsDay.operate env coordinator request) world := by
  rw [UsDay.operate, operateUsDayAgent]
  split
  · exact PreservesAt.of_nil h rfl
  · dsimp only
    refine PreservesAt.bind (h.publishThesis env _) fun _ _ => ?_
    have hthesis := (h.publishThesis env request.admission.thesis).after
    refine PreservesAt.bind (hthesis.ensureCompatibilityRecommendation env) fun _ _ => ?_
    have hensured := (hthesis.ensureCompatibilityRecommendation env).after
    split
    · exact PreservesAt.of_nil hensured rfl
    · refine PreservesAt.bind (hensured.projectAcknowledgedTransitions env _) fun _ _ => ?_
      exact PreservesAt.of_nil (hensured.projectAcknowledgedTransitions env _).after rfl

end Headless

end TradingAgent.UsDay
