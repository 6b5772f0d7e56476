import TradingAgent.Library.Transition
import TradingAgent.Recommendation.Follow

/-!
# Recommendations and their sessions

Recommendations are for the session of the day in New York on which they are made. A run submits
batches of bars to the engine, and finalizes what is due, in any order (`PaperEvent`).

* A run *stays in session* (`StaysInSession`) if no bar of another day is processed for a symbol
  while a recommendation for it is open, and recommendations are made on the day of the bar that
  they are made from.
* In such a run, every event is of the day of its recommendation, what is closed stays as it is,
  and what is open is closed by the first finalization after the close of its session
  (`reachable_inSession`).
* Otherwise, a recommendation that is still open is followed on the next day, and as the last bar
  that was processed is then of that day, it is never finalized
  (`SessionSample.outlives_session`).
-/

namespace TradingAgent

open Transition

/-- The states that only a bar brings about. -/
def BAR_STATES : List RecommendationState :=
  [.active, .target1r, .target2r, .stopped, .invalidated]

inductive PaperEvent
  | batch (batch : Batch)
  | finalize (observedAt : DateTime)

/-- A store whose events are all of the day of their recommendation. -/
structure RecordedInSession (env : Environment) (store : PaperStore) : Prop where
  keyed : store.Keyed
  events : ∀ event ∈ store.events, ∃ r ∈ store.recommendations,
    r.recommendationId = event.recommendationId
      ∧ (event.state ∈ BAR_STATES → env.date event.occurredAt = env.date r.createdAt)

/-- The last bar of the symbol of each open recommendation is of the day on which it was made. -/
def CheckpointedInSession (env : Environment) (store : PaperStore) : Prop :=
  ∀ r ∈ store.recommendations, r.state.isOpen = true →
    ∃ checkpoint, store.lastProcessed r.symbol = some checkpoint
      ∧ env.date checkpoint.processedAt = env.date r.createdAt
      ∧ checkpoint.lastClose.isSome = true

/-- No open recommendation for the symbol of a bar was made on another day. -/
def BarInSession (env : Environment) (store : PaperStore) (bar : BarInput) : Prop :=
  ∀ r ∈ store.recommendations, r.state.isOpen = true → r.symbol = bar.symbol →
    env.date bar.timestamp = env.date r.createdAt

instance (env : Environment) (store : PaperStore) (bar : BarInput) :
    Decidable (BarInSession env store bar) :=
  inferInstanceAs (Decidable (∀ r ∈ store.recommendations, _ → _ → _))

section

variable {σ κ : Type*} (env : Environment) (risk : RiskConfig) (observer : Observer σ κ)

/-- The engine and the store after an event. -/
def paperStep (state : σ × PaperStore) : PaperEvent → σ × PaperStore
  | .batch batch => submit env risk observer state batch
  | .finalize observedAt =>
    (state.1, (finalizeTransactions env observedAt state.2).foldl (PaperStore.commit env) state.2)

/-- The pending bars of a batch are of the day of all open recommendations for their symbols, and
    the newest of them is of the symbol of the batch, as is a signal of it, on its day. -/
structure BatchInSession (state : σ × PaperStore) (batch : Batch) : Prop where
  symbol : ∀ newest ∈ (pendingBars state.2 batch).getLast?, newest.symbol = batch.symbol
  bars : ∀ bar ∈ pendingBars state.2 batch, BarInSession env state.2 bar
  signal : ∀ signal ∈ (observePending observer state.1 state.2 batch).2,
    ∀ newest ∈ (pendingBars state.2 batch).getLast?, signal.symbol = batch.symbol
      ∧ env.date (signalCreatedAt env signal batch.submission.availableAt)
        = env.date newest.timestamp

def StaysInSession (state : σ × PaperStore) : PaperEvent → Prop
  | .batch batch => BatchInSession env observer state batch
  | .finalize _ => True

/-- The runs that stay in session, from an empty store. -/
def sessionSystem (engine : σ) : System (σ × PaperStore) PaperEvent where
  init state := state = (engine, {})
  step state event state' :=
    StaysInSession env observer state event ∧ state' = paperStep env risk observer state event

end

section

variable {env : Environment} {store : PaperStore}

/-- Recording events of recommendations that stay in their session. -/
theorem RecordedInSession.record (h : RecordedInSession env store)
    (f : Recommendation → RecommendationState) {events : List RecommendationEvent}
    (hevents : ∀ event ∈ events, ∃ r ∈ store.recommendations,
      r.recommendationId = event.recommendationId
        ∧ (event.state ∈ BAR_STATES → env.date event.occurredAt = env.date r.createdAt)) :
    RecordedInSession env
      { store with
        recommendations := store.recommendations.map fun r => { r with state := f r }
        events := store.events ++ events } where
  keyed := by
    rw [PaperStore.Keyed, List.map_map]
    exact h.keyed
  events := by
    intro event hevent
    obtain ⟨r, hr, hevent⟩ :=
      (List.mem_append.1 hevent).elim (h.events event) (hevents event)
    exact ⟨{ r with state := f r }, List.mem_map_of_mem hr, hevent⟩

/-- Following a bar of the session of what is open. -/
theorem RecordedInSession.update (h : RecordedInSession env store) {bar : BarInput}
    (hbar : BarInSession env store bar) :
    RecordedInSession env
      ((updateOpenRecommendations env bar store).foldl (PaperStore.commit env) store) := by
  rw [update_spec h.keyed]
  refine h.record _ fun event hevent => ?_
  obtain ⟨r, hr, transition, htransition, rfl⟩ := mem_barEvents.1 hevent
  refine ⟨r, hr, rfl, fun _ => ?_⟩
  have hopen : r.state.isOpen = true := by
    by_contra hclosed
    rw [transitions_of_closed (Bool.not_eq_true _ ▸ hclosed)] at htransition
    exact absurd htransition List.not_mem_nil
  have hsymbol : r.symbol = bar.symbol := by
    rw [transitions] at htransition
    split_ifs at htransition with heligible
    · exact heligible.1
    · exact absurd htransition List.not_mem_nil
  exact hbar r hr hopen hsymbol

/-- What is open after a bar was open before it. -/
theorem mem_update_open (hkeyed : store.Keyed) {bar : BarInput} {r : Recommendation}
    (hr : r ∈ ((updateOpenRecommendations env bar store).foldl
      (PaperStore.commit env) store).recommendations) (hopen : r.state.isOpen = true) :
    ∃ r₀ ∈ store.recommendations, r₀.state.isOpen = true ∧ r₀.symbol = r.symbol
      ∧ r₀.createdAt = r.createdAt := by
  rw [update_spec hkeyed] at hr
  obtain ⟨r₀, hr₀, rfl⟩ := List.mem_map.1 hr
  refine ⟨r₀, hr₀, ?_, rfl, rfl⟩
  by_contra hclosed
  rw [Bool.not_eq_true] at hclosed
  simp only [stateAfterBar_of_closed hclosed, hclosed, Bool.false_eq_true] at hopen

/-- Following bars of the session of what is open. What is open afterwards was open before. -/
theorem afterBars_spec (h : RecordedInSession env store) {bars : List BarInput}
    (hbars : ∀ bar ∈ bars, BarInSession env store bar) :
    RecordedInSession env (afterBars env bars store)
      ∧ (afterBars env bars store).checkpoints = store.checkpoints
      ∧ ∀ r ∈ (afterBars env bars store).recommendations, r.state.isOpen = true →
          ∃ r₀ ∈ store.recommendations, r₀.state.isOpen = true ∧ r₀.symbol = r.symbol
            ∧ r₀.createdAt = r.createdAt := by
  induction bars generalizing store with
  | nil => exact ⟨h, rfl, fun r hr hopen => ⟨r, hr, hopen, rfl, rfl⟩⟩
  | cons bar bars ih =>
    have hupdate := h.update (hbars bar List.mem_cons_self)
    obtain ⟨hrecorded, hcheckpoints, hopen⟩ := ih hupdate fun b hb r hr hopen hsymbol => by
      obtain ⟨r₀, hr₀, hopen₀, hsymbol₀, hcreated⟩ := mem_update_open h.keyed hr hopen
      rw [← hcreated]
      exact hbars b (List.mem_cons_of_mem bar hb) r₀ hr₀ hopen₀ (hsymbol₀.trans hsymbol)
    refine ⟨hrecorded, ?_, fun r hr hr' => ?_⟩
    · rw [afterBars, List.foldl_cons]
      exact hcheckpoints.trans (by rw [update_spec h.keyed])
    · obtain ⟨r₁, hr₁, hopen₁, hsymbol₁, hcreated₁⟩ := hopen r hr hr'
      obtain ⟨r₀, hr₀, hopen₀, hsymbol₀, hcreated₀⟩ := mem_update_open h.keyed hr₁ hopen₁
      exact ⟨r₀, hr₀, hopen₀, hsymbol₀.trans hsymbol₁, hcreated₀.trans hcreated₁⟩

/-- Bars leave what is closed as it is. -/
theorem mem_afterBars_of_closed {bars : List BarInput} (hkeyed : store.Keyed)
    {r : Recommendation} (hr : r ∈ store.recommendations) (hclosed : r.state.isOpen = false) :
    r ∈ (afterBars env bars store).recommendations := by
  induction bars generalizing store with
  | nil => exact hr
  | cons bar bars ih =>
    rw [afterBars, List.foldl_cons, update_spec hkeyed]
    refine ih ?_ (List.mem_map.2 ⟨r, hr, ?_⟩)
    · rw [PaperStore.Keyed, List.map_map]
      exact hkeyed
    · rw [stateAfterBar_of_closed hclosed]

/-- Making a recommendation of a new identity. -/
theorem RecordedInSession.create (h : RecordedInSession env store) {r : Recommendation}
    (hsetup : r.state = .setup)
    (hnew : store.recommendations.any (·.recommendationId = r.recommendationId) = false) :
    RecordedInSession env
      ([.insertRecommendation r, .setState (creationEvent r)].foldl (PaperStore.commit env) store) := by
  have hinsert : RecordedInSession env (store.commit env (.insertRecommendation r)) :=
    { keyed := h.keyed.insert hnew
      events := fun event hevent => by
        obtain ⟨s, hs, hevent⟩ := h.events event hevent
        exact ⟨s, PaperStore.mem_commit_insert.2 (.inr hs), hevent⟩ }
  rw [List.foldl_cons, show [Transaction.setState (creationEvent r)]
    = [creationEvent r].map .setState from rfl, foldl_setState]
  refine hinsert.record _ fun event hevent => ⟨r, PaperStore.mem_commit_insert.2 (.inl rfl), ?_⟩
  rw [List.mem_singleton.1 hevent]
  refine ⟨rfl, fun hbar => ?_⟩
  rw [creationEvent, hsetup] at hbar
  simp [BAR_STATES] at hbar

theorem foldl_setLastProcessedBar (store' : PaperStore) (symbol : String) (timestamp : DateTime)
    (close : ℚ) :
    ((store'.setLastProcessedBar symbol timestamp close).foldl
      (PaperStore.commit env) store).recommendations = store.recommendations := by
  rw [PaperStore.setLastProcessedBar]
  split_ifs <;> rfl

/-- A checkpoint of the day of what is open for its symbol. -/
theorem checkpoint_inSession (h : RecordedInSession env store) {checkpoint : BarCheckpoint}
    (hclose : checkpoint.lastClose.isSome = true)
    (hopen : ∀ r ∈ store.recommendations, r.state.isOpen = true →
      if r.symbol = checkpoint.symbol then env.date checkpoint.processedAt = env.date r.createdAt
      else ∃ other, store.lastProcessed r.symbol = some other
        ∧ env.date other.processedAt = env.date r.createdAt ∧ other.lastClose.isSome = true) :
    RecordedInSession env (store.commit env (.setCheckpoint checkpoint))
      ∧ CheckpointedInSession env (store.commit env (.setCheckpoint checkpoint)) := by
  refine ⟨⟨h.keyed, h.events⟩, fun r hr hr' => ?_⟩
  rw [PaperStore.lastProcessed_setCheckpoint]
  have hchecked := hopen r hr hr'
  by_cases hsymbol : r.symbol = checkpoint.symbol
  · rw [if_pos hsymbol] at hchecked
    exact ⟨checkpoint, if_pos hsymbol.symm, hchecked, hclose⟩
  · rw [if_neg hsymbol] at hchecked
    rwa [if_neg (Ne.symm hsymbol)]

/-- Submitting a batch in session. -/
theorem submit_inSession {σ κ : Type*} {risk : RiskConfig} {observer : Observer σ κ} {engine : σ}
    {batch : Batch} (h : RecordedInSession env store) (hcheckpointed : CheckpointedInSession env store)
    (hbatch : BatchInSession env observer (engine, store) batch) :
    RecordedInSession env (submit env risk observer (engine, store) batch).2
      ∧ CheckpointedInSession env (submit env risk observer (engine, store) batch).2 := by
  rw [submit, submissionTransactions]
  cases hnewest : (pendingBars store batch).getLast? with
  | none => exact ⟨h, hcheckpointed⟩
  | some newest =>
    have hpending := List.mem_of_getLast? hnewest
    dsimp only
    rw [List.foldl_append, foldl_updateTransactions]
    obtain ⟨hrecorded, hcheckpoints, hopen⟩ := afterBars_spec h hbatch.bars
    set after := afterBars env (pendingBars store batch) store
    have hlast : ∀ symbol, after.lastProcessed symbol = store.lastProcessed symbol := fun symbol => by
      rw [PaperStore.lastProcessed, hcheckpoints, PaperStore.lastProcessed]
    have hchecked : CheckpointedInSession env after := fun r hr hr' => by
      obtain ⟨r₀, hr₀, hopen₀, hsymbol, hcreated⟩ := hopen r hr hr'
      rw [hlast, ← hsymbol, ← hcreated]
      exact hcheckpointed r₀ hr₀ hopen₀
    have hday : ∀ r ∈ after.recommendations, r.state.isOpen = true → r.symbol = batch.symbol →
        env.date newest.timestamp = env.date r.createdAt := fun r hr hr' hsymbol => by
      obtain ⟨r₀, hr₀, hopen₀, hsymbol₀, hcreated⟩ := hopen r hr hr'
      rw [← hcreated]
      exact hbatch.bars newest hpending r₀ hr₀ hopen₀
        ((hsymbol₀.trans hsymbol).trans (hbatch.symbol newest hnewest).symm)
    rw [finalTransactions]
    cases hcreation : creationTransactions env risk after newest batch.submission.availableAt
        (observePending observer engine store batch).2 with
    | none => exact ⟨hrecorded, hchecked⟩
    | some created =>
      dsimp only
      rw [setLastProcessedBar_of_pending hpending hcheckpoints, List.foldl_append]
      rcases creationTransactions_cases hcreation with rfl | ⟨signal, hsignal, r, hr, -, hnew, rfl⟩
      · refine checkpoint_inSession hrecorded rfl fun s hs hs' => ?_
        split_ifs with hsymbol
        · exact hday s hs hs' hsymbol
        · exact hchecked s hs hs'
      · have hspec := signalRecommendation_spec hr
        have hsession := hbatch.signal signal hsignal newest hnewest
        refine checkpoint_inSession (hrecorded.create hspec.2.2.2.1 hnew) rfl fun s hs hs' => ?_
        rcases mem_create_cases hnew hs with rfl | ⟨hs, -⟩
        · rw [if_pos (hspec.1.trans hsession.1), hspec.2.2.1]
          exact hsession.2.symm
        · split_ifs with hsymbol
          · exact hday s hs hs' hsymbol
          · exact hchecked s hs hs'

/-- A batch leaves what is closed as it is. -/
theorem mem_submit_of_closed {σ κ : Type*} {risk : RiskConfig} {observer : Observer σ κ}
    {engine : σ} {batch : Batch} (hkeyed : store.Keyed) {r : Recommendation}
    (hr : r ∈ store.recommendations) (hclosed : r.state.isOpen = false) :
    r ∈ (submit env risk observer (engine, store) batch).2.recommendations := by
  rw [submit, submissionTransactions]
  cases hnewest : (pendingBars store batch).getLast? with
  | none => exact hr
  | some newest =>
    dsimp only
    rw [List.foldl_append, foldl_updateTransactions]
    have hafter := @mem_afterBars_of_closed env store (pendingBars store batch) hkeyed r hr hclosed
    set after := afterBars env (pendingBars store batch) store
    rw [finalTransactions]
    cases hcreation : creationTransactions env risk after newest batch.submission.availableAt
        (observePending observer engine store batch).2 with
    | none => exact hafter
    | some created =>
      dsimp only
      rw [List.foldl_append, foldl_setLastProcessedBar]
      rcases creationTransactions_cases hcreation with rfl | ⟨-, -, r, -, -, hnew, rfl⟩
      · exact hafter
      · exact mem_create hnew hafter

/-! ## The close -/

/-- The event of the close of a recommendation that is due. -/
def closeEvent (env : Environment) (r : Recommendation) (closes : ℤ) (checkpoint : DateTime)
    (lastClose : ℚ) : RecommendationEvent where
  recommendationId := r.recommendationId
  occurredAt := ⟨closes, some (env.newYorkOffset closes)⟩
  state := .timeExit
  price := some lastClose
  note := "장 마감 paper 종료 · 마지막 완료 봉 " ++ env.isoformat checkpoint ++ " 가격"

/-- The events of the close of a recommendation: one if it is due. -/
def closeEvents (env : Environment) (store : PaperStore) (observedAt : DateTime)
    (r : Recommendation) : List RecommendationEvent :=
  ((dueClose env store observedAt r).map fun (closes, checkpoint, lastClose) =>
    closeEvent env r closes checkpoint lastClose).toList

theorem finalizeTransactions_eq (observedAt : DateTime) :
    finalizeTransactions env observedAt store =
      (store.recommendations.flatMap (closeEvents env store observedAt)).map .setState := by
  rw [finalizeTransactions, List.filterMap_eq_flatMap_toList, List.map_flatMap]
  congr 1
  funext r
  rw [closeEvents]
  cases dueClose env store observedAt r <;> rfl

theorem stateAfter_closeEvents {observedAt : DateTime} (r : Recommendation) :
    stateAfter (closeEvents env store observedAt r) r.recommendationId r.state =
      if (dueClose env store observedAt r).isSome then .timeExit else r.state := by
  rw [closeEvents]
  cases dueClose env store observedAt r with
  | none => rfl
  | some due => exact if_pos rfl

theorem dueClose_of_closed {observedAt : DateTime} {r : Recommendation}
    (hclosed : r.state.isOpen = false) : dueClose env store observedAt r = none := by
  simp [dueClose, hclosed]

/-- What the close does to the store. -/
theorem finalize_spec {observedAt : DateTime} (hkeyed : store.Keyed) :
    (finalizeTransactions env observedAt store).foldl (PaperStore.commit env) store =
      { store with
        recommendations := store.recommendations.map fun r =>
          { r with state := if (dueClose env store observedAt r).isSome then .timeExit else r.state }
        events := store.events
          ++ store.recommendations.flatMap (closeEvents env store observedAt) } := by
  rw [finalizeTransactions_eq, foldl_setState, PaperStore.mk.injEq]
  refine ⟨List.map_congr_left fun r hr => ?_, rfl, rfl⟩
  rw [stateAfter_flatMap hkeyed (fun s _ event hevent => ?_) hr, stateAfter_closeEvents]
  obtain ⟨due, -, rfl⟩ := Option.map_eq_some_iff.1 (Option.mem_toList.1 hevent)
  rfl

/-- In session, the close of a recommendation that is open makes it due. -/
theorem dueClose_isSome (h : CheckpointedInSession env store) {observedAt : DateTime}
    {r : Recommendation} (hr : r ∈ store.recommendations) (hopen : r.state.isOpen = true)
    {closes : ℤ} (hcloses : sessionClose env r.createdAt = some closes)
    (hobserved : closes ≤ (observedAt.astimezone env.newYork).wall) :
    (dueClose env store observedAt r).isSome = true := by
  obtain ⟨checkpoint, hcheckpoint, hday, hclose⟩ := h r hr hopen
  obtain ⟨lastClose, hclose⟩ := Option.isSome_iff_exists.1 hclose
  have hbar : store.lastProcessedBar r.symbol = some checkpoint.processedAt := by
    rw [PaperStore.lastProcessedBar, hcheckpoint]
    rfl
  have hlast : store.lastProcessedClose r.symbol = some lastClose := by
    rw [PaperStore.lastProcessedClose, hcheckpoint]
    exact hclose
  rw [dueClose, hcloses, hbar, hlast]
  simp [hopen, hobserved, hday]

/-- Finalizing in session. -/
theorem finalize_inSession (h : RecordedInSession env store)
    (hcheckpointed : CheckpointedInSession env store) (observedAt : DateTime) :
    RecordedInSession env
        ((finalizeTransactions env observedAt store).foldl (PaperStore.commit env) store)
      ∧ CheckpointedInSession env
        ((finalizeTransactions env observedAt store).foldl (PaperStore.commit env) store) := by
  rw [finalize_spec h.keyed]
  refine ⟨h.record _ fun event hevent => ?_, fun r hr hopen => ?_⟩
  · obtain ⟨r, hr, hevent⟩ := List.mem_flatMap.1 hevent
    obtain ⟨due, -, rfl⟩ := Option.map_eq_some_iff.1 (Option.mem_toList.1 hevent)
    refine ⟨r, hr, rfl, fun hbar => ?_⟩
    simp [closeEvent, BAR_STATES] at hbar
  · obtain ⟨r₀, hr₀, rfl⟩ := List.mem_map.1 hr
    refine hcheckpointed r₀ hr₀ ?_
    dsimp only at hopen
    split_ifs at hopen with hdue
    · exact absurd hopen Bool.false_ne_true
    · exact hopen

end

/-! ## Runs -/

section

variable {σ κ : Type*} {env : Environment} {risk : RiskConfig} {observer : Observer σ κ} {engine : σ}
  {state : σ × PaperStore}

/-- The invariant of the runs that stay in session. -/
theorem inSession_of_reachable (h : (sessionSystem env risk observer engine).Reachable state) :
    RecordedInSession env state.2 ∧ CheckpointedInSession env state.2 := by
  refine h.invariant (P := fun state =>
    RecordedInSession env state.2 ∧ CheckpointedInSession env state.2) ?_ ?_
  · rintro _ rfl
    exact ⟨⟨List.nodup_nil, fun _ h => absurd h List.not_mem_nil⟩,
      fun _ h => absurd h List.not_mem_nil⟩
  · rintro ⟨engine, store⟩ event _ - ⟨hrecorded, hcheckpointed⟩ ⟨hstays, rfl⟩
    cases event with
    | batch batch => exact submit_inSession hrecorded hcheckpointed hstays
    | finalize observedAt => exact finalize_inSession hrecorded hcheckpointed observedAt

/-- An event leaves what is closed as it is. -/
theorem mem_paperStep_of_closed (hkeyed : state.2.Keyed) {r : Recommendation}
    (hr : r ∈ state.2.recommendations) (hclosed : r.state.isOpen = false) (event : PaperEvent) :
    r ∈ (paperStep env risk observer state event).2.recommendations := by
  cases event with
  | batch batch => exact mem_submit_of_closed hkeyed hr hclosed
  | finalize observedAt =>
    rw [paperStep, finalize_spec hkeyed]
    refine List.mem_map.2 ⟨r, hr, ?_⟩
    rw [dueClose_of_closed hclosed]
    rfl

/-- **Recommendations do not outlive their session**, in a run that stays in session: what a bar
    does to a recommendation is on the day of the recommendation, what is closed stays as it is
    for the rest of the run, and what is open is closed by a finalization after the close of the
    session. -/
theorem reachable_inSession (h : (sessionSystem env risk observer engine).Reachable state) :
    (∀ event ∈ state.2.events, ∃ r ∈ state.2.recommendations,
        r.recommendationId = event.recommendationId
          ∧ (event.state ∈ BAR_STATES → env.date event.occurredAt = env.date r.createdAt))
      ∧ (∀ r ∈ state.2.recommendations, r.state.isOpen = false →
          ∀ events state', (sessionSystem env risk observer engine).Run state events state' →
            r ∈ state'.2.recommendations)
      ∧ ∀ r ∈ state.2.recommendations, r.state.isOpen = true →
          ∀ closes, sessionClose env r.createdAt = some closes →
          ∀ observedAt, closes ≤ (observedAt.astimezone env.newYork).wall →
            { r with state := .timeExit }
              ∈ (paperStep env risk observer state (.finalize observedAt)).2.recommendations := by
  obtain ⟨hrecorded, hcheckpointed⟩ := inSession_of_reachable h
  refine ⟨hrecorded.events, fun r hr hclosed events state' hrun => ?_,
    fun r hr hopen closes hcloses observedAt hobserved => ?_⟩
  · refine hrun.stable (P := fun state => r ∈ state.2.recommendations) ?_ h hr
    rintro state event _ hstate hr ⟨-, rfl⟩
    exact mem_paperStep_of_closed (inSession_of_reachable hstate).1.keyed hr hclosed event
  · rw [paperStep, finalize_spec hrecorded.keyed]
    refine List.mem_map.2 ⟨r, hr, ?_⟩
    rw [if_pos (dueClose_isSome hcheckpointed hr hopen hcloses hobserved)]

end

namespace SessionSample

/-- A minute of the morning of a day of July. -/
def minute (day : ℕ) (n : ℤ) : DateTime := .combine (.ofCivil 2026 7 day) 10 n (.hours (-4))

def env : Environment where
  newYork := ⟨fun _ => .hours (-4)⟩
  newYorkOffset := fun _ => .hours (-4)
  isoformat time :=
    if time = minute 15 0 then "2026-07-15T10:00:00-04:00"
    else if time = minute 15 1 then "2026-07-15T10:01:00-04:00"
    else "2026-07-16T10:00:00-04:00"

def bar (timestamp : DateTime) : BarInput where
  symbol := "AAA"
  timestamp
  openPrice := 10
  high := 51 / 5
  low := 99 / 10
  close := 10
  volume := 100
  priorClose := 9
  averageDailyVolume := 10000
  spreadBps := 10

/-- A strategy with one signal, on the first bar of July 15. -/
def observer : Observer Unit Unit where
  scan _ _ := ((), none)
  observe _ bar _ := ((),
    if bar.timestamp = minute 15 0 then some ⟨"AAA", minute 15 0, "orb", 10, 48 / 5, "breakout"⟩
    else none)

def submitted (timestamp : DateTime) : PaperEvent := .batch ⟨[bar timestamp], .process none⟩

def step (state : Unit × PaperStore) (event : PaperEvent) : Unit × PaperStore :=
  paperStep env {} observer state event

/-- The recommendation of July 15 becomes active on the first bar of July 16, and the finalization
    in the evening of July 16 leaves it active. -/
theorem outlives_session :
    let final := [submitted (minute 15 0), submitted (minute 16 0),
      .finalize (minute 16 600)].foldl step ((), {})
    (∃ r ∈ final.2.recommendations, r.state = .active
        ∧ (sessionClose env r.createdAt).any (· ≤ ((minute 16 600).astimezone env.newYork).wall)
        ∧ ∃ event ∈ final.2.events, event.recommendationId = r.recommendationId
          ∧ event.state = .active ∧ env.date event.occurredAt ≠ env.date r.createdAt) := by
  decide +kernel

/-- The state after the first two bars of July 15, on which the recommendation becomes active. -/
def active : Unit × PaperStore :=
  [submitted (minute 15 0), submitted (minute 15 1)].foldl step ((), {})

theorem reachable_active : (sessionSystem env {} observer ()).Reachable active := by
  refine ⟨((), {}), [submitted (minute 15 0), submitted (minute 15 1)], rfl,
    .cons ⟨?_, rfl⟩ (.cons ⟨?_, rfl⟩ (.nil _))⟩
  · exact ⟨by decide +kernel, by decide +kernel, by decide +kernel⟩
  · exact ⟨by decide +kernel, by decide +kernel, by decide +kernel⟩

/-- It is closed by the finalization in the evening of July 15. -/
theorem finalized_inSession :
    ∃ r ∈ active.2.recommendations, { r with state := .timeExit }
      ∈ (step active (.finalize (minute 15 600))).2.recommendations := by
  obtain ⟨r, hr, hopen, hcloses⟩ : ∃ r ∈ active.2.recommendations, r.state.isOpen = true
      ∧ sessionClose env r.createdAt = some ((Date.ofCivil 2026 7 15).start + TimeDelta.hours 16) := by
    decide +kernel
  exact ⟨r, hr, (reachable_inSession reachable_active).2.2 r hr hopen _ hcloses _
    (by decide +kernel)⟩

end SessionSample

end TradingAgent
