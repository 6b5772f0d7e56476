import TradingAgent.Recommendation.Histories

/-!
# Calls in regular sessions

Recommendations are saved by a caller or made by the engine, bars are submitted in batches, and what
is due is finalized (`PaperCall`), in any order.

* A call is *regular* (`IsRegular`) if what it saves or makes is made in a regular session, if the
  bars that it has pending are of one symbol, from regular sessions and in the order of time, and
  if it returns.
* After regular calls, the store has the histories of its recommendations, and the times of the last
  bars in its checkpoints (`tracked_of_reachable`).
-/

namespace TradingAgent

open Transition

inductive PaperCall
  | save (recommendation : Recommendation)
  | event (event : PaperEvent)

/-- A recommendation that is made in a regular session. -/
structure Recommendation.IsMadeInSession (env : Environment) (r : Recommendation) : Prop where
  setup : r.state = .setup
  aware : r.createdAt.aware = true
  regular : regularSessionIsOpen env r.createdAt = true

section

variable {σ κ : Type*} (env : Environment) (risk : RiskConfig) (observer : Observer σ κ)

/-- The engine and the store after a call. A recommendation whose identity is taken is not saved. -/
def callStep (state : σ × PaperStore) : PaperCall → σ × PaperStore
  | .save r =>
    (state.1, ((state.2.saveTransactions r).getD []).foldl (PaperStore.commit env) state.2)
  | .event event => paperStep env risk observer state event

/-- The pending bars of a batch are of its symbol, from regular sessions and in the order of time, a
    recommendation is made in a regular session, and its identity is not taken. -/
structure BatchIsRegular (state : σ × PaperStore) (batch : Batch) : Prop where
  symbol : ∀ bar ∈ pendingBars state.2 batch, bar.symbol = batch.symbol
  aware : ∀ bar ∈ pendingBars state.2 batch, bar.timestamp.aware = true
  regular : ∀ bar ∈ pendingBars state.2 batch, regularSessionIsOpen env bar.timestamp = true
  ascending : (pendingBars state.2 batch).Pairwise fun a b => a.timestamp ≤ b.timestamp
  signal : ∀ newest ∈ (pendingBars state.2 batch).getLast?,
    ∀ signal ∈ (observePending observer state.1 state.2 batch).2,
      ∀ r ∈ signalRecommendation env risk newest batch.submission.availableAt signal,
        r.IsMadeInSession env
  returns : ∀ newest ∈ (pendingBars state.2 batch).getLast?,
    (creationTransactions env risk (afterBars env (pendingBars state.2 batch) state.2) newest
      batch.submission.availableAt (observePending observer state.1 state.2 batch).2).isSome = true

def IsRegular (state : σ × PaperStore) : PaperCall → Prop
  | .save r => r.IsMadeInSession env
  | .event (.batch batch) => BatchIsRegular env risk observer state batch
  | .event (.finalize _) => True

/-- The runs of calls, from an empty store. -/
def paperSystem (engine : σ) : System (σ × PaperStore) PaperCall where
  init state := state = (engine, {})
  step state call state' := state' = callStep env risk observer state call

/-- The runs of regular calls, from an empty store. -/
def regularSystem (engine : σ) : System (σ × PaperStore) PaperCall where
  init state := state = (engine, {})
  step state call state' :=
    IsRegular env risk observer state call ∧ state' = callStep env risk observer state call

end

/-! ## The checkpoints -/

section

variable {env : Environment} {store : PaperStore}

theorem afterBars_checkpoints (hkeyed : store.Keyed) (bars : List BarInput) :
    (afterBars env bars store).checkpoints = store.checkpoints := by
  induction bars generalizing store with
  | nil => rfl
  | cons bar bars ih =>
    have hone := @update_spec env bar store hkeyed
    have hkeyed' : ((updateOpenRecommendations env bar store).foldl
        (PaperStore.commit env) store).Keyed := by
      rw [hone, PaperStore.Keyed, List.map_map]
      exact hkeyed
    exact (ih hkeyed').trans (by rw [hone])

theorem lastProcessedBar_setCheckpoint (checkpoint : BarCheckpoint) :
    (store.commit env (.setCheckpoint checkpoint)).lastProcessedBar =
      Function.update store.lastProcessedBar checkpoint.symbol (some checkpoint.processedAt) := by
  funext symbol
  rw [PaperStore.lastProcessedBar, PaperStore.lastProcessed_setCheckpoint]
  by_cases h : checkpoint.symbol = symbol
  · subst h
    rw [if_pos rfl, Function.update_self]
    rfl
  · rw [if_neg h, Function.update_of_ne (Ne.symm h)]
    rfl

/-- Of the times of some bars, the last one remains. -/
theorem foldl_update {latest : String → Option DateTime} {symbol : String} {bars : List BarInput}
    {newest : BarInput} (h : bars.getLast? = some newest) :
    bars.foldl (fun latest bar => Function.update latest symbol (some bar.timestamp)) latest =
      Function.update latest symbol (some newest.timestamp) := by
  induction bars generalizing latest with
  | nil => cases h
  | cons bar bars ih =>
    cases bars with
    | nil =>
      cases h
      rfl
    | cons next bars =>
      rw [List.getLast?_cons_cons] at h
      rw [List.foldl_cons, ih h, Function.update_idem]

end

/-! ## Runs -/

/-- The store has the histories of its recommendations, and the times of the last bars of the
    symbols, which are from regular sessions, in its checkpoints. -/
structure PaperStore.IsRegular (env : Environment) (store : PaperStore) : Prop where
  tracked : Tracked env store.lastProcessedBar store
  checkpoints : ∀ c ∈ store.checkpoints, regularSessionIsOpen env c.processedAt = true

section

variable {σ κ : Type*} {env : Environment} {risk : RiskConfig} {observer : Observer σ κ}
  {engine : σ} {store : PaperStore} {state : σ × PaperStore}

theorem PaperStore.IsRegular.save (h : store.IsRegular env) {r : Recommendation}
    (hr : r.IsMadeInSession env) :
    (((store.saveTransactions r).getD []).foldl (PaperStore.commit env) store).IsRegular env := by
  rw [PaperStore.saveTransactions]
  split_ifs with htaken
  · exact h
  · exact ⟨h.tracked.create hr.setup hr.aware hr.regular (Bool.not_eq_true _ ▸ htaken),
      h.checkpoints⟩

/-- A checkpoint for the newest bar of a symbol. -/
theorem PaperStore.IsRegular.of_update {checkpoint : BarCheckpoint}
    (htracked : Tracked env (Function.update store.lastProcessedBar checkpoint.symbol
      (some checkpoint.processedAt)) store)
    (hcheckpoints : ∀ c ∈ store.checkpoints, regularSessionIsOpen env c.processedAt = true)
    (hopen : regularSessionIsOpen env checkpoint.processedAt = true) :
    (store.commit env (.setCheckpoint checkpoint)).IsRegular env where
  tracked := by
    rw [lastProcessedBar_setCheckpoint]
    exact htracked.setCheckpoint checkpoint
  checkpoints := List.forall_mem_cons.2
    ⟨hopen, fun c hc => hcheckpoints c (List.mem_of_mem_filter hc)⟩

theorem PaperStore.IsRegular.submit (h : store.IsRegular env) (hclocks : NewYorkClocks env)
    {batch : Batch} (hbatch : BatchIsRegular env risk observer (engine, store) batch) :
    (submit env risk observer (engine, store) batch).2.IsRegular env := by
  rw [TradingAgent.submit, submissionTransactions]
  cases hnewest : (pendingBars store batch).getLast? with
  | none => exact h
  | some newest =>
    have hpending := List.mem_of_getLast? hnewest
    dsimp only
    rw [List.foldl_append, foldl_updateTransactions]
    -- The bars that are pending come after the last one that was processed.
    have hlatest : ∀ bar ∈ pendingBars store batch, ∀ t ∈ store.lastProcessedBar batch.symbol,
        t ≤ bar.timestamp := by
      intro bar hbar t ht
      have hafter := of_decide_eq_true (List.mem_filter.1 hbar).2
      rw [Option.mem_def.1 ht, Option.any_some, decide_eq_true_eq] at hafter
      exact Int.le_of_lt (DateTime.not_le.1 hafter)
    have htracked := h.tracked.afterBars hclocks hbatch.symbol hbatch.aware hbatch.regular hlatest
      hbatch.ascending
    rw [foldl_update hnewest] at htracked
    have hcheckpoints := @afterBars_checkpoints env store h.tracked.keyed (pendingBars store batch)
    have hreturns := hbatch.returns newest hnewest
    set after := afterBars env (pendingBars store batch) store
    have hlast : after.lastProcessedBar = store.lastProcessedBar := by
      funext symbol
      rw [PaperStore.lastProcessedBar, PaperStore.lastProcessed, hcheckpoints]
      rfl
    rw [← hlast] at htracked
    have hopen := hbatch.regular newest hpending
    rw [finalTransactions]
    cases hcreation : creationTransactions env risk after newest batch.submission.availableAt
        (observePending observer engine store batch).2 with
    | none =>
      rw [hcreation] at hreturns
      cases hreturns
    | some created =>
      dsimp only
      rw [setLastProcessedBar_of_pending hpending hcheckpoints, List.foldl_append]
      rcases creationTransactions_cases hcreation with rfl | ⟨signal, hsignal, r, hr, -, hnew, rfl⟩
      · exact .of_update htracked (hcheckpoints ▸ h.checkpoints) hopen
      · have hmade := hbatch.signal newest hnewest signal hsignal r hr
        exact .of_update (htracked.create hmade.setup hmade.aware hmade.regular hnew)
          (hcheckpoints ▸ h.checkpoints) hopen

theorem PaperStore.IsRegular.finalize (h : store.IsRegular env) (hclocks : NewYorkClocks env)
    (observedAt : DateTime) :
    ((finalizeTransactions env observedAt store).foldl (PaperStore.commit env) store).IsRegular
      env := by
  have htracked := h.tracked.finalize hclocks h.checkpoints observedAt
  rw [finalize_spec h.tracked.keyed] at htracked ⊢
  exact ⟨htracked, h.checkpoints⟩

/-- Any calls are a run. -/
theorem run_paperSystem (state : σ × PaperStore) (calls : List PaperCall) :
    (paperSystem env risk observer engine).Run state calls
      (calls.foldl (callStep env risk observer) state) := by
  induction calls generalizing state with
  | nil => exact .nil state
  | cons call calls ih => exact .cons rfl (ih _)

/-- Regular calls keep the histories of the recommendations. -/
theorem isRegular_of_reachable (hclocks : NewYorkClocks env)
    (h : (regularSystem env risk observer engine).Reachable state) : state.2.IsRegular env := by
  refine h.invariant (P := fun state => state.2.IsRegular env) ?_ ?_
  · rintro _ rfl
    refine ⟨⟨List.nodup_nil, ?_, ?_, ?_, ?_⟩, ?_⟩
    all_goals exact fun _ hmem => absurd hmem List.not_mem_nil
  · rintro ⟨engine, store⟩ call _ - hregular ⟨hcall, rfl⟩
    cases call with
    | save r => exact hregular.save hcall
    | event event =>
      cases event with
      | batch batch => exact hregular.submit hclocks hcall
      | finalize observedAt => exact hregular.finalize hclocks observedAt

/-- The events of a recommendation are a history. -/
theorem isHistory_of_reachable (hclocks : NewYorkClocks env)
    (h : (regularSystem env risk observer engine).Reachable state) {r : Recommendation}
    (hr : r ∈ state.2.recommendations) : IsHistory r (state.2.eventsOf r.recommendationId) :=
  (isRegular_of_reachable hclocks h).tracked.histories r hr

end

end TradingAgent
