import TradingAgent.Library.Transition
import TradingAgent.Recommendation.History

/-!
# Interrupted batches

The process may stop between any two transactions of a batch. It is then started again, with a
fresh engine, and the batch is submitted again (`interrupted`).

* A batch that was interrupted makes just the rest of its transactions when it is submitted again
  (`submission_rest`), unless it was interrupted between the two transactions that make a
  recommendation, or right after them where the recommendation is not settled (`CanResume`).
* Batch by batch, the store is then the one of the run that is never interrupted
  (`reachable_crashed_eq`), and always consistent.
* Otherwise, a recommendation may be left without its first event
  (`CrashSample.creation_is_lost`).
-/

namespace TradingAgent

open Transition

/-- The recommendation whose row a transaction inserts. -/
def Transaction.inserted : Transaction → Option Recommendation
  | insertRecommendation r => some r
  | _ => none

section

variable {σ κ : Type*} (env : Environment) (risk : RiskConfig) (observer : Observer σ κ)

/-- The engine and the store after a batch that is interrupted: a fresh engine, and what was
    committed before. -/
def interrupt (fresh : σ) (batch : Batch) (state : σ × PaperStore) (committed : ℕ) :
    σ × PaperStore :=
  (fresh, ((submissionTransactions env risk observer state.1 state.2 batch).take committed).foldl
    (PaperStore.commit env) state.2)

/-- The engine and the store after some interruptions of a batch. -/
def interrupted (fresh : σ) (batch : Batch) (cuts : List ℕ) (state : σ × PaperStore) :
    σ × PaperStore :=
  cuts.foldl (interrupt env risk observer fresh batch) state

/-- If a recommendation was made before a batch is interrupted, then with its event, on the day of
    the signal, and such that the bars of the batch do not change it. -/
def CanResume (batch : Batch) (state : σ × PaperStore) (committed : ℕ) : Prop :=
  let transactions := submissionTransactions env risk observer state.1 state.2 batch
  ∀ r ∈ (transactions.take committed).filterMap (·.inserted), committed < transactions.length →
    (transactions.take committed).getLast? ≠ some (.insertRecommendation r)
      ∧ (∀ signal ∈ (observePending observer state.1 state.2 batch).2,
          env.date r.createdAt = env.date signal.timestamp)
      ∧ ∀ bar ∈ pendingBars state.2 batch, transitions env bar r = []

instance (batch : Batch) (state : σ × PaperStore) (committed : ℕ) :
    Decidable (CanResume env risk observer batch state committed) :=
  inferInstanceAs (Decidable (∀ r ∈ _, _ → _ ∧ _ ∧ _))

/-- Every interruption of a batch can be resumed. -/
def CanResumeAll (fresh : σ) (batch : Batch) : List ℕ → σ × PaperStore → Prop
  | [], _ => True
  | committed :: cuts, state => CanResume env risk observer batch state committed
    ∧ CanResumeAll fresh batch cuts (interrupt env risk observer fresh batch state committed)

/-- A batch of a run that is interrupted, beside the one that is not: the bars ascend, the engines
    give the same signal, as does a fresh one if the batch is interrupted, and the interruptions
    can be resumed. -/
structure ResumesBatch (fresh : σ) (free crashed : σ × PaperStore) (batch : Batch)
    (cuts : List ℕ) : Prop where
  ascending : batch.bars.Pairwise (·.timestamp < ·.timestamp)
  signal : (observePending observer crashed.1 crashed.2 batch).2 =
    (observePending observer free.1 free.2 batch).2
  signalFresh : cuts ≠ [] → (observePending observer crashed.1 crashed.2 batch).2 =
    (observePending observer fresh crashed.2 batch).2
  canResume : CanResumeAll env risk observer fresh batch cuts crashed

/-- The run that is never interrupted, beside the one that is: each event is a batch, and the
    numbers of transactions after which it is interrupted. -/
def crashSystem (fresh : σ) :
    System ((σ × PaperStore) × (σ × PaperStore)) (Batch × List ℕ) where
  init state := state = ((fresh, {}), (fresh, {}))
  step state event state' :=
    ResumesBatch env risk observer fresh state.1 state.2 event.1 event.2
      ∧ state' = (submit env risk observer state.1 event.1,
        submit env risk observer (interrupted env risk observer fresh event.1 event.2 state.2)
          event.1)

end

section

variable {σ κ : Type*} {env : Environment} {risk : RiskConfig} {observer : Observer σ κ}
  {engine fresh : σ} {store store' : PaperStore} {batch : Batch}

theorem pendingBars_congr (h : store'.checkpoints = store.checkpoints) :
    pendingBars store' batch = pendingBars store batch := by
  rw [pendingBars, pendingBars, PaperStore.lastProcessedBar, PaperStore.lastProcessed, h]
  rfl

theorem observePending_congr (h : store'.checkpoints = store.checkpoints) :
    observePending observer engine store' batch = observePending observer engine store batch := by
  have hhistory : historyBars store' batch = historyBars store batch := by
    rw [historyBars, historyBars, PaperStore.lastProcessedBar, PaperStore.lastProcessed, h]
    rfl
  rw [observePending, observePending, hhistory, pendingBars_congr h]

/-- No bar of a batch is pending after its newest one. -/
theorem pendingBars_eq_nil (hascending : batch.bars.Pairwise (·.timestamp < ·.timestamp))
    {newest : BarInput} (hnewest : (pendingBars store batch).getLast? = some newest)
    (hlast : store'.lastProcessedBar batch.symbol = some newest.timestamp) :
    pendingBars store' batch = [] := by
  obtain ⟨older, holder⟩ := List.getLast?_eq_some_iff.1 hnewest
  rw [pendingBars, hlast, List.filter_eq_nil_iff]
  intro bar hbar
  simp only [Option.any_some, decide_eq_true_eq, decide_not, Bool.not_eq_true', decide_eq_false_iff_not,
    not_not]
  by_contra hlater
  -- A bar after the newest one is pending before, and then not after the last of the pending ones.
  have hnewestpending := List.mem_of_getLast? hnewest
  have hbarpending : bar ∈ pendingBars store batch := by
    refine List.mem_filter.2 ⟨hbar, ?_⟩
    have hnot := of_decide_eq_true (List.mem_filter.1 hnewestpending).2
    cases hprocessed : store.lastProcessedBar batch.symbol with
    | none => rfl
    | some processed =>
      rw [hprocessed] at hnot
      simp only [Option.any_some, decide_eq_true_eq, DateTime.le_def] at hnot hlater ⊢
      omega
  have hpairwise : (pendingBars store batch).Pairwise (·.timestamp < ·.timestamp) :=
    hascending.filter _
  rw [holder, List.mem_append, List.mem_singleton] at hbarpending
  rw [holder, List.pairwise_append] at hpairwise
  rcases hbarpending with hbarpending | rfl
  · have hlt := hpairwise.2.2 bar hbarpending newest (List.mem_singleton_self newest)
    rw [DateTime.le_def] at hlater
    rw [DateTime.lt_def] at hlt
    omega
  · exact hlater (DateTime.le_def.2 le_rfl)

/-- The targets of a plan are not below its entry. -/
theorem targets_of_plan {config : RiskConfig} (hmultiple : 0 ≤ config.target2rMultiple)
    {entry stop spreadBps : ℚ} {plan : TradePlan}
    (h : buildTradePlan entry stop spreadBps config = some plan) :
    plan.entry ≤ plan.target1r ∧ plan.entry ≤ plan.target2r := by
  rw [buildTradePlan] at h
  split_ifs at h with hrefused
  cases h
  rw [not_or, not_le] at hrefused
  exact ⟨le_add_of_nonneg_right hrefused.1.le,
    le_add_of_nonneg_right (mul_nonneg hrefused.1.le hmultiple)⟩

/-- The bars of a batch do not change the checkpoints. -/
theorem foldl_checkpoints {done rest : List Transaction}
    (hsplit : updateTransactions env store batch = done ++ rest) :
    (done.foldl (PaperStore.commit env) store).checkpoints = store.checkpoints := by
  have hstates : ∀ transaction ∈ done, ∃ event, transaction = .setState event := by
    intro transaction htransaction
    obtain ⟨task, htask, store', hmem⟩ :=
      mem_writesOf (hsplit ▸ List.mem_append_left rest htransaction)
    obtain ⟨bar, -, rfl⟩ := List.mem_map.1 htask
    obtain ⟨r, -, hmem⟩ := List.mem_flatMap.1 hmem
    obtain ⟨transition, -, rfl⟩ := List.mem_map.1 hmem
    exact ⟨_, rfl⟩
  clear hsplit
  induction done generalizing store with
  | nil => rfl
  | cons transaction done ih =>
    obtain ⟨⟨event, rfl⟩, hdone⟩ := List.forall_mem_cons.1 hstates
    rw [List.foldl_cons, ih hdone]
    rfl

/-- The store after some of the transactions that follow the bars of a batch. -/
theorem consistent_of_updates (h : store.IsConsistent) {done rest : List Transaction}
    (hsplit : updateTransactions env store batch = done ++ rest) :
    (done.foldl (PaperStore.commit env) store).IsConsistent
      ∧ updateTransactions env (done.foldl (PaperStore.commit env) store) batch = rest := by
  have hresumable := @resumable_updates env (pendingBars store batch)
  refine ⟨hresumable.inv_of_prefix h hsplit, ?_⟩
  rw [updateTransactions, pendingBars_congr (foldl_checkpoints hsplit)]
  exact hresumable.writesOf_rest h hsplit

/-- Where nothing is left to follow, and a new recommendation is not changed by the bars of the
    batch, nothing is left to follow either after it is made. -/
theorem updateTransactions_create {r : Recommendation}
    (hnew : store.recommendations.any (·.recommendationId = r.recommendationId) = false)
    (hnil : updateTransactions env store batch = [])
    (hr : ∀ bar ∈ pendingBars store batch, transitions env bar r = []) :
    updateTransactions env ([.insertRecommendation r, .setState (creationEvent r)].foldl
      (PaperStore.commit env) store) batch = [] := by
  rw [updateTransactions, writesOf_eq_nil_iff, List.forall_mem_map] at hnil ⊢
  intro bar hbar
  have hbar : bar ∈ pendingBars store batch := hbar
  rw [updateOpenRecommendations, List.flatMap_eq_nil_iff]
  intro s hs
  rw [List.map_eq_nil_iff]
  rcases mem_create_cases hnew hs with rfl | ⟨hs, -⟩
  · exact hr bar hbar
  · have hsilent := hnil bar hbar
    rw [updateOpenRecommendations, List.flatMap_eq_nil_iff] at hsilent
    exact List.map_eq_nil_iff.1 (hsilent s hs)

/-- After a recommendation is made on the day of its signal, the signal makes nothing more. -/
theorem finalTransactions_create {r : Recommendation} {newest : BarInput} {signal : StrategySignal}
    (hpending : newest ∈ pendingBars store batch) (hcheckpoints : store'.checkpoints = store.checkpoints)
    (hr : signalRecommendation env risk newest batch.submission.availableAt signal = some r)
    (hday : env.date r.createdAt = env.date signal.timestamp) :
    finalTransactions env risk ([.insertRecommendation r, .setState (creationEvent r)].foldl
        (PaperStore.commit env) store') batch newest (some signal) =
      [.setCheckpoint ⟨batch.symbol, newest.timestamp, some newest.close⟩] := by
  have hspec := signalRecommendation_spec hr
  have hhas : hasRecommendation env ([.insertRecommendation r, .setState (creationEvent r)].foldl
      (PaperStore.commit env) store') signal = true :=
    List.any_eq_true.2 ⟨r, mem_create_self, decide_eq_true ⟨hspec.1, hspec.2.1, hday⟩⟩
  rw [finalTransactions, creationTransactions, if_pos hhas]
  exact setLastProcessedBar_of_pending hpending hcheckpoints

/-- What is submitted to a store with the same checkpoints. -/
theorem submissionTransactions_of_checkpoints {newest : BarInput}
    (hnewest : (pendingBars store batch).getLast? = some newest)
    (hcheckpoints : store'.checkpoints = store.checkpoints) :
    submissionTransactions env risk observer engine store' batch =
      updateTransactions env store' batch ++ finalTransactions env risk
        ((updateTransactions env store' batch).foldl (PaperStore.commit env) store') batch newest
        (observePending observer engine store batch).2 := by
  rw [submissionTransactions, pendingBars_congr hcheckpoints, hnewest,
    observePending_congr hcheckpoints]

/-- What is left of a batch that was interrupted while its bars were followed. -/
theorem rest_of_updates (h : store.IsConsistent) {newest : BarInput}
    (hnewest : (pendingBars store batch).getLast? = some newest) {done rest : List Transaction}
    (hsplit : updateTransactions env store batch = done ++ rest) :
    (done.foldl (PaperStore.commit env) store).IsConsistent
      ∧ submissionTransactions env risk observer fresh
          (done.foldl (PaperStore.commit env) store) batch =
        rest ++ finalTransactions env risk
          ((updateTransactions env store batch).foldl (PaperStore.commit env) store) batch newest
          (observePending observer fresh store batch).2 := by
  obtain ⟨hconsistent, hrest⟩ := consistent_of_updates h hsplit
  refine ⟨hconsistent, ?_⟩
  rw [submissionTransactions_of_checkpoints hnewest (foldl_checkpoints hsplit), hrest,
    ← List.foldl_append, hsplit]

/-- A signal makes a recommendation in two transactions, after which the store is consistent. -/
theorem consistent_of_creation (h : store.IsConsistent) (hmultiple : 0 ≤ risk.target2rMultiple)
    {newest : BarInput} {availableAt : Option DateTime} {signal : StrategySignal}
    {r : Recommendation} (hr : signalRecommendation env risk newest availableAt signal = some r)
    (hnew : store.recommendations.any (·.recommendationId = r.recommendationId) = false) :
    ([.insertRecommendation r, .setState (creationEvent r)].foldl
      (PaperStore.commit env) store).IsConsistent := by
  obtain ⟨-, -, -, hsetup, plan, hplan, hentry, -, htarget1r, htarget2r⟩ :=
    signalRecommendation_spec hr
  refine h.create hsetup hnew ?_
  rw [hentry, htarget1r, htarget2r]
  exact targets_of_plan hmultiple hplan

/-- What is left of a batch that was interrupted after its recommendation was made. -/
theorem rest_of_creation (h : store.IsConsistent) (hmultiple : 0 ≤ risk.target2rMultiple)
    {newest : BarInput} (hnewest : (pendingBars store batch).getLast? = some newest)
    {after : PaperStore}
    (hafter : (updateTransactions env store batch).foldl (PaperStore.commit env) store = after)
    {signal : StrategySignal} {r : Recommendation}
    (hsignal : (observePending observer fresh store batch).2 = some signal)
    (hr : signalRecommendation env risk newest batch.submission.availableAt signal = some r)
    (hnew : after.recommendations.any (·.recommendationId = r.recommendationId) = false)
    (hday : env.date r.createdAt = env.date signal.timestamp)
    (hsilent : ∀ bar ∈ pendingBars store batch, transitions env bar r = []) :
    ([.insertRecommendation r, .setState (creationEvent r)].foldl
        (PaperStore.commit env) after).IsConsistent
      ∧ submissionTransactions env risk observer fresh
          ([.insertRecommendation r, .setState (creationEvent r)].foldl
            (PaperStore.commit env) after) batch =
        [.setCheckpoint ⟨batch.symbol, newest.timestamp, some newest.close⟩] := by
  have hsplit : updateTransactions env store batch = updateTransactions env store batch ++ [] :=
    (List.append_nil _).symm
  obtain ⟨hconsistent, hnil⟩ := consistent_of_updates h hsplit
  have hcheckpoints := foldl_checkpoints hsplit
  rw [hafter] at hconsistent hnil hcheckpoints
  refine ⟨consistent_of_creation hconsistent hmultiple hr hnew, ?_⟩
  rw [submissionTransactions_of_checkpoints hnewest (by exact hcheckpoints),
    updateTransactions_create hnew hnil (by rwa [pendingBars_congr hcheckpoints]), hsignal]
  exact finalTransactions_create (List.mem_of_getLast? hnewest) hcheckpoints hr hday

/-- Nothing is left of a batch whose checkpoint is set. -/
theorem rest_of_checkpoint (hascending : batch.bars.Pairwise (·.timestamp < ·.timestamp))
    {newest : BarInput} (hnewest : (pendingBars store batch).getLast? = some newest) :
    submissionTransactions env risk observer fresh
      (store'.commit env (.setCheckpoint ⟨batch.symbol, newest.timestamp, some newest.close⟩))
      batch = [] := by
  have hlast : (store'.commit env (.setCheckpoint
      ⟨batch.symbol, newest.timestamp, some newest.close⟩)).lastProcessedBar batch.symbol
        = some newest.timestamp := by
    rw [PaperStore.lastProcessedBar, PaperStore.lastProcessed_setCheckpoint, if_pos rfl]
    rfl
  rw [submissionTransactions, pendingBars_eq_nil hascending hnewest hlast]
  rfl

/-- **A batch that was interrupted makes just the rest of its transactions** when it is submitted
    again, if it can be resumed. -/
theorem submission_rest (h : store.IsConsistent) (hmultiple : 0 ≤ risk.target2rMultiple)
    (hascending : batch.bars.Pairwise (·.timestamp < ·.timestamp))
    (hsignal : (observePending observer engine store batch).2 =
      (observePending observer fresh store batch).2) {committed : ℕ}
    (hresume : CanResume env risk observer batch (engine, store) committed) :
    (interrupt env risk observer fresh batch (engine, store) committed).2.IsConsistent
      ∧ submissionTransactions env risk observer fresh
          (interrupt env risk observer fresh batch (engine, store) committed).2 batch =
        (submissionTransactions env risk observer engine store batch).drop committed := by
  rw [CanResume] at hresume
  rw [interrupt]
  dsimp only at hresume ⊢
  cases hnewest : (pendingBars store batch).getLast? with
  | none =>
    have hnil : ∀ engine, submissionTransactions env risk observer engine store batch = [] := by
      intro engine
      rw [submissionTransactions, hnewest]
    rw [hnil engine, List.take_nil, List.drop_nil]
    exact ⟨h, hnil fresh⟩
  | some newest =>
    have hpending := List.mem_of_getLast? hnewest
    rw [submissionTransactions_of_checkpoints hnewest rfl, hsignal] at hresume ⊢
    generalize hafter : (updateTransactions env store batch).foldl (PaperStore.commit env) store
      = after at hresume ⊢
    rcases Nat.lt_or_ge (updateTransactions env store batch).length committed with hlt | hle
    swap
    · -- Interrupted while the bars were followed.
      rw [List.take_append_of_le_length hle, List.drop_append_of_le_length hle, ← hafter]
      exact rest_of_updates h hnewest (List.take_append_drop committed _).symm
    obtain ⟨n, rfl⟩ := Nat.exists_eq_add_of_lt hlt
    rw [Nat.add_assoc, List.take_length_add_append] at hresume ⊢
    rw [List.drop_length_add_append, List.foldl_append, hafter]
    have hsplit : updateTransactions env store batch = updateTransactions env store batch ++ [] :=
      (List.append_nil _).symm
    have hconsistent := (consistent_of_updates h hsplit).1
    have hcheckpoints := foldl_checkpoints hsplit
    have hrest := @rest_of_updates _ _ env risk observer fresh _ _ h _ hnewest _ _ hsplit
    rw [hafter] at hconsistent hcheckpoints hrest
    rcases finalTransactions_cases hpending hcheckpoints with
      hfinal | hfinal | ⟨signal, hs, r, hr, hnew, hfinal⟩
    · -- The identity of the recommendation is taken: there is nothing after the bars.
      rw [hfinal] at hrest ⊢
      exact hrest
    · rw [hfinal, List.take_of_length_le (by simp), List.drop_eq_nil_of_le (by simp)]
      exact ⟨@PaperStore.IsConsistent.setCheckpoint env _ hconsistent _,
        rest_of_checkpoint hascending hnewest⟩
    · rw [hfinal] at hresume ⊢
      have hcreate := hresume r
      match n with
      | 0 =>
        -- Between the two transactions that make the recommendation.
        exact absurd (by simp) (hcreate (by simp [Transaction.inserted]) (by simp)).1
      | 1 =>
        obtain ⟨-, hday, hsilent⟩ := hcreate (by simp [Transaction.inserted]) (by simp)
        exact rest_of_creation h hmultiple hnewest hafter hs hr hnew (hday signal hs) hsilent
      | n + 2 =>
        rw [List.take_of_length_le (by simp), List.drop_eq_nil_of_le (by simp)]
        have hcreated := @consistent_of_creation env risk after hconsistent hmultiple newest _ _ r hr hnew
        exact ⟨@PaperStore.IsConsistent.setCheckpoint env _ hcreated _,
          rest_of_checkpoint hascending hnewest⟩

/-- A batch that was interrupted and is submitted again leaves the store of a batch that was not,
    and the store is consistent at every interruption. -/
theorem submit_interrupted (hmultiple : 0 ≤ risk.target2rMultiple)
    (hascending : batch.bars.Pairwise (·.timestamp < ·.timestamp)) {state : σ × PaperStore}
    (h : state.2.IsConsistent)
    {cuts : List ℕ} (hsignal : cuts ≠ [] → (observePending observer state.1 state.2 batch).2 =
      (observePending observer fresh state.2 batch).2)
    (hcuts : CanResumeAll env risk observer fresh batch cuts state) :
    (interrupted env risk observer fresh batch cuts state).2.IsConsistent
      ∧ (submit env risk observer (interrupted env risk observer fresh batch cuts state) batch).2
        = (submit env risk observer state batch).2 := by
  induction cuts generalizing state with
  | nil => exact ⟨h, rfl⟩
  | cons committed cuts ih =>
    obtain ⟨hresume, hcuts⟩ := hcuts
    obtain ⟨hconsistent, hrest⟩ := submission_rest h hmultiple hascending
      (hsignal (List.cons_ne_nil committed cuts)) hresume
    obtain ⟨hinterrupted, hsubmit⟩ := ih hconsistent (fun _ => rfl) hcuts
    refine ⟨hinterrupted, hsubmit.trans ?_⟩
    rw [submit, submit]
    dsimp only
    rw [show (interrupt env risk observer fresh batch state committed).1 = fresh from rfl, hrest,
      interrupt, ← List.foldl_append, List.take_append_drop]

/-- What a batch that is not interrupted makes of a store is consistent. -/
theorem submit_consistent (hmultiple : 0 ≤ risk.target2rMultiple)
    (hascending : batch.bars.Pairwise (·.timestamp < ·.timestamp)) {state : σ × PaperStore}
    (h : state.2.IsConsistent) : (submit env risk observer state batch).2.IsConsistent := by
  have hall : CanResume env risk observer batch state
      (submissionTransactions env risk observer state.1 state.2 batch).length :=
    fun r _ hlt => absurd hlt (lt_irrefl _)
  have hconsistent := (submission_rest h hmultiple hascending rfl hall).1
  rwa [interrupt, List.take_length] at hconsistent

/-- What is submitted depends on the engine by its signal only. -/
theorem submit_congr {state state' : σ × PaperStore} (hstore : state.2 = state'.2)
    (hsignal : (observePending observer state.1 state.2 batch).2 =
      (observePending observer state'.1 state'.2 batch).2) :
    (submit env risk observer state batch).2 = (submit env risk observer state' batch).2 := by
  rw [submit, submit, submissionTransactions, submissionTransactions, hsignal, hstore]

/-- **The run that is interrupted** has the store of the one that is not, after each batch, if every
    interruption can be resumed; and then, as at every interruption, the history of each
    recommendation starts with its creation, and ends with its state. -/
theorem reachable_crashed_eq (hmultiple : 0 ≤ risk.target2rMultiple)
    {free crashed : σ × PaperStore}
    (h : (crashSystem env risk observer fresh).Reachable (free, crashed)) :
    crashed.2 = free.2 ∧ crashed.2.IsConsistent
      ∧ ∀ batch cuts, ResumesBatch env risk observer fresh free crashed batch cuts →
        (interrupted env risk observer fresh batch cuts crashed).2.IsConsistent := by
  obtain ⟨hstore, hconsistent⟩ := h.invariant
    (P := fun state => state.2.2 = state.1.2 ∧ state.2.2.IsConsistent)
    (by
      rintro _ rfl
      exact ⟨rfl, .empty⟩)
    (by
      rintro ⟨free, crashed⟩ ⟨batch, cuts⟩ _ - ⟨hstore, hconsistent⟩ ⟨hstep, rfl⟩
      obtain ⟨-, hsubmit⟩ := submit_interrupted hmultiple hstep.ascending hconsistent
        hstep.signalFresh hstep.canResume
      dsimp only at hstore hconsistent hsubmit ⊢
      refine ⟨hsubmit.trans (submit_congr hstore hstep.signal), ?_⟩
      rw [hsubmit]
      exact submit_consistent hmultiple hstep.ascending hconsistent)
  refine ⟨hstore, hconsistent, fun batch cuts hbatch => ?_⟩
  exact (submit_interrupted hmultiple hbatch.ascending hconsistent hbatch.signalFresh
    hbatch.canResume).1

end

namespace CrashSample

/-- A minute of the morning of July 15. -/
def minute (n : ℤ) : DateTime := .combine (.ofCivil 2026 7 15) 10 n (.hours (-4))

def env : Environment where
  newYork := ⟨fun _ => .hours (-4)⟩
  newYorkOffset := fun _ => .hours (-4)
  isoformat time :=
    if time = minute 1 then "2026-07-15T10:01:00-04:00" else "2026-07-15T10:00:00-04:00"

def bar (n : ℤ) : BarInput where
  symbol := "AAA"
  timestamp := minute n
  openPrice := 10
  high := 51 / 5
  low := 99 / 10
  close := 10
  volume := 100
  priorClose := 9
  averageDailyVolume := 10000
  spreadBps := 10

/-- A strategy with one signal, on the first bar. -/
def observer : Observer Unit Unit where
  scan _ _ := ((), none)
  observe _ bar _ := ((),
    if bar.timestamp = minute 0 then some ⟨"AAA", minute 0, "orb", 10, 48 / 5, "breakout"⟩
    else none)

/-- A batch that is available a minute after its only bar. -/
def batch : Batch := ⟨[bar 0], .process (some (minute 1))⟩

def resubmit (cuts : List ℕ) : PaperStore :=
  (submit env {} observer (interrupted env {} observer () batch cuts ((), {})) batch).2

/-- Interrupted after the row of the recommendation is inserted, the batch makes no event of its
    creation when it is submitted again. -/
theorem creation_is_lost :
    (resubmit [1]).recommendations = (resubmit []).recommendations
      ∧ (resubmit []).events.map (·.state) = [.setup] ∧ (resubmit [1]).events = [] := by
  decide +kernel

theorem reachable_resubmitted : (crashSystem env {} observer ()).Reachable
    (submit env {} observer ((), {}) batch,
      submit env {} observer (interrupted env {} observer () batch [0, 2, 3] ((), {})) batch) := by
  refine ⟨(((), {}), ((), {})), [(batch, [0, 2, 3])], rfl, .cons ⟨?_, rfl⟩ (.nil _)⟩
  exact ⟨by decide +kernel, rfl, fun _ => rfl, by decide +kernel, by decide +kernel, by decide +kernel,
    trivial⟩

/-- Interrupted before, after and at the end of the creation, it makes the same. -/
theorem creation_is_kept : resubmit [0, 2, 3] = resubmit [] :=
  (reachable_crashed_eq (by decide +kernel) reachable_resubmitted).1

end CrashSample

end TradingAgent
