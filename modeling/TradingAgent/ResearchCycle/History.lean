import TradingAgent.ResearchCycle.Invariant

/-!
# The history of the research cycles

The calls on the store, in any order (`storeSystem`): the cursors follow the cycles that have a result,
and what is settled stays as it is (`cursor_follows_results`).

A cycle that gets its result together with open work may be given it again, unless the identity of the
work is that of other work (`repeat_iff`): the work of another family keeps its row.
-/

namespace TradingAgent.ResearchCycle

open Transition Writing CycleStore

inductive StoreCall
  | appendEvidence (evidence : ResearchAgentEvidence)
  | startCycle (stored : StoredResearchAgentEvidence) (startedAt : DateTime)
    (preserveAuthority : Bool)
  | startSupervisorCycle (request : SupervisorCycleStart)
  | finishCycle (cycle : ResearchAgentCycle) (result : ResearchAgentResult)
  | failCycle (cycle : ResearchAgentCycle) (result : ResearchAgentResult)
  | terminalizeSupervisorCycle (mutation : CycleTerminalization)
  | recoverInterrupted (recoveredAt : DateTime)
  deriving DecidableEq, Repr

namespace StoreCall

def run (sha : Sha256) : StoreCall → CycleWriting Unit
  | appendEvidence evidence => do
    let _ ← ResearchCycle.appendEvidence evidence
    return ()
  | startCycle stored startedAt preserveAuthority => do
    let _ ← ResearchCycle.startCycle sha stored startedAt preserveAuthority
    return ()
  | startSupervisorCycle request => do
    let _ ← ResearchCycle.startSupervisorCycle sha request
    return ()
  | finishCycle cycle result => ResearchCycle.finishCycle cycle result
  | failCycle cycle result => ResearchCycle.failCycle cycle result
  | terminalizeSupervisorCycle mutation => terminalizeCycle mutation
  | recoverInterrupted recoveredAt => do
    let _ ← ResearchCycle.recoverInterrupted recoveredAt
    return ()

/-- The result that a call gives a cycle. -/
def mutation? : StoreCall → Option CycleTerminalization
  | finishCycle cycle result | failCycle cycle result => some { cycle, result }
  | terminalizeSupervisorCycle mutation => some mutation
  | appendEvidence _ | startCycle .. | startSupervisorCycle _ | recoverInterrupted _ => none

end StoreCall

def storeSystem (sha : Sha256) : System CycleStore StoreCall where
  init store := store = {}
  step store call next := next = (call.run sha).after store

variable {sha : Sha256} {store next later : CycleStore} {call : StoreCall}
  {mutation : CycleTerminalization}

theorem change_of_terminalize (mutation : CycleTerminalization) :
    Atomic (terminalizeCycle mutation) store fun _ next => Change store next := by
  refine (terminalizeCycle_atomic mutation).mono fun _ next h => ?_
  obtain ⟨hid, ⟨-, rfl, -⟩ | ⟨hnone, rfl, cycle, hrow, heq⟩⟩ := h
  · exact .progress _ .nothing
  · exact .terminal mutation cycle hrow heq hnone hid

/-- A call that gives no cycle a result. -/
theorem StoreCall.run_progress (hkeyed : store.Keyed) (hnone : call.mutation? = none) :
    Atomic (call.run sha) store fun _ next => Progress store next := by
  cases call with
  | appendEvidence evidence =>
    exact (appendEvidence_atomic evidence).bind_pure.mono fun _ _ ⟨_, _, h⟩ => h
  | startCycle stored startedAt preserveAuthority =>
    exact (startCycle_atomic sha hkeyed stored startedAt preserveAuthority).bind_pure.mono
      fun _ _ ⟨_, _, h⟩ => h.2.progress
  | startSupervisorCycle request =>
    exact (startSupervisorCycle_atomic sha hkeyed request).bind_pure.mono
      fun _ _ ⟨_, _, h⟩ => h.progress
  | recoverInterrupted recoveredAt =>
    exact (recoverInterrupted_atomic hkeyed recoveredAt).bind_pure.mono
      fun _ next ⟨_, _, h⟩ => .interrupt recoveredAt next h
  | _ => cases hnone

/-- Each call is atomic, and changes the store in one of a few ways. -/
theorem StoreCall.run_atomic (hkeyed : store.Keyed) (call : StoreCall) :
    Atomic (call.run sha) store fun _ next => Change store next := by
  cases call with
  | finishCycle cycle result =>
    rw [run, finishCycle.eq_def]
    cases result.status with
    | completed => exact change_of_terminalize _
    | noAction => exact change_of_terminalize _
    | failed => exact .of_raise _
    | blocked => exact .of_raise _
  | failCycle cycle result =>
    rw [run, failCycle.eq_def]
    cases result.status with
    | completed => exact .of_raise _
    | noAction => exact .of_raise _
    | failed => exact change_of_terminalize _
    | blocked => exact change_of_terminalize _
  | terminalizeSupervisorCycle mutation => exact change_of_terminalize mutation
  | _ => exact (run_progress hkeyed rfl).mono fun _ next h => .progress next h

theorem step_inv (h : store.Inv) (hstep : (storeSystem sha).step store call next) :
    next.Inv ∧ store.Keeps next := by
  have hatomic : Atomic (call.run sha) store fun _ next => Change store next := call.run_atomic h.keyed
  rw [show next = (call.run sha).after store from hstep]
  cases hresult : (call.run sha store).2 with
  | error e =>
    rw [hatomic.after_of_error hresult]
    exact ⟨h, .refl store⟩
  | ok _ => exact (hatomic.returns _ hresult).inv h

theorem inv_initial : ({} : CycleStore).Inv := by
  have hlargest : ∀ kind, ({} : CycleStore).IsLargest kind 0 := by
    refine fun kind => ⟨Set.mem_insert _ _, ?_⟩
    rintro n (rfl | ⟨cycle, hrow, -⟩)
    · exact le_rfl
    · cases hrow
  exact ⟨fun _ _ => nofun, List.forall_mem_nil _, List.nodup_nil, fun _ _ => nofun, fun _ _ => nofun,
    fun _ _ => hlargest _, fun _ => hlargest _⟩

theorem inv_of_reachable (h : (storeSystem sha).Reachable store) : store.Inv :=
  h.invariant (fun _ hinit => hinit ▸ inv_initial) fun _ _ _ _ hinv hstep => (step_inv hinv hstep).1

theorem keeps_of_run (h : store.Inv) {calls : List StoreCall}
    (hrun : (storeSystem sha).Run store calls later) : store.Keeps later := by
  induction hrun with
  | nil => exact .refl _
  | cons hstep _ ih =>
    obtain ⟨hinv, hkeeps⟩ := step_inv h hstep
    exact hkeeps.trans (ih hinv)

/-! ## Cursors -/

/-- The cursor of a family is where its cycles with a result are: for day trading, in any market. -/
theorem isLargest_cursor (h : store.Inv) (family : AgentFamilyId) :
    store.IsLargest (·.agentFamilyId = family) (store.cursor family) := by
  by_cases hday : family = .dayTrading
  · subst hday
    -- A day cycle is one of the four markets.
    have hsets : insert 0 (store.settled (·.agentFamilyId = .dayTrading)) =
        (insert 0 (store.settled fun cycle =>
            cycle.agentFamilyId = .dayTrading ∧ cycle.marketId = .usEquities) ∪
          insert 0 (store.settled fun cycle =>
            cycle.agentFamilyId = .dayTrading ∧ cycle.marketId = .krEquities)) ∪
        (insert 0 (store.settled fun cycle =>
            cycle.agentFamilyId = .dayTrading ∧ cycle.marketId = .crossMarket) ∪
          insert 0 (store.settled fun cycle =>
            cycle.agentFamilyId = .dayTrading ∧ cycle.marketId = .none)) := by
      ext n
      have hmarket : ∀ market, n ∈ store.settled (fun cycle => cycle.agentFamilyId = .dayTrading ∧
          cycle.marketId = market) → n ∈ store.settled (·.agentFamilyId = .dayTrading) :=
        fun market ⟨cycle, hrow, hresult, hkind, hn⟩ => ⟨cycle, hrow, hresult, hkind.1, hn⟩
      constructor
      · rintro (hzero | ⟨cycle, hrow, hresult, hfamily, hn⟩)
        · exact .inl (.inl (.inl hzero))
        · cases hm : cycle.marketId with
          | usEquities => exact .inl (.inl (.inr ⟨cycle, hrow, hresult, ⟨hfamily, hm⟩, hn⟩))
          | krEquities => exact .inl (.inr (.inr ⟨cycle, hrow, hresult, ⟨hfamily, hm⟩, hn⟩))
          | crossMarket => exact .inr (.inl (.inr ⟨cycle, hrow, hresult, ⟨hfamily, hm⟩, hn⟩))
          | none => exact .inr (.inr (.inr ⟨cycle, hrow, hresult, ⟨hfamily, hm⟩, hn⟩))
      · rintro ((hn | hn) | (hn | hn))
        all_goals exact hn.elim .inl fun hn => .inr (hmarket _ hn)
    rw [cursor, if_pos rfl, IsLargest, hsets]
    exact ((h.dayCursors .usEquities).union (h.dayCursors .krEquities)).union
      ((h.dayCursors .crossMarket).union (h.dayCursors .none))
  · rw [cursor, if_neg hday]
    exact h.cursors family hday

theorem CycleStore.Keeps.cursor_le (h : store.Keeps later) (family : AgentFamilyId) :
    store.cursor family ≤ later.cursor family := by
  rw [cursor, cursor]
  split
  · exact max_le_max (max_le_max (h.dayCursors _) (h.dayCursors _))
      (max_le_max (h.dayCursors _) (h.dayCursors _))
  · exact h.cursors family

/-! ## Repeated results -/

/-- The tests that a result passes before anything is read. -/
def CycleTerminalization.isWellFormed (mutation : CycleTerminalization) : Prop :=
  (mutation.result.cycleId = mutation.cycle.cycleId ∧
    mutation.result.agentFamilyId = mutation.cycle.agentFamilyId) ∧
    (mutation.openWork.any fun work => work.agentFamilyId ≠ mutation.cycle.agentFamilyId ∨
      work.state ≠ .terminal) = false ∧ mutation.terminal.validate = true

theorem isWellFormed_of_ok (h : (terminalizeCycle mutation store).2 = .ok ()) :
    mutation.isWellFormed := by
  rw [terminalizeCycle, if_apply, if_apply, if_apply] at h
  split at h
  · cases h
  · rename_i hidentity
    rw [not_or, not_not, not_not] at hidentity
    split at h
    · cases h
    · rename_i hwork
      split at h
      · cases h
      · rename_i hvalid
        exact ⟨hidentity, Bool.eq_false_iff.2 hwork, Bool.of_not_eq_false hvalid⟩

/-- A cycle that has this result gets it again if the work is there, and a conflict otherwise. -/
theorem terminalizeCycle_repeated (h : mutation.isWellFormed) {cycle : ResearchAgentCycle}
    (hresult : store.result? mutation.cycle.cycleId = some mutation.result)
    (hrow : store.cycles.row mutation.cycle.cycleId = some cycle)
    (hsame : cycle.inUtc = mutation.terminal.inUtc) :
    terminalizeCycle mutation store = ([], if mutation.workMatches store = true then .ok ()
      else .error .resultIdentityConflict) := by
  obtain ⟨⟨hid, hfamily⟩, hwork, hvalid⟩ := h
  have hidentity : ¬ (mutation.result.cycleId ≠ mutation.cycle.cycleId ∨
      mutation.result.agentFamilyId ≠ mutation.cycle.agentFamilyId) := by
    rw [not_or, not_not, not_not]
    exact ⟨hid, hfamily⟩
  rw [terminalizeCycle, if_apply, if_neg hidentity, if_apply, if_neg (Bool.eq_false_iff.1 hwork),
    if_apply, if_neg (by rw [hvalid]; nofun), read_bind, hresult, hrow]
  dsimp only
  rw [read_bind]
  have htests : (decide (mutation.result = mutation.result) &&
      (some cycle).any (fun c => c.inUtc = mutation.terminal.inUtc) &&
        mutation.workMatches store) = mutation.workMatches store := by
    rw [decide_eq_true rfl, Option.any_some, decide_eq_true hsame, Bool.true_and, Bool.true_and]
  rw [htests, if_apply]
  split <;> rfl

/-- The cycle has this result. -/
structure CycleTerminalization.IsSettled (mutation : CycleTerminalization) (store : CycleStore) :
    Prop where
  result : store.result? mutation.cycle.cycleId = some mutation.result
  row : ∃ cycle, store.cycles.row mutation.cycle.cycleId = some cycle ∧
    cycle.inUtc = mutation.terminal.inUtc

/-- After a result is accepted, the cycle has it. -/
theorem isSettled_of_ok (h : (terminalizeCycle mutation store).2 = .ok ()) :
    mutation.IsSettled ((terminalizeCycle mutation).after store) := by
  obtain ⟨hid, ⟨hresult, heq, hrow, -⟩ | ⟨hnone, heq, -⟩⟩ :=
    (terminalizeCycle_atomic mutation).returns () h
  · rw [heq]
    exact ⟨hresult, hrow⟩
  · have hterminalized := isTerminalized_terminalize store mutation
    rw [heq]
    refine ⟨?_, mutation.terminal, (hterminalized.row _).trans (if_pos rfl), rfl⟩
    rw [result?, hterminalized.results, List.find?_append,
      show store.results.find? (·.cycleId = mutation.cycle.cycleId) = none from
        result?_eq_none.2 hnone, Option.none_or,
      List.find?_cons_of_pos (by exact decide_eq_true hid)]

/-- It keeps the result. -/
theorem CycleTerminalization.IsSettled.keeps (h : mutation.IsSettled store) (hkeeps : store.Keeps later) :
    mutation.IsSettled later := by
  obtain ⟨hmem, hid⟩ := mem_of_result? h.result
  obtain ⟨cycle, hrow, hsame⟩ := h.row
  obtain ⟨more, hmore⟩ := hkeeps.results
  refine ⟨?_, cycle, (hkeeps.row _ ⟨_, hmem, hid⟩).trans hrow, hsame⟩
  rw [result?, ← hmore, List.find?_append]
  exact congrArg (Option.or · _) h.result

/-- A call that gives a cycle a result, and returns, just does that. -/
theorem StoreCall.run_eq (hmutation : call.mutation? = some mutation)
    (hok : (call.run sha store).2 = .ok ()) : call.run sha = terminalizeCycle mutation := by
  cases call with
  | finishCycle cycle result =>
    cases hmutation
    rw [run, finishCycle.eq_def] at hok ⊢
    cases hstatus : result.status with
    | completed => rfl
    | noAction => rfl
    | failed =>
      rw [hstatus] at hok
      cases hok
    | blocked =>
      rw [hstatus] at hok
      cases hok
  | failCycle cycle result =>
    cases hmutation
    rw [run, failCycle.eq_def] at hok ⊢
    cases hstatus : result.status with
    | completed =>
      rw [hstatus] at hok
      cases hok
    | noAction =>
      rw [hstatus] at hok
      cases hok
    | failed => rfl
    | blocked => rfl
  | terminalizeSupervisorCycle m =>
    cases hmutation
    rfl
  | _ => cases hmutation

/-- Once a result is accepted, it is accepted again without an effect exactly if the open work that
    came with it is there. -/
theorem repeat_iff (hinv : store.Inv) (hmutation : call.mutation? = some mutation)
    (hok : (call.run sha store).2 = .ok ()) {calls : List StoreCall}
    (hrun : (storeSystem sha).Run ((call.run sha).after store) calls later) :
    call.run sha later = ([], .ok ()) ↔ mutation.workMatches later = true := by
  have heq := StoreCall.run_eq hmutation hok
  have hnext := @step_inv sha store _ call hinv rfl
  rw [heq] at hok hrun hnext ⊢
  obtain ⟨hresult, cycle, hrow, hsame⟩ := (isSettled_of_ok hok).keeps (keeps_of_run hnext.1 hrun)
  rw [terminalizeCycle_repeated (isWellFormed_of_ok hok) hresult hrow hsame]
  by_cases hwork : mutation.workMatches later = true
  · rw [if_pos hwork]
    exact iff_of_true rfl hwork
  · rw [if_neg hwork]
    exact iff_of_false (fun h => by cases h) hwork

/-! ## Runs where the work has identities of its own -/

/-- The open work that comes with a result has an identity that no other work has. -/
def StoreCall.isClean (store : CycleStore) (call : StoreCall) : Prop :=
  ∀ mutation, call.mutation? = some mutation → ∀ work, mutation.openWork = some work →
    ∀ existing, store.openWork.row work.workId = some existing → existing.inUtc = work.inUtc

/-- The runs of such calls. -/
def cleanSystem (sha : Sha256) : System CycleStore StoreCall where
  init store := store = {}
  step store call next := (storeSystem sha).step store call next ∧ call.isClean store

/-- A row of work is that work. -/
def IsKept (work : ResearchAgentOpenWork) (store : CycleStore) : Prop :=
  ∃ existing, store.openWork.row work.workId = some existing ∧ existing.inUtc = work.inUtc

theorem workMatches_iff :
    mutation.workMatches store = true ↔ ∀ work, mutation.openWork = some work → IsKept work store := by
  rw [CycleTerminalization.workMatches]
  cases mutation.openWork with
  | none => exact iff_of_true rfl fun _ => nofun
  | some work =>
    rw [Option.all_some, Option.any_eq_true]
    refine ⟨fun ⟨existing, hrow, hsame⟩ w hw => ?_, fun h => ?_⟩
    · cases hw
      exact ⟨existing, hrow, of_decide_eq_true hsame⟩
    · obtain ⟨existing, hrow, hsame⟩ := h work rfl
      exact ⟨existing, hrow, decide_eq_true hsame⟩

/-- Work that is upserted over the same work, or where there is none, has its row. -/
theorem isKept_upsertOpenWork {work : ResearchAgentOpenWork}
    (h : ∀ existing, store.openWork.row work.workId = some existing → existing.inUtc = work.inUtc) :
    (store.upsertOpenWork work).openWork.row work.workId = some work := by
  rw [CycleStore.upsertOpenWork]
  cases hrow : store.openWork.row work.workId with
  | none => exact Table.row_set_self
  | some existing =>
    have hfamily : existing.agentFamilyId = work.agentFamilyId := by
      show existing.inUtc.agentFamilyId = work.inUtc.agentFamilyId
      rw [h existing hrow]
    dsimp only
    rw [if_pos hfamily]
    exact Table.row_set_self

theorem upsertOpenWork_of_ne {work : ResearchAgentOpenWork} {id : String} (h : id ≠ work.workId) :
    (store.upsertOpenWork work).openWork.row id = store.openWork.row id := by
  rw [CycleStore.upsertOpenWork]
  split
  · split
    · exact Table.row_set_of_ne h
    · rfl
  · exact Table.row_set_of_ne h

theorem isKept_of_terminalize {work : ResearchAgentOpenWork}
    (hclean : ∀ w, mutation.openWork = some w → ∀ existing,
      store.openWork.row w.workId = some existing → existing.inUtc = w.inUtc) :
    (mutation.openWork = some work → IsKept work (store.terminalize mutation)) ∧
      (IsKept work store → IsKept work (store.terminalize mutation)) := by
  rw [IsKept, IsKept, (isTerminalized_terminalize store mutation).openWork]
  cases hwork : mutation.openWork with
  | none => exact ⟨nofun, id⟩
  | some w =>
    have hrow := isKept_upsertOpenWork (hclean w hwork)
    rw [Option.elim_some]
    refine ⟨fun heq => ?_, fun ⟨existing, hexisting, hsame⟩ => ?_⟩
    · cases heq
      exact ⟨work, hrow, rfl⟩
    · by_cases hid : work.workId = w.workId
      · rw [hid] at hexisting ⊢
        exact ⟨w, hrow, (hclean w hwork existing hexisting).symm.trans hsame⟩
      · exact ⟨existing, (upsertOpenWork_of_ne hid).trans hexisting, hsame⟩

theorem isKept_step (hinv : store.Inv) (hstep : (cleanSystem sha).step store call next)
    (work : ResearchAgentOpenWork) (h : IsKept work store) : IsKept work next := by
  obtain ⟨hnext, hclean⟩ := hstep
  have hatomic : Atomic (call.run sha) store fun _ next => Change store next :=
    call.run_atomic hinv.keyed
  rw [show next = (call.run sha).after store from hnext]
  cases hresult : (call.run sha store).2 with
  | error e =>
    rw [hatomic.after_of_error hresult]
    exact h
  | ok _ =>
    cases hmutation : call.mutation? with
    | none =>
      have hprogress := (StoreCall.run_progress hinv.keyed hmutation).returns _ hresult
      rw [IsKept, hprogress.openWork]
      exact h
    | some mutation =>
      have heq := StoreCall.run_eq hmutation hresult
      rw [heq] at hresult ⊢
      obtain ⟨-, ⟨-, hsame, -⟩ | ⟨-, hterminal, -⟩⟩ :=
        (terminalizeCycle_atomic mutation).returns () hresult
      · rwa [hsame]
      · rw [hterminal]
        exact (isKept_of_terminalize (hclean mutation hmutation)).2 h

theorem reachable_of_clean (h : (cleanSystem sha).Reachable store) : (storeSystem sha).Reachable store := by
  refine h.invariant (fun _ hinit => .init hinit) fun _ _ _ _ hreachable hstep => ?_
  exact hreachable.step hstep.1

theorem run_of_clean {calls : List StoreCall} (h : (cleanSystem sha).Run store calls later) :
    (storeSystem sha).Run store calls later := by
  induction h with
  | nil => exact .nil _
  | cons hstep _ ih => exact .cons hstep.1 ih

/-- A call that is accepted in such a run is accepted again, later on, without an effect. -/
theorem repeat_of_clean (h : (cleanSystem sha).Reachable store) (hmutation : call.mutation? = some mutation)
    (hclean : call.isClean store) (hok : (call.run sha store).2 = .ok ()) {calls : List StoreCall}
    (hrun : (cleanSystem sha).Run ((call.run sha).after store) calls later) :
    call.run sha later = ([], .ok ()) := by
  have hinv := inv_of_reachable (reachable_of_clean h)
  have hnext := h.step (e := call) ⟨rfl, hclean⟩
  rw [repeat_iff hinv hmutation hok (run_of_clean hrun), workMatches_iff]
  intro work hwork
  -- The work is there after the call, and stays.
  refine hrun.stable (P := IsKept work) (fun s c t hs hkept hstep => ?_) hnext ?_
  · exact isKept_step (inv_of_reachable (reachable_of_clean hs)) hstep work hkept
  · have heq := StoreCall.run_eq hmutation hok
    rw [heq] at hok ⊢
    obtain ⟨-, ⟨-, hsame, -, hmatches⟩ | ⟨-, hterminal, -⟩⟩ :=
      (terminalizeCycle_atomic mutation).returns () hok
    · rw [hsame]
      exact workMatches_iff.1 hmatches work hwork
    · rw [hterminal]
      exact (isKept_of_terminalize (hclean mutation hmutation)).1 hwork

/-! ## The history -/

/-- A cycle that is started or restarted is stored, with the identity that it had. -/
theorem IsStarted.stored {candidate cycle : ResearchAgentCycle} (h : IsStarted store candidate cycle next)
    (hinv : store.Inv) : next.cycles.row cycle.cycleId = some cycle ∧
      ∀ existing, store.cycles.row cycle.cycleId = some existing →
        cycle.identity = existing.identity := by
  have hid : cycle.cycleId = candidate.cycleId := congrArg Prod.fst h.identity
  rw [hid]
  refine ⟨h.row, fun existing hexisting => ?_⟩
  obtain ⟨later, hlater, hsame⟩ := (h.progress.inv hinv).2.identity _ existing hexisting
  have heq := h.row.symm.trans hlater
  cases heq
  exact hsame

/-- The result of a cycle that has one stays the same. -/
theorem CycleStore.Keeps.result?_eq (h : store.Keeps later) {id : String} (hresult : store.HasResult id) :
    later.result? id = store.result? id := by
  obtain ⟨more, hmore⟩ := h.results
  rw [result?, ← hmore, List.find?_append]
  cases hfind : store.result? id with
  | none => exact absurd hresult (result?_eq_none.1 hfind)
  | some result => exact congrArg (Option.or · _) hfind

/-- In every state that the calls lead to: a cycle has a result exactly if it is completed, failed or
    blocked; the cursors are the largest numbers of the evidence of the cycles that have a result; the
    log of a cycle ends with its row; later on, the cycles that have a result are the same, the others
    keep their identities, and the cursors do not decrease; a cycle that is started or restarted is
    returned as it is stored, with the identity that it had; a call that is refused leaves the store as
    it is; and a result that was accepted is accepted again without an effect exactly if its open work
    is there, which is so in runs where the work has an identity of its own. -/
theorem cursor_follows_results (h : (storeSystem sha).Reachable store) :
    (∀ id cycle, store.cycles.row id = some cycle →
      (store.HasResult id ↔ cycle.state ∈ [.completed, .failed, .blocked])) ∧
      (∀ family, store.IsLargest (·.agentFamilyId = family) (store.cursor family)) ∧
      (∀ market, store.IsLargest
        (fun cycle => cycle.agentFamilyId = .dayTrading ∧ cycle.marketId = market)
        (store.dayCursor market)) ∧
      (∀ id cycle, store.cycles.row id = some cycle → ∃ event,
        (store.cycleEvents id).getLast? = some event ∧ event.cycle = cycle ∧
          event.state = cycle.state) ∧
      (∀ calls later, (storeSystem sha).Run store calls later →
        (∀ id, store.HasResult id → later.cycles.row id = store.cycles.row id ∧
            later.result? id = store.result? id) ∧
          (∀ id cycle, store.cycles.row id = some cycle →
            ∃ c, later.cycles.row id = some c ∧ c.identity = cycle.identity) ∧
          (∀ family, store.cursor family ≤ later.cursor family) ∧
          ∀ market, store.dayCursor market ≤ later.dayCursor market) ∧
      (∀ stored startedAt preserveAuthority cycle,
        (startCycle sha stored startedAt preserveAuthority store).2 = .ok cycle →
          ((startCycle sha stored startedAt preserveAuthority).after store).cycles.row cycle.cycleId =
              some cycle ∧
            ∀ existing, store.cycles.row cycle.cycleId = some existing →
              cycle.identity = existing.identity) ∧
      (∀ request cycle, (startSupervisorCycle sha request store).2 = .ok cycle →
        ((startSupervisorCycle sha request).after store).cycles.row cycle.cycleId = some cycle ∧
          ∀ existing, store.cycles.row cycle.cycleId = some existing →
            cycle.identity = existing.identity) ∧
      (∀ call e, (StoreCall.run sha call store).2 = .error e →
        (StoreCall.run sha call).after store = store) ∧
      (∀ call mutation, StoreCall.mutation? call = some mutation →
        (call.run sha store).2 = .ok () →
        ∀ calls later, (storeSystem sha).Run ((call.run sha).after store) calls later →
          (call.run sha later = ([], .ok ()) ↔ mutation.workMatches later = true)) ∧
      ((cleanSystem sha).Reachable store → ∀ call mutation, StoreCall.mutation? call = some mutation →
        call.isClean store → (call.run sha store).2 = .ok () →
          ∀ calls later, (cleanSystem sha).Run ((call.run sha).after store) calls later →
            call.run sha later = ([], .ok ())) := by
  have hinv := inv_of_reachable h
  refine ⟨fun id cycle hrow => ?_, isLargest_cursor hinv, hinv.dayCursors, hinv.log,
    fun calls later hrun => ?_, fun stored startedAt preserveAuthority cycle hok => ?_,
    fun request cycle hok => ?_, fun call e herror => ?_, fun call mutation hmutation hok calls later =>
      repeat_iff hinv hmutation hok,
    fun hreachable call mutation hmutation hclean hok calls later =>
      repeat_of_clean hreachable hmutation hclean hok⟩
  · rw [hinv.hasResult id cycle hrow]
    cases cycle.state <;> simp [ResearchAgentCycleState.isOpen]
  · have hkeeps := keeps_of_run hinv hrun
    exact ⟨fun id hid => ⟨hkeeps.row id hid, hkeeps.result?_eq hid⟩, hkeeps.identity,
      hkeeps.cursor_le, hkeeps.dayCursors⟩
  · exact ((startCycle_atomic sha hinv.keyed stored startedAt preserveAuthority).returns cycle
      hok).2.stored hinv
  · exact ((startSupervisorCycle_atomic sha hinv.keyed request).returns cycle hok).stored hinv
  · have hatomic : Atomic (call.run sha) store fun _ next => Change store next :=
      call.run_atomic hinv.keyed
    exact hatomic.after_of_error herror

/-! ## An example -/

namespace HistorySample

def hex (c : Char) : String := String.ofList (List.replicate 64 c)

/-- A digest that tells the cycles of two families, and their actions. -/
def digest : Sha256 where
  hexdigest material := hex <|
    if material.head? = some (.str "swing_trading") then 'a'
    else if material.head? = some (.str "systematic_quant") then 'b'
    else if material.head? = some (.str (hex 'a')) then 'c' else 'd'
  isHex64_hexdigest material := by split_ifs <;> decide +kernel

/-- The time after some seconds. -/
def clock (seconds : ℤ) : DateTime := .utc (TimeDelta.seconds seconds)

def evidence (family : AgentFamilyId) (c : Char) : ResearchAgentEvidence where
  evidenceId := hex c
  agentFamilyId := family
  triggerKind := .newData
  sourceKey := "bars"
  evidenceRefs := [hex c]
  observedAt := clock 0
  availableAt := clock 0
  payloadSha256 := hex c
  marketId := .usEquities

def cycle (family : AgentFamilyId) (sequence : ℕ) (c : Char) (action : Char) : ResearchAgentCycle where
  cycleId := hex c
  evidenceId := hex c
  actionRequestId := hex action
  agentFamilyId := family
  marketId := .usEquities
  evidenceSequence := sequence
  cursorBefore := 0
  state := .started
  startedAt := clock 10

/-- A review that is completed, with the same identity of its work for each family. -/
def review (family : AgentFamilyId) (sequence : ℕ) (c : Char) (action : Char) :
    CycleTerminalization where
  cycle := cycle family sequence c action
  result := {
    resultId := hex c
    cycleId := hex c
    agentFamilyId := family
    marketId := .usEquities
    status := .completed
    question := "Is the review done?"
    summary := "The review is done."
    reason := none
    continuation := none
    openWorkRef := some "review.2026-08"
    evidenceRefs := [hex c]
    artifactRefs := ["review"]
    occurredAt := clock 20
    nextWakeKind := .newEvidence
    nextWakeAt := none }
  openWork := some {
    workId := "review.2026-08"
    cycleId := hex c
    agentFamilyId := family
    state := .terminal
    evidenceRefs := [hex c]
    nextWakeAt := none
    updatedAt := clock 20 }

def swing : CycleTerminalization := review .swingTrading 1 'a' 'c'
def quant : CycleTerminalization := review .systematicQuant 2 'b' 'd'

/-- Both cycles are started. -/
def calls : List StoreCall :=
  [.appendEvidence (evidence .swingTrading 'a'), .appendEvidence (evidence .systematicQuant 'b'),
    .startCycle ⟨1, evidence .swingTrading 'a'⟩ (clock 10) false,
    .startCycle ⟨2, evidence .systematicQuant 'b'⟩ (clock 10) false]

def storeAfter (calls : List StoreCall) : CycleStore :=
  calls.foldl (fun store call => (call.run digest).after store) {}

theorem reachable_storeAfter (calls : List StoreCall) :
    (storeSystem digest).Reachable (storeAfter calls) := by
  have hrun : ∀ store, (storeSystem digest).Run store calls
      (calls.foldl (fun store call => (call.run digest).after store) store) := by
    induction calls with
    | nil => exact fun _ => .nil _
    | cons call calls ih => exact fun store => .cons rfl (ih _)
  exact ⟨{}, calls, rfl, hrun {}⟩

/-- The cycle of the first family is completed. -/
def completed : CycleStore := (terminalizeCycle swing).after (storeAfter calls)

theorem reachable_completed : (storeSystem digest).Reachable completed :=
  (reachable_storeAfter calls).step (e := .terminalizeSupervisorCycle swing) rfl

theorem outcomes : (terminalizeCycle swing (storeAfter calls)).2 = .ok () ∧
    swing.workMatches completed = true ∧ (terminalizeCycle quant completed).2 = .ok () ∧
    (terminalizeCycle quant ((terminalizeCycle quant).after completed)).2 =
      .error .resultIdentityConflict := by
  decide +kernel

/-- The cycle of the other family is completed as well, but the same result is a conflict then. -/
theorem repeat_is_refused :
    (storeSystem digest).Reachable completed ∧ (terminalizeCycle quant completed).2 = .ok () ∧
      (terminalizeCycle quant ((terminalizeCycle quant).after completed)).2 =
        .error .resultIdentityConflict :=
  ⟨reachable_completed, outcomes.2.2⟩

/-- The result of the first family is accepted again. -/
theorem repeat_is_accepted : terminalizeCycle swing completed = ([], .ok ()) := by
  obtain ⟨-, -, -, -, -, -, -, -, hiff, -⟩ := cursor_follows_results (reachable_storeAfter calls)
  have hrepeat := hiff (.terminalizeSupervisorCycle swing) swing rfl outcomes.1 [] completed (.nil _)
  exact hrepeat.2 outcomes.2.1

end HistorySample

end TradingAgent.ResearchCycle
