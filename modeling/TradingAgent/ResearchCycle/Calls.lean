import TradingAgent.Library.Atomic
import TradingAgent.ResearchCycle.Store

/-!
# What the calls do

Each call on the store raises an error and leaves the store as it is, or commits at most one
transaction, by which the store changes in one of a few ways (`Change`, `StoreCall.run_atomic`).
-/

namespace TradingAgent.ResearchCycle

open Writing

namespace CycleStore

/-- The rows of the cycles have their identities as keys. -/
def Keyed (store : CycleStore) : Prop :=
  ∀ id cycle, store.cycles.row id = some cycle → cycle.cycleId = id

def HasResult (store : CycleStore) (cycleId : String) : Prop :=
  ∃ result ∈ store.results, result.cycleId = cycleId

variable {store : CycleStore} {cycleId : String} {result : ResearchAgentResult}

theorem result?_eq_none : store.result? cycleId = none ↔ ¬ store.HasResult cycleId := by
  rw [result?, List.find?_eq_none]
  exact ⟨fun h ⟨r, hr, hid⟩ => h r hr (decide_eq_true hid),
    fun h r hr hid => h ⟨r, hr, of_decide_eq_true hid⟩⟩

theorem mem_of_result? (h : store.result? cycleId = some result) :
    result ∈ store.results ∧ result.cycleId = cycleId :=
  ⟨List.mem_of_find?_eq_some h, of_decide_eq_true (List.find?_some h :)⟩

@[simp] theorem row_setCycle (cycle : ResearchAgentCycle) (id : String) :
    (store.setCycle cycle).cycles.row id =
      if id = cycle.cycleId then some cycle else store.cycles.row id :=
  Table.row_set

end CycleStore

theorem transact_atomic (statements : List Statement) (store : CycleStore) :
    Atomic (transact statements) store fun _ next => store.executeAll statements = some next := by
  cases h : store.executeAll statements with
  | none =>
    refine .of_eq (.of_raise .integrity) ?_
    rw [transact, read_bind, h]
    rfl
  | some next =>
    have heq : transact statements store = ([statements], .ok ()) := by
      rw [transact, read_bind, h]
      rfl
    refine ⟨fun e he => ?_, ?_, fun _ _ => ?_⟩
    · rw [heq] at he
      cases he
    · rw [heq]
      exact le_rfl
    · rw [Writing.after, heq, List.foldl_cons, List.foldl_nil, CycleStore.write, h]
      rfl

/-- A transaction whose statements violate no constraint. -/
theorem transact_eq {statements : List Statement} {store next : CycleStore}
    (h : store.executeAll statements = some next) :
    transact statements store = ([statements], .ok ()) ∧
      (transact statements).after store = next := by
  have heq : transact statements store = ([statements], .ok ()) := by
    rw [transact, read_bind, h]
    rfl
  refine ⟨heq, ?_⟩
  rw [Writing.after, heq, List.foldl_cons, List.foldl_nil, CycleStore.write, h]
  rfl

/-! ## Changes -/

/-- A cycle that was interrupted, restarted. -/
def ResearchAgentCycle.restart (cycle : ResearchAgentCycle) (startedAt : DateTime) :
    ResearchAgentCycle :=
  { cycle with state := .started, startedAt, terminalAt := none }

/-- The store with a row of a cycle and the entry of its log. -/
def CycleStore.logCycle (store : CycleStore) (cycle : ResearchAgentCycle) (occurredAt : DateTime) :
    CycleStore :=
  (store.setCycle cycle).appendCycleEvent cycle occurredAt

@[simp] theorem CycleStore.row_logCycle {store : CycleStore} (cycle : ResearchAgentCycle)
    (occurredAt : DateTime) (id : String) : (store.logCycle cycle occurredAt).cycles.row id =
      if id = cycle.cycleId then some cycle else store.cycles.row id :=
  row_setCycle cycle id

@[simp] theorem CycleStore.cycleEvents_logCycle {store : CycleStore} (cycle : ResearchAgentCycle)
    (occurredAt : DateTime) (id : String) : (store.logCycle cycle occurredAt).cycleEvents id =
      if id = cycle.cycleId then store.cycleEvents id ++ [⟨cycle.state, occurredAt, cycle⟩]
      else store.cycleEvents id := by
  by_cases hid : id = cycle.cycleId
  · rw [if_pos hid, hid]
    exact Function.update_self _ _ _
  · rw [if_neg hid]
    exact Function.update_of_ne hid _ _

/-- The store with the result of a cycle. -/
def CycleStore.terminalize (store : CycleStore) (mutation : CycleTerminalization) : CycleStore :=
  mutation.openWork.elim id (fun work store => store.upsertOpenWork work) <|
    ({ store with results := store.results ++ [mutation.result] }.logCycle mutation.terminal
      mutation.result.occurredAt).advanceCursor mutation.terminal

/-- All cycles that are started, interrupted. -/
structure CycleStore.IsInterrupted (store : CycleStore) (recoveredAt : DateTime)
    (next : CycleStore) : Prop where
  evidence : next.evidence = store.evidence
  results : next.results = store.results
  cursors : next.cursors = store.cursors
  dayCursors : next.dayCursors = store.dayCursors
  openWork : next.openWork = store.openWork
  row : ∀ id, next.cycles.row id = (store.cycles.row id).map fun cycle =>
    if cycle.state = .started then cycle.interrupt recoveredAt else cycle
  events : ∀ id, next.cycleEvents id = store.cycleEvents id ++
    ((store.cycles.row id).filter (·.state = .started)).toList.map fun cycle =>
      ⟨.interrupted, recoveredAt, cycle.interrupt recoveredAt⟩

/-- The ways in which a call changes the store that gives no cycle a result, and leaves the open work
    as it is. -/
inductive Progress (store : CycleStore) : CycleStore → Prop
  | nothing : Progress store store
  | evidence (evidence : ResearchAgentEvidence) :
    Progress store { store with evidence := store.evidence ++ [evidence] }
  | start (cycle : ResearchAgentCycle) (startedAt : DateTime) :
    store.cycles.row cycle.cycleId = none → cycle.state = .started → cycle.resultId = none →
      Progress store (store.logCycle cycle startedAt)
  | restart (cycle : ResearchAgentCycle) (startedAt : DateTime) :
    store.cycles.row cycle.cycleId = some cycle → cycle.state = .interrupted →
      Progress store (store.logCycle (cycle.restart startedAt) startedAt)
  | interrupt (recoveredAt : DateTime) (next : CycleStore) :
    store.IsInterrupted recoveredAt next → Progress store next

/-- The ways in which a call changes the store. -/
inductive Change (store : CycleStore) : CycleStore → Prop
  | progress (next : CycleStore) : Progress store next → Change store next
  | terminal (mutation : CycleTerminalization) (cycle : ResearchAgentCycle) :
    store.cycles.row mutation.cycle.cycleId = some cycle →
      cycle.inUtc = mutation.cycle.inUtc → ¬ store.HasResult mutation.cycle.cycleId →
      mutation.result.cycleId = mutation.cycle.cycleId → Change store (store.terminalize mutation)
  | openWork (work : ResearchAgentOpenWork) : Change store (store.upsertOpenWork work)

theorem Progress.openWork {store next : CycleStore} (h : Progress store next) :
    next.openWork = store.openWork := by
  cases h with
  | interrupt recoveredAt next hinterrupted => exact hinterrupted.openWork
  | _ => rfl

section

variable {store : CycleStore}

theorem appendEvidence_atomic (evidence : ResearchAgentEvidence) :
    Atomic (appendEvidence evidence) store fun _ next => Progress store next := by
  refine .of_read ?_
  cases store.evidence.find? (·.evidenceId = evidence.evidenceId) with
  | some stored => exact .ite (fun _ => .of_pure .nothing) fun _ => .of_raise _
  | none =>
    refine (transact_atomic _ store).bind_pure.mono fun _ next h => ?_
    obtain ⟨-, -, h⟩ := h
    rw [CycleStore.executeAll, CycleStore.execute] at h
    split at h
    · cases h
    · cases h
      exact .evidence evidence

/-- The row of a cycle is written, with an entry of its log. -/
theorem executeAll_insert {cycle : ResearchAgentCycle} {startedAt : DateTime} {next : CycleStore}
    (h : store.executeAll [.insertCycle cycle, .appendCycleEvent cycle startedAt] = some next) :
    store.cycles.row cycle.cycleId = none ∧ next = store.logCycle cycle startedAt := by
  rw [CycleStore.executeAll, CycleStore.execute] at h
  split at h
  · cases h
  · rename_i hnew
    rw [not_or] at hnew
    refine ⟨Option.not_isSome_iff_eq_none.1 hnew.1, ?_⟩
    rw [Option.bind_some, CycleStore.executeAll, CycleStore.execute, CycleStore.row_setCycle,
      if_pos rfl] at h
    cases h
    rfl

theorem executeAll_update {cycle : ResearchAgentCycle} {occurredAt : DateTime}
    (hrow : (store.cycles.row cycle.cycleId).isSome = true) (statements : List Statement) :
    store.executeAll (.updateCycle cycle :: .appendCycleEvent cycle occurredAt :: statements) =
      (store.logCycle cycle occurredAt).executeAll statements := by
  have hsome : ¬ (store.cycles.row cycle.cycleId).isNone = true := by
    obtain ⟨existing, hexisting⟩ := Option.isSome_iff_exists.1 hrow
    rw [hexisting]
    nofun
  rw [CycleStore.executeAll, CycleStore.execute, if_neg hsome, Option.bind_some,
    CycleStore.executeAll, CycleStore.execute, CycleStore.row_setCycle, if_pos rfl]
  rfl

/-- What is returned for a candidate is its row, with the same identity. -/
structure IsStarted (store : CycleStore) (candidate cycle : ResearchAgentCycle) (next : CycleStore) :
    Prop where
  progress : Progress store next
  row : next.cycles.row candidate.cycleId = some cycle
  identity : cycle.identity = candidate.identity

theorem startOrRestart_atomic (hkeyed : store.Keyed) {candidate : ResearchAgentCycle}
    (hstate : candidate.state = .started) (hresult : candidate.resultId = none)
    (startedAt : DateTime) :
    Atomic (startOrRestart candidate startedAt) store (IsStarted store candidate) := by
  refine .of_read ?_
  cases hrow : store.cycles.row candidate.cycleId with
  | none =>
    refine (transact_atomic _ store).bind_pure.mono fun cycle next h => ?_
    obtain ⟨-, rfl, h⟩ := h
    obtain ⟨hnone, rfl⟩ := executeAll_insert h
    refine ⟨.start _ _ hnone hstate hresult, ?_, rfl⟩
    exact CycleStore.row_setCycle _ _ |>.trans (if_pos rfl)
  | some existing =>
    have hid := hkeyed _ _ hrow
    refine .ite (fun _ => .of_raise _) fun hidentity => ?_
    rw [not_not] at hidentity
    refine .ite (fun _ => .of_pure ⟨.nothing, hrow, hidentity⟩) fun hinterrupted => ?_
    rw [not_not] at hinterrupted
    refine (transact_atomic _ store).bind_pure.mono fun cycle next h => ?_
    obtain ⟨-, rfl, h⟩ := h
    have hrow' : store.cycles.row existing.cycleId = some existing := by rw [hid, hrow]
    have hsome : (store.cycles.row (existing.restart startedAt).cycleId).isSome = true :=
      congrArg Option.isSome hrow'
    have hnext := (executeAll_update hsome []).symm.trans h
    cases hnext
    refine ⟨.restart _ _ hrow' hinterrupted, ?_, hidentity⟩
    exact CycleStore.row_setCycle _ _ |>.trans (if_pos hid.symm)

theorem startCycle_atomic (sha : Sha256) (hkeyed : store.Keyed) (stored : StoredResearchAgentEvidence)
    (startedAt : DateTime) (preserveAuthority : Bool) :
    Atomic (startCycle sha stored startedAt preserveAuthority) store fun cycle next =>
      (store.cursorFor stored.evidence < stored.sequence ∨ preserveAuthority = true) ∧
        IsStarted store (newCycle sha
          (researchAgentCycleId sha stored.evidence (store.cursorFor stored.evidence)) stored
          (store.cursorFor stored.evidence) startedAt) cycle next := by
  refine .of_read (.ite (fun _ => .of_raise _) fun hconsumed => .ite (fun _ => .of_raise _) fun _ => ?_)
  refine (startOrRestart_atomic hkeyed rfl rfl startedAt).mono fun _ _ h => ⟨?_, h⟩
  rw [not_and, Bool.not_eq_false] at hconsumed
  by_cases hle : stored.sequence ≤ store.cursorFor stored.evidence
  · exact .inr (hconsumed hle)
  · exact .inl (Nat.not_le.1 hle)

theorem startSupervisorCycle_atomic (sha : Sha256) (hkeyed : store.Keyed)
    (request : SupervisorCycleStart) :
    Atomic (startSupervisorCycle sha request) store (IsStarted store (newCycle sha
      (researchAgentSupervisorCycleId sha request.stored.evidence request.checkpointRef)
      request.stored (store.cursorFor request.stored.evidence) request.startedAt)) :=
  .of_read (.ite (fun _ => .of_raise _) fun _ => startOrRestart_atomic hkeyed rfl rfl request.startedAt)

/-- The transaction that gives a cycle its result. -/
theorem executeAll_terminalize {mutation : CycleTerminalization} {cycle : ResearchAgentCycle}
    {next : CycleStore} (hrow : store.cycles.row mutation.cycle.cycleId = some cycle)
    (h : store.executeAll mutation.statements = some next) : next = store.terminalize mutation := by
  rw [CycleTerminalization.statements, List.cons_append, CycleStore.executeAll, CycleStore.execute] at h
  split at h
  · cases h
  · have hsome : (({ store with results := store.results ++ [mutation.result] } : CycleStore).cycles.row
        mutation.terminal.cycleId).isSome = true := by
      show (store.cycles.row mutation.cycle.cycleId).isSome = true
      rw [hrow]
      rfl
    rw [Option.bind_some, List.cons_append, List.cons_append, executeAll_update hsome,
      List.cons_append, CycleStore.executeAll, CycleStore.execute, Option.bind_some,
      List.nil_append] at h
    rw [CycleStore.terminalize]
    cases hwork : mutation.openWork with
    | none =>
      rw [hwork] at h
      cases h
      rfl
    | some work =>
      rw [hwork] at h
      cases h
      rfl

/-- A result is written for a cycle that has none, or was written before. -/
theorem terminalizeCycle_atomic (mutation : CycleTerminalization) :
    Atomic (terminalizeCycle mutation) store fun _ next =>
      mutation.result.cycleId = mutation.cycle.cycleId ∧
        (store.result? mutation.cycle.cycleId = some mutation.result ∧ next = store ∧
            (∃ cycle, store.cycles.row mutation.cycle.cycleId = some cycle ∧
              cycle.inUtc = mutation.terminal.inUtc) ∧ mutation.workMatches store = true ∨
          ¬ store.HasResult mutation.cycle.cycleId ∧ next = store.terminalize mutation ∧
            ∃ cycle, store.cycles.row mutation.cycle.cycleId = some cycle ∧
              cycle.inUtc = mutation.cycle.inUtc) := by
  refine .ite (fun _ => .of_raise _) fun hidentity => .ite (fun _ => .of_raise _) fun _ =>
    .ite (fun _ => .of_raise _) fun _ => .of_read ?_
  rw [not_or, not_not, not_not] at hidentity
  cases hresult : store.result? mutation.cycle.cycleId with
  | some existing =>
    refine .of_read (.ite (fun hsame => .of_pure ⟨hidentity.1, .inl ?_⟩) fun _ => .of_raise _)
    rw [Bool.and_eq_true, Bool.and_eq_true, decide_eq_true_eq, Option.any_eq_true] at hsame
    obtain ⟨⟨rfl, cycle, hrow, heq⟩, hwork⟩ := hsame
    exact ⟨rfl, rfl, ⟨cycle, hrow, of_decide_eq_true heq⟩, hwork⟩
  | none =>
    refine .ite (fun hsame => ?_) fun _ => .of_raise _
    obtain ⟨cycle, hrow, heq⟩ := (Option.any_eq_true _ _).1 hsame
    refine (transact_atomic _ store).mono fun _ next h => ⟨hidentity.1, .inr ?_⟩
    exact ⟨CycleStore.result?_eq_none.1 hresult, executeAll_terminalize hrow h, cycle, hrow,
      of_decide_eq_true heq⟩

/-! ## Interruption -/

/-- Some cycles that are written, with entries of their logs. -/
theorem executeAll_updates {cycles : List ResearchAgentCycle} (recoveredAt : DateTime)
    (hrows : ∀ cycle ∈ cycles, (store.cycles.row cycle.cycleId).isSome = true) :
    store.executeAll (cycles.flatMap fun cycle =>
        [.updateCycle cycle, .appendCycleEvent cycle recoveredAt]) =
      some (cycles.foldl (·.logCycle · recoveredAt) store) := by
  induction cycles generalizing store with
  | nil => rfl
  | cons cycle cycles ih =>
    rw [List.forall_mem_cons] at hrows
    rw [List.flatMap_cons, List.cons_append, List.cons_append, List.nil_append,
      executeAll_update hrows.1, List.foldl_cons]
    refine ih fun c hc => ?_
    show ((store.setCycle cycle).cycles.row c.cycleId).isSome = true
    rw [CycleStore.row_setCycle]
    split
    · rfl
    · exact hrows.2 c hc

/-- The last one that is written for an identity counts. -/
theorem row_foldl_logCycle (cycles : List ResearchAgentCycle) (recoveredAt : DateTime) (id : String) :
    (cycles.foldl (·.logCycle · recoveredAt) store).cycles.row id =
      (cycles.filter (·.cycleId = id)).getLast?.or (store.cycles.row id) := by
  induction cycles generalizing store with
  | nil => rfl
  | cons cycle cycles ih =>
    rw [List.foldl_cons, ih, CycleStore.row_logCycle]
    by_cases hid : cycle.cycleId = id
    · rw [List.filter_cons_of_pos (by exact decide_eq_true hid), if_pos hid.symm,
        List.getLast?_cons]
      cases (cycles.filter (·.cycleId = id)).getLast? <;> rfl
    · rw [List.filter_cons_of_neg (by simpa using hid), if_neg (Ne.symm hid)]

theorem cycleEvents_foldl_logCycle (cycles : List ResearchAgentCycle) (recoveredAt : DateTime)
    (id : String) :
    (cycles.foldl (·.logCycle · recoveredAt) store).cycleEvents id = store.cycleEvents id ++
      (cycles.filter (·.cycleId = id)).map fun cycle => ⟨cycle.state, recoveredAt, cycle⟩ := by
  induction cycles generalizing store with
  | nil => exact (List.append_nil _).symm
  | cons cycle cycles ih =>
    rw [List.foldl_cons, ih, CycleStore.cycleEvents_logCycle]
    by_cases hid : cycle.cycleId = id
    · rw [if_pos hid.symm, List.filter_cons_of_pos (by exact decide_eq_true hid), List.map_cons,
        List.append_assoc]
      rfl
    · rw [if_neg (Ne.symm hid), List.filter_cons_of_neg (by simpa using hid)]

theorem foldl_logCycle_frame (cycles : List ResearchAgentCycle) (recoveredAt : DateTime) :
    let next := cycles.foldl (·.logCycle · recoveredAt) store
    next.evidence = store.evidence ∧ next.results = store.results ∧ next.cursors = store.cursors ∧
      next.dayCursors = store.dayCursors ∧ next.openWork = store.openWork := by
  induction cycles generalizing store with
  | nil => exact ⟨rfl, rfl, rfl, rfl, rfl⟩
  | cons cycle cycles ih => exact ih

/-- At most one cycle of an identity is started. -/
theorem filter_startedCycles (hkeyed : store.Keyed) (id : String) :
    store.startedCycles.filter (·.cycleId = id) =
      ((store.cycles.row id).filter (·.state = .started)).toList := by
  have hmem : ∀ cycle, cycle ∈ store.startedCycles ↔
      store.cycles.row cycle.cycleId = some cycle ∧ cycle.state = .started := by
    intro cycle
    rw [CycleStore.startedCycles, (List.mergeSort_perm _ _).mem_iff, List.mem_filter, Table.mem_rows,
      decide_eq_true_eq]
    refine and_congr_left fun _ => ⟨fun ⟨k, hk⟩ => ?_, fun h => ⟨_, h⟩⟩
    rw [hkeyed k cycle hk, hk]
  have hnodup : (store.startedCycles.map (·.cycleId)).Nodup := by
    refine (((List.mergeSort_perm _ _).map _).nodup_iff).2 ?_
    refine (List.filter_sublist.map _).nodup ?_
    rw [Table.map_rows hkeyed]
    exact store.cycles.nodup
  cases hfilter : (store.cycles.row id).filter (·.state = .started) with
  | none =>
    refine List.filter_eq_nil_iff.2 fun cycle hcycle hid => ?_
    obtain ⟨hrow, hstarted⟩ := (hmem cycle).1 hcycle
    rw [of_decide_eq_true hid] at hrow
    rw [hrow, Option.filter_some, if_pos (decide_eq_true hstarted)] at hfilter
    cases hfilter
  | some cycle =>
    obtain ⟨hrow, hstarted⟩ := Option.filter_eq_some_iff.1 hfilter
    have hid := hkeyed id cycle hrow
    subst hid
    exact filter_key_eq_singleton hnodup ((hmem cycle).2 ⟨hrow, of_decide_eq_true hstarted⟩)

theorem recoverInterrupted_atomic (hkeyed : store.Keyed) (recoveredAt : DateTime) :
    Atomic (recoverInterrupted recoveredAt) store fun _ next =>
      store.IsInterrupted recoveredAt next := by
  refine .of_read (.ite (fun _ => ?_) fun _ => .of_raise _)
  refine (transact_atomic _ store).bind_pure.mono fun _ next h => ?_
  obtain ⟨-, -, h⟩ := h
  have hfilter : ∀ id, (store.startedCycles.map (·.interrupt recoveredAt)).filter (·.cycleId = id) =
      ((store.cycles.row id).filter (·.state = .started)).toList.map (·.interrupt recoveredAt) := by
    intro id
    rw [List.filter_map, ← filter_startedCycles hkeyed id]
    rfl
  have hrows : ∀ cycle ∈ store.startedCycles.map (·.interrupt recoveredAt),
      (store.cycles.row cycle.cycleId).isSome = true := by
    intro cycle hcycle
    obtain ⟨c, hc, rfl⟩ := List.mem_map.1 hcycle
    have hmem : c ∈ store.startedCycles.filter (·.cycleId = c.cycleId) :=
      List.mem_filter.2 ⟨hc, decide_eq_true rfl⟩
    rw [filter_startedCycles hkeyed, Option.mem_toList, Option.filter_eq_some_iff] at hmem
    exact congrArg Option.isSome hmem.1
  rw [executeAll_updates recoveredAt hrows] at h
  cases h
  obtain ⟨hevidence, hresults, hcursors, hdayCursors, hwork⟩ :=
    @foldl_logCycle_frame store (store.startedCycles.map (·.interrupt recoveredAt)) recoveredAt
  refine ⟨hevidence, hresults, hcursors, hdayCursors, hwork, fun id => ?_, fun id => ?_⟩
  · rw [row_foldl_logCycle, hfilter]
    cases hrow : store.cycles.row id with
    | none => rfl
    | some cycle =>
      rw [Option.filter_some, Option.map_some]
      by_cases hstarted : cycle.state = .started
      · rw [if_pos (decide_eq_true hstarted), if_pos hstarted]
        rfl
      · rw [if_neg (by simpa using hstarted), if_neg hstarted]
        rfl
  · rw [cycleEvents_foldl_logCycle, hfilter, List.map_map]
    rfl

end

end TradingAgent.ResearchCycle
