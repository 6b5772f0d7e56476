import Mathlib.Order.Bounds.Basic
import TradingAgent.ResearchCycle.Calls

/-!
# What holds of the research cycles

The tables of the store are tied together (`CycleStore.Inv`): the cycles that have a result are those
that are not open, the log of a cycle ends with its row, and the cursors are where the cycles that have
a result are (`CycleStore.IsLargest`). Every change of the store keeps that (`Inv.change`), and keeps
the cycles that have a result as they are (`Keeps`).
-/

namespace TradingAgent.ResearchCycle

open Writing

namespace CycleStore

variable {store next : CycleStore}

/-! ## Parts of the store -/

theorem upsertOpenWork_eq (store : CycleStore) (work : ResearchAgentOpenWork) :
    ∃ openWork, store.upsertOpenWork work = { store with openWork } := by
  rw [upsertOpenWork]
  split
  · split
    · exact ⟨_, rfl⟩
    · exact ⟨store.openWork, rfl⟩
  · exact ⟨_, rfl⟩

/-- The work depends on the work that was there. -/
theorem upsertOpenWork_congr (h : next.openWork = store.openWork) (work : ResearchAgentOpenWork) :
    (next.upsertOpenWork work).openWork = (store.upsertOpenWork work).openWork := by
  rw [upsertOpenWork, upsertOpenWork, h]
  split
  · split
    · rfl
    · exact h
  · rfl

/-- What a cycle with a result is written as. -/
structure IsTerminalized (store : CycleStore) (mutation : CycleTerminalization) (next : CycleStore) :
    Prop where
  results : next.results = store.results ++ [mutation.result]
  row : ∀ id, next.cycles.row id =
    if id = mutation.cycle.cycleId then some mutation.terminal else store.cycles.row id
  events : ∀ id, next.cycleEvents id =
    if id = mutation.cycle.cycleId then store.cycleEvents id ++
      [⟨mutation.terminal.state, mutation.result.occurredAt, mutation.terminal⟩]
    else store.cycleEvents id
  cursors : ∀ family, (next.cursors family).getD 0 =
    if mutation.cycle.agentFamilyId ≠ .dayTrading ∧ family = mutation.cycle.agentFamilyId then
      max ((store.cursors family).getD 0) mutation.cycle.evidenceSequence
    else (store.cursors family).getD 0
  dayCursors : ∀ market, next.dayCursor market =
    if mutation.cycle.agentFamilyId = .dayTrading ∧ market = mutation.cycle.marketId then
      max (store.dayCursor market) mutation.cycle.evidenceSequence
    else store.dayCursor market
  openWork : next.openWork = (mutation.openWork.elim store store.upsertOpenWork).openWork

theorem isTerminalized_advanceCursor (store : CycleStore) (mutation : CycleTerminalization) :
    IsTerminalized store { mutation with openWork := none }
      (({ store with results := store.results ++ [mutation.result] }.logCycle mutation.terminal
        mutation.result.occurredAt).advanceCursor mutation.terminal) := by
  have hlog : ∀ id, (({ store with results := store.results ++ [mutation.result] } :
      CycleStore).logCycle mutation.terminal mutation.result.occurredAt).cycleEvents id = _ :=
    fun id => cycleEvents_logCycle mutation.terminal mutation.result.occurredAt id
  have hrow : ∀ id, (({ store with results := store.results ++ [mutation.result] } :
      CycleStore).logCycle mutation.terminal mutation.result.occurredAt).cycles.row id = _ :=
    fun id => row_logCycle mutation.terminal mutation.result.occurredAt id
  by_cases hday : mutation.cycle.agentFamilyId = .dayTrading
  · rw [advanceCursor, if_pos (show mutation.terminal.agentFamilyId = .dayTrading from hday)]
    refine ⟨rfl, hrow, hlog, fun family => ?_, fun market => ?_, rfl⟩
    · rw [if_neg fun h => h.1 hday]
      rfl
    · by_cases hmarket : market = mutation.cycle.marketId
      · subst hmarket
        rw [if_pos ⟨hday, rfl⟩, dayCursor]
        dsimp only
        rw [show mutation.cycle.marketId = mutation.terminal.marketId from rfl, Function.update_self]
        rfl
      · rw [if_neg fun h => hmarket h.2, dayCursor]
        dsimp only
        rw [Function.update_of_ne (show market ≠ mutation.terminal.marketId from hmarket)]
        rfl
  · rw [advanceCursor, if_neg (show mutation.terminal.agentFamilyId ≠ .dayTrading from hday)]
    refine ⟨rfl, hrow, hlog, fun family => ?_, fun market => ?_, rfl⟩
    · by_cases hfamily : family = mutation.cycle.agentFamilyId
      · subst hfamily
        rw [if_pos ⟨hday, rfl⟩]
        dsimp only
        rw [show mutation.cycle.agentFamilyId = mutation.terminal.agentFamilyId from rfl,
          Function.update_self]
        rfl
      · rw [if_neg fun h => hfamily h.2]
        dsimp only
        rw [Function.update_of_ne (show family ≠ mutation.terminal.agentFamilyId from hfamily)]
        rfl
    · rw [if_neg fun h => hday h.1]
      rfl

theorem isTerminalized_terminalize (store : CycleStore) (mutation : CycleTerminalization) :
    IsTerminalized store mutation (store.terminalize mutation) := by
  have h := isTerminalized_advanceCursor store mutation
  rw [terminalize]
  cases hwork : mutation.openWork with
  | none =>
    refine ⟨h.results, h.row, h.events, h.cursors, h.dayCursors, ?_⟩
    rw [hwork]
    exact h.openWork
  | some work =>
    rw [Option.elim_some]
    have hopenWork := upsertOpenWork_congr h.openWork work
    obtain ⟨openWork, heq⟩ := upsertOpenWork_eq (({ store with
      results := store.results ++ [mutation.result] }.logCycle mutation.terminal
        mutation.result.occurredAt).advanceCursor mutation.terminal) work
    rw [heq] at hopenWork ⊢
    refine ⟨h.results, h.row, h.events, h.cursors, h.dayCursors, ?_⟩
    rw [hwork]
    exact hopenWork

/-! ## The invariant -/

/-- The evidence of the cycles that have a result, of some kind. -/
def settled (store : CycleStore) (kind : ResearchAgentCycle → Prop) : Set ℕ :=
  {n | ∃ cycle, store.cycles.row cycle.cycleId = some cycle ∧ store.HasResult cycle.cycleId ∧
    kind cycle ∧ cycle.evidenceSequence = n}

/-- A cursor is the largest number of the evidence of these cycles, or 0 if there is none. -/
def IsLargest (store : CycleStore) (kind : ResearchAgentCycle → Prop) (cursor : ℕ) : Prop :=
  IsGreatest (insert 0 (store.settled kind)) cursor

structure Inv (store : CycleStore) : Prop where
  keyed : store.Keyed
  results : ∀ result ∈ store.results, store.cycles.row result.cycleId ≠ none
  nodup : (store.results.map (·.cycleId)).Nodup
  hasResult : ∀ id cycle, store.cycles.row id = some cycle →
    (store.HasResult id ↔ cycle.state.isOpen = false)
  log : ∀ id cycle, store.cycles.row id = some cycle → ∃ event,
    (store.cycleEvents id).getLast? = some event ∧ event.cycle = cycle ∧ event.state = cycle.state
  cursors : ∀ family, family ≠ .dayTrading →
    store.IsLargest (·.agentFamilyId = family) ((store.cursors family).getD 0)
  dayCursors : ∀ market, store.IsLargest
    (fun cycle => cycle.agentFamilyId = .dayTrading ∧ cycle.marketId = market) (store.dayCursor market)

/-- A later store has the cycles that had a result as they were, and the identities of all cycles. -/
structure Keeps (store next : CycleStore) : Prop where
  row : ∀ id, store.HasResult id → next.cycles.row id = store.cycles.row id
  results : store.results <+: next.results
  identity : ∀ id cycle, store.cycles.row id = some cycle →
    ∃ later, next.cycles.row id = some later ∧ later.identity = cycle.identity
  cursors : ∀ family, (store.cursors family).getD 0 ≤ (next.cursors family).getD 0
  dayCursors : ∀ market, store.dayCursor market ≤ next.dayCursor market

theorem Keeps.refl (store : CycleStore) : store.Keeps store :=
  ⟨fun _ _ => rfl, List.prefix_rfl, fun _ cycle h => ⟨cycle, h, rfl⟩, fun _ => le_rfl, fun _ => le_rfl⟩

theorem HasResult.mono {id : String} (h : store.HasResult id)
    (hgrows : store.results <+: next.results) : next.HasResult id := by
  obtain ⟨result, hresult, hid⟩ := h
  exact ⟨result, hgrows.subset hresult, hid⟩

theorem Keeps.trans {last : CycleStore} (h : store.Keeps next) (h' : next.Keeps last) :
    store.Keeps last where
  row id hid := (h'.row id (hid.mono h.results)).trans (h.row id hid)
  results := h.results.trans h'.results
  identity id cycle hrow := by
    obtain ⟨later, hlater, hsame⟩ := h.identity id cycle hrow
    obtain ⟨latest, hlatest, hsame'⟩ := h'.identity id later hlater
    exact ⟨latest, hlatest, hsame'.trans hsame⟩
  cursors family := (h.cursors family).trans (h'.cursors family)
  dayCursors market := (h.dayCursors market).trans (h'.dayCursors market)

/-! ## Changes of cycles that have no result -/

/-- Only cycles without a result are written, and these have none after that. -/
structure IsOpenChange (store next : CycleStore) : Prop where
  results : next.results = store.results
  cursors : next.cursors = store.cursors
  dayCursors : next.dayCursors = store.dayCursors
  row : ∀ id, store.HasResult id → next.cycles.row id = store.cycles.row id
  identity : ∀ id cycle, store.cycles.row id = some cycle →
    ∃ later, next.cycles.row id = some later ∧ later.identity = cycle.identity
  keyed : next.Keyed
  openRow : ∀ id cycle, next.cycles.row id = some cycle → ¬ store.HasResult id →
    cycle.state.isOpen = true
  log : ∀ id cycle, next.cycles.row id = some cycle → ∃ event,
    (next.cycleEvents id).getLast? = some event ∧ event.cycle = cycle ∧ event.state = cycle.state

theorem IsOpenChange.hasResult (h : store.IsOpenChange next) (id : String) :
    next.HasResult id ↔ store.HasResult id := by
  rw [HasResult, h.results, HasResult]

theorem IsOpenChange.settled (h : store.IsOpenChange next) (kind : ResearchAgentCycle → Prop) :
    next.settled kind = store.settled kind := by
  ext n
  refine exists_congr fun cycle => ?_
  rw [h.hasResult]
  refine ⟨fun ⟨hrow, hres, hkind, hn⟩ => ⟨?_, hres, hkind, hn⟩,
    fun ⟨hrow, hres, hkind, hn⟩ => ⟨?_, hres, hkind, hn⟩⟩
  · rw [← h.row _ hres, hrow]
  · rw [h.row _ hres, hrow]

theorem IsOpenChange.inv (hchange : store.IsOpenChange next) (h : store.Inv) :
    next.Inv ∧ store.Keeps next := by
  refine ⟨⟨hchange.keyed, fun result hresult => ?_, ?_, fun id cycle hrow => ?_, hchange.log,
    fun family hfamily => ?_, fun market => ?_⟩, hchange.row, ?_, hchange.identity, ?_, ?_⟩
  · rw [hchange.results] at hresult
    obtain ⟨cycle, hcycle⟩ := Option.ne_none_iff_exists'.1 (h.results result hresult)
    obtain ⟨later, hlater, -⟩ := hchange.identity _ cycle hcycle
    rw [hlater]
    nofun
  · rw [hchange.results]
    exact h.nodup
  · rw [hchange.hasResult]
    by_cases hresult : store.HasResult id
    · rw [hchange.row id hresult] at hrow
      exact h.hasResult id cycle hrow
    · rw [hchange.openRow id cycle hrow hresult]
      exact iff_of_false hresult nofun
  · rw [IsLargest, hchange.settled, hchange.cursors]
    exact h.cursors family hfamily
  · rw [IsLargest, hchange.settled, dayCursor, hchange.dayCursors]
    exact h.dayCursors market
  · exact hchange.results.symm ▸ List.prefix_rfl
  · intro family
    rw [hchange.cursors]
  · intro market
    rw [dayCursor, dayCursor, hchange.dayCursors]

/-- A cycle without a result is written, with an entry of its log. -/
theorem isOpenChange_logCycle (h : store.Inv) {cycle : ResearchAgentCycle} (occurredAt : DateTime)
    (hnone : ¬ store.HasResult cycle.cycleId) (hopen : cycle.state.isOpen = true)
    (hidentity : ∀ existing, store.cycles.row cycle.cycleId = some existing →
      cycle.identity = existing.identity) : store.IsOpenChange (store.logCycle cycle occurredAt) := by
  refine ⟨rfl, rfl, rfl, fun id hid => ?_, fun id existing hrow => ?_, fun id c hrow => ?_,
    fun id c hrow hresult => ?_, fun id c hrow => ?_⟩
  · rw [row_logCycle, if_neg]
    rintro rfl
    exact hnone hid
  · rw [row_logCycle]
    by_cases hid : id = cycle.cycleId
    · subst hid
      exact ⟨cycle, if_pos rfl, hidentity existing hrow⟩
    · exact ⟨existing, (if_neg hid).trans hrow, rfl⟩
  · rw [row_logCycle] at hrow
    split at hrow
    · rename_i hid
      cases hrow
      exact hid.symm
    · exact h.keyed id c hrow
  · rw [row_logCycle] at hrow
    split at hrow
    · cases hrow
      exact hopen
    · exact Bool.of_not_eq_false fun hclosed => hresult ((h.hasResult id c hrow).2 hclosed)
  · rw [row_logCycle] at hrow
    rw [cycleEvents_logCycle]
    split at hrow
    · rename_i hid
      cases hrow
      rw [if_pos hid]
      exact ⟨_, List.getLast?_concat, rfl, rfl⟩
    · rename_i hid
      rw [if_neg hid]
      exact h.log id c hrow

/-- All cycles that are started are interrupted. -/
theorem IsInterrupted.isOpenChange {recoveredAt : DateTime} (hchange : store.IsInterrupted recoveredAt next)
    (h : store.Inv) : store.IsOpenChange next := by
  have hrow : ∀ id cycle, store.cycles.row id = some cycle → next.cycles.row id =
      some (if cycle.state = .started then cycle.interrupt recoveredAt else cycle) := by
    intro id cycle hcycle
    rw [hchange.row, hcycle, Option.map_some]
  have hexists : ∀ id cycle, next.cycles.row id = some cycle → ∃ existing,
      store.cycles.row id = some existing ∧
        cycle = if existing.state = .started then existing.interrupt recoveredAt else existing := by
    intro id cycle hcycle
    rw [hchange.row, Option.map_eq_some_iff] at hcycle
    obtain ⟨existing, hexisting, heq⟩ := hcycle
    exact ⟨existing, hexisting, heq.symm⟩
  refine ⟨hchange.results, hchange.cursors, hchange.dayCursors, fun id hid => ?_,
    fun id cycle hcycle => ?_, fun id cycle hcycle => ?_, fun id cycle hcycle hresult => ?_,
    fun id cycle hcycle => ?_⟩
  · -- A cycle that has a result is not started.
    rw [hchange.row]
    cases hcycle : store.cycles.row id with
    | none => rfl
    | some cycle =>
      have hclosed := (h.hasResult id cycle hcycle).1 hid
      rw [Option.map_some, if_neg]
      intro hstarted
      rw [hstarted] at hclosed
      cases hclosed
  · refine ⟨_, hrow id cycle hcycle, ?_⟩
    split <;> rfl
  · obtain ⟨existing, hexisting, rfl⟩ := hexists id cycle hcycle
    rw [← h.keyed id existing hexisting]
    split <;> rfl
  · obtain ⟨existing, hexisting, rfl⟩ := hexists id cycle hcycle
    split
    · rfl
    · exact Bool.of_not_eq_false fun hclosed => hresult ((h.hasResult id _ hexisting).2 hclosed)
  · obtain ⟨existing, hexisting, rfl⟩ := hexists id cycle hcycle
    rw [hchange.events, hexisting, Option.filter_some]
    by_cases hstarted : existing.state = .started
    · rw [if_pos hstarted, if_pos (decide_eq_true hstarted)]
      exact ⟨_, List.getLast?_concat, rfl, rfl⟩
    · rw [if_neg hstarted, if_neg (by simpa using hstarted)]
      obtain ⟨event, hevent, hsame⟩ := h.log id existing hexisting
      exact ⟨event, (congrArg List.getLast? (List.append_nil _)).trans hevent, hsame⟩

/-! ## Results -/

section Terminalized

variable {mutation : CycleTerminalization} {cycle : ResearchAgentCycle}

theorem IsTerminalized.hasResult (hchange : store.IsTerminalized mutation next)
    (hid : mutation.result.cycleId = mutation.cycle.cycleId) (id : String) :
    next.HasResult id ↔ store.HasResult id ∨ id = mutation.cycle.cycleId := by
  rw [HasResult, hchange.results, exists_mem_concat, HasResult, hid, eq_comm (a := id)]

theorem IsTerminalized.settled (hchange : store.IsTerminalized mutation next)
    (hid : mutation.result.cycleId = mutation.cycle.cycleId)
    (hnone : ¬ store.HasResult mutation.cycle.cycleId) (kind : ResearchAgentCycle → Prop) :
    (kind mutation.terminal →
        next.settled kind = insert mutation.cycle.evidenceSequence (store.settled kind)) ∧
      (¬ kind mutation.terminal → next.settled kind = store.settled kind) := by
  have hmem : ∀ n, n ∈ next.settled kind ↔
      (kind mutation.terminal ∧ mutation.cycle.evidenceSequence = n) ∨ n ∈ store.settled kind := by
    intro n
    constructor
    · rintro ⟨c, hrow, hresult, hkind, hn⟩
      rw [hchange.row] at hrow
      split at hrow
      · cases hrow
        exact .inl ⟨hkind, hn⟩
      · rename_i hne
        exact .inr ⟨c, hrow, ((hchange.hasResult hid _).1 hresult).resolve_right hne, hkind, hn⟩
    · rintro (⟨hkind, hn⟩ | ⟨c, hrow, hresult, hkind, hn⟩)
      · exact ⟨mutation.terminal, (hchange.row _).trans (if_pos rfl),
          (hchange.hasResult hid _).2 (.inr rfl), hkind, hn⟩
      · refine ⟨c, (hchange.row _).trans ((if_neg ?_).trans hrow),
          (hchange.hasResult hid _).2 (.inl hresult), hkind, hn⟩
        intro heq
        exact hnone (heq ▸ hresult)
  refine ⟨fun hkind => Set.ext fun n => ?_, fun hkind => Set.ext fun n => ?_⟩
  · rw [hmem, Set.mem_insert_iff, and_iff_right hkind, eq_comm]
  · rw [hmem, or_iff_right fun h => hkind h.1]

/-- A cursor that goes on to the evidence of a cycle that gets its result. -/
theorem IsTerminalized.isLargest (hchange : store.IsTerminalized mutation next)
    (hid : mutation.result.cycleId = mutation.cycle.cycleId)
    (hnone : ¬ store.HasResult mutation.cycle.cycleId) {kind : ResearchAgentCycle → Prop}
    [Decidable (kind mutation.terminal)] {cursor : ℕ} (h : store.IsLargest kind cursor) :
    next.IsLargest kind (if kind mutation.terminal then max cursor mutation.cycle.evidenceSequence
      else cursor) := by
  obtain ⟨hin, hout⟩ := hchange.settled hid hnone kind
  rw [IsLargest]
  split
  · rename_i hkind
    rw [hin hkind, Set.insert_comm, max_comm]
    exact h.insert _
  · rename_i hkind
    rw [hout hkind]
    exact h

theorem IsTerminalized.inv (hchange : store.IsTerminalized mutation next) (h : store.Inv)
    (hrow : store.cycles.row mutation.cycle.cycleId = some cycle)
    (heq : cycle.inUtc = mutation.cycle.inUtc) (hnone : ¬ store.HasResult mutation.cycle.cycleId)
    (hid : mutation.result.cycleId = mutation.cycle.cycleId) : next.Inv ∧ store.Keeps next := by
  refine ⟨⟨fun id c hc => ?_, fun result hresult => ?_, ?_, fun id c hc => ?_, fun id c hc => ?_,
    fun family hfamily => ?_, fun market => ?_⟩, fun id hresult => ?_, ?_, fun id c hc => ?_,
    fun family => ?_, fun market => ?_⟩
  · rw [hchange.row] at hc
    split at hc
    · rename_i heq
      cases hc
      exact heq.symm
    · exact h.keyed id c hc
  · rw [hchange.row]
    split
    · nofun
    · rename_i hne
      rw [hchange.results, List.mem_append, List.mem_singleton] at hresult
      rcases hresult with hresult | rfl
      · exact h.results result hresult
      · exact absurd hid hne
  · rw [hchange.results, List.map_append, List.map_singleton, hid]
    refine List.nodup_append.2 ⟨h.nodup, List.nodup_singleton _, fun id hmem other hother heq => ?_⟩
    rw [List.mem_singleton.1 hother] at heq
    obtain ⟨result, hresult, hsame⟩ := List.mem_map.1 hmem
    exact hnone ⟨result, hresult, hsame.trans heq⟩
  · rw [hchange.hasResult hid]
    rw [hchange.row] at hc
    split at hc
    · rename_i heq
      cases hc
      refine iff_of_true (.inr heq) ?_
      show (cycleStateForResult mutation.result.status).isOpen = false
      cases mutation.result.status <;> rfl
    · rename_i hne
      rw [or_iff_left hne]
      exact h.hasResult id c hc
  · rw [hchange.row] at hc
    rw [hchange.events]
    split at hc
    · rename_i heq
      cases hc
      rw [if_pos heq]
      exact ⟨_, List.getLast?_concat, rfl, rfl⟩
    · rename_i hne
      rw [if_neg hne]
      exact h.log id c hc
  · rw [hchange.cursors]
    have hlargest := hchange.isLargest hid hnone (h.cursors family hfamily)
    by_cases hmine : mutation.cycle.agentFamilyId = family
    · rw [if_pos (show mutation.terminal.agentFamilyId = family from hmine)] at hlargest
      rwa [if_pos ⟨fun hday => hfamily (hmine.symm.trans hday), hmine.symm⟩]
    · rw [if_neg (show mutation.terminal.agentFamilyId ≠ family from hmine)] at hlargest
      rwa [if_neg fun h => hmine h.2.symm]
  · rw [hchange.dayCursors]
    have hlargest := hchange.isLargest hid hnone (h.dayCursors market)
    by_cases hmine : mutation.cycle.agentFamilyId = .dayTrading ∧ mutation.cycle.marketId = market
    · rw [if_pos (show mutation.terminal.agentFamilyId = .dayTrading ∧
        mutation.terminal.marketId = market from hmine)] at hlargest
      rwa [if_pos ⟨hmine.1, hmine.2.symm⟩]
    · rw [if_neg (show ¬ (mutation.terminal.agentFamilyId = .dayTrading ∧
        mutation.terminal.marketId = market) from hmine)] at hlargest
      rwa [if_neg fun h => hmine ⟨h.1, h.2.symm⟩]
  · rw [hchange.row, if_neg]
    rintro rfl
    exact hnone hresult
  · rw [hchange.results]
    exact List.prefix_append _ _
  · rw [hchange.row]
    split
    · rename_i heq'
      rw [heq', hrow] at hc
      cases hc
      exact ⟨_, rfl, (congrArg ResearchAgentCycle.identity heq).symm⟩
    · exact ⟨c, hc, rfl⟩
  · rw [hchange.cursors]
    split
    · exact le_max_left _ _
    · exact le_rfl
  · rw [hchange.dayCursors]
    split
    · exact le_max_left _ _
    · exact le_rfl

end Terminalized

end CycleStore

/-! ## Changes -/

open CycleStore

variable {store next : CycleStore}

/-- A change of evidence or open work only. -/
theorem inv_of_eq (h : store.Inv) (hcycles : next.cycles = store.cycles)
    (hevents : next.cycleEvents = store.cycleEvents) (hresults : next.results = store.results)
    (hcursors : next.cursors = store.cursors) (hdayCursors : next.dayCursors = store.dayCursors) :
    next.Inv ∧ store.Keeps next := by
  refine IsOpenChange.inv ⟨hresults, hcursors, hdayCursors, fun id _ => by rw [hcycles],
    fun id cycle hrow => ⟨cycle, by rw [hcycles, hrow], rfl⟩, fun id cycle hrow => ?_,
    fun id cycle hrow hresult => ?_, fun id cycle hrow => ?_⟩ h
  · rw [hcycles] at hrow
    exact h.keyed id cycle hrow
  · rw [hcycles] at hrow
    exact Bool.of_not_eq_false fun hclosed => hresult ((h.hasResult id cycle hrow).2 hclosed)
  · rw [hcycles] at hrow
    rw [hevents]
    exact h.log id cycle hrow

theorem Progress.inv (hchange : Progress store next) (h : store.Inv) : next.Inv ∧ store.Keeps next := by
  cases hchange with
  | nothing => exact ⟨h, .refl store⟩
  | evidence evidence => exact inv_of_eq h rfl rfl rfl rfl rfl
  | start cycle startedAt hrow hstate _ =>
    refine (isOpenChange_logCycle h startedAt (fun hresult => ?_) ?_ fun existing hexisting => ?_).inv h
    · obtain ⟨result, hresult, hid⟩ := hresult
      exact h.results result hresult (hid ▸ hrow)
    · rw [hstate]
      rfl
    · rw [hrow] at hexisting
      cases hexisting
  | restart cycle startedAt hrow hstate =>
    refine (isOpenChange_logCycle h startedAt (fun hresult => ?_) rfl fun existing hexisting => ?_).inv h
    · have hclosed := (h.hasResult _ cycle hrow).1 hresult
      rw [hstate] at hclosed
      cases hclosed
    · have hsame := hrow.symm.trans hexisting
      cases hsame
      rfl
  | interrupt recoveredAt next hinterrupted => exact (hinterrupted.isOpenChange h).inv h

theorem Change.inv (hchange : Change store next) (h : store.Inv) : next.Inv ∧ store.Keeps next := by
  cases hchange with
  | progress next hprogress => exact hprogress.inv h
  | terminal mutation cycle hrow heq hnone hid =>
    exact (isTerminalized_terminalize store mutation).inv h hrow heq hnone hid
  | openWork work =>
    obtain ⟨openWork, heq⟩ := upsertOpenWork_eq store work
    rw [heq]
    exact inv_of_eq h rfl rfl rfl rfl rfl

end TradingAgent.ResearchCycle
