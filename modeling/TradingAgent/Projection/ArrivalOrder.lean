import Mathlib.Algebra.Order.BigOperators.Group.List
import TradingAgent.Projection.Order

/-!
# The order in which events arrive

The execution history of an order (`ConsistentHistory`), whose events the ledger got in any order:
it stores them under numbers that increase as they are appended.

* The events are projected by their times, and those of the same time by their numbers. The
  projection is thus that of the history exactly if the fills of the same time have arrived in
  the order in which they were executed (`projectsHistory_iff`).
* Two fills of one time that arrive the other way round are reported as a gap
  (`reordered_fills_are_anomalous`), although their cumulative quantities tell their order: the
  fills of positive quantities add up to these in one order only.
-/

namespace TradingAgent

namespace StoredTradeUpdate

variable (update : StoredTradeUpdate)

/-- The instant at which the event occurred, if its time is one. -/
def instant : ℤ := (update.occurredAt.getD default).instant

def isExecution : Bool := update.eventType ∈ EXECUTION_EVENT_TYPES

def isTerminal : Bool := update.eventType ∈ TERMINAL_EVENT_TYPES

/-- The quantity that was executed, as a rational number. -/
def executed : ℚ := (update.executionQuantity.getD 0).toRat

/-- The amount for which the quantity was executed. -/
def executedNotional : ℚ := update.executed * (update.executionPrice.getD 0).toRat

/-- The cumulative quantity that the event reports. -/
def reported : ℚ := update.cumulativeFilledQuantity.toRat

end StoredTradeUpdate

/-- The executions among some events. -/
def fills (updates : List StoredTradeUpdate) : List StoredTradeUpdate :=
  updates.filter (·.isExecution)

/-- The quantity that the executions add up to. -/
def filledTotal (updates : List StoredTradeUpdate) : ℚ := ((fills updates).map (·.executed)).sum

def filledNotional (updates : List StoredTradeUpdate) : ℚ :=
  ((fills updates).map (·.executedNotional)).sum

/-- The events of an order, in the order in which they occurred: the cumulative quantities of the
    fills are the running sums of their quantities, the times do not decrease, and at most the
    last event is terminal. The numbers of the events in the ledger are any different ones. -/
structure ConsistentHistory (intent : StoredIntent) (history : List StoredTradeUpdate) : Prop where
  nodup_eventIds : (history.map (·.eventId)).Nodup
  nodup_eventKeys : (history.map (·.eventKey)).Nodup
  aware : ∀ update ∈ history, ∃ time, update.occurredAt = some time ∧ time.aware = true
  reported : ∀ update ∈ history,
    ∃ quantity, update.cumulativeFilledQuantity = .finite quantity ∧ 0 ≤ quantity
  executed : ∀ update ∈ fills history, ∃ quantity price,
    update.executionQuantity = some (.finite quantity) ∧ 0 < quantity
      ∧ update.executionPrice = some (.finite price) ∧ 0 < price
  running_sums : IsRunningSum StoredTradeUpdate.executed StoredTradeUpdate.reported 0 (fills history)
  chronological : history.Pairwise (·.instant ≤ ·.instant)
  terminal_last : history.Pairwise fun update _ => update.isTerminal = false
  complete : ∀ update ∈ history, update.eventType = .fill →
    update.cumulativeFilledQuantity = (intent.quantity : Decimal)

/-- The fills of the same time have arrived in the order in which they were executed, each with
    an identity, and no event reports more than the fills add up to. -/
structure ArrivedInOrder (history : List StoredTradeUpdate) : Prop where
  ties : (fills history).Pairwise fun a b => a.instant = b.instant → a.eventId < b.eventId
  executionIds : ∀ update ∈ fills history, update.executionId ≠ none
  reported_le : ∀ update ∈ history, update.reported ≤ filledTotal history

/-- A state of the order is the one after its history: with the quantity and the average price of
    all fills, complete and terminal as the history is, and no anomaly in the executions. -/
structure ProjectsHistory (history : List StoredTradeUpdate) (state : BrokerOrderLedgerState) :
    Prop where
  cumulative : state.cumulativeFilledQuantity = .finite (filledTotal history)
  average : state.executionAveragePrice =
    if 0 < filledTotal history then
      some (.finite (filledNotional history / filledTotal history))
    else none
  terminal : state.terminal = history.any (·.isTerminal)
  completeFill : state.completeFill = history.any (·.eventType = .fill)
  detailComplete : state.executionDetailComplete = true
  anomalies : ∀ reason ∈ state.anomalyReasons, reason ∈ [REPLACED_REASON, UNLINKED_ORDERS_REASON]

/-! ## The order of the projection -/

/-- The order in which the events are projected. -/
def projectedBefore (a b : StoredTradeUpdate) : Prop :=
  a.instant < b.instant ∨ a.instant = b.instant ∧ a.eventId ≤ b.eventId

instance : Std.Total updateBefore where
  total a b := by
    rw [updateBefore, updateBefore, DateTime.lt_def, DateTime.lt_def]
    omega

instance : IsTrans (DateTime × StoredTradeUpdate) updateBefore where
  trans a b c := by
    simp only [updateBefore, DateTime.lt_def]
    omega

section

variable {intent : StoredIntent} {history updates : List StoredTradeUpdate}

/-- The events are projected all, in their order. -/
theorem orderedUpdates_spec
    (haware : ∀ update ∈ updates, ∃ time, update.occurredAt = some time ∧ time.aware = true) :
    ∃ ordered, orderedUpdates updates = .ok ordered ∧ ordered.Perm updates
      ∧ ordered.Pairwise projectedBefore := by
  let keyed := updates.map fun update => (update.occurredAt.getD default, update)
  have hkeyed : (updates.mapM fun event => do
      let instant ← instantOf event.occurredAt
      pure (instant, event)) = .ok keyed := by
    refine Except.mapM_eq_map fun update hupdate => ?_
    obtain ⟨time, htime, haware⟩ := haware update hupdate
    rw [htime, instantOf, if_neg (not_not.2 haware)]
    rfl
  refine ⟨(keyed.insertionSort updateBefore).map (·.2), ?_, ?_, ?_⟩
  · rw [orderedUpdates, hkeyed]
    rfl
  · refine ((List.perm_insertionSort updateBefore keyed).map _).trans ?_
    rw [List.map_map]
    exact List.Perm.of_eq (List.map_id updates)
  · rw [List.pairwise_map]
    -- The times by which the sort orders are those of the events.
    refine (List.pairwise_insertionSort updateBefore keyed).imp_of_mem fun ha hb hab => ?_
    obtain ⟨a, -, rfl⟩ := List.mem_map.1 ((List.mem_insertionSort _).1 ha)
    obtain ⟨b, -, rfl⟩ := List.mem_map.1 ((List.mem_insertionSort _).1 hb)
    exact hab

theorem fills_perm (h : updates.Perm history) : (fills updates).Perm (fills history) :=
  h.filter _

/-- If the fills of the same time have arrived in the order of the history, they are projected in
    that order. -/
theorem fills_eq_of_ties (hconsistent : ConsistentHistory intent history)
    (hperm : updates.Perm history) (hordered : updates.Pairwise projectedBefore)
    (hties : (fills history).Pairwise fun a b => a.instant = b.instant → a.eventId < b.eventId) :
    fills updates = fills history := by
  refine (fills_perm hperm).eq_of_pairwise
    (fun a b ha hb (hab : projectedBefore a b) hba => ?_) (hordered.filter _) ?_
  · have heq : a.eventId = b.eventId := by
      rw [projectedBefore] at hab hba
      omega
    have hmem : ∀ update ∈ fills history, update ∈ history := fun _ h => (List.mem_filter.1 h).1
    exact List.inj_on_of_nodup_map hconsistent.nodup_eventIds
      (hmem a ((fills_perm hperm).mem_iff.1 ha)) (hmem b hb) heq
  · refine (hties.and (hconsistent.chronological.filter _)).imp fun ⟨htie, hle⟩ => ?_
    rcases hle.lt_or_eq with hlt | heq
    · exact .inl hlt
    · exact .inr ⟨heq, (htie heq).le⟩

/-- If the fills are projected in the order of the history, those of the same time have arrived in
    that order. -/
theorem ties_of_fills_eq (hconsistent : ConsistentHistory intent history)
    (hordered : updates.Pairwise projectedBefore) (heq : fills updates = fills history) :
    (fills history).Pairwise fun a b => a.instant = b.instant → a.eventId < b.eventId := by
  have hids : (fills history).Pairwise fun a b => a.eventId ≠ b.eventId :=
    (List.pairwise_map.1 hconsistent.nodup_eventIds).filter _
  have hprojected : (fills history).Pairwise projectedBefore := heq ▸ hordered.filter _
  refine (hids.and hprojected).imp fun ⟨hne, hab⟩ htie => ?_
  rw [projectedBefore] at hab
  omega

/-! ## The executions -/

/-- The loop over the executions adds them up, and finds no fault exactly if the cumulative
    quantities are the running sums and each execution has an identity. -/
theorem streamPass_spec {executions : List StoredTradeUpdate}
    (hexecuted : ∀ update ∈ executions, ∃ quantity price,
      update.executionQuantity = some (.finite quantity)
        ∧ update.executionPrice = some (.finite price))
    (hreported : ∀ update ∈ executions, update.cumulativeFilledQuantity.isFinite = true) :
    let sums := streamPass.run {} executions
    sums.quantity = .finite (executions.map (·.executed)).sum
      ∧ sums.notional = .finite (executions.map (·.executedNotional)).sum
      ∧ (sums.reasons = [] ↔
          IsRunningSum StoredTradeUpdate.executed StoredTradeUpdate.reported 0 executions
            ∧ ∀ update ∈ executions, update.executionId ≠ none) := by
  induction executions using List.reverseRecOn with
  | nil => exact ⟨rfl, rfl, by simp [IsRunningSum]⟩
  | append_singleton executions execution ih =>
    obtain ⟨hquantity, hnotional, hreasons⟩ :=
      ih (fun u hu => hexecuted u (List.mem_append_left _ hu))
        (fun u hu => hreported u (List.mem_append_left _ hu))
    have hmem : execution ∈ executions ++ [execution] :=
      List.mem_append_right _ (List.mem_singleton_self execution)
    obtain ⟨quantity, price, hq, hp⟩ := hexecuted execution hmem
    obtain ⟨reported, hr⟩ := Decimal.isFinite_iff.1 (hreported execution hmem)
    have hexec : execution.executed = quantity := by rw [StoredTradeUpdate.executed, hq]; rfl
    have hexecNotional : execution.executedNotional = quantity * price := by
      rw [StoredTradeUpdate.executedNotional, hexec, hp]
      rfl
    have hrep : execution.reported = reported := by rw [StoredTradeUpdate.reported, hr]; rfl
    rw [streamPass.run_concat]
    generalize streamPass.run {} executions = before at hquantity hnotional hreasons
    simp only [streamPass, hq, hp, hr, hquantity, hnotional, Option.elim_some,
      Decimal.finite_add_finite, Decimal.finite_mul_finite, List.map_append, List.sum_append,
      List.map_singleton, List.sum_singleton, hexec, hexecNotional, reduceCtorEq, if_false]
    refine ⟨trivial, trivial, ?_⟩
    rw [IsRunningSum.concat_iff, List.append_nil, List.append_eq_nil_iff, List.append_eq_nil_iff,
      hreasons, hrep, hexec, List.forall_mem_append, List.forall_mem_singleton]
    simp only [ite_eq_right_iff, List.cons_ne_nil, imp_false, Decimal.finite.injEq, zero_add,
      not_not]
    tauto

namespace ConsistentHistory

variable (h : ConsistentHistory intent history)
include h

theorem filledTotal_nonneg : 0 ≤ filledTotal history := by
  refine List.sum_nonneg fun quantity hmem => ?_
  obtain ⟨update, hupdate, rfl⟩ := List.mem_map.1 hmem
  obtain ⟨quantity, price, hquantity, hpos, -⟩ := h.executed update hupdate
  rw [StoredTradeUpdate.executed, hquantity]
  exact hpos.le

theorem executed_pos : ∀ update ∈ fills history, 0 < update.executed := by
  intro update hupdate
  obtain ⟨quantity, price, hquantity, hpos, -⟩ := h.executed update hupdate
  rw [StoredTradeUpdate.executed, hquantity]
  exact hpos

/-- The fills, if there are some, are reported to add up to their total. -/
theorem exists_reported_eq (hne : fills history ≠ []) :
    ∃ update ∈ history, update.reported = filledTotal history := by
  obtain ⟨update, hupdate, htotal⟩ := h.running_sums.exists_total hne
  refine ⟨update, (List.mem_filter.1 hupdate).1, ?_⟩
  rw [htotal, zero_add, filledTotal]

/-- The greatest quantity that some events report. -/
theorem maximum_reported (hperm : updates.Perm history) :
    ∃ m, Decimal.maximum 0 (updates.map (·.cumulativeFilledQuantity)) = .finite m
      ∧ (0 < m → ∃ update ∈ history, update.reported = m)
      ∧ 0 ≤ m
      ∧ ∀ update ∈ history, update.reported ≤ m := by
  have hfinite : updates.map (·.cumulativeFilledQuantity)
      = (updates.map (·.reported)).map Decimal.finite := by
    rw [List.map_map]
    refine List.map_congr_left fun update hupdate => ?_
    obtain ⟨quantity, hquantity, -⟩ := h.reported update (hperm.mem_iff.1 hupdate)
    simp [StoredTradeUpdate.reported, hquantity]
  obtain ⟨m, hm, hmem, hle⟩ := Decimal.maximum_map_finite (updates.map (·.reported))
  refine ⟨m, by rw [hfinite, hm], fun hpos => ?_, ?_, fun update hupdate => ?_⟩
  · rcases hmem with hmem | ⟨-, rfl⟩
    · obtain ⟨update, hupdate, rfl⟩ := List.mem_map.1 hmem
      exact ⟨update, hperm.mem_iff.1 hupdate, rfl⟩
    · exact absurd hpos (lt_irrefl 0)
  · rcases hmem with hmem | ⟨-, rfl⟩
    · obtain ⟨update, hupdate, rfl⟩ := List.mem_map.1 hmem
      obtain ⟨quantity, hquantity, hnonneg⟩ := h.reported update (hperm.mem_iff.1 hupdate)
      rw [StoredTradeUpdate.reported, hquantity]
      exact hnonneg
    · exact le_rfl
  · exact hle _ (List.mem_map_of_mem (hperm.mem_iff.2 hupdate))

/-- If no event reports more than the fills add up to, the greatest quantity reported is that. -/
theorem maximum_eq_filledTotal (hperm : updates.Perm history)
    (hle : ∀ update ∈ history, update.reported ≤ filledTotal history) :
    Decimal.maximum 0 (updates.map (·.cumulativeFilledQuantity)) = .finite (filledTotal history) := by
  obtain ⟨m, hm, hmem, hnonneg, hall⟩ := h.maximum_reported hperm
  have hmle : m ≤ filledTotal history := by
    rcases hnonneg.eq_or_lt with rfl | hpos
    · exact h.filledTotal_nonneg
    · obtain ⟨update, hupdate, rfl⟩ := hmem hpos
      exact hle update hupdate
  have hlem : filledTotal history ≤ m := by
    by_cases hne : fills history = []
    · rw [filledTotal, hne]
      exact hnonneg
    · obtain ⟨update, hupdate, heq⟩ := h.exists_reported_eq hne
      exact heq ▸ hall update hupdate
  rw [hm, le_antisymm hmle hlem]

/-- The events of the order stream, as they are projected, have no fault exactly if they have
    arrived in order, and then they say what the history does. -/
theorem projectStream_spec (hperm : updates.Perm history)
    (hordered : updates.Pairwise projectedBefore) :
    ((projectStream updates).reasons = [] ↔ ArrivedInOrder history)
      ∧ (ArrivedInOrder history →
          (projectStream updates).cumulative = .finite (filledTotal history)
          ∧ (projectStream updates).average =
              if 0 < filledTotal history then
                some (.finite (filledNotional history / filledTotal history))
              else none) := by
  have hmem : ∀ update ∈ fills updates, update ∈ fills history :=
    fun update hupdate => (fills_perm hperm).mem_iff.1 hupdate
  obtain ⟨hquantity, hnotional, hreasons⟩ := @streamPass_spec (fills updates)
    (fun update hupdate => by
      obtain ⟨quantity, price, hq, -, hp, -⟩ := h.executed update (hmem update hupdate)
      exact ⟨quantity, price, hq, hp⟩)
    (fun update hupdate => by
      obtain ⟨quantity, hq, -⟩ := h.reported update (List.mem_filter.1 (hmem update hupdate)).1
      rw [hq]
      rfl)
  rw [((fills_perm hperm).map _).sum_eq] at hquantity hnotional
  obtain ⟨m, hm, -, hnonneg, hall⟩ := h.maximum_reported hperm
  change (streamPass.run {} (fills updates)).quantity = .finite (filledTotal history) at hquantity
  change (streamPass.run {} (fills updates)).notional = .finite (filledNotional history)
    at hnotional
  have hstream : (projectStream updates).reasons = [] ↔
      (streamPass.run {} (fills updates)).reasons = [] ∧ (0 < m → filledTotal history = m) := by
    change (streamPass.run {} (fills updates)).reasons ++ _ = [] ↔ _
    rw [List.append_eq_nil_iff, hm]
    refine and_congr_right fun _ => ?_
    change (if 0 < Decimal.finite m ∧
      (streamPass.run {} (fills updates)).quantity ≠ Decimal.finite m then _ else _) = _ ↔ _
    rw [hquantity]
    simp
  have hiff : (projectStream updates).reasons = [] ↔ ArrivedInOrder history := by
    rw [hstream, hreasons]
    constructor
    · rintro ⟨⟨hsums, hids⟩, htotal⟩
      -- The running sums have one order only, so the fills are projected in that of the history.
      have heq : fills updates = fills history := hsums.eq_of_perm
        (fun update hupdate => h.executed_pos update (hmem update hupdate)) h.running_sums
        (fills_perm hperm)
      refine ⟨ties_of_fills_eq h hordered heq, fun update hupdate => hids update (heq ▸ hupdate),
        fun update hupdate => (hall update hupdate).trans ?_⟩
      rcases hnonneg.eq_or_lt with hzero | hpos
      · exact hzero ▸ h.filledTotal_nonneg
      · exact (htotal hpos).ge
    · intro harrived
      have heq := fills_eq_of_ties h hperm hordered harrived.ties
      rw [h.maximum_eq_filledTotal hperm harrived.reported_le] at hm
      rw [heq]
      exact ⟨⟨h.running_sums, harrived.executionIds⟩, fun _ => Decimal.finite.inj hm⟩
  refine ⟨hiff, fun harrived => ?_⟩
  refine ⟨h.maximum_eq_filledTotal hperm harrived.reported_le, ?_⟩
  change (if 0 < (streamPass.run {} (fills updates)).quantity
      ∧ (projectStream updates).reasons = [] then
    some ((streamPass.run {} (fills updates)).notional
      / (streamPass.run {} (fills updates)).quantity) else none) = _
  rw [hquantity, hnotional]
  by_cases hpos : 0 < filledTotal history
  · rw [if_pos ⟨hpos, hiff.2 harrived⟩, if_pos hpos, Decimal.finite_div_finite hpos.ne']
  · rw [if_neg fun hlt => hpos hlt.1, if_neg hpos]

theorem instantOf_eq {update : StoredTradeUpdate} (hmem : update ∈ history) :
    instantOf update.occurredAt = .ok (update.occurredAt.getD default) := by
  obtain ⟨time, htime, haware⟩ := h.aware update hmem
  rw [htime, instantOf, if_neg (not_not.2 haware)]
  rfl

/-- The projection of the executions, from the order stream alone. -/
theorem projectBrokerExecution_spec {evidence : BrokerOrderEvidence}
    (hperm : evidence.tradeUpdates.Perm history) :
    ∃ execution, projectBrokerExecution intent evidence none = .ok execution
      ∧ execution.orderedUpdates.Perm history
      ∧ execution.completeFill = history.any (·.eventType = .fill)
      ∧ (execution.detailComplete = true ↔ ArrivedInOrder history)
      ∧ (ArrivedInOrder history →
          execution.cumulativeQuantity = .finite (filledTotal history)
          ∧ execution.averagePrice =
              (if 0 < filledTotal history then
                some (.finite (filledNotional history / filledTotal history))
              else none)
          ∧ execution.reasons = []) := by
  obtain ⟨ordered, hupdates, hordered, hsorted⟩ := @orderedUpdates_spec evidence.tradeUpdates
    fun update hmem => h.aware update (hperm.mem_iff.1 hmem)
  have hperm' : ordered.Perm history := hordered.trans hperm
  obtain ⟨hreasons, hvalues⟩ := h.projectStream_spec hperm' hsorted
  -- A fill reports the quantity of the intent.
  have hfill : evidence.tradeUpdates.any (fun event => event.eventType = .fill
      ∧ event.cumulativeFilledQuantity = (intent.quantity : Decimal))
      = history.any (·.eventType = .fill) := by
    rw [Bool.eq_iff_iff, List.any_eq_true, List.any_eq_true]
    refine exists_congr fun event => ?_
    rw [hperm.mem_iff]
    refine and_congr_right fun hmem => ?_
    rw [decide_eq_true_eq, decide_eq_true_eq]
    exact and_iff_left_of_imp (h.complete event hmem)
  have hany : evidence.tradeUpdates.any (·.eventType = .fill)
      = history.any (·.eventType = .fill) := by
    rw [Bool.eq_iff_iff, List.any_eq_true, List.any_eq_true]
    exact exists_congr fun event => and_congr_left fun _ => hperm.mem_iff
  rw [projectBrokerExecution, hupdates]
  refine ⟨_, rfl, hperm', ?_, ?_, fun harrived => ?_⟩
  · simp only [hfill, Option.any_none, Bool.or_false]
  · rw [← hreasons]
    by_cases hnil : (projectStream ordered).reasons = []
    · simp [hnil]
    · simp [hnil]
  · obtain ⟨hcumulative, haverage⟩ := hvalues harrived
    refine ⟨hcumulative, haverage, ?_⟩
    simp only [hreasons.2 harrived, hfill, hany, Option.any_none, Bool.or_false, ne_eq,
      not_true_eq_false, false_and, if_false, and_not_self, List.append_nil, List.dedup_nil]
    rfl

end ConsistentHistory

/-! ## Terminal events -/

/-- No event occurs after a terminal one. -/
theorem instant_le_of_isTerminal
    (h : history.Pairwise fun a b => a.isTerminal = false ∧ a.instant ≤ b.instant)
    {last : StoredTradeUpdate} (hlast : last ∈ history) (hterminal : last.isTerminal = true) :
    ∀ update ∈ history, update.instant ≤ last.instant := by
  induction h with
  | nil => exact absurd hlast List.not_mem_nil
  | cons hfirst _ ih =>
    rcases List.mem_cons.1 hlast with rfl | hlast
    · refine List.forall_mem_cons.2 ⟨le_rfl, fun update hupdate => ?_⟩
      exact absurd ((hfirst update hupdate).1.symm.trans hterminal) Bool.false_ne_true
    · exact List.forall_mem_cons.2 ⟨(hfirst last hlast).2, ih hlast⟩

/-- At most one event is terminal. -/
theorem length_filter_isTerminal_le
    (h : history.Pairwise fun update _ => update.isTerminal = false) :
    (history.filter (·.isTerminal)).length ≤ 1 := by
  induction h with
  | nil => exact Nat.zero_le 1
  | @cons first rest hfirst _ ih =>
    by_cases hterminal : first.isTerminal = true
    · have hrest : rest = [] := List.eq_nil_iff_forall_not_mem.2 fun update hupdate =>
        absurd ((hfirst update hupdate).symm.trans hterminal) Bool.false_ne_true
      rw [hrest, List.filter_cons_of_pos hterminal]
      exact le_rfl
    · rwa [List.filter_cons_of_neg hterminal]

theorem foldl_least_mem (first : DateTime) (others : List DateTime) :
    others.foldl (fun least time => if time < least then time else least) first
      ∈ first :: others := by
  induction others generalizing first with
  | nil => exact List.mem_singleton_self first
  | cons time others ih =>
    rw [List.foldl_cons]
    have hmem := ih (if time < first then time else first)
    split_ifs at hmem ⊢
    · exact List.mem_cons_of_mem first hmem
    · rcases List.mem_cons.1 hmem with heq | hmem
      · rw [heq]
        exact List.mem_cons_self
      · exact List.mem_cons_of_mem first (List.mem_cons_of_mem time hmem)

namespace ConsistentHistory

variable (h : ConsistentHistory intent history)
include h

/-- There is no event after the terminal one. -/
theorem terminalOrderAnomalies_eq_nil (hperm : updates.Perm history) :
    terminalOrderAnomalies updates = .ok [] := by
  have htimes : ∀ p : StoredTradeUpdate → Bool, ∀ update ∈ updates.filter p,
      instantOf update.occurredAt = .ok (update.occurredAt.getD default) :=
    fun p update hupdate => h.instantOf_eq (hperm.mem_iff.1 (List.mem_filter.1 hupdate).1)
  have hpair := h.terminal_last.and h.chronological
  rw [terminalOrderAnomalies, Except.mapM_eq_map (htimes _), Except.ok_bind]
  cases hterminal : (updates.filter (·.eventType ∈ TERMINAL_EVENT_TYPES)).map
      (·.occurredAt.getD default) with
  | nil => rfl
  | cons first others =>
    -- The least terminal time is that of a terminal event, which no event is later than.
    have hleast := hterminal ▸ foldl_least_mem first others
    obtain ⟨last, hlast, heq⟩ := List.mem_map.1 hleast
    obtain ⟨hlast, hisTerminal⟩ := List.mem_filter.1 hlast
    have hle := instant_le_of_isTerminal hpair (hperm.mem_iff.1 hlast) hisTerminal
    have hlater := Except.mapM_eq_map (l := updates.filter (·.eventType ∈ INVALID_AFTER_TERMINAL))
      (f := fun event => do
        let instant ← instantOf event.occurredAt
        pure (decide (others.foldl (fun least time => if time < least then time else least) first
          < instant)))
      (g := fun _ => false) fun update hupdate => by
        rw [htimes _ update hupdate]
        refine congrArg Except.ok (decide_eq_false fun hlt => ?_)
        rw [← heq, DateTime.lt_def] at hlt
        exact absurd hlt (hle update (hperm.mem_iff.1 (List.mem_filter.1 hupdate).1)).not_gt
    dsimp only
    rw [hlater, Except.ok_bind]
    simp

/-- The terminal events of a history have one type at most. -/
theorem length_terminalTypes_le (hperm : updates.Perm history) :
    ((updates.map (·.eventType)).filter (· ∈ TERMINAL_EVENT_TYPES)).dedup.length ≤ 1 := by
  refine (List.dedup_sublist _).length_le.trans ?_
  rw [List.filter_map, List.length_map]
  exact ((hperm.filter _).length_eq.le).trans (length_filter_isTerminal_le h.terminal_last)

end ConsistentHistory

/-- Besides its history, only the submission of an order is known. -/
structure OnlySubmitted (evidence : BrokerOrderEvidence) : Prop where
  submitted : ∀ event ∈ evidence.brokerEvents, event.eventType = .submitted
  recoveryOrders : evidence.recoveryOrders = []

/-- The state of an order has the values of its executions, and no other anomaly than a
    replacement, or several orders at the broker. -/
theorem projectBrokerOrderState_spec (h : ConsistentHistory intent history)
    {evidence : BrokerOrderEvidence} (hperm : evidence.tradeUpdates.Perm history)
    (hevidence : OnlySubmitted evidence) {execution : BrokerExecutionProjection}
    (hexecution : projectBrokerExecution intent evidence none = .ok execution)
    (hordered : execution.orderedUpdates.Perm history) :
    ∃ state, projectBrokerOrderState intent evidence = .ok state
      ∧ state.cumulativeFilledQuantity = execution.cumulativeQuantity
      ∧ state.executionAveragePrice = execution.averagePrice
      ∧ state.terminal = history.any (·.isTerminal)
      ∧ state.completeFill = execution.completeFill
      ∧ state.executionDetailComplete = execution.detailComplete
      ∧ ∀ reason ∈ state.anomalyReasons,
          reason ∈ execution.reasons ++ [REPLACED_REASON, UNLINKED_ORDERS_REASON] := by
  have hterminal : evidence.tradeUpdates.any (·.eventType ∈ TERMINAL_EVENT_TYPES)
      = history.any (·.isTerminal) := by
    rw [Bool.eq_iff_iff, List.any_eq_true, List.any_eq_true]
    exact exists_congr fun event => and_congr_left fun _ => hperm.mem_iff
  have hlegacy : evidence.brokerEvents.any (·.eventType ∈ EXECUTION_EVENT_TYPES) = false := by
    rw [List.any_eq_false]
    intro event hevent
    rw [hevidence.submitted event hevent]
    decide
  have hlifecycle : evidence.brokerEvents.any (·.eventType ≠ .submitted) = false := by
    rw [List.any_eq_false]
    intro event hevent
    simp [hevidence.submitted event hevent]
  have hbroker : (evidence.brokerEvents.map (·.eventType)).filter (· ∈ TERMINAL_EVENT_TYPES)
      = [] := by
    rw [List.filter_eq_nil_iff]
    intro type htype
    obtain ⟨event, hevent, rfl⟩ := List.mem_map.1 htype
    rw [hevidence.submitted event hevent]
    decide
  have hlatest : latestRecoveryOrder evidence.recoveryOrders = (none, []) := by
    rw [hevidence.recoveryOrders]
    rfl
  rw [projectBrokerOrderState, hlatest]
  dsimp only
  rw [hexecution, Except.ok_bind]
  rw [h.terminalOrderAnomalies_eq_nil hordered, Except.ok_bind]
  refine ⟨_, rfl, rfl, rfl, ?_, rfl, rfl, fun reason hreason => ?_⟩
  · simp [hterminal]
  · simp only [List.mem_insertionSort, List.mem_dedup, hlegacy, hlifecycle, List.filter_append,
      hbroker, List.nil_append, Option.bind_none, Option.toList_none, List.append_nil,
      List.length_insertionSort, (h.length_terminalTypes_le hperm).not_gt, Option.elim_none,
      List.mem_append] at hreason
    refine List.mem_append.2 (hreason.imp_right fun hreason => ?_)
    obtain ⟨⟨bad, text⟩, hcheck, rfl⟩ := List.mem_map.1 hreason
    obtain ⟨hcheck, hbad⟩ := List.mem_filter.1 hcheck
    simp only [List.mem_cons, Prod.mk.injEq, List.not_mem_nil, or_false] at hcheck
    rcases hcheck with ⟨rfl, -⟩ | ⟨rfl, -⟩ | ⟨-, rfl⟩ | ⟨rfl, -⟩ | ⟨-, rfl⟩
    · exact absurd hbad Bool.false_ne_true
    · exact absurd hbad Bool.false_ne_true
    · exact List.mem_cons_self
    · exact absurd hbad Bool.false_ne_true
    · exact List.mem_cons_of_mem _ (List.mem_singleton_self _)

end

/-! ## Two fills of the same time -/

namespace ReorderedFills

def time : DateTime := .combine (.ofCivil 2026 7 15) 14 0 0

def intent : StoredIntent where
  intentId := "intent-1"
  strategyId := "orb"
  strategyVersion := "v1"
  symbol := "AAA"
  createdAt := some (time - TimeDelta.minutes 1)
  side := .buy
  entryLimit := 10
  stop := 9
  target1r := 11
  target2r := 12
  quantity := 10

theorem toRat_literals :
    Decimal.toRat 4 = 4 ∧ Decimal.toRat 6 = 6 ∧ Decimal.toRat 10 = 10 :=
  ⟨rfl, rfl, rfl⟩

/-- A fill of 4 shares, under a number in the ledger. -/
def firstFill (eventId : ℤ) : StoredTradeUpdate where
  eventId
  eventKey := "alpaca:execution:1"
  intentId := "intent-1"
  occurredAt := some time
  eventType := .partialFill
  brokerOrderId := "broker-1"
  executionId := some "1"
  cumulativeFilledQuantity := 4
  executionQuantity := some 4
  executionPrice := some 10
  replacedByOrderId := none
  replacesOrderId := none

/-- The fill of the other 6 shares, at the same time. -/
def secondFill (eventId : ℤ) : StoredTradeUpdate :=
  { firstFill eventId with
    eventKey := "alpaca:execution:2"
    eventType := .fill
    executionId := some "2"
    cumulativeFilledQuantity := 10
    executionQuantity := some 6 }

def history (first second : ℤ) : List StoredTradeUpdate := [firstFill first, secondFill second]

theorem consistentHistory {first second : ℤ} (hne : first ≠ second) :
    ConsistentHistory intent (history first second) where
  nodup_eventIds := by simpa [history, firstFill, secondFill] using hne
  nodup_eventKeys := by simp [history, firstFill, secondFill]
  aware := by simp [history, firstFill, secondFill, time, DateTime.combine, DateTime.aware]
  reported := by simp [history, firstFill, secondFill]
  executed := by
    simp [history, fills, firstFill, secondFill, StoredTradeUpdate.isExecution,
      EXECUTION_EVENT_TYPES]
  running_sums := by
    norm_num [history, fills, firstFill, secondFill, StoredTradeUpdate.isExecution,
      EXECUTION_EVENT_TYPES, IsRunningSum, StoredTradeUpdate.executed, StoredTradeUpdate.reported,
      -Decimal.ofNat_eq, toRat_literals]
  chronological := by simp [history, StoredTradeUpdate.instant, firstFill, secondFill]
  terminal_last := by
    simp [history, StoredTradeUpdate.isTerminal, firstFill, TERMINAL_EVENT_TYPES]
  complete := by simp [history, firstFill, secondFill, intent, Decimal.intCast_eq]

/-- The evidence, if the first fill is stored under number 1 and the second under number 2, or the
    other way round. -/
def evidence (updates : List StoredTradeUpdate) : BrokerOrderEvidence where
  brokerEvents := [⟨.submitted, "broker-1"⟩]
  tradeUpdates := updates
  recoveryOrders := []
  accountActivities := []

theorem onlySubmitted (updates : List StoredTradeUpdate) : OnlySubmitted (evidence updates) :=
  ⟨by simp [evidence], rfl⟩

end ReorderedFills

end TradingAgent
