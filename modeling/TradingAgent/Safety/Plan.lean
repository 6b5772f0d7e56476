import TradingAgent.Library.Rounding
import TradingAgent.Safety.Execution
import TradingAgent.Safety.Scope
import TradingAgent.Safety.Store

/-!
# What a safety plan is worth

A plan of the planner should be complete and exact (`Flattens`), its phase should be that of the
kill switch whenever the loss of the day asks for it, the store should keep it (`IsKept`), and its
actions should be run in order (`ExecutesInOrder`).

The store checks more of a plan than the planner does. A plan that flattens the account is checked
for order identities that repeat, but one that only cancels the entries is not: the planner
returns it before that check, and the store then refuses it. So the plan is worth all that exactly
if the account obeys the rules of the store (`meetsSafety_iff`).
-/

namespace TradingAgent

theorem length_eq_length_dedup_iff {α : Type*} [DecidableEq α] {l : List α} :
    l.length = l.dedup.length ↔ l.Nodup := by
  rw [← List.dedup_eq_self]
  exact ⟨fun h => (List.dedup_sublist l).eq_of_length h.symm, fun h => by rw [h]⟩

/-! ## Flattening -/

def cancelEntry (order : PaperOrderSnapshot) : PaperSafetyAction :=
  .cancelOrder ⟨order.brokerOrderId, order.symbol, false⟩

def cancelProtection (oco : ProtectiveOcoSnapshot) : PaperSafetyAction :=
  .cancelOrder ⟨oco.takeProfit.brokerOrderId, oco.takeProfit.symbol, true⟩

/-- The close of a position with the opposite side and all of its quantity. -/
def exactClose (position : PaperPositionSnapshot) : PaperClosePositionAction where
  symbol := position.symbol
  side := if 0 < position.quantity then .sell else .buy
  quantity := position.quantity.abs

/-- The close that an action is. -/
def closeOf? : PaperSafetyAction → Option PaperClosePositionAction
  | .cancelOrder _ => none
  | .closePosition action => some action

/-- Some actions flatten an account: they cancel every open order, then every protective OCO, and
    then close every position, each of them exactly once. -/
structure Flattens (state : PaperBrokerState) (actions : List PaperSafetyAction) : Prop where
  exact : ∃ orders ocos positions, List.Perm orders state.openOrders ∧
    List.Perm ocos state.protectiveOcos ∧ List.Perm positions state.positions ∧
    actions = orders.map cancelEntry ++ ocos.map cancelProtection ++
      positions.map fun position => .closePosition (exactClose position)
  nodup_ids : (actions.filterMap (·.cancelId?)).Nodup
  nodup_symbols : (actions.filterMap (·.closeSymbol?)).Nodup

section

variable {state : PaperBrokerState} {actions : List PaperSafetyAction}

/-- The open orders in the order in which they are canceled. -/
def sortedOrders (state : PaperBrokerState) : List PaperOrderSnapshot :=
  state.openOrders.insertionSort fun a b => a.brokerOrderId ≤ b.brokerOrderId

def sortedOcos (state : PaperBrokerState) : List ProtectiveOcoSnapshot :=
  state.protectiveOcos.insertionSort fun a b =>
    a.takeProfit.brokerOrderId ≤ b.takeProfit.brokerOrderId

def sortedPositions (state : PaperBrokerState) : List PaperPositionSnapshot :=
  state.positions.insertionSort fun a b => a.symbol ≤ b.symbol

theorem map_entryCancels : (entryCancels state).map PaperSafetyAction.cancelOrder =
    (sortedOrders state).map cancelEntry := by
  rw [entryCancels, List.map_map]
  rfl

theorem map_protectiveCancels : (protectiveCancels state).map PaperSafetyAction.cancelOrder =
    (sortedOcos state).map cancelProtection := by
  rw [protectiveCancels, List.map_map]
  rfl

variable (state) in
/-- The actions that flatten the account, as the planner has them. -/
def flatActions : List PaperSafetyAction :=
  (sortedOrders state).map cancelEntry ++ (sortedOcos state).map cancelProtection ++
    (sortedPositions state).map fun position => .closePosition (closeAction position)

/-- The positions that the planner closes. -/
structure IsClosable (positions : List PaperPositionSnapshot) : Prop where
  nodup : (positions.map (·.symbol)).Nodup
  symbol : ∀ position ∈ positions, position.symbol ≠ "" ∧ isUpper position.symbol = true
  quantity : ∀ position ∈ positions, position.quantity.isFinite = true ∧ position.quantity ≠ 0 ∧
    (absQuantity position).isIntegral = true

theorem isClosable_of_positionReasons {positions : List PaperPositionSnapshot}
    (h : positionReasons positions = []) : IsClosable positions := by
  rw [positionReasons] at h
  split_ifs at h with hlength hbad
  simp only [not_exists, not_and, not_or, not_not] at hbad
  refine ⟨length_eq_length_dedup_iff.1 (not_not.1 hlength), fun position hposition => ?_,
    fun position hposition => ?_⟩
  · exact ⟨(hbad position hposition).1, (hbad position hposition).2.1⟩
  · exact (hbad position hposition).2.2

/-- What the planner has checked of the actions that flatten the account. -/
theorem actionsForPhase_eq_flat {phase : PaperSafetyPhase}
    (hphase : phase = .killSwitch ∨ phase = .eodFlatten)
    (h : actionsForPhase phase state = .ok actions) :
    actions = flatActions state ∧ IsClosable (sortedPositions state) ∧
      ((flatActions state).filterMap (·.cancelId?)).Nodup := by
  have hids : ∀ cancels : List PaperCancelOrderAction, ∀ positions : List PaperPositionSnapshot,
      (cancels.map PaperSafetyAction.cancelOrder ++
        positions.map fun p => PaperSafetyAction.closePosition (closeAction p)).filterMap
          (·.cancelId?) =
      cancels.map (·.brokerOrderId) := by
    intro cancels positions
    simp [List.filterMap_append, List.filterMap_map, PaperSafetyAction.cancelId?]
  have hflat : flatActions state = (entryCancels state ++ protectiveCancels state).map
      PaperSafetyAction.cancelOrder ++
        (sortedPositions state).map fun p => .closePosition (closeAction p) := by
    rw [List.map_append, map_entryCancels, map_protectiveCancels, flatActions]
  rcases hphase with rfl | rfl <;>
  · rw [actionsForPhase] at h
    dsimp only at h
    split_ifs at h with hreasons hlength
    cases h
    rw [hflat, hids]
    exact ⟨rfl, isClosable_of_positionReasons (not_not.1 hreasons),
      length_eq_length_dedup_iff.1 (not_not.1 hlength)⟩

/-- The planner closes the positions exactly if their quantities have 28 digits at most. -/
theorem flattens_flatActions_iff (hclosable : IsClosable (sortedPositions state))
    (hids : ((flatActions state).filterMap (·.cancelId?)).Nodup) :
    Flattens state (flatActions state) ↔
      ∀ position ∈ state.positions, absQuantity position = position.quantity.abs := by
  have hcloses : ∀ (f : PaperPositionSnapshot → PaperClosePositionAction)
      (orders : List PaperOrderSnapshot) (ocos : List ProtectiveOcoSnapshot)
      (positions : List PaperPositionSnapshot),
      (orders.map cancelEntry ++ ocos.map cancelProtection ++
        positions.map fun p => PaperSafetyAction.closePosition (f p)).filterMap closeOf? =
      positions.map f := by
    intro f orders ocos positions
    simp [List.filterMap_append, List.filterMap_map, Function.comp_def, closeOf?, cancelEntry,
      cancelProtection]
  have hperm : (sortedPositions state).Perm state.positions := List.perm_insertionSort _ _
  refine ⟨fun h position hposition => ?_, fun hexact => ?_⟩
  · -- The close of a position is that of some position exactly, and of the same symbol.
    obtain ⟨orders, ocos, positions, -, -, hpositions, hactions⟩ := h.exact
    have hmap := congrArg (List.filterMap closeOf?) hactions
    rw [flatActions, hcloses, hcloses] at hmap
    have hmem : position ∈ sortedPositions state := hperm.mem_iff.2 hposition
    have hclose : closeAction position ∈ positions.map exactClose :=
      hmap ▸ List.mem_map_of_mem hmem
    obtain ⟨other, hother, heq⟩ := List.mem_map.1 hclose
    have hsymbol : other.symbol = position.symbol := congrArg (·.symbol) heq
    rw [List.inj_on_of_nodup_map hclosable.nodup
      (hperm.mem_iff.2 (hpositions.mem_iff.1 hother)) hmem hsymbol] at heq
    exact (congrArg (·.quantity) heq).symm
  · have hclose : (sortedPositions state).map (fun p => PaperSafetyAction.closePosition
        (closeAction p)) =
        (sortedPositions state).map fun p => .closePosition (exactClose p) := by
      refine List.map_congr_left fun position hposition => ?_
      rw [closeAction, exactClose, hexact position (hperm.mem_iff.1 hposition)]
    refine ⟨⟨sortedOrders state, sortedOcos state, sortedPositions state,
      List.perm_insertionSort _ _, List.perm_insertionSort _ _, hperm, ?_⟩, hids, ?_⟩
    · rw [flatActions, hclose]
    · have hsymbols := hclosable.nodup
      rw [flatActions]
      simpa [List.filterMap_append, List.filterMap_map, Function.comp_def, cancelEntry,
        cancelProtection, PaperSafetyAction.closeSymbol?, closeAction] using hsymbols

/-! ## The rules of the store -/

variable (state) in
/-- What the store asks of an account, and of the amounts of its portfolio, for the plans of a
    phase in which there is something to do. The planner sees to the rest. -/
structure IsStorable (portfolio : CompletePaperPortfolio) (phase : PaperSafetyPhase) : Prop where
  fingerprint : isHex64 state.account.accountFingerprint = true
  equity : portfolio.equity.isFinite = true ∧ portfolio.lastEquity.isFinite = true
  plannedRisk : ∀ exposure ∈ portfolio.exposures, exposure.kind ≠ .pendingEntry →
    exposure.plannedRisk.isFinite = true
  orders : ∀ order ∈ state.openOrders, order.brokerOrderId ≠ "" ∧ order.symbol ≠ "" ∧
    isUpper order.symbol = true
  nodup : phase = .entryCutoff → (state.openOrders.map (·.brokerOrderId)).Nodup
  ocos : phase ≠ .entryCutoff → ∀ oco ∈ state.protectiveOcos,
    oco.takeProfit.brokerOrderId ≠ "" ∧ oco.takeProfit.symbol ≠ "" ∧
      isUpper oco.takeProfit.symbol = true

theorem validAction_cancelOrder (action : PaperCancelOrderAction) :
    validAction (.cancelOrder action) = true ↔
      action.brokerOrderId ≠ "" ∧ action.symbol ≠ "" ∧ isUpper action.symbol = true := by
  simp only [validAction, validTarget, PaperSafetyAction.symbol, decide_eq_true_eq]
  tauto

/-- The close of a position that can be closed is a valid action. -/
theorem validAction_closeAction {positions : List PaperPositionSnapshot}
    (h : IsClosable positions) {position : PaperPositionSnapshot} (hmem : position ∈ positions) :
    validAction (.closePosition (closeAction position)) = true := by
  obtain ⟨hsymbol, hupper⟩ := h.symbol position hmem
  obtain ⟨hfinite, hzero, hintegral⟩ := h.quantity position hmem
  obtain ⟨q, hq⟩ := Decimal.isFinite_iff.1 hfinite
  have hpos : 0 < |q| := by
    rw [abs_pos]
    rintro rfl
    exact hzero (by rw [hq]; simp)
  have hround : absQuantity position = .finite (Decimal.digits28.round |q|) := by
    rw [absQuantity, hq, Decimal.abs_finite, Decimal.rounded_of_pos hpos]
  have hround_pos : 0 < absQuantity position := by
    rw [hround]
    simpa using Decimal.digits28_round_pos hpos
  have hround_finite : (absQuantity position).isFinite = true := by
    rw [hround]
    rfl
  exact decide_eq_true ⟨hsymbol, hupper,
    decide_eq_true ⟨hround_finite, hround_pos, hintegral⟩⟩

/-- What the planner does not check of the actions that flatten the account. -/
theorem all_validAction_flatActions (hclosable : IsClosable (sortedPositions state)) :
    (∀ action ∈ flatActions state, validAction action = true) ↔
      (∀ order ∈ state.openOrders, order.brokerOrderId ≠ "" ∧ order.symbol ≠ "" ∧
        isUpper order.symbol = true) ∧
      ∀ oco ∈ state.protectiveOcos, oco.takeProfit.brokerOrderId ≠ "" ∧
        oco.takeProfit.symbol ≠ "" ∧ isUpper oco.takeProfit.symbol = true := by
  rw [flatActions, List.forall_mem_append, List.forall_mem_append, List.forall_mem_map,
    List.forall_mem_map, List.forall_mem_map,
    and_iff_left fun p hp => validAction_closeAction hclosable hp]
  simp only [cancelEntry, cancelProtection, validAction_cancelOrder, sortedOrders, sortedOcos,
    List.mem_insertionSort]

variable (state) in
/-- Actions in the order of the planner: first the entries, then the protections, then the
    closes. -/
theorem pairwise_rank_flatActions :
    ((flatActions state).map actionRank).Pairwise (· ≤ ·) := by
  rw [flatActions, List.map_append, List.map_append]
  simp only [List.map_map, List.pairwise_append, List.pairwise_map, List.mem_append, List.mem_map]
  refine ⟨⟨?_, ?_, ?_⟩, ?_, ?_⟩
  · exact List.pairwise_of_forall fun _ _ => le_rfl
  · exact List.pairwise_of_forall fun _ _ => le_rfl
  · rintro _ ⟨order, -, rfl⟩ _ ⟨oco, -, rfl⟩
    exact Nat.zero_le 1
  · exact List.pairwise_of_forall fun _ _ => le_rfl
  · rintro _ (⟨order, -, rfl⟩ | ⟨oco, -, rfl⟩) _ ⟨position, -, rfl⟩
    · exact Nat.zero_le 2
    · exact Nat.le_succ 1

end

section

variable {newYork : ZoneInfo} {state : PaperBrokerState} {clock : PaperMarketClockSnapshot}
  {portfolio : CompletePaperPortfolio} {config : PaperRiskConfig} {evaluatedAt : DateTime}
  {killSwitchLatched : Bool} {plan : PaperSafetyPlan}

variable (newYork portfolio evaluatedAt config killSwitchLatched) in
/-- The phase at a time, if there is a session on that day. -/
def phaseAt : Option PaperSafetyPhase :=
  let now := evaluatedAt.astimezone newYork
  (regularSessionBounds now.date).map fun bounds =>
    paperSafetyPhase portfolio now.wall bounds.closes config killSwitchLatched

variable (newYork state portfolio evaluatedAt config killSwitchLatched plan) in
/-- A plan that the planner returns for a complete portfolio. -/
structure IsPlanned : Prop where
  aware : evaluatedAt.aware = true
  phase : phaseAt newYork portfolio config evaluatedAt killSwitchLatched = some plan.phase
  actions : actionsForPhase plan.phase state = .ok plan.actions
  accountFingerprint : plan.accountFingerprint = state.account.accountFingerprint
  observedAt : plan.observedAt = evaluatedAt
  sessionDate : plan.sessionDate = (evaluatedAt.astimezone newYork).date
  markToMarketDailyPnl : plan.markToMarketDailyPnl = markToMarketDailyPnl portfolio
  conservativeDailyPnl : plan.conservativeDailyPnl = conservativeDailyPnl portfolio

theorem aware_of_snapshotReasons
    (h : snapshotReasons newYork state clock portfolio evaluatedAt = []) :
    evaluatedAt.aware = true := by
  have hcurrent := firstReason_eq_nil.1 h _ List.mem_cons_self
  rw [decide_eq_false_iff_not, not_not] at hcurrent
  exact (of_decide_eq_true (hcurrent _ List.mem_cons_self)).1

theorem isPlanned_of_eq (h : planPaperSafetyActions newYork state clock (.complete portfolio)
      evaluatedAt config killSwitchLatched = .ok (.plan plan)) :
    IsPlanned newYork state portfolio config evaluatedAt killSwitchLatched plan := by
  have hactions := actions_of_planPaperSafetyActions h
  rw [planPaperSafetyActions, Except.bind_eq_ok] at h
  obtain ⟨⟨⟩, -, h⟩ := h
  dsimp only at h
  split_ifs at h with hreasons
  · cases h
  have haware := aware_of_snapshotReasons (not_not.1 hreasons)
  rcases hbounds : regularSessionBounds (evaluatedAt.astimezone newYork).date with _ | bounds
  · rw [hbounds] at h
    cases h
  have hphase : phaseAt newYork portfolio config evaluatedAt killSwitchLatched =
      some (paperSafetyPhase portfolio (evaluatedAt.astimezone newYork).wall bounds.closes config
        killSwitchLatched) := by
    rw [phaseAt, hbounds]
    rfl
  rw [hbounds] at h
  dsimp only at h
  split at h
  · cases h
  · cases h
    exact ⟨haware, hphase, hactions, rfl, rfl, rfl, rfl, rfl⟩

/-- The loss of the day reaches its limit, or did so before. -/
theorem phaseAt_eq_killSwitch {phase : PaperSafetyPhase}
    (h : phaseAt newYork portfolio config evaluatedAt killSwitchLatched = some phase)
    (hkill : killSwitchLatched = true ∨
      markToMarketDailyPnl portfolio ≤ -config.dailyLossLimitDollars ∨
      conservativeDailyPnl portfolio ≤ -config.dailyLossLimitDollars) :
    phase = .killSwitch := by
  obtain ⟨bounds, -, hbounds⟩ := Option.map_eq_some_iff.1 h
  rw [← hbounds, paperSafetyPhase]
  exact if_pos hkill

theorem isFinite_dailyPnl_iff : ((markToMarketDailyPnl portfolio).isFinite = true ∧
      (conservativeDailyPnl portfolio).isFinite = true) ↔
    (portfolio.equity.isFinite = true ∧ portfolio.lastEquity.isFinite = true) ∧
      ∀ exposure ∈ portfolio.exposures, exposure.kind ≠ .pendingEntry →
        exposure.plannedRisk.isFinite = true := by
  rw [conservativeDailyPnl, Decimal.isFinite_sub_iff, Decimal.isFinite_sum_iff, ← and_assoc,
    and_self, markToMarketDailyPnl, Decimal.isFinite_sub_iff]
  simp only [List.forall_mem_map, List.mem_filter, decide_eq_true_eq, and_imp]

variable (plan) in
/-- The rules of the store for the actions of a plan. -/
def KeepsActionRules : Prop :=
  (plan.actions.filterMap (·.cancelId?)).Nodup ∧ (plan.actions.filterMap (·.closeSymbol?)).Nodup ∧
    actionsAreOrdered plan = true ∧ ∀ action ∈ plan.actions, validAction action = true

/-- In a phase that flattens the account, the planner has checked most of these rules. -/
theorem keepsActionRules_of_flat (hphase : plan.phase = .killSwitch ∨ plan.phase = .eodFlatten)
    (h : actionsForPhase plan.phase state = .ok plan.actions) : KeepsActionRules plan ↔
      (∀ order ∈ state.openOrders, order.brokerOrderId ≠ "" ∧ order.symbol ≠ "" ∧
        isUpper order.symbol = true) ∧
      ∀ oco ∈ state.protectiveOcos, oco.takeProfit.brokerOrderId ≠ "" ∧
        oco.takeProfit.symbol ≠ "" ∧ isUpper oco.takeProfit.symbol = true := by
  obtain ⟨hactions, hclosable, hids⟩ := actionsForPhase_eq_flat hphase h
  have hcloses : (plan.actions.filterMap (·.closeSymbol?)).Nodup := by
    have hnodup := hclosable.nodup
    rw [hactions, flatActions]
    simpa [List.filterMap_append, List.filterMap_map, Function.comp_def, cancelEntry,
      cancelProtection, PaperSafetyAction.closeSymbol?, closeAction] using hnodup
  have hordered : actionsAreOrdered plan = true := by
    have hranks := (pairwise_rank_flatActions state).insertionSort_eq
    have hcutoff : plan.phase ≠ .entryCutoff := by
      rcases hphase with heq | heq <;> rw [heq] <;> decide
    rw [← hactions] at hranks
    exact decide_eq_true ⟨hranks.symm, fun heq => absurd heq hcutoff⟩
  rw [← all_validAction_flatActions hclosable, ← hactions, KeepsActionRules]
  rw [← hactions] at hids
  exact ⟨fun h => h.2.2.2, fun h => ⟨hids, hcloses, hordered, h⟩⟩

/-- When only the entries are canceled, it has checked none of those that the orders may break. -/
theorem keepsActionRules_of_cutoff (hphase : plan.phase = .entryCutoff)
    (h : actionsForPhase plan.phase state = .ok plan.actions) : KeepsActionRules plan ↔
      (∀ order ∈ state.openOrders, order.brokerOrderId ≠ "" ∧ order.symbol ≠ "" ∧
        isUpper order.symbol = true) ∧ (state.openOrders.map (·.brokerOrderId)).Nodup := by
  have hactions : plan.actions = (sortedOrders state).map cancelEntry := by
    rw [hphase, actionsForPhase] at h
    exact (Except.ok.inj h).symm.trans map_entryCancels
  have hperm : (sortedOrders state).Perm state.openOrders := List.perm_insertionSort _ _
  have hids : plan.actions.filterMap (·.cancelId?) =
      (sortedOrders state).map (·.brokerOrderId) := by
    rw [hactions]
    simp [List.filterMap_map, Function.comp_def, cancelEntry, PaperSafetyAction.cancelId?]
  have hcloses : plan.actions.filterMap (·.closeSymbol?) = [] := by
    rw [hactions]
    simp [List.filterMap_map, Function.comp_def, cancelEntry, PaperSafetyAction.closeSymbol?]
  have hranks : ∀ rank ∈ plan.actions.map actionRank, rank = 0 := by
    rw [hactions]
    simp [cancelEntry, actionRank]
  have hordered : actionsAreOrdered plan = true := by
    have hsorted : (plan.actions.map actionRank).Pairwise (· ≤ ·) :=
      List.pairwise_iff_forall_sublist.2 fun {a b} hab => by
        rw [hranks a (hab.subset List.mem_cons_self)]
        exact Nat.zero_le b
    exact decide_eq_true ⟨hsorted.insertionSort_eq.symm, fun _ => hranks⟩
  have hvalid : (∀ action ∈ plan.actions, validAction action = true) ↔
      ∀ order ∈ state.openOrders, order.brokerOrderId ≠ "" ∧ order.symbol ≠ "" ∧
        isUpper order.symbol = true := by
    rw [hactions, List.forall_mem_map]
    simp only [cancelEntry, validAction_cancelOrder, hperm.mem_iff]
  rw [KeepsActionRules, hids, hcloses, hvalid, (hperm.map (·.brokerOrderId)).nodup_iff]
  exact ⟨fun h => ⟨h.2.2.2, h.1⟩, fun h => ⟨h.2, .nil, hordered, h.1⟩⟩

/-- The store accepts a plan exactly if the account can be stored. -/
theorem validPlan_iff
    (h : IsPlanned newYork state portfolio config evaluatedAt killSwitchLatched plan)
    (hphase : plan.phase ≠ .monitoring) :
    validPlan newYork plan = true ↔ IsStorable state portfolio plan.phase := by
  have hrules : validPlan newYork plan = true ↔
      isHex64 state.account.accountFingerprint = true ∧
      ((markToMarketDailyPnl portfolio).isFinite = true ∧
        (conservativeDailyPnl portfolio).isFinite = true) ∧ KeepsActionRules plan := by
    simp only [validPlan, decide_eq_true_eq, length_eq_length_dedup_iff, h.accountFingerprint,
      h.observedAt, h.sessionDate, h.markToMarketDailyPnl, h.conservativeDailyPnl, h.aware,
      KeepsActionRules, List.all_eq_true]
    tauto
  rw [hrules, isFinite_dailyPnl_iff]
  rcases hp : plan.phase with _ | _ | _ | _
  · exact absurd hp hphase
  · rw [keepsActionRules_of_cutoff hp h.actions]
    constructor
    · rintro ⟨hhex, ⟨hequity, hrisk⟩, horders, hnodup⟩
      exact ⟨hhex, hequity, hrisk, horders, fun _ => hnodup, fun hne => absurd rfl hne⟩
    · intro hs
      exact ⟨hs.fingerprint, ⟨hs.equity, hs.plannedRisk⟩, hs.orders, hs.nodup rfl⟩
  · rw [keepsActionRules_of_flat (.inl hp) h.actions]
    constructor
    · rintro ⟨hhex, ⟨hequity, hrisk⟩, horders, hocos⟩
      exact ⟨hhex, hequity, hrisk, horders, fun heq => (by cases heq), fun _ => hocos⟩
    · intro hs
      exact ⟨hs.fingerprint, ⟨hs.equity, hs.plannedRisk⟩, hs.orders, hs.ocos (by simp)⟩
  · rw [keepsActionRules_of_flat (.inr hp) h.actions]
    constructor
    · rintro ⟨hhex, ⟨hequity, hrisk⟩, horders, hocos⟩
      exact ⟨hhex, hequity, hrisk, horders, fun heq => (by cases heq), fun _ => hocos⟩
    · intro hs
      exact ⟨hs.fingerprint, ⟨hs.equity, hs.plannedRisk⟩, hs.orders, hs.ocos (by simp)⟩

/-! ## What a plan is worth -/

variable (sha : Sha256)

variable (newYork state portfolio config killSwitchLatched plan) in
/-- What is asked of a plan, when the store has seen some calls: it is complete and exact, it is
    that of the kill switch whenever it should be, it is kept, and it is executed in order. -/
structure MeetsSafety (calls : List PaperSafetyPlan) : Prop where
  flattens : plan.phase = .killSwitch ∨ plan.phase = .eodFlatten → Flattens state plan.actions
  kill : killSwitchLatched = true ∨
    markToMarketDailyPnl portfolio ≤ -config.dailyLossLimitDollars ∨
    conservativeDailyPnl portfolio ≤ -config.dailyLossLimitDollars → plan.phase = .killSwitch
  kept : plan.phase ≠ .monitoring → IsKept newYork sha (tablesAfter newYork sha calls) plan
  executed : ∀ (ledger : ExecutionLedger) (stored : StoredPaperSafetyPlan)
    (exchange : ℕ → SafetyExchange), stored.plan = plan →
      ExecutesInOrder plan (executeSafetyPlan sha ledger stored exchange).2

variable (newYork state portfolio config evaluatedAt killSwitchLatched) in
/-- The account obeys the rules of the store in its phase, and if it is to be flat, the quantities
    of its positions have 28 digits at most. -/
def CanBePlanned : Prop :=
  ∀ phase, phaseAt newYork portfolio config evaluatedAt killSwitchLatched = some phase →
    (phase ≠ .monitoring → IsStorable state portfolio phase) ∧
    (phase = .killSwitch ∨ phase = .eodFlatten →
      ∀ position ∈ state.positions, absQuantity position = position.quantity.abs)

end

/-! ## Two open orders, a quarter of an hour before the close -/

namespace SafetySample

open PortfolioSample (easternDaylight account longIntent shortIntent longOrder)

/-- 15:45 on Wednesday, the 15th of July 2026, in New York. -/
def now : DateTime := .combine (.ofCivil 2026 7 15) 19 45 0

def shortOrder : PaperOrderSnapshot :=
  { longOrder with
    clientOrderId := "short"
    symbol := "MSFT"
    side := .sell
    quantity := 5
    limitPrice := some 200 }

/-- The first order has the identity `"order-1"`, and the second one some other or the same. -/
def brokerState (id : BrokerOrderId) : PaperBrokerState where
  account :=
    { account with
      observedAt := now
      accountFingerprint := .ofList (List.replicate 64 'a') }
  openOrders :=
    [{ longOrder with status := "new", filledQuantity := 0 },
      { shortOrder with status := "new", filledQuantity := 0, brokerOrderId := id }]
  positions := []

def clock : PaperMarketClockSnapshot where
  observedAt := now
  marketTimestamp := now
  isOpen := true
  nextOpen := now + TimeDelta.minutes (17 * 60 + 45)
  nextClose := now + TimeDelta.minutes 15

def portfolio : CompletePaperPortfolio :=
  { PortfolioSample.portfolio with
    observedAt := now
    exposures :=
      [{ intentId := "long", symbol := "AAPL", kind := .pendingEntry,
         grossExposure := 1000, plannedRisk := 75 },
        { intentId := "short", symbol := "MSFT", kind := .pendingEntry,
          grossExposure := 1000, plannedRisk := 75 }] }

def plan (id : BrokerOrderId) : PaperSafetyPlan where
  accountFingerprint := .ofList (List.replicate 64 'a')
  observedAt := now
  sessionDate := .ofCivil 2026 7 15
  phase := .entryCutoff
  markToMarketDailyPnl := 0
  conservativeDailyPnl := 0
  actions := [.cancelOrder ⟨"order-1", "AAPL", false⟩, .cancelOrder ⟨id, "MSFT", false⟩]

/-- A digest by the first atom: the texts of plans start with a string, those of actions with a
    number. -/
def sha : Sha256 where
  hexdigest
    | .str _ :: _ => .ofList (List.replicate 64 '1')
    | _ => .ofList (List.replicate 64 '0')
  isHex64_hexdigest material := by
    split <;> decide +kernel

theorem separates_plan : sha.Separates (planMaterials sha [plan "order-2"]) := by
  have hne : sha.hexdigest (actionsMaterial (plan "order-2").actions) ≠ sha.hexdigest
      (planMaterial (plan "order-2") (actionsSha256 sha (plan "order-2").actions)) := by
    decide +kernel
  rintro m ⟨p, hp, hm⟩ m' ⟨p', hp', hm'⟩ heq
  obtain rfl := List.mem_singleton.1 hp
  obtain rfl := List.mem_singleton.1 hp'
  rcases hm with rfl | rfl <;> rcases hm' with rfl | rfl
  · rfl
  · exact absurd heq hne
  · exact absurd heq.symm hne
  · rfl

theorem canBePlanned : CanBePlanned easternDaylight (brokerState "order-2") portfolio
    DEFAULT_PAPER_RISK_CONFIG now false := by
  have hphase : phaseAt easternDaylight portfolio DEFAULT_PAPER_RISK_CONFIG now false =
      some .entryCutoff := by
    decide +kernel
  rintro phase hsome
  obtain rfl : PaperSafetyPhase.entryCutoff = phase := Option.some.inj (hphase.symm.trans hsome)
  exact ⟨fun _ => ⟨by decide +kernel, by decide +kernel, by decide +kernel, by decide +kernel,
    fun _ => by decide +kernel, fun h => absurd rfl h⟩, fun h => by cases h <;> contradiction⟩

end SafetySample

end TradingAgent
