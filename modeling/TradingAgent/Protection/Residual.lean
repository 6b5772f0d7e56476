import Mathlib.Algebra.Order.Field.Rat
import Mathlib.Tactic.Linarith
import TradingAgent.Protection.Store

/-!
# What a protective exit protects

A new exit is the only one on its symbol, and for exactly what the entry has left open
(`IsExactExit`): its quantity is that of the position, and the fill of the entry less the fills of
all earlier exits (`protectedFill`). An open exit is only canceled if it does not cover the
position (`ResizeGuards`).

* This is so in every call of the lifecycle, on the plans of any session, up to one case: if the
  exits have filled all of the entry, while the broker still lists the position, with a quantity
  of 0, then the new exit is for a quantity of 0 (`ExitedPositionIsListed`, `lifecycleIsExact_iff`).
-/

namespace TradingAgent

open Transition

/-- How much the legs of an OCO have filled. -/
def legFills (oco : ProtectiveOcoSnapshot) : ℚ :=
  (oco.legs.map (·.filledQuantity.toRat)).sum

/-- How much OCOs have filled. -/
def protectedFill (history : List ProtectiveOcoSnapshot) : ℚ := (history.map legFills).sum

/-- A history without fault is added up. -/
theorem confirmedProtectiveFill_spec {history : List ProtectiveOcoSnapshot}
    (h : (confirmedProtectiveFill history).2 = []) :
    (confirmedProtectiveFill history).1 = .finite (protectedFill history) := by
  rw [confirmedProtectiveFill, eraseDups_eq_nil] at h
  refine protectiveFillPass.run_induction (I := fun l fill => fill.total = .finite (protectedFill l))
    rfl (fun l fill oco hreasons ih => ?_) h
  obtain ⟨htake, hstop, hstep⟩ := protectiveFillStep_of_reasons hreasons
  rw [show protectiveFillPass.step fill oco = _ from hstep]
  dsimp only
  rw [ih, ← Decimal.finite_toRat htake, ← Decimal.finite_toRat hstop]
  simp [protectedFill, legFills, ProtectiveOcoSnapshot.legs]

/-! ## A new exit -/

/-- A new exit of an intent is the only one, for exactly what is left of its position. -/
structure IsExactExit (ledger : ReconciliationLedger) (brokerState : PaperBrokerState)
    (observedProtectiveOcos : List ProtectiveOcoSnapshot) (intent : StoredIntent)
    (orderState : BrokerOrderLedgerState) (position : PaperPositionSnapshot)
    (plan : ProtectiveOcoExitPlan) : Prop where
  symbol : plan.symbol = intent.symbol
  noOpenOco : ∀ oco ∈ brokerState.protectiveOcos, oco.takeProfit.symbol ≠ plan.symbol
  matches_one : ∀ oco ∈ ocosOf observedProtectiveOcos plan.symbol,
    ∃ stored, matchingPlans ledger.protectiveOcoPlans oco = [stored]
  terminal : ∀ oco ∈ ocosOf observedProtectiveOcos plan.symbol, ∀ leg ∈ oco.legs,
    leg.status ∈ TERMINAL_STATUSES
  side : plan.side = intent.side.opposite
  positive : 0 < plan.quantity
  positions : positionsOf brokerState plan.symbol = [position]
  quantity : (plan.quantity : Decimal) = position.quantity.abs
  residual : (plan.quantity : Decimal) = orderState.cumulativeFilledQuantity
    - .finite (protectedFill (ocosOf observedProtectiveOcos plan.symbol))
  fresh : ∀ oco ∈ ocosOf observedProtectiveOcos plan.symbol,
    oco.takeProfit.clientOrderId ≠ plan.clientOrderId

section

variable {sha : Sha256} {sha256 : String → String} {str : Decimal → String}
  {ledger : ReconciliationLedger} {brokerState : PaperBrokerState}
  {observedProtectiveOcos : List ProtectiveOcoSnapshot} {parentIntentId : IntentId}
  {intent : StoredIntent} {orderState : BrokerOrderLedgerState} {position : PaperPositionSnapshot}

theorem NewExitGuards.intentId (h : NewExitGuards ledger brokerState observedProtectiveOcos
    parentIntentId intent orderState position) : intent.intentId = parentIntentId := by
  have hmem : intent ∈ ledger.intents.filter (·.intentId = parentIntentId) :=
    h.intents ▸ List.mem_singleton_self intent
  exact of_decide_eq_true (List.mem_filter.1 hmem).2

/-- The position is what the entry has left open, which is not negative. -/
theorem NewExitGuards.residual (h : NewExitGuards ledger brokerState observedProtectiveOcos
    parentIntentId intent orderState position) :
    ∃ remaining : ℚ, 0 ≤ remaining ∧ position.quantity.abs = .finite remaining
      ∧ orderState.cumulativeFilledQuantity
        - .finite (protectedFill (ocosOf observedProtectiveOcos intent.symbol))
          = .finite remaining := by
  have hfill := confirmedProtectiveFill_spec h.fills
  obtain ⟨quantity, hquantity⟩ := Decimal.isFinite_iff.1 h.isFinite
  have hle := h.exit.fill_le
  have hposition := h.exit.quantity
  rw [hfill] at hle hposition
  rw [hquantity] at hposition
  -- As the position is finite, so is the fill of the entry.
  have hfilled : ∃ filled, orderState.cumulativeFilledQuantity = .finite filled := by
    cases hcases : orderState.cumulativeFilledQuantity with
    | finite filled => exact ⟨filled, rfl⟩
    | infinite negative =>
      rw [hcases] at hposition
      cases hside : intent.side <;> rw [hside] at hposition <;> cases hposition
    | nan =>
      rw [hcases] at hposition
      cases hside : intent.side <;> rw [hside] at hposition <;> cases hposition
  obtain ⟨filled, hfilled⟩ := hfilled
  rw [hfilled] at hle hposition ⊢
  rw [Decimal.finite_lt_finite, not_lt] at hle
  rw [Decimal.finite_sub_finite] at hposition ⊢
  refine ⟨_, sub_nonneg.2 hle, ?_, rfl⟩
  rw [hquantity, hposition]
  cases intent.side with
  | buy => simp [expectedPosition, abs_of_nonneg (sub_nonneg.2 hle)]
  | sell =>
    rw [expectedPosition, Decimal.neg_finite, Decimal.abs_finite, abs_neg,
      abs_of_nonneg (sub_nonneg.2 hle)]

theorem clientOrderId_of_matchingPlans {plans : List StoredProtectiveOcoPlan}
    {oco : ProtectiveOcoSnapshot} {stored : StoredProtectiveOcoPlan}
    (h : stored ∈ matchingPlans plans oco) :
    stored ∈ plans ∧ oco.takeProfit.clientOrderId = stored.plan.clientOrderId := by
  obtain ⟨hmem, hmatches⟩ := List.mem_filter.1 h
  simp only [protectiveOcoSnapshotMatchesPlan, decide_eq_true_eq] at hmatches
  exact ⟨hmem, hmatches.2.2.2.2.2.1⟩

/-- An OCO that matches one plan of its intent matches no plan of another intent. -/
theorem matchingPlans_eq_of_plansOf
    (hplans : PlannedInOrder sha sha256 str ledger.protectiveOcoPlans)
    {oco : ProtectiveOcoSnapshot} {stored : StoredProtectiveOcoPlan}
    (h : matchingPlans (plansOf ledger parentIntentId) oco = [stored]) :
    matchingPlans ledger.protectiveOcoPlans oco = [stored] := by
  obtain ⟨hmem, hid⟩ := clientOrderId_of_matchingPlans (h ▸ List.mem_singleton_self stored)
  obtain ⟨hmem, hparent⟩ := List.mem_filter.1 hmem
  rw [← h, plansOf, matchingPlans, matchingPlans, List.filter_filter]
  refine List.filter_congr fun other hother => ?_
  by_cases hmatches : protectiveOcoSnapshotMatchesPlan oco other.plan
  · have hid' := (clientOrderId_of_matchingPlans (List.mem_filter.2 ⟨hother, hmatches⟩)).2
    have hsame := hplans.parents other hother stored hmem (hid'.symm.trans hid)
    simp [hmatches, hsame, of_decide_eq_true hparent]
  · simp [hmatches]

/-- If an OCO of the history is from a plan, then a new exit replaces the last plan of the history,
    from which the plan of the OCO is not derived. -/
theorem exists_replacedPlan (hplans : PlannedInOrder sha sha256 str ledger.protectiveOcoPlans)
    {history : List ProtectiveOcoSnapshot} {oco : ProtectiveOcoSnapshot} (hoco : oco ∈ history)
    {stored : StoredProtectiveOcoPlan}
    (h : matchingPlans (plansOf ledger parentIntentId) oco = [stored]) :
    ∃ last ∈ ledger.protectiveOcoPlans,
      replacedPlanKey ledger parentIntentId history = some last.planKey
        ∧ ∃ source, IdOfSource sha256 str stored source
          ∧ (∀ key ∈ source, key ∈ ledger.protectiveOcoPlans.map (·.planKey))
          ∧ source ≠ some last.planKey := by
  have hmem := (clientOrderId_of_matchingPlans (h ▸ List.mem_singleton_self stored)).1
  obtain ⟨hstored, hparent⟩ := List.mem_filter.1 hmem
  have hmatched : stored.planKey
      ∈ (matchedHistory (plansOf ledger parentIntentId) history).1.map (·.1.planKey) := by
    refine List.mem_map.2 ⟨(stored, oco), List.mem_filterMap.2 ⟨oco, hoco, ?_⟩, rfl⟩
    rw [h]
  obtain ⟨last, hlast⟩ : ∃ last, latestMatchedPlan (plansOf ledger parentIntentId)
      (matchedHistory (plansOf ledger parentIntentId) history).1 = some last := by
    rw [← Option.isSome_iff_exists, latestMatchedPlan, List.find?_isSome]
    exact ⟨stored, List.mem_reverse.2 hmem, decide_eq_true hmatched⟩
  refine ⟨last, (List.mem_filter.1 (List.mem_reverse.1 (List.mem_of_find?_eq_some hlast))).1,
    by rw [replacedPlanKey, hlast, Option.map_some], ?_⟩
  rw [latestMatchedPlan, plansOf, ← List.filter_reverse, List.find?_filter] at hlast
  exact hplans.lineage.source_ne_last hlast hstored
    (decide_eq_true ⟨hparent, decide_eq_true hmatched⟩)

theorem PlannedInOrder.length_planKey {plans : List StoredProtectiveOcoPlan}
    (hplans : PlannedInOrder sha sha256 str plans) {key : ProtectiveOcoPlanKey}
    (hkey : key ∈ plans.map (·.planKey)) : key.toList.length = 64 := by
  obtain ⟨stored, hstored, rfl⟩ := List.mem_map.1 hkey
  rw [hplans.planKeys stored hstored]
  have hhex := sha.isHex64_hexdigest
  simp only [isHex64, decide_eq_true_eq] at hhex
  exact (hhex _).1

/-- The client order id of a new exit is not that of any exit before, if their digests do not
    collide: it is derived from the last of them, as none of them is. -/
theorem NewExitGuards.fresh (h : NewExitGuards ledger brokerState observedProtectiveOcos
      parentIntentId intent orderState position)
    (hplans : PlannedInOrder sha sha256 str ledger.protectiveOcoPlans)
    {plan : ProtectiveOcoExitPlan}
    (hplan : plan = exitPlan sha256 str intent position (replacedPlanKey ledger parentIntentId
      (ocosOf observedProtectiveOcos intent.symbol)))
    (hdigest : Set.InjOn (shortDigest sha256)
      (plannedMaterials str ledger.protectiveOcoPlans plan))
    {oco : ProtectiveOcoSnapshot} (hoco : oco ∈ ocosOf observedProtectiveOcos intent.symbol) :
    oco.takeProfit.clientOrderId ≠ plan.clientOrderId := by
  obtain ⟨stored, hstored⟩ := List.length_eq_one_iff.1 (h.history.matches_one oco hoco)
  obtain ⟨hmem, hid⟩ := clientOrderId_of_matchingPlans (hstored ▸ List.mem_singleton_self stored)
  obtain ⟨hmem, hparent⟩ := List.mem_filter.1 hmem
  obtain ⟨last, hlast, hkey, source, hderived, hsource, hne⟩ :=
    exists_replacedPlan hplans hoco hstored
  have hlastKey := List.mem_map_of_mem (f := (·.planKey)) hlast
  rw [hkey] at hplan
  intro heq
  rw [hid, hderived, hplan, exitPlan, of_decide_eq_true hparent, ← h.intentId,
    protectiveClientOrderId, protectiveClientOrderId, String.append_right_inj] at heq
  refine protectiveMaterial_ne (fun key hkey => ?_) hne (hdigest ?_ ?_ heq)
  · exact (hplans.length_planKey (hsource key hkey)).trans (hplans.length_planKey hlastKey).symm
  · refine ⟨stored.plan, List.mem_cons_of_mem _ (List.mem_map_of_mem hmem), source, ?_, ?_⟩
    · cases source with
      | none => exact List.mem_cons_self
      | some key =>
        refine List.mem_cons_of_mem _ ?_
        obtain ⟨other, hother, rfl⟩ := List.mem_map.1 (hsource key rfl)
        exact List.mem_map_of_mem hother
    · rw [of_decide_eq_true hparent, h.intentId]
  · refine ⟨plan, List.mem_cons_self, some last.planKey,
      List.mem_cons_of_mem _ (List.mem_map_of_mem hlast), ?_⟩
    rw [hplan, exitPlan]

/-- A new exit is exact, if the broker does not list the position with a quantity of 0. -/
theorem NewExitGuards.isExactExit (h : NewExitGuards ledger brokerState observedProtectiveOcos
      parentIntentId intent orderState position)
    (hplans : PlannedInOrder sha sha256 str ledger.protectiveOcoPlans)
    {plan : ProtectiveOcoExitPlan}
    (hplan : plan = exitPlan sha256 str intent position (replacedPlanKey ledger parentIntentId
      (ocosOf observedProtectiveOcos intent.symbol)))
    (hdigest : Set.InjOn (shortDigest sha256)
      (plannedMaterials str ledger.protectiveOcoPlans plan)) (hne : position.quantity ≠ 0) :
    IsExactExit ledger brokerState observedProtectiveOcos intent orderState position plan := by
  have hsymbol : plan.symbol = intent.symbol := hplan ▸ rfl
  obtain ⟨remaining, hnonneg, habs, hremaining⟩ := h.residual
  have hquantity : (plan.quantity : Decimal) = position.quantity.abs := by
    rw [hplan]
    exact Decimal.intCast_toInt (Decimal.isFinite_abs h.isFinite) h.exit.isIntegral
  constructor
  · exact hsymbol
  · rw [hsymbol]
    intro oco hoco hsame
    have hmem : oco ∈ ocosOf brokerState.protectiveOcos intent.symbol :=
      List.mem_filter.2 ⟨hoco, decide_eq_true hsame⟩
    rw [h.openOcos] at hmem
    exact List.not_mem_nil hmem
  · rw [hsymbol]
    intro oco hoco
    obtain ⟨stored, hstored⟩ := List.length_eq_one_iff.1 (h.history.matches_one oco hoco)
    exact ⟨stored, matchingPlans_eq_of_plansOf hplans hstored⟩
  · rw [hsymbol]
    intro oco hoco
    simpa [snapshotIsTerminal, ProtectiveOcoSnapshot.legs] using h.terminal oco hoco
  · rw [hplan, exitPlan]
  · -- The quantity is not negative, and it is not 0.
    rw [habs, Decimal.intCast_eq, Decimal.finite.injEq] at hquantity
    have hnonneg : (0 : ℤ) ≤ plan.quantity := by exact_mod_cast hquantity ▸ hnonneg
    refine lt_of_le_of_ne hnonneg fun hzero => hne ?_
    rw [← hzero, Int.cast_zero] at hquantity
    rw [← hquantity] at habs
    obtain ⟨quantity, hposition⟩ := Decimal.isFinite_iff.1 h.isFinite
    rw [hposition] at habs ⊢
    rw [Decimal.abs_finite, Decimal.finite.injEq, abs_eq_zero] at habs
    rw [habs]
    rfl
  · rw [hsymbol]
    exact h.positions
  · exact hquantity
  · rw [hquantity, habs, hsymbol, hremaining]
  · rw [hsymbol]
    exact fun oco hoco => h.fresh hplans hplan hdigest hoco

end

/-! ## The decisions of the lifecycle -/

section

variable (sha : Sha256) (sha256 : String → String) (str : Decimal → String)
  (ledger : ReconciliationLedger) (brokerState : PaperBrokerState)
  (observedProtectiveOcos : List ProtectiveOcoSnapshot) (parentIntentId : IntentId)

/-- A new exit of the intent is exact, and an open one is only canceled if it does not cover the
    position. -/
structure LifecycleIsExact : Prop where
  plan : ∀ plan, planCurrentProtectiveOcoLifecycle sha256 str ledger brokerState
      observedProtectiveOcos parentIntentId = .ok (.exit (.plan plan)) →
    ∃ intent orderState position,
      ledger.intents.filter (·.intentId = parentIntentId) = [intent]
        ∧ ledger.orderStates.filter (·.intentId = parentIntentId) = [orderState]
        ∧ IsExactExit ledger brokerState observedProtectiveOcos intent orderState position plan
  resizeCancel : ∀ cancel, planCurrentProtectiveOcoLifecycle sha256 str ledger brokerState
      observedProtectiveOcos parentIntentId = .ok (.resizeCancel cancel) →
    ∃ intent oco stored, ResizeGuards ledger brokerState parentIntentId intent oco stored
      ∧ cancel = ⟨parentIntentId, stored.planKey, oco.takeProfit.brokerOrderId, intent.symbol,
          oco.observedAt⟩

/-- Nothing speaks against a new exit, but the broker lists the position with a quantity of 0: the
    exits have filled all of the entry. -/
def ExitedPositionIsListed : Prop :=
  ∃ intent orderState position,
    NewExitGuards ledger brokerState observedProtectiveOcos parentIntentId intent orderState position
      ∧ position.quantity = 0

variable {sha sha256 str ledger brokerState observedProtectiveOcos parentIntentId}

/-- On the plans of any session, and if the digests of their client order ids do not collide, the
    decision is exact, exactly if the broker does not list an exited position. -/
theorem lifecycleIsExact_iff
    (hplans : (protectionSystem sha sha256 str).Reachable ledger.protectiveOcoPlans)
    (hdigest : ∀ plan, planCurrentProtectiveOcoLifecycle sha256 str ledger brokerState
        observedProtectiveOcos parentIntentId = .ok (.exit (.plan plan)) →
      Set.InjOn (shortDigest sha256) (plannedMaterials str ledger.protectiveOcoPlans plan)) :
    LifecycleIsExact sha256 str ledger brokerState observedProtectiveOcos parentIntentId
      ↔ ¬ ExitedPositionIsListed ledger brokerState observedProtectiveOcos parentIntentId := by
  have hplans := plannedInOrder_of_reachable hplans
  constructor
  · rintro hexact ⟨intent, orderState, position, hguards, hzero⟩
    have hplan : planCurrentProtectiveOcoLifecycle sha256 str ledger brokerState
        observedProtectiveOcos parentIntentId = .ok (.exit (.plan _)) :=
      lifecycle_eq_plan_iff.2 ⟨intent, orderState, position, hguards, rfl⟩
    obtain ⟨intent', orderState', position', hintents, -, hexit⟩ := hexact.plan _ hplan
    cases hguards.intents.symm.trans hintents
    have hpositive := hexit.positive
    have hquantity : (Decimal.abs 0).toInt = 0 := rfl
    rw [exitPlan, hzero] at hpositive
    exact absurd hpositive (hquantity ▸ lt_irrefl 0)
  · intro hlisted
    constructor
    · intro plan hplan
      obtain ⟨intent, orderState, position, hguards, heq⟩ := lifecycle_eq_plan_iff.1 hplan
      exact ⟨intent, orderState, position, hguards.intents, hguards.orderStates,
        hguards.isExactExit hplans heq (hdigest plan hplan)
          fun hzero => hlisted ⟨intent, orderState, position, hguards, hzero⟩⟩
    · exact fun cancel hcancel => lifecycle_eq_resizeCancel hcancel

end

/-! ## An exited position -/

namespace ProtectionSample

def digest : String → String
  | "orb-aaa-20260714-093600" =>
    "8b654a981d9e31b321bf90e83a1352538e9c9134619683f2e4ac552660cfcae9"
  | "orb-aaa-20260714-093600|458b42168088ea4606be373bdb69c7b1e3b0a76cf6329a4f7cd2972efe42f1dc|15|12|9" =>
    "34737b3ea0c31cb19680559bc5ae07f41a492687c861782823554036c161b26d"
  | _ => "ab6889f246a6e18e225e6e453e7d470f67a1fdeb2341a2358d207c51994e12e9"

def text (d : Decimal) : String := if d = 12 then "12" else "9"

def sha : Sha256 where
  hexdigest _ := "458b42168088ea4606be373bdb69c7b1e3b0a76cf6329a4f7cd2972efe42f1dc"
  isHex64_hexdigest _ := by decide +kernel

def observedAt : DateTime := .combine (.ofCivil 2026 7 14) 13 40 0

def intent : StoredIntent where
  intentId := "orb-aaa-20260714-093600"
  strategyId := "orb"
  strategyVersion := "v1"
  symbol := "AAA"
  createdAt := some (observedAt - TimeDelta.minutes 4)
  side := .buy
  entryLimit := 10
  stop := 9
  target1r := 11
  target2r := 12
  quantity := 15

def orderState (filled : Decimal) : BrokerOrderLedgerState where
  intentId := intent.intentId
  brokerOrderIds := ["broker-1"]
  terminalEventTypes := []
  cumulativeFilledQuantity := filled
  completeFill := false
  terminal := false
  hasFillEvidence := true
  anomalyReasons := []

def ledger (filled : Decimal) (plans : List StoredProtectiveOcoPlan) : ReconciliationLedger where
  intents := [intent]
  unresolvedIntentIds := []
  accountFingerprint := none
  orderStates := [orderState filled]
  protectiveOcoPlans := plans

def brokerState (quantity : Decimal) : PaperBrokerState where
  account :=
    { observedAt
      status := "ACTIVE"
      tradingBlocked := false
      equity := 30000
      lastEquity := 30000
      buyingPower := 30000
      accountFingerprint := "account" }
  openOrders := []
  positions := [⟨"AAA", quantity, 10 * quantity⟩]

/-- The first exit, for 10 shares. -/
def firstPlan : ProtectiveOcoExitPlan where
  clientOrderId := "protect-8b654a981d9e31b321bf90e83a1352538e9c9134"
  parentIntentId := intent.intentId
  symbol := "AAA"
  side := .sell
  quantity := 10
  takeProfitLimit := 12
  stopPrice := 9

def stored : StoredProtectiveOcoPlan :=
  ⟨protectiveOcoPlanKey sha firstPlan, observedAt, firstPlan⟩

def leg (kind : ProtectiveOcoLegKind) (status : String) (filled : Decimal) :
    ProtectiveOcoLegSnapshot where
  kind
  brokerOrderId := match kind with
    | .takeProfit => "oco-1"
    | .stopLoss => "oco-2"
  clientOrderId := match kind with
    | .takeProfit => firstPlan.clientOrderId
    | .stopLoss => "leg-2"
  symbol := "AAA"
  side := .sell
  status
  quantity := 10
  filledQuantity := filled
  orderType := match kind with
    | .takeProfit => .limit
    | .stopLoss => .stop
  limitPrice := match kind with
    | .takeProfit => some 12
    | .stopLoss => none
  stopPrice := match kind with
    | .takeProfit => none
    | .stopLoss => some 9
  timeInForce := "day"
  extendedHours := false

/-- The exit has taken the profit, or was canceled. -/
def filledOco : ProtectiveOcoSnapshot :=
  ⟨observedAt, leg .takeProfit "filled" 10, leg .stopLoss "canceled" 0⟩

def canceledOco : ProtectiveOcoSnapshot :=
  ⟨observedAt, leg .takeProfit "canceled" 0, leg .stopLoss "canceled" 0⟩

/-- The tables, before and after the first exit is saved. -/
def tables (plans : List StoredProtectiveOcoPlan) : ExecutionLedger where
  orderIntents := [intent]
  protectiveOcoPlans := plans

/-- The first exit is planned and saved for a position of 10 shares. -/
theorem reachable_stored : (protectionSystem sha digest text).Reachable [stored] := by
  refine (System.Reachable.init rfl).step (e := firstPlan)
    ⟨ledger 10 [], brokerState 10, [], intent.intentId, rfl, ?_, tables [],
      (tables [stored], true), observedAt, rfl, ?_, rfl⟩
  · decide +kernel
  · decide +kernel

/-- The exit has filled all of the position. As the broker still lists it, with a quantity of 0,
    another exit is planned, for a quantity of 0. -/
theorem listed_position_gets_empty_exit :
    (protectionSystem sha digest text).Reachable [stored]
      ∧ ∃ plan, planCurrentProtectiveOcoLifecycle digest text (ledger 10 [stored]) (brokerState 0)
          [filledOco] intent.intentId = .ok (.exit (.plan plan)) ∧ plan.quantity = 0 := by
  refine ⟨reachable_stored, exitPlan digest text intent ⟨"AAA", 0, 0⟩ (some stored.planKey), ?_, ?_⟩
  · decide +kernel
  · decide +kernel

/-- The exit of the 5 shares that were bought after the first exit, and of its 10. -/
def secondPlan : ProtectiveOcoExitPlan :=
  exitPlan digest text intent ⟨"AAA", 15, 150⟩ (some stored.planKey)

/-- The texts of which the client order ids can be digests. -/
def materials : List String :=
  [protectiveMaterial text intent.intentId none 15 12 9,
    protectiveMaterial text intent.intentId (some stored.planKey) 15 12 9,
    protectiveMaterial text intent.intentId (some stored.planKey) 10 12 9]

theorem digest_injOn : Set.InjOn (shortDigest digest) (plannedMaterials text [stored] secondPlan) := by
  have hmem : ∀ p ∈ [secondPlan, firstPlan], ∀ source ∈ [none, some stored.planKey],
      protectiveMaterial text p.parentIntentId source p.quantity p.takeProfitLimit p.stopPrice
        ∈ materials := by
    decide +kernel
  have hinj : ∀ a ∈ materials, ∀ b ∈ materials, shortDigest digest a = shortDigest digest b →
      a = b := by
    decide +kernel
  rintro _ ⟨p, hp, source, hsource, rfl⟩ _ ⟨p', hp', source', hsource', rfl⟩
  exact hinj _ (hmem p hp source hsource) _ (hmem p' hp' source' hsource')

/-- The exit that replaces a canceled one is exact. -/
theorem replacement_isExact :
    planCurrentProtectiveOcoLifecycle digest text (ledger 15 [stored]) (brokerState 15)
        [canceledOco] intent.intentId = .ok (.exit (.plan secondPlan))
      ∧ LifecycleIsExact digest text (ledger 15 [stored]) (brokerState 15) [canceledOco]
          intent.intentId := by
  have hplan : planCurrentProtectiveOcoLifecycle digest text (ledger 15 [stored]) (brokerState 15)
      [canceledOco] intent.intentId = .ok (.exit (.plan secondPlan)) := by decide +kernel
  refine ⟨hplan, (lifecycleIsExact_iff reachable_stored fun plan h => ?_).2 ?_⟩
  · cases hplan.symm.trans h
    exact digest_injOn
  · rintro ⟨intent', orderState', position, hguards, hzero⟩
    cases hguards.intents
    have hne : ∀ position ∈ positionsOf (brokerState 15) intent.symbol, position.quantity ≠ 0 := by
      decide +kernel
    exact hne position (hguards.positions ▸ List.mem_singleton_self position) hzero

end ProtectionSample

end TradingAgent
