import TradingAgent.Library.Except
import TradingAgent.Safety.Planner

/-!
# The store of safety plans

A safety plan is stored as a row of the table of plans and one row for each of its actions
(`savePaperSafetyPlan`), and read back from them (`readPaperSafetyPlans`). A row stands for the
texts that it stores. The rules for a plan (`requireSafetyPlan`) are checked both times, and they are
the store's own: a plan of the planner may break them.

* The key of a plan is a digest of its fields and of the digest of its actions.
* After any calls, the tables hold the plans that were accepted (`exists_tablesAfter_eq`), and all
  of them are read back (`readPaperSafetyPlans_tablesOf`).
-/

namespace TradingAgent

open Except

/-! ## Rows -/

/-- The columns of an action, without the key of its plan. -/
structure SafetyActionColumns where
  sequence : ℕ
  kind : String
  brokerOrderId : Option BrokerOrderId
  symbol : String
  protectiveOco : Option Bool
  side : Option PaperOrderSide
  quantity : Option Decimal
  deriving DecidableEq, Repr

structure SafetyPlanRow where
  planKey : PaperSafetyPlanKey
  accountFingerprint : AccountFingerprint
  observedAt : DateTime
  sessionDate : Date
  phase : PaperSafetyPhase
  markToMarketDailyPnl : Decimal
  conservativeDailyPnl : Decimal
  actionsSha256 : String
  deriving DecidableEq, Repr

/-- The tables of the plans and of the actions, in the order of their rowids. -/
structure SafetyTables where
  plans : List SafetyPlanRow := []
  actions : List (PaperSafetyPlanKey × SafetyActionColumns) := []
  deriving DecidableEq, Repr

inductive SafetyStoreError
  | invalidPaperSafetyPlan
  | paperSafetyPlanConflict
  deriving DecidableEq, Repr

def SafetyStoreError.message : SafetyStoreError → String
  | invalidPaperSafetyPlan => "Paper 안전조치 계획이 실행 원장 계약과 일치하지 않습니다"
  | paperSafetyPlanConflict => "같은 Paper 안전조치 계획 key의 immutable 값이 다릅니다"

def actionValues (sequence : ℕ) : PaperSafetyAction → SafetyActionColumns
  | .cancelOrder action =>
    ⟨sequence, "cancel_order", some action.brokerOrderId, action.symbol,
      some action.protectiveOco, none, none⟩
  | .closePosition action =>
    ⟨sequence, "close_position", none, action.symbol, none, some action.side,
      some action.quantity⟩

def storedAction (row : SafetyActionColumns) : Except SafetyStoreError PaperSafetyAction :=
  match row.kind, row.brokerOrderId, row.protectiveOco, row.side, row.quantity with
  | "cancel_order", some brokerOrderId, some protectiveOco, _, _ =>
    .ok (.cancelOrder ⟨brokerOrderId, row.symbol, protectiveOco⟩)
  | "close_position", _, _, some side, some quantity =>
    .ok (.closePosition ⟨row.symbol, side, quantity⟩)
  | _, _, _, _, _ => .error .invalidPaperSafetyPlan

@[simp] theorem storedAction_actionValues (sequence : ℕ) (action : PaperSafetyAction) :
    storedAction (actionValues sequence action) = .ok action := by
  cases action <;> rfl

/-- The rows of some actions, from a sequence number on. -/
def actionRows (actions : List PaperSafetyAction) (sequence : ℕ) : List SafetyActionColumns :=
  (actions.zipIdx sequence).map fun pair => actionValues pair.2 pair.1

theorem mapM_storedAction (actions : List PaperSafetyAction) (sequence : ℕ) :
    (actionRows actions sequence).mapM storedAction = .ok actions := by
  induction actions generalizing sequence with
  | nil => rfl
  | cons action actions ih =>
    have htail := ih (sequence + 1)
    rw [actionRows] at htail ⊢
    rw [List.zipIdx_cons, List.map_cons, List.mapM_cons, storedAction_actionValues, htail]
    rfl

theorem pairwise_actionRows (actions : List PaperSafetyAction) (sequence : ℕ) :
    (actionRows actions sequence).Pairwise (·.sequence ≤ ·.sequence) ∧
      ∀ row ∈ actionRows actions sequence, sequence ≤ row.sequence := by
  induction actions generalizing sequence with
  | nil => exact ⟨.nil, List.forall_mem_nil _⟩
  | cons action actions ih =>
    obtain ⟨hsorted, hle⟩ := ih (sequence + 1)
    have hcons : actionRows (action :: actions) sequence =
        actionValues sequence action :: actionRows actions (sequence + 1) := by
      simp [actionRows, List.zipIdx_cons]
    have hhead : (actionValues sequence action).sequence = sequence := by cases action <;> rfl
    rw [hcons, List.pairwise_cons, List.forall_mem_cons, hhead]
    exact ⟨⟨fun row hrow => (Nat.le_succ _).trans (hle row hrow), hsorted⟩, le_rfl,
      fun row hrow => (Nat.le_succ _).trans (hle row hrow)⟩

/-! ## Keys -/

def SafetyActionColumns.material (row : SafetyActionColumns) : List JsonAtom :=
  [.int row.sequence, .str row.kind, .ofOption .str row.brokerOrderId, .str row.symbol,
    .ofOption .bool row.protectiveOco, .ofOption (fun side => .str side.value) row.side,
    .ofOption .decimal row.quantity]

/-- The tuple whose digest is that of the actions. -/
def actionsMaterial (actions : List PaperSafetyAction) : List JsonAtom :=
  (actionRows actions 0).flatMap SafetyActionColumns.material

def actionsSha256 (sha : Sha256) (actions : List PaperSafetyAction) : String :=
  sha.hexdigest (actionsMaterial actions)

/-- The tuple whose digest is the key of a plan. -/
def planMaterial (plan : PaperSafetyPlan) (actionsSha256 : String) : List JsonAtom :=
  [.str plan.accountFingerprint, .time plan.observedAt, .int plan.sessionDate,
    .str plan.phase.value, .decimal plan.markToMarketDailyPnl,
    .decimal plan.conservativeDailyPnl, .str actionsSha256]

def paperSafetyPlanKey (sha : Sha256) (plan : PaperSafetyPlan) (actionsSha256 : String) :
    PaperSafetyPlanKey :=
  sha.hexdigest (planMaterial plan actionsSha256)

/-! ## The rules for a plan -/

def validTarget : PaperSafetyAction → Bool
  | .cancelOrder action => action.brokerOrderId ≠ ""
  | .closePosition action =>
    action.quantity.isFinite ∧ 0 < action.quantity ∧ action.quantity.isIntegral

def validAction (action : PaperSafetyAction) : Bool :=
  action.symbol ≠ "" ∧ isUpper action.symbol ∧ validTarget action

def actionRank : PaperSafetyAction → ℕ
  | .cancelOrder action => if action.protectiveOco then 1 else 0
  | .closePosition _ => 2

def actionsAreOrdered (plan : PaperSafetyPlan) : Bool :=
  let ranks := plan.actions.map actionRank
  ranks = ranks.insertionSort (· ≤ ·) ∧ (plan.phase = .entryCutoff → ∀ rank ∈ ranks, rank = 0)

variable (newYork : ZoneInfo) (sha : Sha256)

/-- Whether a plan keeps the rules of the store. -/
def validPlan (plan : PaperSafetyPlan) : Bool :=
  let cancelIds := plan.actions.filterMap PaperSafetyAction.cancelId?
  let closeSymbols := plan.actions.filterMap PaperSafetyAction.closeSymbol?
  isHex64 plan.accountFingerprint ∧ plan.observedAt.aware ∧
    (plan.observedAt.astimezone newYork).date = plan.sessionDate ∧ plan.phase ≠ .monitoring ∧
    plan.markToMarketDailyPnl.isFinite ∧ plan.conservativeDailyPnl.isFinite ∧
    cancelIds.length = cancelIds.dedup.length ∧ closeSymbols.length = closeSymbols.dedup.length ∧
    actionsAreOrdered plan ∧ plan.actions.all validAction

/-- `_require_plan` -/
def requireSafetyPlan (plan : PaperSafetyPlan) : Except SafetyStoreError Unit :=
  raiseIf (validPlan newYork plan ≠ true) .invalidPaperSafetyPlan

/-! ## Operations -/

/-- The rows of the actions of a plan, in their sequence. -/
def readActions (tables : SafetyTables) (planKey : PaperSafetyPlanKey) :
    List SafetyActionColumns :=
  ((tables.actions.filter (·.1 = planKey)).map (·.2)).insertionSort (·.sequence ≤ ·.sequence)

/-- `_stored_plan` -/
def storedPlan (row : SafetyPlanRow) (rows : List SafetyActionColumns) :
    Except SafetyStoreError StoredPaperSafetyPlan := do
  let actions ← rows.mapM storedAction
  raiseIf (actionsSha256 sha actions ≠ row.actionsSha256) .invalidPaperSafetyPlan
  let plan : PaperSafetyPlan :=
    { accountFingerprint := row.accountFingerprint
      observedAt := row.observedAt
      sessionDate := row.sessionDate
      phase := row.phase
      markToMarketDailyPnl := row.markToMarketDailyPnl
      conservativeDailyPnl := row.conservativeDailyPnl
      actions }
  raiseIf (¬ plan.observedAt.aware) .invalidPaperSafetyPlan
  requireSafetyPlan newYork plan
  raiseIf (paperSafetyPlanKey sha plan row.actionsSha256 ≠ row.planKey) .invalidPaperSafetyPlan
  return ⟨row.planKey, row.actionsSha256, plan⟩

/-- `_plan_values` -/
def planValues (plan : PaperSafetyPlan) : SafetyPlanRow where
  planKey := paperSafetyPlanKey sha plan (actionsSha256 sha plan.actions)
  accountFingerprint := plan.accountFingerprint
  observedAt := plan.observedAt
  sessionDate := plan.sessionDate
  phase := plan.phase
  markToMarketDailyPnl := plan.markToMarketDailyPnl
  conservativeDailyPnl := plan.conservativeDailyPnl
  actionsSha256 := actionsSha256 sha plan.actions

/-- Saves a plan, and says whether it is a new one. -/
def savePaperSafetyPlan (tables : SafetyTables) (plan : PaperSafetyPlan) :
    Except SafetyStoreError (SafetyTables × Bool) := do
  requireSafetyPlan newYork plan
  let values := planValues sha plan
  match tables.plans.find? (·.planKey = values.planKey) with
  | some existing =>
    let stored ← storedPlan newYork sha existing (readActions tables values.planKey)
    raiseIf (stored.plan ≠ plan ∨ stored.actionsSha256 ≠ values.actionsSha256)
      .paperSafetyPlanConflict
    return (tables, false)
  | none =>
    return (
      { plans := tables.plans ++ [values]
        actions := tables.actions ++
          (actionRows plan.actions 0).map fun row => (values.planKey, row) }, true)

def readPaperSafetyPlans (tables : SafetyTables) :
    Except SafetyStoreError (List StoredPaperSafetyPlan) :=
  tables.plans.mapM fun row => storedPlan newYork sha row (readActions tables row.planKey)

/-! ## The tables of some plans -/

variable {newYork} {sha} {plan other : PaperSafetyPlan} {plans : List PaperSafetyPlan}

variable (sha) in
/-- The key of a plan. -/
def planKeyOf (plan : PaperSafetyPlan) : PaperSafetyPlanKey := (planValues sha plan).planKey

variable (sha) in
/-- The rows of the actions of a plan. -/
def planActions (plan : PaperSafetyPlan) : List (PaperSafetyPlanKey × SafetyActionColumns) :=
  (actionRows plan.actions 0).map fun row => (planKeyOf sha plan, row)

variable (sha) in
/-- The tables that hold some plans. -/
def tablesOf (plans : List PaperSafetyPlan) : SafetyTables where
  plans := plans.map (planValues sha)
  actions := plans.flatMap (planActions sha)

variable (sha) in
/-- What a plan is read back as. -/
def storedOf (plan : PaperSafetyPlan) : StoredPaperSafetyPlan :=
  ⟨planKeyOf sha plan, actionsSha256 sha plan.actions, plan⟩

theorem flatMap_planActions_of_key (plans : List PaperSafetyPlan) (key : PaperSafetyPlanKey) :
    (plans.flatMap (planActions sha)).filter (·.1 = key) =
      (plans.filter (planKeyOf sha · = key)).flatMap (planActions sha) := by
  induction plans with
  | nil => rfl
  | cons plan plans ih =>
    rw [List.flatMap_cons, List.filter_append, ih]
    by_cases hkey : planKeyOf sha plan = key <;>
      simp [planActions, List.filter_map, Function.comp_def, hkey]

/-- The rows of a plan are read in the order in which they were written. -/
theorem readActions_tablesOf (hnodup : (plans.map (planKeyOf sha)).Nodup) (h : plan ∈ plans) :
    readActions (tablesOf sha plans) (planKeyOf sha plan) = actionRows plan.actions 0 := by
  rw [readActions, tablesOf, flatMap_planActions_of_key, filter_key_eq_singleton hnodup h,
    List.flatMap_singleton, planActions, List.map_map]
  simpa [Function.comp_def] using (pairwise_actionRows plan.actions 0).1.insertionSort_eq

/-- A plan that keeps the rules is read back from its rows as it was. -/
theorem storedPlan_planValues (h : validPlan newYork plan = true) :
    storedPlan newYork sha (planValues sha plan) (actionRows plan.actions 0) =
      .ok (storedOf sha plan) := by
  have haware : plan.observedAt.aware = true := by
    simp only [validPlan, decide_eq_true_eq] at h
    exact h.2.1
  rw [storedPlan, mapM_storedAction, ok_bind, bind_eq_ok]
  refine ⟨(), raiseIf_eq_ok.2 (not_not.2 rfl), ?_⟩
  simp only [bind_eq_ok, raiseIf_eq_ok, requireSafetyPlan]
  exact ⟨(), not_not.2 haware, (), not_not.2 h, (), not_not.2 rfl, rfl⟩

/-- All plans are read back that the tables hold. -/
theorem readPaperSafetyPlans_tablesOf (hnodup : (plans.map (planKeyOf sha)).Nodup)
    (hvalid : ∀ plan ∈ plans, validPlan newYork plan = true) :
    readPaperSafetyPlans newYork sha (tablesOf sha plans) = .ok (plans.map (storedOf sha)) := by
  have hread : ∀ plan ∈ plans, storedPlan newYork sha (planValues sha plan)
      (readActions (tablesOf sha plans) (planKeyOf sha plan)) = .ok (storedOf sha plan) := by
    intro plan hplan
    rw [readActions_tablesOf hnodup hplan]
    exact storedPlan_planValues (hvalid plan hplan)
  rw [readPaperSafetyPlans]
  exact (List.mapM_map ..).trans (mapM_eq_map hread)

/-! ## Runs of saves -/

/-- The materials of two actions are the same only if the actions are. -/
theorem eq_of_material {action other : PaperSafetyAction} {m n : ℕ}
    (h : (actionValues m action).material = (actionValues n other).material) :
    action = other := by
  have hside : ∀ {a b : PaperOrderSide}, a.value = b.value → a = b := by
    intro a b
    cases a <;> cases b <;> decide
  rcases action with ⟨id, symbol, protective⟩ | ⟨symbol, side, quantity⟩ <;>
    rcases other with ⟨id', symbol', protective'⟩ | ⟨symbol', side', quantity'⟩ <;>
    simp only [SafetyActionColumns.material, actionValues, JsonAtom.ofOption, List.cons.injEq,
      JsonAtom.str.injEq, JsonAtom.bool.injEq, JsonAtom.decimal.injEq, reduceCtorEq, and_true,
      true_and, and_false] at h
  · obtain ⟨-, rfl, rfl, rfl⟩ := h
    rfl
  · obtain ⟨-, rfl, hvalue, rfl⟩ := h
    rw [hside hvalue]

theorem eq_of_actionsMaterial {actions others : List PaperSafetyAction}
    (h : actionsMaterial actions = actionsMaterial others) : actions = others := by
  -- Each action contributes seven atoms, so the two texts split at the same places.
  have hrows : ∀ sequence, (actionRows actions sequence).flatMap SafetyActionColumns.material =
      (actionRows others sequence).flatMap SafetyActionColumns.material → actions = others := by
    clear h
    induction actions generalizing others with
    | nil =>
      intro sequence h
      cases others with
      | nil => rfl
      | cons other others => simp [actionRows, List.zipIdx_cons, SafetyActionColumns.material] at h
    | cons action actions ih =>
      intro sequence h
      cases others with
      | nil => simp [actionRows, List.zipIdx_cons, SafetyActionColumns.material] at h
      | cons other others =>
        simp only [actionRows, List.zipIdx_cons, List.map_cons, List.flatMap_cons] at h
        obtain ⟨hhead, htail⟩ := List.append_inj h rfl
        rw [eq_of_material hhead, ih (sequence + 1) htail]
  exact hrows 0 h

theorem eq_of_planMaterial {digest digest' : String}
    (h : planMaterial plan digest = planMaterial other digest') :
    digest = digest' ∧ (plan.actions = other.actions → plan = other) := by
  have hphase : ∀ {a b : PaperSafetyPhase}, a.value = b.value → a = b := by
    intro a b
    cases a <;> cases b <;> decide
  rcases plan with ⟨account, observedAt, sessionDate, phase, pnl, conservative, actions⟩
  rcases other with ⟨account', observedAt', sessionDate', phase', pnl', conservative', actions'⟩
  simp only [planMaterial, List.cons.injEq, JsonAtom.str.injEq, JsonAtom.time.injEq,
    JsonAtom.int.injEq, JsonAtom.decimal.injEq, and_true] at h
  obtain ⟨rfl, rfl, rfl, hvalue, rfl, rfl, rfl⟩ := h
  refine ⟨rfl, ?_⟩
  rintro rfl
  rw [hphase hvalue]

variable (sha) in
/-- The texts whose digests the store forms for some plans. -/
def planMaterials (plans : List PaperSafetyPlan) : Set (List JsonAtom) :=
  {m | ∃ plan ∈ plans, m = actionsMaterial plan.actions ∨
    m = planMaterial plan (actionsSha256 sha plan.actions)}

/-- If the digest separates the texts of two plans, so do their keys. -/
theorem eq_of_planKeyOf (hsha : sha.Separates (planMaterials sha plans)) (hplan : plan ∈ plans)
    (hother : other ∈ plans) (h : planKeyOf sha plan = planKeyOf sha other) : plan = other := by
  obtain ⟨hdigest, heq⟩ := eq_of_planMaterial
    (hsha ⟨plan, hplan, .inr rfl⟩ ⟨other, hother, .inr rfl⟩ h)
  exact heq (eq_of_actionsMaterial
    (hsha ⟨plan, hplan, .inl rfl⟩ ⟨other, hother, .inl rfl⟩ hdigest))

variable (newYork sha) in
/-- The tables after a call that saves a plan: a call that raises leaves them as they are. -/
def tablesAfterSave (tables : SafetyTables) (plan : PaperSafetyPlan) : SafetyTables :=
  match savePaperSafetyPlan newYork sha tables plan with
  | .ok (tables, _) => tables
  | .error _ => tables

variable (newYork sha) in
/-- The tables of a new database after some calls. -/
def tablesAfter (calls : List PaperSafetyPlan) : SafetyTables :=
  calls.foldl (tablesAfterSave newYork sha) {}

/-- The store raises exactly for a plan that breaks the rules, and a plan that is saved is a new
    row or one that the tables hold. -/
theorem savePaperSafetyPlan_tablesOf (hnodup : (plans.map (planKeyOf sha)).Nodup)
    (hvalid : ∀ plan ∈ plans, validPlan newYork plan = true)
    (hkey : ∀ other ∈ plans, planKeyOf sha other = planKeyOf sha plan → other = plan) :
    savePaperSafetyPlan newYork sha (tablesOf sha plans) plan =
      if validPlan newYork plan ≠ true then .error .invalidPaperSafetyPlan
      else if plan ∈ plans then .ok (tablesOf sha plans, false)
      else .ok (tablesOf sha (plans ++ [plan]), true) := by
  have hfind : (tablesOf sha plans).plans.find? (·.planKey = (planValues sha plan).planKey) =
      (plans.find? (planKeyOf sha · = planKeyOf sha plan)).map (planValues sha) := by
    rw [tablesOf, List.find?_map]
    rfl
  rw [savePaperSafetyPlan, requireSafetyPlan]
  dsimp only
  rw [hfind]
  split_ifs with hnot hmem
  · rw [raiseIf, if_pos hnot]
    rfl
  · have hread := readActions_tablesOf hnodup hmem
    rw [raiseIf, if_neg hnot, ok_bind, find?_key_of_mem hnodup hmem, Option.map_some]
    dsimp only
    rw [show (planValues sha plan).planKey = planKeyOf sha plan from rfl, hread,
      storedPlan_planValues (hvalid plan hmem), ok_bind, bind_eq_ok]
    exact ⟨(), raiseIf_eq_ok.2 (not_or.2 ⟨not_not.2 rfl, not_not.2 rfl⟩), rfl⟩
  · have hnone : plans.find? (planKeyOf sha · = planKeyOf sha plan) = none := by
      rw [List.find?_eq_none]
      intro other hother hkey'
      exact hmem (hkey other hother (of_decide_eq_true hkey') ▸ hother)
    rw [raiseIf, if_neg hnot, ok_bind, hnone, Option.map_none]
    simp only [tablesOf, List.map_append, List.map_cons, List.map_nil, List.flatMap_append,
      List.flatMap_cons, List.flatMap_nil, List.append_nil]
    rfl

theorem nodup_planKeys_concat (hnodup : (plans.map (planKeyOf sha)).Nodup)
    (hkey : ∀ other ∈ plans, planKeyOf sha other = planKeyOf sha plan → other = plan)
    (hmem : plan ∉ plans) : ((plans ++ [plan]).map (planKeyOf sha)).Nodup := by
  rw [List.map_append, List.map_singleton, List.nodup_append_comm, List.singleton_append,
    List.nodup_cons]
  refine ⟨fun hmap => ?_, hnodup⟩
  obtain ⟨other, hother, heq⟩ := List.mem_map.1 hmap
  exact hmem (hkey other hother heq ▸ hother)

variable (newYork) in
/-- After any calls, the tables hold some of the plans that were to be saved, each of them once
    and all of them valid. -/
theorem exists_tablesAfter_eq {calls : List PaperSafetyPlan}
    (hsha : sha.Separates (planMaterials sha calls)) :
    ∃ plans, plans ⊆ calls ∧ (plans.map (planKeyOf sha)).Nodup ∧
      (∀ plan ∈ plans, validPlan newYork plan = true) ∧
      tablesAfter newYork sha calls = tablesOf sha plans := by
  induction calls using List.reverseRecOn with
  | nil => exact ⟨[], List.Subset.refl _, .nil, List.forall_mem_nil _, rfl⟩
  | append_singleton calls plan ih =>
    have hcalls : planMaterials sha calls ⊆ planMaterials sha (calls ++ [plan]) :=
      fun m ⟨p, hp, hm⟩ => ⟨p, List.mem_append_left _ hp, hm⟩
    obtain ⟨plans, hsubset, hnodup, hvalid, htables⟩ := ih (hsha.mono hcalls)
    have hkey : ∀ other ∈ plans, planKeyOf sha other = planKeyOf sha plan → other = plan :=
      fun other hother => eq_of_planKeyOf hsha (List.mem_append_left _ (hsubset hother))
        (List.mem_append_right _ (List.mem_singleton_self plan))
    have hsub := List.Subset.trans hsubset (List.subset_append_left calls [plan])
    rw [tablesAfter, List.foldl_concat, ← tablesAfter, htables, tablesAfterSave,
      savePaperSafetyPlan_tablesOf hnodup hvalid hkey]
    split_ifs with hnot hmem
    · exact ⟨plans, hsub, hnodup, hvalid, rfl⟩
    · exact ⟨plans, hsub, hnodup, hvalid, rfl⟩
    · refine ⟨plans ++ [plan], ?_, ?_, ?_, rfl⟩
      · exact List.append_subset.2 ⟨hsub, List.subset_append_right calls [plan]⟩
      · exact nodup_planKeys_concat hnodup hkey hmem
      · rw [List.forall_mem_append, List.forall_mem_singleton]
        exact ⟨hvalid, not_not.1 hnot⟩

variable (newYork sha) in
/-- Whether a plan can be saved into some tables, and is then read back equal to what it was. -/
def IsKept (tables : SafetyTables) (plan : PaperSafetyPlan) : Prop :=
  ∃ tables' isNew stored, savePaperSafetyPlan newYork sha tables plan = .ok (tables', isNew) ∧
    readPaperSafetyPlans newYork sha tables' = .ok stored ∧ plan ∈ stored.map (·.plan)

/-- After any calls, the plans that are kept are those that obey the rules. -/
theorem isKept_tablesAfter_iff {calls : List PaperSafetyPlan}
    (hsha : sha.Separates (planMaterials sha (plan :: calls))) :
    IsKept newYork sha (tablesAfter newYork sha calls) plan ↔ validPlan newYork plan = true := by
  have hcalls : planMaterials sha calls ⊆ planMaterials sha (plan :: calls) :=
    fun m ⟨p, hp, hm⟩ => ⟨p, List.mem_cons_of_mem _ hp, hm⟩
  obtain ⟨plans, hsubset, hnodup, hvalid, htables⟩ :=
    exists_tablesAfter_eq newYork (hsha.mono hcalls)
  have hkey : ∀ other ∈ plans, planKeyOf sha other = planKeyOf sha plan → other = plan :=
    fun other hother => eq_of_planKeyOf hsha (List.mem_cons_of_mem _ (hsubset hother))
      List.mem_cons_self
  rw [IsKept, htables, savePaperSafetyPlan_tablesOf hnodup hvalid hkey]
  have hplans : ∀ plans : List PaperSafetyPlan,
      (plans.map (storedOf sha)).map (·.plan) = plans := fun plans => by
    rw [List.map_map]
    exact List.map_id plans
  refine ⟨?_, fun hplan => ?_⟩
  · rintro ⟨tables', isNew, stored, hsave, -⟩
    by_contra hnot
    rw [if_pos hnot] at hsave
    cases hsave
  · rw [if_neg (not_not.2 hplan)]
    by_cases hmem : plan ∈ plans
    · refine ⟨_, _, _, if_pos hmem, readPaperSafetyPlans_tablesOf hnodup hvalid, ?_⟩
      rwa [hplans]
    · have hvalid' : ∀ p ∈ plans ++ [plan], validPlan newYork p = true := by
        rw [List.forall_mem_append, List.forall_mem_singleton]
        exact ⟨hvalid, hplan⟩
      refine ⟨_, _, _, if_neg hmem, readPaperSafetyPlans_tablesOf
        (nodup_planKeys_concat hnodup hkey hmem) hvalid', ?_⟩
      rw [hplans]
      exact List.mem_append_right _ (List.mem_singleton_self plan)

end TradingAgent
