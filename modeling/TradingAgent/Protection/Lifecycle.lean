import TradingAgent.Protection.Plan

/-!
# The lifecycle of protective OCOs

What to do next about the position of an entry (`planCurrentProtectiveOcoLifecycle`): nothing, if
an open OCO covers it; cancel the open OCO, if it does not; and plan a new one, if there is none.
The decision compares the fills in the ledger, the stored plans, the OCOs that are open, and the
history of OCOs, which come from different reads, and is blocked if they do not fit.

* What the history says is taken apart in `matchedHistory` (which plan each OCO is from) and
  `confirmedProtectiveFill` (how much the OCOs have filled, `legFills`).
* A new plan is made exactly if `NewExitGuards` hold (`lifecycle_eq_plan_iff`), and an open OCO is
  only canceled under `ResizeGuards` (`lifecycle_eq_resizeCancel`).
-/

namespace TradingAgent

def CANCELABLE_STATUSES : List String := ["new", "accepted", "pending_new", "partially_filled"]

def TERMINAL_STATUSES : List String :=
  ["filled", "canceled", "expired", "rejected", "done_for_day", "stopped", "calculated",
    "replaced"]

structure ProtectiveOcoResizeCancelPlan where
  parentIntentId : IntentId
  sourcePlanKey : ProtectiveOcoPlanKey
  brokerOrderId : BrokerOrderId
  symbol : String
  observedAt : DateTime
  deriving DecidableEq, Repr

inductive ProtectiveOcoLifecycleDecision
  | exit (decision : ProtectiveExitPlanDecision)
  | resizeCancel (plan : ProtectiveOcoResizeCancelPlan)
  deriving DecidableEq, Repr

/-- The decision that something is in the way. -/
def blocked (reasons : List String) :
    Except Decimal.ConversionError ProtectiveOcoLifecycleDecision :=
  .ok (.exit (.blocked reasons))

/-- The stored plans of an intent. -/
def plansOf (ledger : ReconciliationLedger) (parentIntentId : IntentId) :
    List StoredProtectiveOcoPlan :=
  ledger.protectiveOcoPlans.filter (·.plan.parentIntentId = parentIntentId)

/-- The OCOs on a symbol. -/
def ocosOf (ocos : List ProtectiveOcoSnapshot) (symbol : String) : List ProtectiveOcoSnapshot :=
  ocos.filter (·.takeProfit.symbol = symbol)

/-- The positions in a symbol. -/
def positionsOf (brokerState : PaperBrokerState) (symbol : String) : List PaperPositionSnapshot :=
  brokerState.positions.filter (·.symbol = symbol)

/-! ## The history -/

def matchingPlans (plans : List StoredProtectiveOcoPlan) (snapshot : ProtectiveOcoSnapshot) :
    List StoredProtectiveOcoPlan :=
  plans.filter (protectiveOcoSnapshotMatchesPlan snapshot ·.plan)

/-- The plan of each OCO that has exactly one, and the reasons against the history. -/
def matchedHistory (plans : List StoredProtectiveOcoPlan) (snapshots : List ProtectiveOcoSnapshot) :
    List (StoredProtectiveOcoPlan × ProtectiveOcoSnapshot) × List String :=
  let parentIds := snapshots.map (·.takeProfit.brokerOrderId)
  let clientIds := snapshots.map (·.takeProfit.clientOrderId)
  let identityReasons := allReasons [
    (¬ parentIds.Nodup ∨ ¬ clientIds.Nodup, "보호 OCO history identity가 중복됩니다")]
  let unmatched := snapshots.filter fun snapshot => (matchingPlans plans snapshot).length ≠ 1
  (snapshots.filterMap fun snapshot =>
      match matchingPlans plans snapshot with
      | [plan] => some (plan, snapshot)
      | _ => none,
    (identityReasons ++ unmatched.map fun _ =>
      "보호 OCO history와 immutable 계획이 유일하게 일치하지 않습니다").eraseDups)

/-- The stored plan of the history that was saved last. -/
def latestMatchedPlan (plans : List StoredProtectiveOcoPlan)
    (matched : List (StoredProtectiveOcoPlan × ProtectiveOcoSnapshot)) :
    Option StoredProtectiveOcoPlan :=
  plans.reverse.find? (·.planKey ∈ matched.map (·.1.planKey))

structure ProtectiveFill where
  total : Decimal := 0
  reasons : List String := []

/-- The body of the loop over the history. -/
def protectiveFillStep (fill : ProtectiveFill) (snapshot : ProtectiveOcoSnapshot) :
    ProtectiveFill :=
  let takeProfit := snapshot.takeProfit.filledQuantity
  let stopLoss := snapshot.stopLoss.filledQuantity
  if ¬ takeProfit.isFinite
      ∨ ¬ stopLoss.isFinite
      ∨ takeProfit < 0
      ∨ stopLoss < 0
      ∨ snapshot.takeProfit.quantity < takeProfit
      ∨ snapshot.stopLoss.quantity < stopLoss then
    { fill with reasons := fill.reasons ++ ["보호 OCO leg 체결 수량이 유효하지 않습니다"] }
  else if 0 < takeProfit ∧ 0 < stopLoss then
    { fill with
      reasons := fill.reasons ++ ["보호 OCO 양쪽 leg 체결 경합은 자동 복구하지 않습니다"] }
  else
    { fill with total := fill.total + (takeProfit + stopLoss) }

/-- An OCO that gives no reason has fills that are added. -/
theorem protectiveFillStep_of_reasons {fill : ProtectiveFill} {snapshot : ProtectiveOcoSnapshot}
    (h : (protectiveFillStep fill snapshot).reasons = []) :
    snapshot.takeProfit.filledQuantity.isFinite = true
      ∧ snapshot.stopLoss.filledQuantity.isFinite = true
      ∧ protectiveFillStep fill snapshot =
        { fill with
          total := fill.total +
            (snapshot.takeProfit.filledQuantity + snapshot.stopLoss.filledQuantity) } := by
  rw [protectiveFillStep] at h ⊢
  split_ifs at h ⊢ with hinvalid hboth
  · simp at h
  · simp at h
  · simp only [not_or, not_not] at hinvalid
    exact ⟨hinvalid.1, hinvalid.2.1, rfl⟩

/-- The loop over the history, with its reasons. -/
def protectiveFillPass : LoggedPass ProtectiveFill ProtectiveOcoSnapshot String where
  step := protectiveFillStep
  log := (·.reasons)
  log_step fill snapshot := by
    rw [protectiveFillStep]
    split_ifs <;> simp

def confirmedProtectiveFill (snapshots : List ProtectiveOcoSnapshot) : Decimal × List String :=
  let fill := protectiveFillPass.run {} snapshots
  (fill.total, fill.reasons.eraseDups)

def snapshotIsTerminal (snapshot : ProtectiveOcoSnapshot) : Bool :=
  snapshot.takeProfit.status ∈ TERMINAL_STATUSES ∧ snapshot.stopLoss.status ∈ TERMINAL_STATUSES

/-- The event of the greatest number, the first one of those of the same number. -/
def latestEvent (events : List StoredPaperMutationEvent) : Option StoredPaperMutationEvent :=
  events.foldl (fun latest event =>
    match latest with
    | none => some event
    | some latest => some (if latest.eventId < event.eventId then event else latest)) none

def priorProtectiveMutationRequiresHistory (ledger : ReconciliationLedger)
    (planKeys : List ProtectiveOcoPlanKey) : Bool :=
  ledger.paperMutationIntents.any fun storedIntent =>
    storedIntent.intent.operation = .submitProtectiveOco
      ∧ storedIntent.intent.protectivePlanKey.any (· ∈ planKeys)
      ∧ (latestEvent
          (ledger.paperMutationEvents.filter (·.mutationKey = storedIntent.mutationKey))).any
            (·.event.eventType ≠ .recoveredAbsent)

/-! ## The decision -/

/-- What to do with an open OCO, where a plan or nothing is desired. -/
def resizeDecision (parentIntentId : IntentId) (intent : StoredIntent)
    (position : Option PaperPositionSnapshot) (openSource : Option StoredProtectiveOcoPlan)
    (snapshot : ProtectiveOcoSnapshot) :
    Except Decimal.ConversionError ProtectiveOcoLifecycleDecision :=
  match openSource with
  | none => blocked ["열린 보호 OCO의 source 계획을 확인하지 못했습니다"]
  | some openSource =>
    let statuses := [snapshot.takeProfit.status, snapshot.stopLoss.status]
    if position.any (protectiveOcoCoversPosition openSource.plan snapshot ·) then
      .ok (.exit (.notRequired parentIntentId))
    else if "pending_cancel" ∈ statuses then
      blocked ["보호 OCO가 pending_cancel이므로 terminal 대사를 기다립니다"]
    else if ¬ statuses.all (· ∈ CANCELABLE_STATUSES) then
      blocked ["보호 OCO가 current-epoch cancel 가능한 상태가 아닙니다"]
    else
      .ok (.resizeCancel
        { parentIntentId
          sourcePlanKey := openSource.planKey
          brokerOrderId := snapshot.takeProfit.brokerOrderId
          symbol := intent.symbol
          observedAt := snapshot.observedAt })

/-- The decision where an exit is desired or not, and an OCO is open or not. -/
def finalDecision (parentIntentId : IntentId) (intent : StoredIntent)
    (position : Option PaperPositionSnapshot) (openSource : Option StoredProtectiveOcoPlan)
    (desired : ProtectiveExitPlanDecision) (openOco : Option ProtectiveOcoSnapshot) :
    Except Decimal.ConversionError ProtectiveOcoLifecycleDecision :=
  match desired, openOco with
  | .blocked reasons, _ => blocked reasons
  | desired, none => .ok (.exit desired)
  | _, some snapshot => resizeDecision parentIntentId intent position openSource snapshot

section

variable (sha256 : String → String) (str : Decimal → String)

/-- The decision about an intent and the state of its order. -/
def lifecycleOfIntent (ledger : ReconciliationLedger) (brokerState : PaperBrokerState)
    (observedProtectiveOcos : List ProtectiveOcoSnapshot) (parentIntentId : IntentId)
    (intent : StoredIntent) (orderState : BrokerOrderLedgerState) :
    Except Decimal.ConversionError ProtectiveOcoLifecycleDecision :=
  let plans := plansOf ledger parentIntentId
  let relevantHistory := ocosOf observedProtectiveOcos intent.symbol
  let (matched, reasons) := matchedHistory plans relevantHistory
  if reasons ≠ [] then blocked reasons
  else
    let (protectiveFill, fillReasons) := confirmedProtectiveFill relevantHistory
    if fillReasons ≠ [] then blocked fillReasons
    else
      let positions := positionsOf brokerState intent.symbol
      let openOcos := ocosOf brokerState.protectiveOcos intent.symbol
      let sources := (openOcos.head?.map (matchingPlans plans)).getD []
      let latestSource := latestMatchedPlan plans matched
      if 1 < positions.length then
        blocked ["보호 대상 current-epoch broker 포지션이 중복됩니다"]
      else if 1 < openOcos.length then
        blocked ["보호 대상 current-epoch broker OCO가 중복됩니다"]
      else if openOcos ≠ [] ∧ sources.length ≠ 1 then
        blocked ["열린 보호 OCO와 immutable 계획이 유일하게 일치하지 않습니다"]
      else if openOcos = [] ∧ relevantHistory = []
          ∧ priorProtectiveMutationRequiresHistory ledger (plans.map (·.planKey)) then
        blocked ["기존 보호 OCO mutation의 current history가 없습니다"]
      else if openOcos = [] ∧ relevantHistory ≠ []
          ∧ relevantHistory.any (¬ snapshotIsTerminal ·) then
        blocked ["열린 목록에서 사라진 보호 OCO의 terminal 상태가 확인되지 않았습니다"]
      else do
        let position := positions.head?
        let desired ← planProtectiveOcoExit sha256 str intent orderState position protectiveFill
          (if openOcos ≠ [] then none else latestSource.map (·.planKey))
        finalDecision parentIntentId intent position sources.head? desired openOcos.head?

def planCurrentProtectiveOcoLifecycle (ledger : ReconciliationLedger)
    (brokerState : PaperBrokerState) (observedProtectiveOcos : List ProtectiveOcoSnapshot)
    (parentIntentId : IntentId) :
    Except Decimal.ConversionError ProtectiveOcoLifecycleDecision :=
  match ledger.intents.filter (·.intentId = parentIntentId),
      ledger.orderStates.filter (·.intentId = parentIntentId) with
  | [intent], [orderState] =>
    lifecycleOfIntent sha256 str ledger brokerState observedProtectiveOcos parentIntentId intent
      orderState
  | _, _ => blocked ["보호 대상 current-epoch intent와 체결 원장이 유일하지 않습니다"]

end

/-! ## When a new exit is planned -/

section

variable {sha256 : String → String} {str : Decimal → String} {ledger : ReconciliationLedger}
  {brokerState : PaperBrokerState} {observedProtectiveOcos : List ProtectiveOcoSnapshot}
  {parentIntentId : IntentId} {intent : StoredIntent} {orderState : BrokerOrderLedgerState}

theorem eq_singleton_iff {α : Type*} {l : List α} {a : α} :
    l = [a] ↔ l.head? = some a ∧ ¬ 1 < l.length := by
  cases l with
  | nil => simp
  | cons b l => simp [List.length_eq_zero_iff]

theorem head?_eq_some_of_mem {α : Type*} {l : List α} {a : α} (h : ¬ 1 < l.length) (ha : a ∈ l) :
    l.head? = some a := by
  match l, h, ha with
  | [b], _, ha => exact congrArg some (List.mem_singleton.1 ha).symm
  | _ :: _ :: _, h, _ => simp at h

theorem ite_blocked {bad : Prop} [Decidable bad] {reasons : List String}
    {rest : Except Decimal.ConversionError ProtectiveOcoLifecycleDecision}
    {decision : ProtectiveOcoLifecycleDecision}
    (h : ∀ reasons, decision ≠ .exit (.blocked reasons)) :
    (if bad then blocked reasons else rest) = .ok decision ↔ ¬ bad ∧ rest = .ok decision := by
  split_ifs with hbad
  · simp [hbad, blocked, (h reasons).symm]
  · simp [hbad]

/-- An open OCO is left alone, canceled, or in the way. -/
theorem resizeDecision_ne_plan {position : Option PaperPositionSnapshot}
    {openSource : Option StoredProtectiveOcoPlan} {snapshot : ProtectiveOcoSnapshot}
    {plan : ProtectiveOcoExitPlan} :
    resizeDecision parentIntentId intent position openSource snapshot ≠ .ok (.exit (.plan plan)) := by
  cases openSource with
  | none => simp [resizeDecision, blocked]
  | some openSource =>
    rw [resizeDecision]
    split_ifs <;> simp [blocked]

theorem finalDecision_eq_plan_iff {position : Option PaperPositionSnapshot}
    {openSource : Option StoredProtectiveOcoPlan} {desired : ProtectiveExitPlanDecision}
    {openOco : Option ProtectiveOcoSnapshot} {plan : ProtectiveOcoExitPlan} :
    finalDecision parentIntentId intent position openSource desired openOco
        = .ok (.exit (.plan plan))
      ↔ openOco = none ∧ desired = .plan plan := by
  cases desired <;> cases openOco <;>
    simp [finalDecision, blocked, resizeDecision_ne_plan]

/-- What the history must be like for any decision. -/
structure HistoryGuards (plans : List StoredProtectiveOcoPlan)
    (history : List ProtectiveOcoSnapshot) : Prop where
  nodup_brokerOrderIds : (history.map (·.takeProfit.brokerOrderId)).Nodup
  nodup_clientOrderIds : (history.map (·.takeProfit.clientOrderId)).Nodup
  matches_one : ∀ snapshot ∈ history, (matchingPlans plans snapshot).length = 1

theorem matchedHistory_reasons_eq_nil {plans : List StoredProtectiveOcoPlan}
    {history : List ProtectiveOcoSnapshot} :
    (matchedHistory plans history).2 = [] ↔ HistoryGuards plans history := by
  simp only [matchedHistory, eraseDups_eq_nil, List.append_eq_nil_iff, allReasons_eq_nil,
    List.forall_mem_singleton, decide_eq_false_iff_not, not_or, not_not, List.map_eq_nil_iff,
    List.filter_eq_nil_iff, decide_eq_true_eq]
  exact ⟨fun h => ⟨h.1.1, h.1.2, h.2⟩, fun h => ⟨⟨h.1, h.2⟩, h.3⟩⟩

/-- Under these conditions a new exit is planned for the position. -/
structure NewExitGuards (ledger : ReconciliationLedger) (brokerState : PaperBrokerState)
    (observedProtectiveOcos : List ProtectiveOcoSnapshot) (parentIntentId : IntentId)
    (intent : StoredIntent) (orderState : BrokerOrderLedgerState)
    (position : PaperPositionSnapshot) : Prop where
  intents : ledger.intents.filter (·.intentId = parentIntentId) = [intent]
  orderStates : ledger.orderStates.filter (·.intentId = parentIntentId) = [orderState]
  history : HistoryGuards (plansOf ledger parentIntentId)
    (ocosOf observedProtectiveOcos intent.symbol)
  fills : (confirmedProtectiveFill (ocosOf observedProtectiveOcos intent.symbol)).2 = []
  positions : positionsOf brokerState intent.symbol = [position]
  openOcos : ocosOf brokerState.protectiveOcos intent.symbol = []
  mutations : ocosOf observedProtectiveOcos intent.symbol = [] →
    priorProtectiveMutationRequiresHistory ledger
      ((plansOf ledger parentIntentId).map (·.planKey)) = false
  terminal : ∀ snapshot ∈ ocosOf observedProtectiveOcos intent.symbol,
    snapshotIsTerminal snapshot = true
  exit : ExitGuards intent orderState position
    (confirmedProtectiveFill (ocosOf observedProtectiveOcos intent.symbol)).1
  isFinite : position.quantity.isFinite = true

/-- The key of the plan that a new exit replaces. -/
def replacedPlanKey (ledger : ReconciliationLedger) (parentIntentId : IntentId)
    (history : List ProtectiveOcoSnapshot) : Option ProtectiveOcoPlanKey :=
  let plans := plansOf ledger parentIntentId
  (latestMatchedPlan plans (matchedHistory plans history).1).map (·.planKey)

theorem lifecycleOfIntent_eq_plan_iff {plan : ProtectiveOcoExitPlan}
    (hintents : ledger.intents.filter (·.intentId = parentIntentId) = [intent])
    (hstates : ledger.orderStates.filter (·.intentId = parentIntentId) = [orderState]) :
    lifecycleOfIntent sha256 str ledger brokerState observedProtectiveOcos parentIntentId intent
        orderState = .ok (.exit (.plan plan))
      ↔ ∃ position, NewExitGuards ledger brokerState observedProtectiveOcos parentIntentId intent
            orderState position
          ∧ plan = exitPlan sha256 str intent position (replacedPlanKey ledger parentIntentId
              (ocosOf observedProtectiveOcos intent.symbol)) := by
  rw [lifecycleOfIntent]
  simp only [ite_blocked (show ∀ reasons, ProtectiveOcoLifecycleDecision.exit (.plan plan)
      ≠ .exit (.blocked reasons) from nofun), ne_eq, not_not, matchedHistory_reasons_eq_nil]
  constructor
  · rintro ⟨hhistory, hfills, hpositions, -, -, hmutations, hterminal, hdecision⟩
    obtain ⟨desired, hdesired, hfinal⟩ := Except.bind_eq_ok.1 hdecision
    obtain ⟨hopen, rfl⟩ := finalDecision_eq_plan_iff.1 hfinal
    rw [List.head?_eq_none_iff] at hopen
    rw [if_neg (not_not.2 hopen), planProtectiveOcoExit_eq_plan_iff] at hdesired
    obtain ⟨position, hposition, hexit, hfinite, rfl⟩ := hdesired
    refine ⟨position, ⟨hintents, hstates, hhistory, hfills,
      eq_singleton_iff.2 ⟨hposition, hpositions⟩, hopen, fun hempty => ?_, fun snapshot hmem => ?_,
      hexit, hfinite⟩, rfl⟩
    · simpa [hopen, hempty] using hmutations
    · by_contra hnot
      refine hterminal ⟨hopen, List.ne_nil_of_mem hmem, List.any_eq_true.2 ⟨snapshot, hmem, ?_⟩⟩
      simpa using hnot
  · rintro ⟨position, h, rfl⟩
    obtain ⟨hposition, hpositions⟩ := eq_singleton_iff.1 h.positions
    refine ⟨h.history, h.fills, hpositions, by simp [h.openOcos], by simp [h.openOcos],
      fun ⟨_, hempty, hmutations⟩ => ?_, fun ⟨_, _, hany⟩ => ?_, ?_⟩
    · exact absurd hmutations (by simp [h.mutations hempty])
    · obtain ⟨snapshot, hmem, hnot⟩ := List.any_eq_true.1 hany
      simp [h.terminal snapshot hmem] at hnot
    · have hdesired : planProtectiveOcoExit sha256 str intent orderState _ _
          (replacedPlanKey ledger parentIntentId
            (ocosOf observedProtectiveOcos intent.symbol)) = .ok (.plan _) :=
        planProtectiveOcoExit_eq_plan_iff.2 ⟨position, hposition, h.exit, h.isFinite, rfl⟩
      rw [replacedPlanKey] at hdesired
      rw [if_neg (not_not.2 h.openOcos), hdesired, Except.ok_bind, finalDecision_eq_plan_iff]
      exact ⟨by rw [h.openOcos]; rfl, rfl⟩

/-- A new exit is planned exactly under its guards. -/
theorem lifecycle_eq_plan_iff {plan : ProtectiveOcoExitPlan} :
    planCurrentProtectiveOcoLifecycle sha256 str ledger brokerState observedProtectiveOcos
        parentIntentId = .ok (.exit (.plan plan))
      ↔ ∃ intent orderState position, NewExitGuards ledger brokerState observedProtectiveOcos
            parentIntentId intent orderState position
          ∧ plan = exitPlan sha256 str intent position (replacedPlanKey ledger parentIntentId
              (ocosOf observedProtectiveOcos intent.symbol)) := by
  rw [planCurrentProtectiveOcoLifecycle]
  split
  next intent orderState hintents hstates =>
    rw [lifecycleOfIntent_eq_plan_iff hintents hstates]
    constructor
    · rintro ⟨position, h⟩
      exact ⟨intent, orderState, position, h⟩
    · rintro ⟨intent', orderState', position, h, hplan⟩
      cases hintents.symm.trans h.intents
      cases hstates.symm.trans h.orderStates
      exact ⟨position, h, hplan⟩
  next hnot =>
    constructor
    · simp [blocked]
    · rintro ⟨intent, orderState, position, h, -⟩
      exact absurd h.orderStates (hnot intent orderState h.intents)

/-! ## When an open exit is canceled -/

/-- Under these conditions an open OCO is canceled. -/
structure ResizeGuards (ledger : ReconciliationLedger) (brokerState : PaperBrokerState)
    (parentIntentId : IntentId) (intent : StoredIntent) (oco : ProtectiveOcoSnapshot)
    (stored : StoredProtectiveOcoPlan) : Prop where
  intents : ledger.intents.filter (·.intentId = parentIntentId) = [intent]
  openOcos : ocosOf brokerState.protectiveOcos intent.symbol = [oco]
  source : matchingPlans (plansOf ledger parentIntentId) oco = [stored]
  positions : (positionsOf brokerState intent.symbol).length ≤ 1
  cancelable : ∀ leg ∈ oco.legs, leg.status ∈ CANCELABLE_STATUSES
  uncovered : ∀ position ∈ positionsOf brokerState intent.symbol,
    protectiveOcoCoversPosition stored.plan oco position = false

theorem finalDecision_eq_resizeCancel {position : Option PaperPositionSnapshot}
    {openSource : Option StoredProtectiveOcoPlan} {desired : ProtectiveExitPlanDecision}
    {openOco : Option ProtectiveOcoSnapshot} {cancel : ProtectiveOcoResizeCancelPlan}
    (h : finalDecision parentIntentId intent position openSource desired openOco
      = .ok (.resizeCancel cancel)) :
    ∃ oco source, openOco = some oco ∧ openSource = some source
      ∧ (∀ leg ∈ oco.legs, leg.status ∈ CANCELABLE_STATUSES)
      ∧ (∀ p ∈ position, protectiveOcoCoversPosition source.plan oco p = false)
      ∧ cancel = ⟨parentIntentId, source.planKey, oco.takeProfit.brokerOrderId, intent.symbol,
          oco.observedAt⟩ := by
  have hresize : ∃ oco, openOco = some oco
      ∧ resizeDecision parentIntentId intent position openSource oco
        = .ok (.resizeCancel cancel) := by
    cases desired <;> cases openOco <;> simp_all [finalDecision, blocked]
  obtain ⟨oco, rfl, hresize⟩ := hresize
  cases openSource with
  | none => simp [resizeDecision, blocked] at hresize
  | some source =>
    have hcancel : ∀ reasons, ProtectiveOcoLifecycleDecision.resizeCancel cancel
      ≠ .exit (.blocked reasons) := nofun
    rw [resizeDecision] at hresize
    by_cases hcovers : position.any (protectiveOcoCoversPosition source.plan oco ·) = true
    · rw [if_pos hcovers] at hresize
      cases hresize
    · simp only [if_neg hcovers, ite_blocked hcancel, not_not] at hresize
      obtain ⟨-, hstatuses, hplan⟩ := hresize
      cases hplan
      refine ⟨oco, source, rfl, rfl, ?_, ?_, rfl⟩
      · simpa [ProtectiveOcoSnapshot.legs] using hstatuses
      · intro p hp
        cases Option.mem_def.1 hp
        simpa using hcovers

/-- An open OCO is canceled only under its guards. -/
theorem lifecycle_eq_resizeCancel {cancel : ProtectiveOcoResizeCancelPlan}
    (h : planCurrentProtectiveOcoLifecycle sha256 str ledger brokerState observedProtectiveOcos
      parentIntentId = .ok (.resizeCancel cancel)) :
    ∃ intent oco source, ResizeGuards ledger brokerState parentIntentId intent oco source
      ∧ cancel = ⟨parentIntentId, source.planKey, oco.takeProfit.brokerOrderId, intent.symbol,
          oco.observedAt⟩ := by
  rw [planCurrentProtectiveOcoLifecycle] at h
  split at h
  next intent orderState hintents hstates =>
    rw [lifecycleOfIntent] at h
    simp only [ite_blocked (show ∀ reasons, ProtectiveOcoLifecycleDecision.resizeCancel cancel
      ≠ .exit (.blocked reasons) from nofun), ne_eq, not_not] at h
    obtain ⟨-, -, hpositions, hocos, hsources, -, -, hdecision⟩ := h
    obtain ⟨desired, -, hfinal⟩ := Except.bind_eq_ok.1 hdecision
    obtain ⟨oco, source, hopen, hsource, hcancelable, huncovered, rfl⟩ :=
      finalDecision_eq_resizeCancel hfinal
    have hocos := eq_singleton_iff.2 ⟨hopen, hocos⟩
    rw [hocos] at hsources hsource
    simp only [List.head?_cons, Option.map_some, Option.getD_some, List.cons_ne_nil,
      not_false_eq_true, true_and, not_not] at hsources hsource
    refine ⟨intent, oco, source, ⟨hintents, hocos, eq_singleton_iff.2 ⟨hsource, by omega⟩,
      by omega, hcancelable, fun position hmem => ?_⟩, rfl⟩
    exact huncovered position (head?_eq_some_of_mem hpositions hmem)
  next => simp [blocked] at h

end

end TradingAgent
