import TradingAgent.Mutation.Models

/-!
# What became of a mutation

When the outcome of an attempt is not known, the state of the account at the broker is read
again, together with a targeted lookup of every mutation in question
(`PaperMutationRecoverySnapshot`). From that, `decidePaperMutationRecovery` concludes that the
request took effect, that it did not, or that it cannot tell.

The verdict that a request had no effect allows another attempt, so the evidence must have had
time to settle, and must not be too old (`isSettled`). It should also not be contradicted by
something else in the same snapshot (`AbsentIsSound`).

* For closing a position it never is (`closeDecision_absent`).
* For submitting an entry or a protective OCO, the verdict rests on a targeted lookup that finds
  nothing. It is sound exactly if the snapshot does not show the order elsewhere
  (`absentIsSound_iff`): the lists of orders are not compared with the lookup.
-/

namespace TradingAgent

/-! ## Snapshots -/

/-- The answer to the targeted lookup of a mutation. -/
inductive PaperMutationRecoveryLookup
  | protectiveOco (mutationKey : PaperMutationKey) (observedAt : DateTime)
    (snapshot : Option ProtectiveOcoSnapshot)
  | cancelOrder (mutationKey : PaperMutationKey) (observedAt : DateTime)
    (brokerOrderId : BrokerOrderId) (order : Option PaperOrderSnapshot)
  | entryOrder (mutationKey : PaperMutationKey) (observedAt : DateTime)
    (clientOrderId : IntentId) (order : Option PaperOrderSnapshot)
  deriving DecidableEq, Repr

namespace PaperMutationRecoveryLookup

def mutationKey : PaperMutationRecoveryLookup → PaperMutationKey
  | protectiveOco key _ _ | cancelOrder key _ _ _ | entryOrder key _ _ _ => key

def observedAt : PaperMutationRecoveryLookup → DateTime
  | protectiveOco _ at' _ | cancelOrder _ at' _ _ | entryOrder _ at' _ _ => at'

end PaperMutationRecoveryLookup

structure PaperRecoveryState where
  brokerState : PaperBrokerState
  targetedOrders : List PaperOrderSnapshot
  recentOrders : List PaperOrderSnapshot := []
  activities : List PaperTradeActivity := []
  protectiveOcos : List ProtectiveOcoSnapshot := []
  mutationLookups : List PaperMutationRecoveryLookup := []
  deriving DecidableEq, Repr

structure PaperMutationRecoverySnapshot where
  connectionEpoch : String
  startedAt : DateTime
  completedAt : DateTime
  state : PaperRecoveryState
  deriving DecidableEq, Repr

/-- All the simple orders of a snapshot. -/
def PaperRecoveryState.simpleOrders (state : PaperRecoveryState) : List PaperOrderSnapshot :=
  state.brokerState.openOrders ++ state.targetedOrders ++ state.recentOrders

/-! ## Verdicts -/

inductive PaperMutationRecoveryState
  | acknowledged
  | absent
  | unresolved
  deriving DecidableEq, Repr

def PaperMutationRecoveryState.value : PaperMutationRecoveryState → String
  | acknowledged => "acknowledged"
  | absent => "absent"
  | unresolved => "unresolved"

structure PaperMutationRecoveryResult where
  mutationKey : PaperMutationKey
  state : PaperMutationRecoveryState
  brokerOrderId : Option BrokerOrderId
  deriving DecidableEq, Repr

/-- All that the verdict on a mutation depends on. -/
structure PaperMutationRecoveryCase where
  storedIntent : StoredPaperMutationIntent
  attempted : PaperMutationEvent
  snapshot : PaperMutationRecoverySnapshot
  orderIntents : List StoredIntent
  protectivePlans : List StoredProtectiveOcoPlan
  deriving DecidableEq, Repr

def recoverySettleDelay : TimeDelta := .seconds 30
def recoveryMaxEvidenceAge : TimeDelta := .days 1

/-- The statuses of an order that was canceled, or does not need to be any more. -/
def cancelEffectStatuses : List String :=
  ["pending_cancel", "canceled", "filled", "expired", "rejected", "done_for_day", "stopped",
    "calculated", "replaced"]

def cancelRetryableStatuses : List String := ["new", "accepted", "pending_new", "partially_filled"]

def failedCloseStatuses : List String := ["canceled", "expired", "rejected", "failed"]

namespace PaperMutationRecoveryCase

variable (case : PaperMutationRecoveryCase)

def intent : PaperMutationIntent := case.storedIntent.intent

def result (state : PaperMutationRecoveryState) (brokerOrderId : Option BrokerOrderId) :
    PaperMutationRecoveryResult :=
  ⟨case.storedIntent.mutationKey, state, brokerOrderId⟩

def unresolved : PaperMutationRecoveryResult := case.result .unresolved none

def absent : PaperMutationRecoveryResult := case.result .absent none

/-- The lookups of the mutation. -/
def lookups : List PaperMutationRecoveryLookup :=
  case.snapshot.state.mutationLookups.filter (·.mutationKey = case.storedIntent.mutationKey)

/-- Whether the evidence had time to settle, and is not too old. -/
def isSettled : Bool :=
  let age := case.snapshot.completedAt - case.attempted.occurredAt
  recoverySettleDelay ≤ age ∧ age ≤ recoveryMaxEvidenceAge

/-- The stored intents of the entry that the mutation submits. -/
def entrySources : List StoredIntent :=
  case.orderIntents.filter (some ·.intentId = case.intent.entryIntentId)

/-- The stored plans of the protective OCO that the mutation submits. -/
def planSources : List StoredProtectiveOcoPlan :=
  case.protectivePlans.filter (some ·.planKey = case.intent.protectivePlanKey)

end PaperMutationRecoveryCase

open PaperMutationRecoveryCase

/-- Whether an order at the broker is the one of a stored intent. -/
def orderMatchesSource (order : PaperOrderSnapshot) (source : StoredIntent) : Bool :=
  order.clientOrderId = source.intentId
    ∧ order.symbol = source.symbol
    ∧ order.side = source.side
    ∧ order.quantity = (source.quantity : Decimal)
    ∧ order.limitPrice = some source.entryLimit
    ∧ order.timeInForce = "day"
    ∧ ¬ order.extendedHours

def decideEntryMutationRecovery (case : PaperMutationRecoveryCase) :
    PaperMutationRecoveryResult :=
  match case.intent.entryIntentId, case.entrySources, case.lookups with
  | some entryId, [source], [lookup] =>
    match lookup with
    | .entryOrder _ _ clientOrderId order =>
      if clientOrderId ≠ entryId then case.unresolved
      else match order with
        | none => if case.isSettled then case.absent else case.unresolved
        | some order =>
          if orderMatchesSource order source then
            case.result .acknowledged (some order.brokerOrderId)
          else case.unresolved
    | .protectiveOco .. | .cancelOrder .. => case.unresolved
  | _, _, _ => case.unresolved

def ocoDecision (case : PaperMutationRecoveryCase) : PaperMutationRecoveryResult :=
  match case.planSources, case.lookups with
  | [stored], [lookup] =>
    let genericMatches := case.snapshot.state.protectiveOcos.filter
      (protectiveOcoSnapshotMatchesPlan · stored.plan)
    match lookup with
    | .protectiveOco _ _ (some snapshot) =>
      if protectiveOcoSnapshotMatchesPlan snapshot stored.plan then
        case.result .acknowledged (some snapshot.takeProfit.brokerOrderId)
      else case.unresolved
    | .protectiveOco _ _ none =>
      if genericMatches = [] ∧ case.isSettled then case.absent else case.unresolved
    | .cancelOrder .. | .entryOrder .. => case.unresolved
  | _, _ => case.unresolved

def cancelDecision (case : PaperMutationRecoveryCase) : PaperMutationRecoveryResult :=
  match case.intent.brokerOrderId, case.lookups with
  | some target, [.cancelOrder _ _ brokerOrderId (some order)] =>
    if brokerOrderId ≠ target ∨ order.brokerOrderId ≠ target ∨ order.symbol ≠ case.intent.symbol then
      case.unresolved
    else if order.status ∈ cancelEffectStatuses then
      case.result .acknowledged (some order.brokerOrderId)
    else if order.status ∈ cancelRetryableStatuses ∧ case.isSettled then case.absent
    else case.unresolved
  | _, _ => case.unresolved

/-- Whether an order may be the one that closes the position of the mutation. -/
def isCloseOrder (case : PaperMutationRecoveryCase) (side : PaperOrderSide) (quantity : Decimal)
    (order : PaperOrderSnapshot) : Bool :=
  order.symbol = case.intent.symbol
    ∧ order.side = side
    ∧ order.quantity = quantity
    ∧ order.limitPrice = none
    ∧ order.submittedAt.any (case.attempted.occurredAt ≤ ·)

/-- The quantity, with its sign, of a position that an order of this side and quantity closes. -/
def signedQuantity (side : PaperOrderSide) (quantity : Decimal) : Decimal :=
  if side = .sell then quantity else -quantity

def positionIsUnchanged (case : PaperMutationRecoveryCase) (side : PaperOrderSide)
    (quantity : Decimal) : Bool :=
  (case.snapshot.state.brokerState.positions.filter (·.symbol = case.intent.symbol)).map
    (·.quantity) = [signedQuantity side quantity]

def closeDecision (case : PaperMutationRecoveryCase) : PaperMutationRecoveryResult :=
  match case.intent.side, case.intent.quantity with
  | some side, some quantity =>
    let unchanged := positionIsUnchanged case side quantity
    match case.snapshot.state.simpleOrders.filter (isCloseOrder case side quantity) with
    | [] => if unchanged ∧ case.isSettled then case.absent else case.unresolved
    | [order] =>
      if order.status ∈ failedCloseStatuses then
        if unchanged ∧ case.isSettled then case.absent else case.unresolved
      else case.result .acknowledged (some order.brokerOrderId)
    | _ => case.unresolved
  | _, _ => case.unresolved

/-- The verdict on a mutation. -/
def decidePaperMutationRecovery (case : PaperMutationRecoveryCase) :
    PaperMutationRecoveryResult :=
  match case.intent.operation with
  | .submitEntry => decideEntryMutationRecovery case
  | .submitProtectiveOco => ocoDecision case
  | .cancelProtectiveOco | .cancelOrder => cancelDecision case
  | .closePosition => closeDecision case

/-- The verdict is on the mutation in question. -/
theorem decidePaperMutationRecovery_mutationKey (case : PaperMutationRecoveryCase) :
    (decidePaperMutationRecovery case).mutationKey = case.storedIntent.mutationKey := by
  -- Every branch answers by `case.result`.
  unfold decidePaperMutationRecovery decideEntryMutationRecovery ocoDecision cancelDecision
    closeDecision
  dsimp only
  repeat' split
  all_goals rfl

/-! ## The verdict that a request had no effect -/

/-- The targeted lookup of the entry order found nothing. -/
def EntryIsMissing (case : PaperMutationRecoveryCase) : Prop :=
  ∃ entryId source key at', case.intent.entryIntentId = some entryId ∧
    case.entrySources = [source] ∧ case.lookups = [.entryOrder key at' entryId none]

/-- The targeted lookup of the protective OCO of a plan found nothing, and the list of the
    protective OCOs does not have it either. -/
def OcoIsMissing (case : PaperMutationRecoveryCase) (stored : StoredProtectiveOcoPlan) : Prop :=
  case.planSources = [stored] ∧ (∃ key at', case.lookups = [.protectiveOco key at' none]) ∧
    ∀ oco ∈ case.snapshot.state.protectiveOcos, ¬ protectiveOcoSnapshotMatchesPlan oco stored.plan

/-- The position to close is as it was, and every order that may have closed it failed. -/
def PositionIsOpen (case : PaperMutationRecoveryCase) : Prop :=
  ∃ side quantity, case.intent.side = some side ∧ case.intent.quantity = some quantity ∧
    positionIsUnchanged case side quantity ∧
    ∀ order ∈ case.snapshot.state.simpleOrders, isCloseOrder case side quantity order →
      order.status ∈ failedCloseStatuses

theorem decideEntryMutationRecovery_absent {case : PaperMutationRecoveryCase} :
    (decideEntryMutationRecovery case).state = .absent ↔ EntryIsMissing case ∧ case.isSettled := by
  constructor
  · intro h
    unfold decideEntryMutationRecovery at h
    split at h
    · rename_i entryId source lookup hentry hsources hlookups
      cases lookup with
      | entryOrder key at' clientOrderId order =>
        cases order with
        | none =>
          by_cases hid : clientOrderId = entryId
          · subst hid
            by_cases hsettled : case.isSettled
            · exact ⟨⟨clientOrderId, source, key, at', hentry, hsources, hlookups⟩, hsettled⟩
            · simp [hsettled, unresolved, result] at h
          · simp [hid, unresolved, result] at h
        | some order =>
          simp only [unresolved, result] at h
          split_ifs at h
      | protectiveOco => simp [unresolved, result] at h
      | cancelOrder => simp [unresolved, result] at h
    · simp [unresolved, result] at h
  · rintro ⟨⟨entryId, source, key, at', hentry, hsources, hlookups⟩, hsettled⟩
    simp [decideEntryMutationRecovery, hentry, hsources, hlookups, hsettled, absent, result]

theorem ocoDecision_absent {case : PaperMutationRecoveryCase} :
    (ocoDecision case).state = .absent ↔ (∃ stored, OcoIsMissing case stored) ∧ case.isSettled := by
  constructor
  · intro h
    unfold ocoDecision at h
    split at h
    · rename_i stored lookup hsources hlookups
      cases lookup with
      | protectiveOco key at' snapshot =>
        cases snapshot with
        | none =>
          by_cases hnone : case.snapshot.state.protectiveOcos.filter
              (protectiveOcoSnapshotMatchesPlan · stored.plan) = [] ∧ case.isSettled
          · refine ⟨⟨stored, hsources, ⟨key, at', hlookups⟩, ?_⟩, hnone.2⟩
            simpa using List.filter_eq_nil_iff.1 hnone.1
          · simp only [if_neg hnone] at h
            cases h
        | some snapshot =>
          simp only [unresolved, result] at h
          split_ifs at h
      | cancelOrder => simp [unresolved, result] at h
      | entryOrder => simp [unresolved, result] at h
    · simp [unresolved, result] at h
  · rintro ⟨⟨stored, hsources, ⟨key, at', hlookups⟩, hnone⟩, hsettled⟩
    have hfilter : case.snapshot.state.protectiveOcos.filter
        (protectiveOcoSnapshotMatchesPlan · stored.plan) = [] :=
      List.filter_eq_nil_iff.2 hnone
    simp [ocoDecision, hsources, hlookups, hfilter, hsettled, absent, result]

theorem cancelDecision_absent {case : PaperMutationRecoveryCase}
    (h : (cancelDecision case).state = .absent) : case.isSettled := by
  unfold cancelDecision at h
  split at h
  · split_ifs at h with _ _ hretry <;> first | exact hretry.2 | cases h
  · cases h

theorem closeDecision_absent {case : PaperMutationRecoveryCase}
    (h : (closeDecision case).state = .absent) : PositionIsOpen case ∧ case.isSettled := by
  unfold closeDecision at h
  split at h
  · rename_i side quantity hside hquantity
    dsimp only at h
    split at h
    · rename_i hfilter
      split_ifs at h with hunchanged
      · refine ⟨⟨side, quantity, hside, hquantity, hunchanged.1, fun order hmem hclose => ?_⟩,
          hunchanged.2⟩
        exact absurd hclose (List.filter_eq_nil_iff.1 hfilter order hmem)
      · cases h
    · rename_i order hfilter
      split_ifs at h with hfailed hunchanged
      · refine ⟨⟨side, quantity, hside, hquantity, hunchanged.1, fun other hmem hclose => ?_⟩,
          hunchanged.2⟩
        have hother : other ∈ [order] := hfilter ▸ List.mem_filter.2 ⟨hmem, hclose⟩
        rwa [List.mem_singleton.1 hother]
      · cases h
      · cases h
    · cases h
  · cases h

/-! ### Soundness of the verdict -/

/-- What a verdict that the request had no effect claims: nothing in the snapshot shows the order
    that it submits, or the position that it closes is as it was. -/
def IsUnseen (case : PaperMutationRecoveryCase) : Prop :=
  let state := case.snapshot.state
  match case.intent.operation with
  | .submitEntry => ∀ order ∈ state.simpleOrders,
      some order.clientOrderId ≠ case.intent.entryIntentId
  | .submitProtectiveOco => ∀ stored ∈ case.planSources,
      (∀ order ∈ state.simpleOrders, order.clientOrderId ≠ stored.plan.clientOrderId) ∧
      ∀ oco ∈ state.brokerState.protectiveOcos ++ state.protectiveOcos,
        ¬ protectiveOcoSnapshotMatchesPlan oco stored.plan
  | .closePosition => PositionIsOpen case
  | .cancelProtectiveOco | .cancelOrder => True

/-- The verdict that a request had no effect is given only for one that is unseen, on evidence
    that had time to settle and is not too old. -/
def AbsentIsSound (case : PaperMutationRecoveryCase) : Prop :=
  (decidePaperMutationRecovery case).state = .absent → IsUnseen case ∧ case.isSettled

/-- The targeted lookup of a submitted order found nothing, but another part of the same snapshot
    shows the order: for an entry, a list of simple orders; for a protective OCO, such a list, or
    the open OCOs of the account. -/
def IsContradicted (case : PaperMutationRecoveryCase) : Prop :=
  let state := case.snapshot.state
  case.isSettled ∧
  match case.intent.operation with
  | .submitEntry => EntryIsMissing case ∧
      ∃ order ∈ state.simpleOrders, some order.clientOrderId = case.intent.entryIntentId
  | .submitProtectiveOco => ∃ stored, OcoIsMissing case stored ∧
      ((∃ order ∈ state.simpleOrders, order.clientOrderId = stored.plan.clientOrderId) ∨
        ∃ oco ∈ state.brokerState.protectiveOcos,
          protectiveOcoSnapshotMatchesPlan oco stored.plan)
  | .closePosition | .cancelProtectiveOco | .cancelOrder => False

/-- The verdict is sound exactly if no targeted lookup contradicts the lists of the snapshot. -/
theorem absentIsSound_iff (case : PaperMutationRecoveryCase) :
    AbsentIsSound case ↔ ¬ IsContradicted case := by
  unfold AbsentIsSound IsContradicted IsUnseen decidePaperMutationRecovery
  cases hoperation : case.intent.operation with
  | submitEntry =>
    simp only [decideEntryMutationRecovery_absent]
    constructor
    · rintro hsound ⟨hsettled, hmissing, order, hmem, hid⟩
      exact (hsound ⟨hmissing, hsettled⟩).1 order hmem hid
    · rintro hfree ⟨hmissing, hsettled⟩
      exact ⟨fun order hmem hid => hfree ⟨hsettled, hmissing, order, hmem, hid⟩, hsettled⟩
  | submitProtectiveOco =>
    simp only [ocoDecision_absent]
    constructor
    · rintro hsound ⟨hsettled, stored, hmissing, hseen⟩
      have hmem : stored ∈ case.planSources := by rw [hmissing.1]; exact List.mem_singleton_self _
      obtain ⟨horders, hocos⟩ := (hsound ⟨⟨stored, hmissing⟩, hsettled⟩).1 stored hmem
      rcases hseen with ⟨order, horder, hid⟩ | ⟨oco, hoco, hmatch⟩
      · exact horders order horder hid
      · exact hocos oco (List.mem_append_left _ hoco) hmatch
    · rintro hfree ⟨⟨stored, hmissing⟩, hsettled⟩
      refine ⟨fun other hother => ?_, hsettled⟩
      -- The plan that the lookup is about is the only source.
      obtain rfl : other = stored := by rwa [hmissing.1, List.mem_singleton] at hother
      refine ⟨fun order horder hid => hfree ⟨hsettled, other, hmissing, .inl ⟨order, horder, hid⟩⟩,
        fun oco hoco hmatch => ?_⟩
      rcases List.mem_append.1 hoco with hoco | hoco
      · exact hfree ⟨hsettled, other, hmissing, .inr ⟨oco, hoco, hmatch⟩⟩
      · exact hmissing.2.2 oco hoco hmatch
  | cancelProtectiveOco | cancelOrder =>
    simpa using fun h => cancelDecision_absent h
  | closePosition =>
    simpa using fun h => closeDecision_absent h

/-! ### An order that the lookup misses

An entry order is in the list of open orders, but its targeted lookup, a minute after the
attempt, answers that there is no such order. -/

namespace EntrySample

def fingerprint : AccountFingerprint := String.ofList (List.replicate 64 'a')

/-- The 15th of July 2026, at 14:00 UTC. -/
def attemptedAt : DateTime := .combine (.ofCivil 2026 7 15) 14 0 0

def readAt : DateTime := attemptedAt + TimeDelta.minutes 1

/-- A digest of two values, of which one is for the events that record an attempt. -/
def sha : Sha256 where
  hexdigest material :=
    String.ofList (List.replicate 64 (if .str "attempted" ∈ material then 'd' else 'b'))
  isHex64_hexdigest material := by
    rw [isHex64, String.toList_ofList]
    split_ifs <;> decide

def intent : PaperOrderIntent where
  intentId := "intent-1"
  strategyId := "orb"
  strategyVersion := "v1"
  symbol := "AAA"
  createdAt := attemptedAt
  side := .buy
  entryLimit := 10
  stop := 9
  target1r := 11
  target2r := 12

def order : SizedPaperOrder where
  intent := intent
  quantity := 10
  riskPerShare := 1
  plannedRisk := 10
  notional := 100

def mutation : PaperMutationIntent where
  accountFingerprint := fingerprint
  createdAt := attemptedAt
  operation := .submitEntry
  protectivePlanKey := none
  safetyPlanKey := none
  actionSequence := none
  requestSha256 := String.ofList (List.replicate 64 'c')
  symbol := "AAA"
  brokerOrderId := none
  side := some .buy
  quantity := some 10
  entryIntentId := some "intent-1"

def attempted : PaperMutationEvent where
  attemptNumber := 1
  occurredAt := attemptedAt
  eventType := .attempted
  requestId := none
  statusCode := none
  brokerOrderId := none
  evidenceSha256 := mutation.requestSha256

def account : PaperAccountSnapshot where
  observedAt := readAt
  status := "ACTIVE"
  tradingBlocked := false
  equity := 30000
  lastEquity := 30000
  buyingPower := 30000
  accountFingerprint := fingerprint

/-- The order, as the broker has it. -/
def brokerOrder : PaperOrderSnapshot where
  brokerOrderId := "broker-1"
  clientOrderId := "intent-1"
  symbol := "AAA"
  side := .buy
  status := "new"
  quantity := 10
  filledQuantity := 0
  limitPrice := some 10
  timeInForce := "day"
  extendedHours := false

/-- What is read a minute after the attempt: some open orders, and that the targeted lookup of
    the order finds nothing. -/
def snapshot (openOrders : List PaperOrderSnapshot) : PaperMutationRecoverySnapshot where
  connectionEpoch := "epoch-1"
  startedAt := attemptedAt + TimeDelta.seconds 58
  completedAt := attemptedAt + TimeDelta.seconds 62
  state :=
    { brokerState := { account := account, openOrders := openOrders, positions := [] }
      targetedOrders := []
      mutationLookups := [.entryOrder (paperMutationKey sha mutation) readAt "intent-1" none] }

/-- The order is open, but its lookup misses it. -/
def missed : PaperMutationRecoveryCase where
  storedIntent := ⟨paperMutationKey sha mutation, mutation⟩
  attempted := attempted
  snapshot := snapshot [brokerOrder]
  orderIntents := [intentValues intent 10]
  protectivePlans := []

end EntrySample

/-- The entry is found to have had no effect although its order is in the list of open orders. -/
theorem missed_not_absentIsSound :
    (decidePaperMutationRecovery EntrySample.missed).state = .absent ∧
      (∃ order ∈ EntrySample.missed.snapshot.state.brokerState.openOrders,
        some order.clientOrderId = EntrySample.missed.intent.entryIntentId) ∧
      ¬ AbsentIsSound EntrySample.missed := by
  have hverdict : (decidePaperMutationRecovery EntrySample.missed).state = .absent := by decide
  refine ⟨hverdict, ⟨EntrySample.brokerOrder, List.mem_singleton_self _, rfl⟩, fun hsound => ?_⟩
  have hunseen := (hsound hverdict).1
  exact hunseen EntrySample.brokerOrder (List.mem_singleton_self _) rfl

end TradingAgent
