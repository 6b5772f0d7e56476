import TradingAgent.Ledger
import TradingAgent.Library.Except
import TradingAgent.Mutation.Transitions

/-!
# The store of mutations

The operations on the tables of mutations. Intents and events are only ever added, each once:
saving a record again changes nothing (`savePaperMutationIntent`, `appendPaperMutationEvent`), and
saving another one under the same identity is an error.

* An operation of the writer (`ExecutionWriter`) also checks the account that the ledger is bound
  to.
* In a ledger whose mutations are histories (`ExecutionLedger.WellFormed`), what the operations
  do is summed up by `savePaperMutationIntent_cases` and `appendPaperMutationEvent_cases`, and
  they keep it well formed.
-/

namespace TradingAgent

open Except

/-! ## Intents -/

/-- The columns of an action of a safety plan that an intent is compared with. -/
structure SafetyActionRow where
  kind : String
  brokerOrderId : Option BrokerOrderId
  symbol : String
  side : Option PaperOrderSide
  quantity : Option Decimal
  deriving DecidableEq, Repr

def safetyActionRow : PaperSafetyAction → SafetyActionRow
  | .cancelOrder action => ⟨"cancel_order", some action.brokerOrderId, action.symbol, none, none⟩
  | .closePosition action =>
    ⟨"close_position", none, action.symbol, some action.side, some action.quantity⟩

/-- The row of a safety action, by its plan and its place in it. -/
def findSafetyAction (ledger : ExecutionLedger) (planKey : Option String) (sequence : Option ℤ) :
    Option PaperSafetyAction := do
  let stored ← ledger.paperSafetyPlans.find? (some ·.planKey = planKey)
  let sequence ← sequence
  if 0 ≤ sequence then stored.plan.actions[sequence.toNat]? else none

/-- An intent must agree with the row it comes from: an order intent, a protective plan (with a
    recovered leg of it, for a cancellation) or an action of a safety plan. -/
def requireMutationSource (ledger : ExecutionLedger) (intent : PaperMutationIntent) :
    Except PaperMutationError Unit :=
  let side := (intent.side.map PaperOrderSide.value).getD ""
  let quantity := (intent.quantity.map Decimal.toInt).getD 0
  match intent.entryIntentId with
  | some entryIntentId =>
    let row := ledger.orderIntents.find? (·.intentId = entryIntentId)
    raiseIf (row.map (fun row => (row.symbol, row.side.value, row.quantity)) ≠
      some (intent.symbol, side, quantity)) .invalidRecord
  | none =>
    if intent.operation = .cancelProtectiveOco then
      let row := ledger.protectiveOcoPlans.find? fun stored =>
        some stored.planKey = intent.protectivePlanKey ∧
          ledger.recoveryProtectiveOcoLegs.any fun leg =>
            leg.planKey = stored.planKey ∧ some leg.parentBrokerOrderId = intent.brokerOrderId ∧
              leg.legKind = .takeProfit
      raiseIf (row.map (·.plan.symbol) ≠ some intent.symbol) .invalidRecord
    else if intent.protectivePlanKey ≠ none then
      let row := ledger.protectiveOcoPlans.find? (some ·.planKey = intent.protectivePlanKey)
      raiseIf (row.map (fun row => (row.plan.symbol, row.plan.side.value, row.plan.quantity)) ≠
        some (intent.symbol, side, quantity)) .invalidRecord
    else
      let row := findSafetyAction ledger intent.safetyPlanKey intent.actionSequence
      let kind := if intent.operation = .cancelOrder then "cancel_order" else "close_position"
      raiseIf (row.map safetyActionRow ≠
        some ⟨kind, intent.brokerOrderId, intent.symbol, intent.side, intent.quantity⟩)
        .invalidRecord

/-- Whether two intents are of the same operation on the same source. -/
def sameIdentity (intent other : PaperMutationIntent) : Bool :=
  other.operation = intent.operation
    ∧ other.protectivePlanKey.getD "" = intent.protectivePlanKey.getD ""
    ∧ other.safetyPlanKey.getD "" = intent.safetyPlanKey.getD ""
    ∧ other.actionSequence.getD (-1) = intent.actionSequence.getD (-1)
    ∧ other.entryIntentId.getD "" = intent.entryIntentId.getD ""

/-- Saves an intent. The result says whether it is a new one. -/
def savePaperMutationIntent (sha : Sha256) (ledger : ExecutionLedger)
    (intent : PaperMutationIntent) : Except PaperMutationError (ExecutionLedger × Bool) := do
  requireMutationIntent intent
  requireMutationSource ledger intent
  let values : StoredPaperMutationIntent := ⟨paperMutationKey sha intent, intent⟩
  match ledger.paperMutationIntents.find? (·.mutationKey = values.mutationKey) with
  | some existing =>
    raiseIf (existing ≠ values) .conflict
    pure (ledger, false)
  | none =>
    raiseIf (ledger.paperMutationIntents.any (sameIdentity intent ·.intent)) .conflict
    pure ({ ledger with paperMutationIntents := ledger.paperMutationIntents ++ [values] }, true)

/-! ## Events -/

/-- Reads a row of the events back, and checks it. -/
def storedEvent (sha : Sha256) (row : StoredPaperMutationEvent) :
    Except PaperMutationError StoredPaperMutationEvent := do
  requireMutationEvent row.event
  raiseIf (paperMutationEventKey sha row.mutationKey row.event ≠ row.eventKey) .invalidRecord
  pure row

def readPaperMutationEvents (sha : Sha256) (ledger : ExecutionLedger) :
    Except PaperMutationError (List StoredPaperMutationEvent) :=
  ledger.paperMutationEvents.mapM (storedEvent sha)

/-- Reads a row of the intents back, and checks it. -/
def storedIntent (sha : Sha256) (row : StoredPaperMutationIntent) :
    Except PaperMutationError StoredPaperMutationIntent := do
  requireMutationIntent row.intent
  raiseIf (paperMutationKey sha row.intent ≠ row.mutationKey) .invalidRecord
  pure row

def readPaperMutationIntents (sha : Sha256) (ledger : ExecutionLedger) :
    Except PaperMutationError (List StoredPaperMutationIntent) :=
  ledger.paperMutationIntents.mapM (storedIntent sha)

/-- Appends an event to those of a mutation. The result says whether it is a new one. -/
def appendPaperMutationEvent (sha : Sha256) (ledger : ExecutionLedger)
    (mutationKey : PaperMutationKey) (event : PaperMutationEvent) :
    Except PaperMutationError (ExecutionLedger × Bool) := do
  requireMutationEvent event
  raiseIf (¬ ledger.paperMutationIntents.any (·.mutationKey = mutationKey)) .invalidTransition
  let eventKey := paperMutationEventKey sha mutationKey event
  match ledger.paperMutationEvents.find? (·.eventKey = eventKey) with
  | some existing =>
    raiseIf ((existing.mutationKey, existing.event) ≠ (mutationKey, event)) .conflict
    pure (ledger, false)
  | none =>
    raiseIf (ledger.paperMutationEvents.any fun stored =>
      stored.mutationKey = mutationKey ∧ stored.event.attemptNumber = event.attemptNumber ∧
        stored.event.eventType = event.eventType) .conflict
    let stored ← readPaperMutationEvents sha ledger
    let prior := (stored.filter (·.mutationKey = mutationKey)).map (·.event)
    requireMutationTransition prior event
    pure (ledger.addMutationEvent eventKey mutationKey event, true)

theorem readPaperMutationEvents_eq {sha : Sha256} {ledger : ExecutionLedger}
    {stored : List StoredPaperMutationEvent} (h : readPaperMutationEvents sha ledger = .ok stored) :
    stored = ledger.paperMutationEvents :=
  mapM_eq_self (fun row b hb => by
    simp only [storedEvent, bind_eq_ok, pure_eq_ok] at hb
    obtain ⟨⟨⟩, -, ⟨⟩, -, rfl⟩ := hb
    rfl) h

theorem readPaperMutationIntents_eq {sha : Sha256} {ledger : ExecutionLedger}
    {stored : List StoredPaperMutationIntent}
    (h : readPaperMutationIntents sha ledger = .ok stored) :
    stored = ledger.paperMutationIntents :=
  mapM_eq_self (fun row b hb => by
    simp only [storedIntent, bind_eq_ok, pure_eq_ok] at hb
    obtain ⟨⟨⟩, -, ⟨⟩, -, rfl⟩ := hb
    rfl) h

/-- What the saving of an intent does: nothing, or it adds a row. -/
theorem savePaperMutationIntent_cases {sha : Sha256} {ledger ledger' : ExecutionLedger}
    {intent : PaperMutationIntent} {inserted : Bool}
    (h : savePaperMutationIntent sha ledger intent = .ok (ledger', inserted)) :
    requireMutationIntent intent = .ok () ∧ 
    ((inserted = false ∧ ledger' = ledger ∧
      ⟨paperMutationKey sha intent, intent⟩ ∈ ledger.paperMutationIntents) ∨
    (inserted = true ∧
      (∀ stored ∈ ledger.paperMutationIntents, stored.mutationKey ≠ paperMutationKey sha intent) ∧
      ledger' = { ledger with
        paperMutationIntents :=
          ledger.paperMutationIntents ++ [⟨paperMutationKey sha intent, intent⟩] })) := by
  simp only [savePaperMutationIntent, bind_eq_ok] at h
  obtain ⟨⟨⟩, hintent, ⟨⟩, -, h⟩ := h
  refine ⟨hintent, ?_⟩
  split at h
  · rename_i existing hfind
    simp only [bind_eq_ok, raiseIf_eq_ok, pure_eq_ok, Prod.mk.injEq, not_not] at h
    obtain ⟨-, rfl, rfl, rfl⟩ := h
    exact .inl ⟨rfl, rfl, List.mem_of_find?_eq_some hfind⟩
  · rename_i hfind
    simp only [bind_eq_ok, raiseIf_eq_ok, pure_eq_ok, Prod.mk.injEq] at h
    obtain ⟨-, -, rfl, rfl⟩ := h
    exact .inr ⟨rfl, by simpa using hfind, rfl⟩

/-- What the appending of an event does: nothing, as the event was stored before, or it adds
    a row under the rule. -/
theorem appendPaperMutationEvent_cases {sha : Sha256} {ledger ledger' : ExecutionLedger}
    {mutationKey : PaperMutationKey} {event : PaperMutationEvent} {inserted : Bool}
    (h : appendPaperMutationEvent sha ledger mutationKey event = .ok (ledger', inserted)) :
    requireMutationEvent event = .ok () ∧
    ((inserted = false ∧ ledger' = ledger ∧ event ∈ ledger.mutationEvents mutationKey) ∨
    (inserted = true ∧
      requireMutationTransition (ledger.mutationEvents mutationKey) event = .ok () ∧
      ledger' = ledger.addMutationEvent (paperMutationEventKey sha mutationKey event)
        mutationKey event)) := by
  simp only [appendPaperMutationEvent, bind_eq_ok] at h
  obtain ⟨⟨⟩, hevent, ⟨⟩, -, h⟩ := h
  refine ⟨hevent, ?_⟩
  split at h
  · rename_i existing hfind
    simp only [bind_eq_ok, raiseIf_eq_ok, pure_eq_ok, Prod.mk.injEq, not_not] at h
    obtain ⟨-, ⟨hkey, hevent⟩, rfl, rfl⟩ := h
    exact .inl ⟨rfl, rfl, ExecutionLedger.mem_mutationEvents.2
      ⟨existing, List.mem_of_find?_eq_some hfind, hkey, hevent⟩⟩
  · simp only [bind_eq_ok, raiseIf_eq_ok, pure_eq_ok, Prod.mk.injEq] at h
    obtain ⟨⟨⟩, -, stored, hread, ⟨⟩, hrule, rfl, rfl⟩ := h
    rw [readPaperMutationEvents_eq hread] at hrule
    exact .inr ⟨rfl, hrule, rfl⟩

/-! ## The writer -/

namespace ExecutionWriter

def requireBoundAccount (ledger : ExecutionLedger) (accountFingerprint : AccountFingerprint) :
    Except PaperMutationError Unit :=
  match ledger.accountBinding with
  | none => .error .unboundAccount
  | some bound => raiseIf (bound ≠ accountFingerprint) .accountBindingConflict

theorem requireBoundAccount_eq_ok {ledger : ExecutionLedger} {account : AccountFingerprint}
    {u : Unit} : requireBoundAccount ledger account = .ok u ↔
      ledger.accountBinding = some account := by
  unfold requireBoundAccount
  split <;> simp [*]

/-- Binds the ledger to an account. -/
def bindAccount (ledger : ExecutionLedger) (accountFingerprint : AccountFingerprint) :
    Except PaperMutationError (ExecutionLedger × Bool) :=
  match ledger.accountBinding with
  | some existing => do
    raiseIf (existing ≠ accountFingerprint) .accountBindingConflict
    pure (ledger, false)
  | none => pure ({ ledger with accountBinding := some accountFingerprint }, true)

def savePaperMutationIntent (sha : Sha256) (ledger : ExecutionLedger)
    (intent : PaperMutationIntent) : Except PaperMutationError (ExecutionLedger × Bool) := do
  requireBoundAccount ledger intent.accountFingerprint
  TradingAgent.savePaperMutationIntent sha ledger intent

/-- Saves the intent of an entry order with the mutation that submits it, in one transaction. -/
def saveEntryMutationIntent (sha : Sha256) (ledger : ExecutionLedger) (order : SizedPaperOrder)
    (mutation : PaperMutationIntent) : Except PaperMutationError (ExecutionLedger × Bool) := do
  requireBoundAccount ledger mutation.accountFingerprint
  let values := intentValues order.intent order.quantity
  match ledger.orderIntents.find? (·.intentId = order.intent.intentId) with
  | some existing =>
    raiseIf (existing ≠ values) (.intentConflict order.intent.intentId)
    TradingAgent.savePaperMutationIntent sha ledger mutation
  | none =>
    let (ledger, _) ← TradingAgent.savePaperMutationIntent sha
      { ledger with orderIntents := ledger.orderIntents ++ [values] } mutation
    pure (ledger, true)

end ExecutionWriter

/-! ## Well-formed ledgers -/

/-- What holds of the mutations of a ledger that only these operations write. -/
structure ExecutionLedger.WellFormed (sha : Sha256) (ledger : ExecutionLedger) : Prop where
  /-- The events of every mutation are a history. -/
  history : ∀ key, (mutationPhase (ledger.mutationEvents key)).isSome
  /-- No two intents have the same key. -/
  nodup : (ledger.paperMutationIntents.map (·.mutationKey)).Nodup
  storedIntent_eq : ∀ stored ∈ ledger.paperMutationIntents, storedIntent sha stored = .ok stored
  storedEvent_eq : ∀ stored ∈ ledger.paperMutationEvents, storedEvent sha stored = .ok stored
  /-- All the mutations are of the account that the ledger is bound to. -/
  account : ∀ stored ∈ ledger.paperMutationIntents,
    ledger.accountBinding = some stored.intent.accountFingerprint

namespace ExecutionLedger.WellFormed

variable {sha : Sha256} {ledger ledger' : ExecutionLedger}

theorem empty (sha : Sha256) : ExecutionLedger.empty.WellFormed sha where
  history _ := rfl
  nodup := .nil
  storedIntent_eq := by simp [ExecutionLedger.empty]
  storedEvent_eq := by simp [ExecutionLedger.empty]
  account := by simp [ExecutionLedger.empty]

/-- Whether a ledger is well formed depends on its account and its mutations only. -/
theorem congr (h : ledger.WellFormed sha)
    (hbinding : ledger'.accountBinding = ledger.accountBinding)
    (hintents : ledger'.paperMutationIntents = ledger.paperMutationIntents)
    (hevents : ledger'.paperMutationEvents = ledger.paperMutationEvents) :
    ledger'.WellFormed sha where
  history key := by
    rw [ExecutionLedger.mutationEvents, hevents]
    exact h.history key
  nodup := hintents ▸ h.nodup
  storedIntent_eq := hintents ▸ h.storedIntent_eq
  storedEvent_eq := hevents ▸ h.storedEvent_eq
  account := by
    rw [hintents, hbinding]
    exact h.account

theorem bindAccount (h : ledger.WellFormed sha) {account : AccountFingerprint} {inserted : Bool}
    (hbind : ExecutionWriter.bindAccount ledger account = .ok (ledger', inserted)) :
    ledger'.WellFormed sha := by
  unfold ExecutionWriter.bindAccount at hbind
  split at hbind
  · simp only [bind_eq_ok, pure_eq_ok, Prod.mk.injEq] at hbind
    obtain ⟨-, -, rfl, -⟩ := hbind
    exact h
  · rename_i hnone
    simp only [pure_eq_ok, Prod.mk.injEq] at hbind
    obtain ⟨rfl, -⟩ := hbind
    refine { h with account := fun stored hmem => ?_ }
    -- There can be no intents yet, as they would be of the account bound.
    rw [h.account stored hmem] at hnone
    cases hnone

theorem savePaperMutationIntent (h : ledger.WellFormed sha) {intent : PaperMutationIntent}
    {inserted : Bool} (haccount : ledger.accountBinding = some intent.accountFingerprint)
    (hsave : TradingAgent.savePaperMutationIntent sha ledger intent = .ok (ledger', inserted)) :
    ledger'.WellFormed sha := by
  obtain ⟨hintent, ⟨-, rfl, -⟩ | ⟨-, hnew, rfl⟩⟩ := savePaperMutationIntent_cases hsave
  · exact h
  · refine ⟨h.history, ?_, ?_, h.storedEvent_eq, ?_⟩
    · rw [List.map_append, List.nodup_append]
      exact ⟨h.nodup, by simp, by simpa using hnew⟩
    · simp only [List.mem_append, List.mem_singleton]
      rintro stored (hmem | rfl)
      · exact h.storedIntent_eq stored hmem
      · simp [storedIntent, hintent, raiseIf, bind, Except.bind, pure, Except.pure]
    · simp only [List.mem_append, List.mem_singleton]
      rintro stored (hmem | rfl)
      · exact h.account stored hmem
      · exact haccount

theorem addMutationEvent (h : ledger.WellFormed sha) {mutationKey : PaperMutationKey}
    {event : PaperMutationEvent} (hevent : requireMutationEvent event = .ok ())
    (hrule : requireMutationTransition (ledger.mutationEvents mutationKey) event = .ok ()) :
    (ledger.addMutationEvent (paperMutationEventKey sha mutationKey event)
      mutationKey event).WellFormed sha := by
  refine ⟨fun key => ?_, h.nodup, h.storedIntent_eq, ?_, h.account⟩
  · rw [mutationEvents_addMutationEvent]
    by_cases hkey : mutationKey = key
    · subst hkey
      obtain ⟨phase, hphase⟩ := Option.isSome_iff_exists.1 (h.history mutationKey)
      rw [if_pos rfl, mutationPhase_concat, hphase]
      exact (requireMutationTransition_iff hphase event).1 hrule
    · rw [if_neg hkey, List.append_nil]
      exact h.history key
  · simp only [ExecutionLedger.addMutationEvent, List.mem_append, List.mem_singleton]
    rintro stored (hmem | rfl)
    · exact h.storedEvent_eq stored hmem
    · simp [storedEvent, hevent, raiseIf, bind, Except.bind, pure, Except.pure]

theorem appendPaperMutationEvent (h : ledger.WellFormed sha) {mutationKey : PaperMutationKey}
    {event : PaperMutationEvent} {inserted : Bool}
    (happend : TradingAgent.appendPaperMutationEvent sha ledger mutationKey event =
      .ok (ledger', inserted)) : ledger'.WellFormed sha := by
  obtain ⟨hevent, ⟨-, rfl, -⟩ | ⟨-, hrule, rfl⟩⟩ := appendPaperMutationEvent_cases happend
  · exact h
  · exact h.addMutationEvent hevent hrule

/-- The writer saves an intent only for the account that the ledger is bound to. -/
theorem saveIntent (h : ledger.WellFormed sha) {intent : PaperMutationIntent} {inserted : Bool}
    (hsave : ExecutionWriter.savePaperMutationIntent sha ledger intent = .ok (ledger', inserted)) :
    ledger'.WellFormed sha := by
  simp only [ExecutionWriter.savePaperMutationIntent, bind_eq_ok] at hsave
  obtain ⟨⟨⟩, hbound, hsave⟩ := hsave
  exact h.savePaperMutationIntent (ExecutionWriter.requireBoundAccount_eq_ok.1 hbound) hsave

theorem saveEntry (h : ledger.WellFormed sha) {order : SizedPaperOrder}
    {mutation : PaperMutationIntent} {inserted : Bool}
    (hsave : ExecutionWriter.saveEntryMutationIntent sha ledger order mutation =
      .ok (ledger', inserted)) : ledger'.WellFormed sha := by
  simp only [ExecutionWriter.saveEntryMutationIntent, bind_eq_ok] at hsave
  obtain ⟨⟨⟩, hbound, hsave⟩ := hsave
  rw [ExecutionWriter.requireBoundAccount_eq_ok] at hbound
  split at hsave
  · rw [bind_eq_ok] at hsave
    obtain ⟨⟨⟩, -, hsave⟩ := hsave
    exact h.savePaperMutationIntent hbound hsave
  · simp only [bind_eq_ok, pure_eq_ok, Prod.mk.injEq] at hsave
    obtain ⟨⟨saved, inserted'⟩, hsave, rfl, -⟩ := hsave
    have hadded : { ledger with orderIntents := ledger.orderIntents ++
        [intentValues order.intent order.quantity] }.WellFormed sha := h.congr rfl rfl rfl
    exact hadded.savePaperMutationIntent hbound hsave

/-- The events of a well-formed ledger can be read back. -/
theorem readPaperMutationEvents (h : ledger.WellFormed sha) :
    TradingAgent.readPaperMutationEvents sha ledger = .ok ledger.paperMutationEvents :=
  mapM_self h.storedEvent_eq

/-- The intents of a well-formed ledger can be read back. -/
theorem readPaperMutationIntents (h : ledger.WellFormed sha) :
    TradingAgent.readPaperMutationIntents sha ledger = .ok ledger.paperMutationIntents :=
  mapM_self h.storedIntent_eq

/-- The phase of a mutation. -/
theorem exists_phase (h : ledger.WellFormed sha) (key : PaperMutationKey) :
    ∃ phase, mutationPhase (ledger.mutationEvents key) = some phase :=
  Option.isSome_iff_exists.1 (h.history key)

end ExecutionLedger.WellFormed

end TradingAgent
