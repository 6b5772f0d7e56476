import TradingAgent.Mutation.Models
import TradingAgent.Projection.Models

/-!
# The execution ledger

The tables of the execution database that the mutations of the account read and write, each as
the list of its rows in the order of insertion. A row stands for the record that it stores: what
is written as the text of a time or of a decimal is kept as that time or decimal.

What a session reads of it at once, with the states projected for the orders, is a
`ReconciliationLedger`.
-/

namespace TradingAgent

/-- A leg of a protective OCO that a recovery observed, by the plan it matched. -/
structure RecoveryProtectiveOcoLeg where
  planKey : ProtectiveOcoPlanKey
  parentBrokerOrderId : BrokerOrderId
  legKind : ProtectiveOcoLegKind
  deriving DecidableEq, Repr

/-- The tables of the execution database. -/
structure ExecutionLedger where
  /-- The account that the ledger is bound to. -/
  accountBinding : Option AccountFingerprint := none
  orderIntents : List StoredIntent := []
  protectiveOcoPlans : List StoredProtectiveOcoPlan := []
  recoveryProtectiveOcoLegs : List RecoveryProtectiveOcoLeg := []
  paperSafetyPlans : List StoredPaperSafetyPlan := []
  paperMutationIntents : List StoredPaperMutationIntent := []
  paperMutationEvents : List StoredPaperMutationEvent := []
  deriving DecidableEq, Repr

namespace ExecutionLedger

/-- The ledger of a new database. -/
def empty : ExecutionLedger := {}

/-- The events of a mutation, in order. -/
def mutationEvents (ledger : ExecutionLedger) (mutationKey : PaperMutationKey) :
    List PaperMutationEvent :=
  (ledger.paperMutationEvents.filter (·.mutationKey = mutationKey)).map (·.event)

/-- The ledger after another event. -/
def addMutationEvent (ledger : ExecutionLedger) (eventKey : PaperMutationEventKey)
    (mutationKey : PaperMutationKey) (event : PaperMutationEvent) : ExecutionLedger :=
  { ledger with
    paperMutationEvents := ledger.paperMutationEvents ++
      [⟨ledger.paperMutationEvents.length + 1, eventKey, mutationKey, event⟩] }

@[simp] theorem addMutationEvent_accountBinding (ledger : ExecutionLedger)
    (eventKey : PaperMutationEventKey) (mutationKey : PaperMutationKey)
    (event : PaperMutationEvent) :
    (ledger.addMutationEvent eventKey mutationKey event).accountBinding = ledger.accountBinding :=
  rfl

@[simp] theorem addMutationEvent_paperMutationIntents (ledger : ExecutionLedger)
    (eventKey : PaperMutationEventKey) (mutationKey : PaperMutationKey)
    (event : PaperMutationEvent) :
    (ledger.addMutationEvent eventKey mutationKey event).paperMutationIntents =
      ledger.paperMutationIntents := rfl

theorem mem_mutationEvents {ledger : ExecutionLedger} {mutationKey : PaperMutationKey}
    {event : PaperMutationEvent} : event ∈ ledger.mutationEvents mutationKey ↔
      ∃ stored ∈ ledger.paperMutationEvents, stored.mutationKey = mutationKey ∧
        stored.event = event := by
  simp [mutationEvents, and_assoc]

/-- An event is appended to those of its mutation, and to no others. -/
theorem mutationEvents_addMutationEvent (ledger : ExecutionLedger)
    (eventKey : PaperMutationEventKey) (mutationKey key : PaperMutationKey)
    (event : PaperMutationEvent) :
    (ledger.addMutationEvent eventKey mutationKey event).mutationEvents key =
      ledger.mutationEvents key ++ if mutationKey = key then [event] else [] := by
  simp only [mutationEvents, addMutationEvent, List.filter_append, List.map_append,
    List.filter_singleton]
  by_cases h : mutationKey = key <;> simp [h]

end ExecutionLedger

/-- What a session reads of the execution database. -/
structure ReconciliationLedger where
  intents : List StoredIntent
  unresolvedIntentIds : List IntentId
  accountFingerprint : Option AccountFingerprint
  orderStates : List BrokerOrderLedgerState := []
  protectiveOcoPlans : List StoredProtectiveOcoPlan := []
  paperMutationIntents : List StoredPaperMutationIntent := []
  paperMutationEvents : List StoredPaperMutationEvent := []
  deriving DecidableEq, Repr

end TradingAgent
