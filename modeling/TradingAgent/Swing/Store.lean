import TradingAgent.Library.Writing
import TradingAgent.Swing.Models

/-!
# The ledger of swing signals

The tables of the signals and of their events (`SwingShadowLedger`), which transactions only add
to (`Transaction`), and the methods of its writer. A signal is inserted with its first event
(`appendSignal`), and each later event on its own (`appendEvent`): what is there already is not
inserted again, and other contents of the same identity are refused.

A row stands for the JSON text in it. The rows are kept in the order in which they are inserted:
that of the signals, and among the events of a signal that of their sequence numbers.
-/

namespace TradingAgent.Swing

structure SwingShadowLedger where
  signals : List TradeSignalEnvelope := []
  events : List SwingShadowEvent := []
  deriving DecidableEq, Repr

/-- A transaction of the writer. -/
inductive Transaction
  | insertSignal (signal : TradeSignalEnvelope) (event : Option SwingShadowEvent)
      (ofSignal : ∀ e ∈ event, e.signalId = signal.signalId)
  | insertEvent (event : SwingShadowEvent)

inductive SwingShadowError
  /-- `InvalidSwingShadowLedgerError` -/
  | invalidLedger
  /-- `SwingShadowConflictError` -/
  | conflict
  /-- `InvalidSwingShadowEngineError` -/
  | invalidEngine
  /-- Another `ValueError`, of a record that is not valid. -/
  | invalidRecord
  deriving DecidableEq, Repr

namespace Transaction

/-- The signal that a transaction is about. -/
def signalId : Transaction → String
  | insertSignal signal _ _ => signal.signalId
  | insertEvent event => event.signalId

/-- The event that a transaction inserts. -/
def event? : Transaction → Option SwingShadowEvent
  | insertSignal _ event _ => event
  | insertEvent event => some event

def signal? : Transaction → Option TradeSignalEnvelope
  | insertSignal signal _ _ => some signal
  | insertEvent _ => none

theorem signalId_of_mem_event {w : Transaction} {event : SwingShadowEvent}
    (h : event ∈ w.event?) : event.signalId = w.signalId := by
  cases w with
  | insertSignal signal e ofSignal => exact ofSignal event h
  | insertEvent e =>
    cases h
    rfl

theorem signalId_of_mem_signal {w : Transaction} {signal : TradeSignalEnvelope}
    (h : signal ∈ w.signal?) : signal.signalId = w.signalId := by
  cases w with
  | insertSignal s e ofSignal =>
    cases h
    rfl
  | insertEvent e => exact absurd h (Option.not_mem_none signal)

end Transaction

namespace SwingShadowLedger

def commit (ledger : SwingShadowLedger) (transaction : Transaction) : SwingShadowLedger where
  signals := ledger.signals ++ transaction.signal?.toList
  events := ledger.events ++ transaction.event?.toList

/-- The events of a signal, in order: the method `events`. -/
def eventsOf (ledger : SwingShadowLedger) (signalId : String) : List SwingShadowEvent :=
  ledger.events.filter (·.signalId = signalId)

/-- The signal of an identity. -/
def signal? (ledger : SwingShadowLedger) (signalId : String) : Option TradeSignalEnvelope :=
  ledger.signals.find? (·.signalId = signalId)

/-- The event of an identity. -/
def event? (ledger : SwingShadowLedger) (eventId : String × ShadowEventKind) :
    Option SwingShadowEvent :=
  ledger.events.find? (·.eventId = eventId)

/-- The ledger of one signal. -/
def only (ledger : SwingShadowLedger) (signalId : String) : SwingShadowLedger where
  signals := ledger.signals.filter (·.signalId = signalId)
  events := ledger.eventsOf signalId

end SwingShadowLedger

/-- Work with the writer of the ledger. -/
abbrev SwingShadowWork := Writing SwingShadowLedger.commit SwingShadowError

/-- The first event of a signal. -/
def creationEvent (signal : TradeSignalEnvelope) (sessionDate : Date) (sourceKey : String) :
    SwingShadowEvent where
  signalId := signal.signalId
  kind := .signalCreated
  sessionDate := sessionDate
  observedAt := signal.observedAt
  sourceKey := sourceKey

/-- The method `append_signal`. -/
def appendSignal (signal : TradeSignalEnvelope) (sessionDate : Date) (sourceKey : String) :
    SwingShadowWork (Option SwingShadowEvent) :=
  if ¬ signal.validateSignal then Writing.raise .invalidLedger else do
  match ← Writing.read (·.signal? signal.signalId) with
  | some existing => if existing ≠ signal then Writing.raise .conflict else return none
  | none =>
    let event := creationEvent signal sessionDate sourceKey
    if ¬ event.validateEvent then Writing.raise .invalidRecord else
    match ← Writing.read (·.event? event.eventId) with
    | some existing =>
      if existing ≠ event then Writing.raise .conflict else
      Writing.commit (.insertSignal signal none nofun)
      return some event
    | none =>
      Writing.commit (.insertSignal signal (some event) (by rintro _ ⟨⟩; rfl))
      return some event

/-- The method `append_event`. An event of no signal breaks the foreign key. -/
def appendEvent (event : SwingShadowEvent) : SwingShadowWork Bool :=
  if ¬ event.validateEvent then Writing.raise .invalidLedger else do
  match ← Writing.read (·.event? event.eventId) with
  | some existing => if existing ≠ event then Writing.raise .conflict else return false
  | none =>
    if (← Writing.read (·.signal? event.signalId)).isNone then Writing.raise .invalidLedger else
    Writing.commit (.insertEvent event)
    return true

/-! ## The ledger of one signal -/

namespace SwingShadowLedger

open Writing

variable {ledger : SwingShadowLedger} {id : String}

theorem eventsOf_commit (w : Transaction) :
    (ledger.commit w).eventsOf id =
      ledger.eventsOf id ++ w.event?.toList.filter (·.signalId = id) :=
  List.filter_append _ _

/-- The ledger of a signal changes with the transactions about it only. -/
theorem isView_only (id : String) : IsView commit (only · id) (·.signalId = id) where
  write_mine ledger w hw := by
    have hsignals : w.signal?.toList.filter (·.signalId = id) = w.signal?.toList :=
      List.filter_eq_self.2 fun s hs => decide_eq_true
        ((Transaction.signalId_of_mem_signal (Option.mem_toList.1 hs)).trans hw)
    have hevents : w.event?.toList.filter (·.signalId = id) = w.event?.toList :=
      List.filter_eq_self.2 fun e he => decide_eq_true
        ((Transaction.signalId_of_mem_event (Option.mem_toList.1 he)).trans hw)
    simp only [only, commit, eventsOf, List.filter_append, hsignals, hevents]
  write_other ledger w hw := by
    have hsignals : w.signal?.toList.filter (·.signalId = id) = [] :=
      List.filter_eq_nil_iff.2 fun s hs h => hw
        ((Transaction.signalId_of_mem_signal (Option.mem_toList.1 hs)).symm.trans (of_decide_eq_true h))
    have hevents : w.event?.toList.filter (·.signalId = id) = [] :=
      List.filter_eq_nil_iff.2 fun e he h => hw
        ((Transaction.signalId_of_mem_event (Option.mem_toList.1 he)).symm.trans (of_decide_eq_true h))
    simp only [only, commit, eventsOf, List.filter_append, hsignals, hevents, List.append_nil]

@[simp] theorem eventsOf_only : (ledger.only id).eventsOf id = ledger.eventsOf id := by
  simp [only, eventsOf, List.filter_filter]

@[simp] theorem signal?_only : (ledger.only id).signal? id = ledger.signal? id := by
  rw [signal?, only, signal?, List.find?_filter]
  simp

theorem event?_only (kind : ShadowEventKind) :
    (ledger.only id).event? (id, kind) = ledger.event? (id, kind) := by
  rw [event?, only, event?, eventsOf, List.find?_filter]
  congr 1
  funext event
  simp only [SwingShadowEvent.eventId, Prod.mk.injEq, decide_eq_true_eq, Bool.decide_and]
  by_cases h : event.signalId = id <;> simp [h]

end SwingShadowLedger

open Writing in
/-- To append a signal is work on its own ledger. -/
theorem confined_appendSignal (signal : TradeSignalEnvelope) (sessionDate : Date)
    (sourceKey : String) :
    Writing.Confined (SwingShadowLedger.only · signal.signalId) (·.signalId = signal.signalId)
      (appendSignal signal sessionDate sourceKey) := by
  have hview := SwingShadowLedger.isView_only signal.signalId
  rw [appendSignal]
  split
  · exact .raise _
  refine .bind hview (.read fun ledger => SwingShadowLedger.signal?_only) fun existing => ?_
  cases existing with
  | some existing =>
    dsimp only
    split
    · exact .raise _
    · exact .pure _
  | none =>
    dsimp only
    split
    · exact .raise _
    refine .bind hview (.read fun ledger => SwingShadowLedger.event?_only _) fun existing => ?_
    cases existing with
    | some existing =>
      dsimp only
      split
      · exact .raise _
      · exact .bind hview (.commit rfl) fun _ => .pure _
    | none => exact .bind hview (.commit rfl) fun _ => .pure _

open Writing in
/-- To append an event is work on the ledger of its signal. -/
theorem confined_appendEvent (event : SwingShadowEvent) :
    Writing.Confined (SwingShadowLedger.only · event.signalId) (·.signalId = event.signalId)
      (appendEvent event) := by
  have hview := SwingShadowLedger.isView_only event.signalId
  rw [appendEvent]
  split
  · exact .raise _
  refine .bind hview (.read fun ledger => SwingShadowLedger.event?_only _) fun existing => ?_
  cases existing with
  | some existing =>
    dsimp only
    split
    · exact .raise _
    · exact .pure _
  | none =>
    dsimp only
    refine .bind hview (.read fun ledger => SwingShadowLedger.signal?_only) fun stored => ?_
    split
    · exact .raise _
    · exact .bind hview (.commit rfl) fun _ => .pure _

end TradingAgent.Swing
