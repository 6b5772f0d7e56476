import Mathlib.Data.Prod.Lex
import Mathlib.Data.String.Basic
import TradingAgent.Library.Fold
import TradingAgent.Library.SortedSet
import TradingAgent.Sip.Messages

/-!
# The state of the trades

The trades of a stream, as its messages leave them (`TradeState`), and what is reported of them as
of some time (`materializeProjectedTradesAsOf`): the trades that are active after the last message
received until then. A function that fails here raises the one error of the source,
`AlpacaSipDynamicTradeStateError`.

* The dictionary `_aliases` is a function here, and `_roots` the list of its values, whose keys
  are their root events.
* The loops over the aliases of a target compare objects by identity. Here they compare their
  values: two trades differ in their current events, as these are events of different messages.
-/

namespace TradingAgent.Sip

/-- A symbol with an identifier of the provider for one of its trades. -/
abbrev Alias := String × ℤ

structure DynamicActiveTrade where
  rootEventId : String
  currentEventId : String
  currentConnectionEpoch : String
  sourceSequence : ℤ
  sourceMessageIndex : ℤ
  instrumentId : String
  symbol : String
  providerRootTradeId : ℤ
  currentTradeId : ℤ
  tradeIdAliases : List ℤ
  exchange : String
  tape : String
  price : ℚ
  size : ℤ
  conditions : List String
  eventTime : DateTime
  receivedAt : DateTime
  deriving DecidableEq, Repr

/-- The check `__post_init__`. -/
def DynamicActiveTrade.isValid (t : DynamicActiveTrade) : Bool :=
  ¬ (t.rootEventId.length ≠ 64 ∨ t.currentEventId.length ≠ 64 ∨
    t.currentConnectionEpoch.length ≠ 32 ∨ t.sourceSequence < 4 ∨ t.sourceMessageIndex < 0 ∨
    t.instrumentId = "" ∨ t.symbol = "" ∨ t.providerRootTradeId ≤ 0 ∨ t.currentTradeId ≤ 0 ∨
    t.tradeIdAliases ≠ sortedSet t.tradeIdAliases ∨ t.providerRootTradeId ∉ t.tradeIdAliases ∨
    t.currentTradeId ∉ t.tradeIdAliases ∨ t.exchange = "" ∨ isTape t.tape = false ∨
    t.price ≤ 0 ∨ t.size ≤ 0 ∨ t.eventTime.aware = false ∨ t.receivedAt.aware = false ∨
    t.receivedAt < t.eventTime)

/-- The constructor of active trades. -/
def DynamicActiveTrade.make (t : DynamicActiveTrade) : Option DynamicActiveTrade :=
  if t.isValid then some t else none

theorem DynamicActiveTrade.make_eq_some {t t' : DynamicActiveTrade} :
    t.make = some t' ↔ t.isValid = true ∧ t' = t := by
  rw [make, Option.ite_none_right_eq_some, Option.some_inj, eq_comm (a := t)]

/-- The function `_values`. -/
def values (active : DynamicActiveTrade) : String × String × ℚ × ℤ × List String :=
  (active.exchange, active.tape, active.price, active.size, active.conditions)

/-- A trade message of a stream: an item, with the message of its payload. -/
structure TradeItem where
  projected : ProjectedMarketMessage
  message : TradeWireMessage

structure TradeState where
  aliases : Alias → Option DynamicActiveTrade
  roots : List DynamicActiveTrade
  seen : List Alias
  seenPayloads : List String

namespace TradeState

def empty : TradeState := ⟨fun _ => none, [], [], []⟩

/-- The active trades: the method `active`. -/
def active (state : TradeState) : List DynamicActiveTrade :=
  state.roots.insertionSort fun t t' => t.rootEventId ≤ t'.rootEventId

end TradeState

/-- The trade of an original message. -/
def originalTrade (projected : ProjectedMarketMessage) (message : TradeMessage) :
    DynamicActiveTrade where
  rootEventId := projected.eventId
  currentEventId := projected.eventId
  currentConnectionEpoch := projected.connectionEpoch
  sourceSequence := projected.sequence
  sourceMessageIndex := projected.messageIndex
  instrumentId := projected.instrumentId
  symbol := message.symbol
  providerRootTradeId := message.tradeId
  currentTradeId := message.tradeId
  tradeIdAliases := [message.tradeId]
  exchange := message.exchange
  tape := message.tape
  price := message.price
  size := message.size
  conditions := message.conditions
  eventTime := message.timestamp
  receivedAt := projected.receivedAt

/-- What a correction makes of a trade. -/
def correctedTrade (target : DynamicActiveTrade) (projected : ProjectedMarketMessage)
    (message : CorrectionMessage) : DynamicActiveTrade where
  rootEventId := target.rootEventId
  currentEventId := projected.eventId
  currentConnectionEpoch := projected.connectionEpoch
  sourceSequence := projected.sequence
  sourceMessageIndex := projected.messageIndex
  instrumentId := target.instrumentId
  symbol := target.symbol
  providerRootTradeId := target.providerRootTradeId
  currentTradeId := message.correctedTradeId
  tradeIdAliases :=
    (target.tradeIdAliases ++ [message.correctedTradeId]).insertionSort (· ≤ ·)
  exchange := message.exchange
  tape := message.tape
  price := message.correctedPrice
  size := message.correctedSize
  conditions := message.correctedConditions
  eventTime := message.timestamp
  receivedAt := projected.receivedAt

def TradeMessage.alias (m : TradeMessage) : Alias := (m.symbol, m.tradeId)
def CorrectionMessage.originalAlias (m : CorrectionMessage) : Alias :=
  (m.symbol, m.originalTradeId)
def CorrectionMessage.correctedAlias (m : CorrectionMessage) : Alias :=
  (m.symbol, m.correctedTradeId)
def CancelMessage.alias (m : CancelMessage) : Alias := (m.symbol, m.tradeId)

namespace TradeState

/-- The assignment `_roots[active.root_event_id] = active`. -/
def setRoot (roots : List DynamicActiveTrade) (active : DynamicActiveTrade) :
    List DynamicActiveTrade :=
  if active.rootEventId ∈ roots.map (·.rootEventId) then
    roots.map fun root => if root.rootEventId = active.rootEventId then active else root
  else roots ++ [active]

/-- The method `_original`. -/
def original (state : TradeState) (projected : ProjectedMarketMessage) (message : TradeMessage) :
    Option TradeState :=
  if message.alias ∈ state.seen then none
  else (originalTrade projected message).make.map fun active =>
    { state with
      aliases := fun k => if k = message.alias then some active else state.aliases k
      roots := setRoot state.roots active
      seen := message.alias :: state.seen }

/-- The method `_correction`. -/
def correction (state : TradeState) (projected : ProjectedMarketMessage)
    (message : CorrectionMessage) : Option TradeState :=
  (state.aliases message.originalAlias).bind fun target =>
    if values target ≠ (message.exchange, message.tape, message.originalPrice,
        message.originalSize, message.originalConditions) ∨ message.correctedAlias ∈ state.seen then
      none
    else (correctedTrade target projected message).make.map fun active =>
      { state with
        aliases := fun k =>
          if k = message.correctedAlias then some active
          else if state.aliases k = some target then some active else state.aliases k
        roots := setRoot state.roots active
        seen := message.correctedAlias :: state.seen }

/-- The method `_cancel`. Deleting a root that is not there raises a `KeyError`. -/
def cancel (state : TradeState) (message : CancelMessage) : Option TradeState :=
  (state.aliases message.alias).bind fun target =>
    if (target.exchange, target.tape, target.price, target.size) ≠
        (message.exchange, message.tape, message.price, message.size) ∨
        target.rootEventId ∉ state.roots.map (·.rootEventId) then none
    else some
      { state with
        aliases := fun k => if state.aliases k = some target then none else state.aliases k
        roots := state.roots.filter fun root => root.rootEventId ≠ target.rootEventId }

/-- What a message makes of the state, unless its payload was seen. -/
def applyMessage (state : TradeState) (item : TradeItem) : Option TradeState :=
  match item.message with
  | .trade message => state.original item.projected message
  | .correction message => state.correction item.projected message
  | .cancel message => state.cancel message

/-- The method `apply`: whether the message was new, and the state after it. -/
def apply (state : TradeState) (item : TradeItem) : Option (Bool × TradeState) :=
  if item.projected.contentSha256 ∈ state.seenPayloads then some (false, state)
  else (({ state with
      seenPayloads := item.projected.contentSha256 :: state.seenPayloads } : TradeState).applyMessage
    item).map fun state => (true, state)

end TradeState

/-! ## As of some time -/

/-- The position of a connection among those of the history, and -1 if it is none of them. -/
def epochPosition (connectionEpochs : List String) (epoch : String) : ℤ :=
  ((connectionEpochs.idxOf? epoch).map fun n : ℕ => (n : ℤ)).getD (-1)

/-- Where an item stands in the order of the projection. -/
def orderKey (connectionEpochs : List String) (item : ProjectedMarketMessage) :
    ℤ ×ₗ ℤ ×ₗ ℤ ×ₗ ℤ :=
  toLex (item.receivedAt.instant, toLex (epochPosition connectionEpochs item.connectionEpoch,
    toLex (item.sequence, item.messageIndex)))

/-- Whether `_validate_projection_order` accepts the items. -/
def projectionOrderIsValid (projected : List ProjectedMarketMessage) (planId : String)
    (marketDate : Date) (connectionEpochs : List String) : Bool :=
  ¬ (connectionEpochs = [] ∨ ¬ connectionEpochs.Nodup ∨
    (∃ item ∈ projected, item.planId ≠ planId ∨ item.marketDate ≠ marketDate) ∨
    (∃ item ∈ projected, item.connectionEpoch ∉ connectionEpochs) ∨
    ¬ (projected.map (·.eventId)).Nodup ∨
    projected.map (orderKey connectionEpochs) ≠
      sortedSet (projected.map (orderKey connectionEpochs)))

/-- The locals of the loop over the items. -/
structure Materialization where
  state : TradeState
  activeAsOf : List DynamicActiveTrade
  validated : ℕ
  observed : ℕ
  duplicates : ℕ

namespace Materialization

def empty : Materialization := ⟨.empty, [], 0, 0, 0⟩

/-- The loop over the items, at a trade message. -/
def observe (asOf : DateTime) (m : Materialization) (item : TradeItem) : Option Materialization :=
  (m.state.apply item).map fun (applied, state) =>
    { state := state
      activeAsOf := if item.projected.receivedAt ≤ asOf then state.active else m.activeAsOf
      validated := m.validated + 1
      observed := if item.projected.receivedAt ≤ asOf then m.observed + 1 else m.observed
      duplicates := if applied then m.duplicates else m.duplicates + 1 }

/-- The loop over the items, at one of them. -/
def step (validateJson : JsonReader) (asOf : DateTime) (m : Materialization)
    (item : ProjectedMarketMessage) : Option Materialization :=
  match parseProjected validateJson item with
  | none => none
  | some (.quote _) => some m
  | some (.trade message) => m.observe asOf ⟨item, message⟩

end Materialization

structure DynamicTradeState where
  planId : String
  connectionEpochs : List String
  marketDate : Date
  asOf : DateTime
  validatedTradeMessageCount : ℕ
  observedTradeMessageCount : ℕ
  duplicateTradeMessageCount : ℕ
  activeTrades : List DynamicActiveTrade
  deriving DecidableEq, Repr

/-- The check `__post_init__`. -/
def DynamicTradeState.isValid (s : DynamicTradeState) : Bool :=
  ¬ (s.planId.length ≠ 64 ∨ s.connectionEpochs = [] ∨
    (∃ epoch ∈ s.connectionEpochs, epoch.length ≠ 32) ∨ ¬ s.connectionEpochs.Nodup ∨
    s.asOf.aware = false ∨ s.validatedTradeMessageCount < s.observedTradeMessageCount ∨
    s.validatedTradeMessageCount < s.duplicateTradeMessageCount ∨
    s.activeTrades ≠
      s.activeTrades.insertionSort fun t t' => t.rootEventId ≤ t'.rootEventId)

/-- The function `_materialize_projected_trades_as_of`. -/
def materializeProjectedTradesAsOf (validateJson : JsonReader)
    (projected : List ProjectedMarketMessage) (planId : String) (marketDate : Date)
    (connectionEpochs : List String) (asOf : DateTime) : Option DynamicTradeState :=
  if asOf.aware = false ∨
      projectionOrderIsValid projected planId marketDate connectionEpochs = false then none
  else (projected.foldlM (Materialization.step validateJson asOf) .empty).bind fun m =>
    let result : DynamicTradeState :=
      { planId, connectionEpochs, marketDate
        asOf := .utc asOf.instant
        validatedTradeMessageCount := m.validated
        observedTradeMessageCount := m.observed
        duplicateTradeMessageCount := m.duplicates
        activeTrades := m.activeAsOf }
    if result.isValid then some result else none

end TradingAgent.Sip
