import Mathlib.Data.Prod.Lex
import TradingAgent.Calendar
import TradingAgent.Kr.Models

/-!
# Swing signals and daily bars

The conditional signals of the swing strategy (`TradeSignalEnvelope`), the daily bars of a completed
session that they are advanced with (`SwingDailySource`), and the events of a signal
(`SwingShadowEvent`), with what each record validates about itself.

What the clocks of New York show is that of a time zone.
-/

namespace TradingAgent.Swing

open Kr (EvidenceRef canonicalText validateEvidence)

/-! ## Signals -/

inductive MarketId
  | usEquities
  | krEquities
  deriving DecidableEq, Repr

inductive AgentFamily
  | opportunityManager
  | dayTrading
  | swingTrading
  | systematicQuant
  | derivativesResearch
  | marketContext
  | allocationManager
  deriving DecidableEq, Repr

structure StrategyLaneRef where
  marketId : MarketId
  agentFamily : AgentFamily
  strategyId : String
  deriving DecidableEq, Repr

inductive SignalSide
  | long
  | short
  deriving DecidableEq, Repr

inductive SignalEntryType
  | stopTrigger
  | limit
  deriving DecidableEq, Repr

inductive SignalActionability
  | conditional
  | currentQuoteValidated
  deriving DecidableEq, Repr

structure TradeTarget where
  label : String
  price : Decimal
  deriving DecidableEq, Repr

structure QuoteValidation where
  bid : Decimal
  ask : Decimal
  observedAt : DateTime
  validUntil : DateTime
  spreadBps : Decimal
  maxSlippageBps : Decimal
  deriving DecidableEq, Repr

structure TradeSignalEnvelope where
  signalId : String
  strategyLane : StrategyLaneRef
  producerStrategyVersion : String
  symbol : String
  observedAt : DateTime
  validUntil : DateTime
  side : SignalSide
  entryType : SignalEntryType
  entryPrice : Decimal
  stopPrice : Decimal
  targets : List TradeTarget
  actionability : SignalActionability
  invalidationRule : String
  rationale : String
  evidenceRefs : List EvidenceRef
  quoteValidation : Option QuoteValidation := none
  opportunityId : Option String := none
  deriving DecidableEq, Repr

/-- The pattern `[A-Za-z0-9][-A-Za-z0-9_.:]{0,127}`. -/
def isIdentifier (s : String) : Bool :=
  match s.toList with
  | [] => false
  | c :: cs => c.isAlphanum ∧ cs.length ≤ 127 ∧
      cs.all fun c => c.isAlphanum || c = '_' || c = '.' || c = ':' || c = '-'

/-- The pattern `[a-z0-9][a-z0-9_]{0,63}`. -/
def isFeatureName (s : String) : Bool :=
  match s.toList with
  | [] => false
  | c :: cs => (c.isLower || c.isDigit) ∧ cs.length ≤ 63 ∧
      cs.all fun c => c.isLower || c.isDigit || c = '_'

/-- The patterns `[A-Z0-9][-A-Z0-9./]{0,19}` and `[0-9]{6}`. -/
def symbolIsValidForMarket (s : String) : MarketId → Bool
  | .usEquities =>
    match s.toList with
    | [] => false
    | c :: cs => (c.isUpper || c.isDigit) ∧ cs.length ≤ 19 ∧
        cs.all fun c => c.isUpper || c.isDigit || c = '.' || c = '/' || c = '-'
  | .krEquities => s.toList.length = 6 ∧ s.toList.all Char.isDigit

def isPositiveFinite (price : Decimal) : Bool := price.isFinite ∧ 0 < price

def validateTarget (target : TradeTarget) : Bool :=
  isFeatureName target.label ∧ isPositiveFinite target.price

/-- The validation of a `QuoteValidation`. -/
def validateQuote (quote : QuoteValidation) : Bool :=
  let spread := ((((quote.ask - quote.bid).rounded / (((quote.ask + quote.bid).rounded) /
    .finite 2).rounded).rounded) * .finite 10000).rounded
  isPositiveFinite quote.bid ∧ isPositiveFinite quote.ask ∧ quote.bid ≤ quote.ask ∧
    quote.spreadBps.isFinite ∧ 0 ≤ quote.spreadBps ∧ isPositiveFinite quote.maxSlippageBps ∧
    quote.observedAt.aware ∧ quote.validUntil.aware ∧ quote.observedAt < quote.validUntil ∧
    ¬ .finite (5 / 100) < ((spread - quote.spreadBps).rounded).abs

namespace TradeSignalEnvelope

def quoteActionabilityIsValid (signal : TradeSignalEnvelope) : Bool :=
  match signal.actionability, signal.quoteValidation with
  | .conditional, quote => quote.isNone
  | .currentQuoteValidated, none => false
  | .currentQuoteValidated, some quote =>
    quote.observedAt ≤ signal.observedAt ∧ signal.observedAt ≤ quote.validUntil ∧
      quote.spreadBps ≤ quote.maxSlippageBps

def directionalPricesAreValid (signal : TradeSignalEnvelope) : Bool :=
  match signal.side with
  | .long => signal.stopPrice < signal.entryPrice ∧
      signal.targets.all fun target => signal.entryPrice < target.price
  | .short => signal.entryPrice < signal.stopPrice ∧
      signal.targets.all fun target => target.price < signal.entryPrice

/-- The validation of a `TradeSignalEnvelope`, and of the records in it. -/
def validateSignal (signal : TradeSignalEnvelope) : Bool :=
  (canonicalText signal.signalId 512 ∧ isIdentifier signal.producerStrategyVersion ∧
      signal.opportunityId.all (canonicalText · 512)) ∧
    isFeatureName signal.strategyLane.strategyId ∧
    signal.strategyLane.agentFamily ∈
      [AgentFamily.dayTrading, .swingTrading, .systematicQuant] ∧
    signal.observedAt.aware ∧ signal.validUntil.aware ∧ signal.observedAt < signal.validUntil ∧
    symbolIsValidForMarket signal.symbol signal.strategyLane.marketId ∧
    isPositiveFinite signal.entryPrice ∧ isPositiveFinite signal.stopPrice ∧
    signal.targets ≠ [] ∧ signal.targets.all validateTarget ∧
    signal.targets.map (·.label) = sortedSet (signal.targets.map (·.label)) ∧
    signal.directionalPricesAreValid ∧
    canonicalText signal.invalidationRule 2000 ∧ canonicalText signal.rationale 2000 ∧
    signal.evidenceRefs ≠ [] ∧ signal.evidenceRefs.all validateEvidence ∧
    signal.evidenceRefs.map (·.canonicalId) = sortedSet (signal.evidenceRefs.map (·.canonicalId)) ∧
    signal.evidenceRefs.all (fun evidence => evidence.observedAt ≤ signal.observedAt) ∧
    signal.quoteValidation.all validateQuote ∧ signal.quoteActionabilityIsValid

/-- The price of the first target. -/
def targetPrice (signal : TradeSignalEnvelope) : Decimal :=
  (signal.targets.head?.map (·.price)).getD .nan

end TradeSignalEnvelope

/-! ## Daily bars -/

structure SwingDailyBar where
  symbol : String
  sessionDate : Date
  observedAt : DateTime
  open_ : Decimal
  high : Decimal
  low : Decimal
  close : Decimal
  volume : ℤ
  deriving DecidableEq, Repr

/-- The daily bars of some symbols, up to a session that is over. -/
structure SwingDailySource where
  sessionDate : Date
  observedAt : DateTime
  provider : String
  feed : String
  universeId : String
  symbols : List String
  bars : List SwingDailyBar
  deriving DecidableEq, Repr

/-- The pattern `[A-Z][-A-Z0-9.]{0,15}`. -/
def isUsSymbol (s : String) : Bool :=
  match s.toList with
  | [] => false
  | c :: cs => c.isUpper ∧ cs.length ≤ 15 ∧
      cs.all fun c => c.isUpper || c.isDigit || c = '.' || c = '-'

/-- Whether the regular session of a day is over at a time. -/
def isAfterClose (newYork : ZoneInfo) (sessionDate : Date) (time : DateTime) : Bool :=
  (regularSessionBounds sessionDate).any fun bounds =>
    bounds.closes ≤ (time.astimezone newYork).wall

def validateBar (newYork : ZoneInfo) (bar : SwingDailyBar) : Bool :=
  isUsSymbol bar.symbol ∧ bar.observedAt.aware ∧
    isAfterClose newYork bar.sessionDate bar.observedAt ∧
    ([bar.open_, bar.high, bar.low, bar.close].all isPositiveFinite) ∧
    bar.low ≤ Decimal.min bar.open_ bar.close ∧ Decimal.max bar.open_ bar.close ≤ bar.high ∧
    0 ≤ bar.volume

namespace SwingDailySource

/-- The bars of a symbol. -/
def barsFor (source : SwingDailySource) (symbol : String) : List SwingDailyBar :=
  source.bars.filter (·.symbol = symbol)

def barKeys (source : SwingDailySource) : List (Lex (String × Date)) :=
  source.bars.map fun bar => toLex (bar.symbol, bar.sessionDate)

def targetSymbols (source : SwingDailySource) : List String :=
  ((source.bars.filter (·.sessionDate = source.sessionDate)).map (·.symbol)).insertionSort (· ≤ ·)

/-- The validation of a `SwingDailySource`, and of the bars in it. -/
def validateSource (newYork : ZoneInfo) (source : SwingDailySource) : Bool :=
  source.bars.all (validateBar newYork) ∧ source.observedAt.aware ∧
    isAfterClose newYork source.sessionDate source.observedAt ∧
    (source.observedAt.astimezone newYork).date = source.sessionDate ∧
    isIdentifier source.universeId ∧
    source.symbols ≠ [] ∧ source.symbols = sortedSet source.symbols ∧
    source.symbols.all isUsSymbol ∧
    source.bars ≠ [] ∧ source.barKeys = sortedSet source.barKeys ∧
    source.bars.all (fun bar => bar.symbol ∈ source.symbols ∧
      bar.sessionDate ≤ source.sessionDate ∧ bar.observedAt ≤ source.observedAt) ∧
    source.targetSymbols = source.symbols

/-- A source without the bars of the other symbols. -/
def only (source : SwingDailySource) (symbol : String) : SwingDailySource :=
  { source with symbols := [symbol], bars := source.barsFor symbol }

@[simp] theorem barsFor_only (source : SwingDailySource) (symbol : String) :
    (source.only symbol).barsFor symbol = source.barsFor symbol := by
  rw [barsFor, only, barsFor, List.filter_filter]
  simp

end SwingDailySource

/-! ## Events -/

inductive ShadowEventKind
  | signalCreated
  | entryFilled
  | stopped
  | targeted
  | timeExit
  | expired
  deriving DecidableEq, Repr

namespace ShadowEventKind

/-- Whether an event of this kind has a price. -/
def requiresPrice : ShadowEventKind → Bool
  | entryFilled | stopped | targeted | timeExit => true
  | signalCreated | expired => false

/-- Whether an event of this kind is the last one of its signal: `_TERMINAL_KINDS`. -/
def terminal : ShadowEventKind → Bool
  | stopped | targeted | timeExit | expired => true
  | signalCreated | entryFilled => false

end ShadowEventKind

/-- An event of a signal. Its identity is that of the signal with the kind of the event. -/
structure SwingShadowEvent where
  signalId : String
  kind : ShadowEventKind
  sessionDate : Date
  observedAt : DateTime
  sourceKey : String
  price : Option Decimal := none
  deriving DecidableEq, Repr

namespace SwingShadowEvent

def eventId (event : SwingShadowEvent) : String × ShadowEventKind := (event.signalId, event.kind)

def priceIsValid (kind : ShadowEventKind) (price : Option Decimal) : Bool :=
  if kind.requiresPrice then price.any isPositiveFinite else price.isNone

def validateEvent (event : SwingShadowEvent) : Bool :=
  canonicalText event.signalId 512 ∧ event.observedAt.aware ∧ isHex64 event.sourceKey ∧
    priceIsValid event.kind event.price

end SwingShadowEvent

end TradingAgent.Swing
