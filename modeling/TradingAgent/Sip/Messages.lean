import Mathlib.Algebra.Order.Ring.Rat
import TradingAgent.Library.Text

/-!
# Messages of the market data stream

The messages of the SIP feed, as they come over the wire (`TradeMessage`, `CorrectionMessage`,
`CancelMessage`, `QuoteMessage`), with the checks of their models, and as the receipts of a
connection are projected (`ProjectedMarketMessage`): one for each message, with its payload.

The text of a payload is read by a JSON library, which is no part of the code: a `JsonReader` is
any function from texts to the messages that they are, before the checks of their models. The
decimals it admits are finite, so they are rational numbers here.
-/

namespace TradingAgent.Sip

/-- A field that a JSON library reads as `tuple[str, ...]`, without repetition and each of one to
    eight printable characters. -/
def conditionsAreValid (conditions : List String) : Bool :=
  conditions.Nodup ∧ conditions.all fun condition =>
    (1 ≤ condition.length ∧ condition.length ≤ 8) ∧
      condition.toList.all fun c => ' ' ≤ c ∧ c ≤ '~'

/-- The pattern `[A-Z0-9]{1,4}`. -/
def isVenue (s : String) : Bool :=
  (1 ≤ s.length ∧ s.length ≤ 4) ∧ s.toList.all fun c => c.isUpper || c.isDigit

/-- The pattern `[0-9a-f]{32}`. -/
def isEpoch (s : String) : Bool :=
  s.toList.length = 32 ∧ s.toList.all fun c => c.isDigit || ('a' ≤ c && c ≤ 'f')

def isTape (tape : String) : Bool := tape ∈ ["A", "B", "C"]

def commonIsValid (symbol exchange tape : String) (conditions : List String) : Bool :=
  isSymbol symbol ∧ isVenue exchange ∧ isTape tape ∧ conditionsAreValid conditions

structure TradeMessage where
  symbol : String
  tradeId : ℤ
  exchange : String
  price : ℚ
  size : ℤ
  conditions : List String
  timestamp : DateTime
  tape : String
  deriving DecidableEq, Repr

/-- The validator `validate_trade`. -/
def TradeMessage.isValid (m : TradeMessage) : Bool :=
  commonIsValid m.symbol m.exchange m.tape m.conditions ∧
    ¬ (m.tradeId ≤ 0 ∨ m.price ≤ 0 ∨ m.size ≤ 0)

structure CorrectionMessage where
  symbol : String
  exchange : String
  originalTradeId : ℤ
  originalPrice : ℚ
  originalSize : ℤ
  originalConditions : List String
  correctedTradeId : ℤ
  correctedPrice : ℚ
  correctedSize : ℤ
  correctedConditions : List String
  timestamp : DateTime
  tape : String
  deriving DecidableEq, Repr

/-- The validator `validate_correction`. -/
def CorrectionMessage.isValid (m : CorrectionMessage) : Bool :=
  (conditionsAreValid m.originalConditions ∧ conditionsAreValid m.correctedConditions) ∧
    commonIsValid m.symbol m.exchange m.tape [] ∧
    ¬ (m.originalTradeId ≤ 0 ∨ m.correctedTradeId ≤ 0 ∨ m.originalTradeId = m.correctedTradeId ∨
      m.originalPrice ≤ 0 ∨ m.correctedPrice ≤ 0 ∨ m.originalSize ≤ 0 ∨ m.correctedSize ≤ 0)

structure CancelMessage where
  symbol : String
  tradeId : ℤ
  exchange : String
  price : ℚ
  size : ℤ
  /-- `true` for the action `C`, and `false` for `E`. -/
  action : Bool
  timestamp : DateTime
  tape : String
  deriving DecidableEq, Repr

/-- The validator `validate_cancel`. -/
def CancelMessage.isValid (m : CancelMessage) : Bool :=
  commonIsValid m.symbol m.exchange m.tape [] ∧ ¬ (m.tradeId ≤ 0 ∨ m.price ≤ 0 ∨ m.size ≤ 0)

structure QuoteMessage where
  symbol : String
  askExchange : String
  askPrice : ℚ
  askSize : ℤ
  bidExchange : String
  bidPrice : ℚ
  bidSize : ℤ
  conditions : List String
  timestamp : DateTime
  tape : String
  deriving DecidableEq, Repr

/-- The validator `validate_quote`. -/
def QuoteMessage.isValid (m : QuoteMessage) : Bool :=
  ¬ (isSymbol m.symbol = false ∨ isVenue m.askExchange = false ∨ isVenue m.bidExchange = false ∨
    m.askPrice ≤ 0 ∨ m.bidPrice ≤ 0 ∨ m.askPrice < m.bidPrice ∨ m.askSize < 0 ∨ m.bidSize < 0 ∨
    isTape m.tape = false ∨ conditionsAreValid m.conditions = false)

inductive TradeWireMessage
  | trade (m : TradeMessage)
  | correction (m : CorrectionMessage)
  | cancel (m : CancelMessage)
  deriving DecidableEq, Repr

def TradeWireMessage.isValid : TradeWireMessage → Bool
  | trade m => m.isValid
  | correction m => m.isValid
  | cancel m => m.isValid

inductive DynamicWireMessage
  | quote (m : QuoteMessage)
  | trade (m : TradeWireMessage)
  deriving DecidableEq, Repr

def DynamicWireMessage.isValid : DynamicWireMessage → Bool
  | quote m => m.isValid
  | trade m => m.isValid

inductive DynamicMarketKind
  | quote
  | trade
  | correction
  | cancel
  deriving DecidableEq, Repr

def DynamicWireMessage.kind : DynamicWireMessage → DynamicMarketKind
  | quote _ => .quote
  | trade (.trade _) => .trade
  | trade (.correction _) => .correction
  | trade (.cancel _) => .cancel

/-- What a JSON library reads in a text, if it is a list of messages. -/
abbrev JsonReader := String → Option (List DynamicWireMessage)

/-- The function `parse_alpaca_sip_dynamic_market_frame`. -/
def parseMarketFrame (validateJson : JsonReader) (payload : String) :
    Option (List DynamicWireMessage) :=
  if payload = "" then none
  else (validateJson payload).bind fun messages =>
    if messages = [] ∨ ¬ messages.all DynamicWireMessage.isValid then none else some messages

/-- A message of a receipt, as it is projected. -/
structure ProjectedMarketMessage where
  eventId : String
  contentSha256 : String
  rawReceiptId : String
  planId : String
  connectionEpoch : String
  sequence : ℤ
  messageIndex : ℤ
  marketDate : Date
  instrumentId : String
  symbol : String
  kind : DynamicMarketKind
  eventTime : DateTime
  receivedAt : DateTime
  payload : String
  isHex64_ids : ∀ value ∈ [eventId, contentSha256, rawReceiptId, planId], isHex64 value = true
  isEpoch_connectionEpoch : isEpoch connectionEpoch = true
  four_le_sequence : 4 ≤ sequence
  messageIndex_nonneg : 0 ≤ messageIndex
  isInstrument_instrumentId : isInstrument instrumentId = true
  isSymbol_symbol : isSymbol symbol = true
  aware_times : eventTime.aware = true ∧ receivedAt.aware = true
  eventTime_le : eventTime ≤ receivedAt
  payload_ne : payload ≠ ""

/-- The function `_parse_projected`: the message whose payload an item is. -/
def parseProjected (validateJson : JsonReader) (item : ProjectedMarketMessage) :
    Option DynamicWireMessage :=
  match parseMarketFrame validateJson ("[" ++ item.payload ++ "]") with
  | some [message] => if message.kind = item.kind then some message else none
  | _ => none

end TradingAgent.Sip
