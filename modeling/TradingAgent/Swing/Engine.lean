import TradingAgent.Swing.Store

/-!
# Advancing swing signals by a session

What the completed bars of a session do to the signals (`advanceSwingShadowSession`). New signals
are appended, and then each signal of the ledger takes its turn (`advanceSignal`):

* a pending signal is filled if the bar of its one valid session reaches its entry, and may then be
  stopped or targeted by the same bar; it expires otherwise (`advancePending`);
* an open position is stopped, targeted, or left after some sessions (`advanceOpenPosition`).

A signal that is not terminal needs a bar of the session (`currentBar`).
-/

namespace TradingAgent.Swing

/-- What the program takes from its environment: the clocks of New York, and the digest of the JSON
    text of a source, as 64 hexadecimal digits. -/
structure SwingEnvironment where
  newYork : ZoneInfo
  sourceKey : SwingDailySource → String
  isHex64_sourceKey : ∀ source, isHex64 (sourceKey source) = true

/-- Raises the errors of the engine in place of other ones, but for conflicts. -/
def SwingShadowError.asEngineError : SwingShadowError → SwingShadowError
  | conflict => conflict
  | _ => invalidEngine

def MAX_HOLDING_SESSIONS : ℕ := 10

open Writing (raise read forEach)

/-- The bar of a symbol on the day of the session, which is its last one. -/
def currentBar (source : SwingDailySource) (symbol : String) : Option SwingDailyBar :=
  (source.barsFor symbol).getLast?.filter (·.sessionDate = source.sessionDate)

/-- The loop of `_completed_holding_sessions` over at most `n` more days. -/
def countSessions (currentDate : Date) : ℕ → Date → ℕ → Option ℕ
  | 0, _, _ => none
  | n + 1, current, completed =>
    if currentDate < current then some completed
    else countSessions currentDate n (current + 1)
      (if (regularSessionBounds current).isSome then completed + 1 else completed)

/-- The sessions after the day of the entry, if they are not too many days. -/
def completedHoldingSessions (entryDate currentDate : Date) : Option ℕ :=
  countSessions currentDate 90 (entryDate + 1) 0

section

variable (env : SwingEnvironment) (source : SwingDailySource)

def event (signal : TradeSignalEnvelope) (kind : ShadowEventKind) (price : Option Decimal) :
    SwingShadowEvent where
  signalId := signal.signalId
  kind := kind
  sessionDate := source.sessionDate
  observedAt := source.observedAt
  sourceKey := env.sourceKey source
  price := price

/-- Appends an event of a signal, and returns it unless it was there already. -/
def append (signal : TradeSignalEnvelope) (kind : ShadowEventKind) (price : Option Decimal) :
    SwingShadowWork (List SwingShadowEvent) :=
  let event := event env source signal kind price
  if ¬ event.validateEvent then raise .invalidRecord else do
  return if ← appendEvent event then [event] else []

/-- Appends the event of a position that the bar closes, at the stop first. -/
def appendExit (signal : TradeSignalEnvelope) (bar : SwingDailyBar)
    (otherwise : SwingShadowWork (List SwingShadowEvent)) :
    SwingShadowWork (List SwingShadowEvent) :=
  if bar.low ≤ signal.stopPrice then
    append env source signal .stopped (some (Decimal.min bar.open_ signal.stopPrice))
  else if signal.targetPrice ≤ bar.high then
    append env source signal .targeted (some (Decimal.max bar.open_ signal.targetPrice))
  else otherwise

/-- The day in New York until whose end a signal is valid. -/
def validSession (signal : TradeSignalEnvelope) : Date :=
  (signal.validUntil.astimezone env.newYork).date

def advancePending (signal : TradeSignalEnvelope) (bar : SwingDailyBar) :
    SwingShadowWork (List SwingShadowEvent) :=
  if source.sessionDate < validSession env signal then return []
  else if validSession env signal < source.sessionDate ∨ bar.high < signal.entryPrice then
    append env source signal .expired none
  else do
    let entry ← append env source signal .entryFilled
      (some (Decimal.max bar.open_ signal.entryPrice))
    let exit ← appendExit env source signal bar (return [])
    return entry ++ exit

def advanceOpenPosition (signal : TradeSignalEnvelope) (bar : SwingDailyBar)
    (entry : SwingShadowEvent) : SwingShadowWork (List SwingShadowEvent) :=
  if source.sessionDate ≤ entry.sessionDate then return []
  else appendExit env source signal bar
    (match completedHoldingSessions entry.sessionDate source.sessionDate with
    | none => raise .invalidEngine
    | some completed =>
      if MAX_HOLDING_SESSIONS ≤ completed then
        append env source signal .timeExit (some bar.close)
      else return [])

/-- The turn of a signal, after its last event. -/
def takeTurn (signal : TradeSignalEnvelope) (latest : SwingShadowEvent) :
    SwingShadowWork (List SwingShadowEvent) :=
  if latest.kind.terminal then return [] else
  match currentBar source signal.symbol with
  | none => raise .invalidEngine
  | some bar =>
    match latest.kind with
    | .signalCreated => advancePending env source signal bar
    | .entryFilled => advanceOpenPosition env source signal bar latest
    | _ => raise .invalidEngine

def advanceSignal (signal : TradeSignalEnvelope) : SwingShadowWork (List SwingShadowEvent) := do
  match (← read (·.eventsOf signal.signalId)).getLast? with
  | none => raise .invalidEngine
  | some latest => takeTurn env source signal latest

/-- The tests of `_require_signal_matches_source`. -/
def signalMatchesSource (signal : TradeSignalEnvelope) : Bool :=
  signal.strategyLane.marketId = .usEquities ∧
    signal.strategyLane.agentFamily = .swingTrading ∧
    signal.strategyLane.strategyId = "new_high_momentum" ∧
    signal.entryType = .stopTrigger ∧ signal.actionability = .conditional ∧
    signal.observedAt.instant = source.observedAt.instant ∧
    source.sessionDate = (signal.observedAt.astimezone env.newYork).date ∧
    signal.evidenceRefs.map (·.canonicalId) =
      ["swing_shadow/daily_source:" ++ env.sourceKey source]

/-- What is done for a new signal. -/
def recordSignal (signal : TradeSignalEnvelope) : SwingShadowWork (Option SwingShadowEvent) :=
  if ¬ signalMatchesSource env source signal then raise .invalidEngine
  else appendSignal signal source.sessionDate (env.sourceKey source)

/-- The turns of all signals of the ledger. -/
def advanceSignals : SwingShadowWork (List (List SwingShadowEvent)) := do
  forEach (advanceSignal env source) (← read (·.signals))

def advanceSwingShadowSession (signals : List TradeSignalEnvelope) :
    SwingShadowWork (List SwingShadowEvent) :=
  Writing.mapError SwingShadowError.asEngineError <|
    if ¬ isAfterClose env.newYork source.sessionDate source.observedAt then raise .invalidEngine
    else do
      let created ← forEach (recordSignal env source) signals
      let advanced ← advanceSignals env source
      return created.reduceOption ++ advanced.flatten

end

end TradingAgent.Swing
