import Mathlib.Algebra.Order.Field.Rat
import TradingAgent.Library.Except
import TradingAgent.Library.Window
import TradingAgent.Swing.Engine
import TradingAgent.Systematic.Models

/-!
# The regime engine

The replay of the sessions of a source (`replaySystematicRegime`), and the card of its last session
(`buildSystematicCard`). Both decide by the closes up to a session (`decision`): the regime, by the
means of the last 200 and 50 sessions and the change in 20, and the two candidates with the greatest
change in 60.

The prices are those of valid bars, as rational numbers, and the arithmetic is exact. An index that
is negative, which Python counts from the end, is an error here, as is one past the end
(`SystematicError.index`).
-/

namespace TradingAgent.Systematic

open Except
open Kr (EvidenceRef)
open Swing (SwingDailyBar SwingDailySource SwingEnvironment TradeSignalEnvelope)

/-- What the calls raise: an `InvalidSystematicRegimeSourceError`, the error of a record that is not
    valid, or those of an index and of a division. -/
inductive SystematicError
  | invalidSource
  | invalidModel
  | index
  | zeroDivision
  deriving DecidableEq, Repr

/-- What the program takes from its environment: that of the swing engine, the offset of a time that
    the clocks of New York show, the text of a day by `%Y%m%d`, and the digest. -/
structure SystematicEnvironment extends SwingEnvironment where
  newYorkOffset : ℤ → TimeDelta
  dateText : Date → String
  sha : Sha256

def SYSTEMATIC_REGIME_UNIVERSE : List String := ["GLD", "IEF", "IWM", "QQQ", "SHY", "SPY"]
def SYSTEMATIC_REGIME_LANE : Swing.StrategyLaneRef :=
  ⟨.usEquities, .systematicQuant, "regime_rotation"⟩
def MARKET_CONTEXT_VERSION : String := "us-regime-breadth-200d-50d-v1"
def RISK_ON : List String := ["IWM", "QQQ", "SPY"]
def RISK_OFF : List String := ["GLD", "IEF", "SHY"]

/-- The bars of each symbol. -/
abbrev Histories := String → List SwingDailyBar

def found {α : Type} : Option α → Except SystematicError α
  | some a => .ok a
  | none => .error .index

def divide (a b : ℚ) : Except SystematicError ℚ :=
  if b = 0 then .error .zeroDivision else .ok (a / b)

/-! ## Decisions -/

structure Decision where
  regime : RegimeLabel
  breadth : ℕ
  spyAboveMean : Bool
  spyMomentumPositive : Bool
  candidateSymbols : List String
  deriving DecidableEq, Repr

def closeAt (bars : List SwingDailyBar) (index : ℤ) : Except SystematicError ℚ := do
  let bar ← found (getAt bars index)
  return bar.close.toRat

def meanClose (bars : List SwingDailyBar) : Except SystematicError ℚ :=
  divide (bars.map (·.close.toRat)).sum bars.length

/-- Whether a close is above the mean of those from another one on. -/
def isAboveMean (bars : List SwingDailyBar) (start index : ℤ) : Except SystematicError Bool := do
  let close ← closeAt bars index
  let mean ← meanClose (← found (window bars start (index + 1)))
  return decide (mean < close)

def isMomentumPositive (bars : List SwingDailyBar) (start index : ℤ) :
    Except SystematicError Bool := do
  let close ← closeAt bars index
  let previous ← closeAt bars start
  return decide (previous < close)

/-- What the symbols are ranked by: the change of the close, and the symbol. -/
def rankKey (histories : Histories) (index : ℤ) (symbol : String) :
    Except SystematicError (Lex (ℚ × String)) := do
  let close ← closeAt (histories symbol) index
  let previous ← closeAt (histories symbol) (index - 60)
  let ratio ← divide close previous
  return toLex (ratio, symbol)

/-- The first two of the symbols with the greatest keys. -/
def bestTwo (keys : List (Lex (ℚ × String))) : List String :=
  ((keys.insertionSort (· ≥ ·)).map fun key => (ofLex key).2).take 2

def decision (histories : Histories) (index : ℤ) : Except SystematicError Decision := do
  let spy := histories "SPY"
  let spyAboveMean ← isAboveMean spy (index - 199) index
  let spyMomentumPositive ← isMomentumPositive spy (index - 20) index
  let above ← RISK_ON.mapM fun symbol => isAboveMean (histories symbol) (index - 49) index
  let breadth := above.count true
  if spyAboveMean ∧ spyMomentumPositive ∧ 2 ≤ breadth then
    let keys ← RISK_ON.mapM (rankKey histories index)
    return ⟨.riskOn, breadth, spyAboveMean, spyMomentumPositive, bestTwo keys⟩
  else if ¬ spyAboveMean ∧ ¬ spyMomentumPositive ∧ breadth ≤ 1 then
    let keys ← RISK_OFF.mapM (rankKey histories index)
    return ⟨.riskOff, breadth, spyAboveMean, spyMomentumPositive, bestTwo keys⟩
  else
    return ⟨.mixed, breadth, spyAboveMean, spyMomentumPositive, []⟩

/-! ## Replays -/

/-- The return of a bar from its open to its close, in basis points. -/
def barReturn (bars : List SwingDailyBar) (index : ℤ) : Except SystematicError ℚ := do
  let bar ← found (getAt bars index)
  let ratio ← divide bar.close.toRat bar.open_.toRat
  return (ratio - 1) * 10000

/-- The mean of the returns, after the costs. -/
def netReturn (returns : List ℚ) : Except SystematicError (Option ℚ) :=
  if returns = [] then .ok none
  else do
    let mean ← divide returns.sum returns.length
    return some (mean - ROUND_TRIP_COST_BPS)

def replayObservation (sessions : List Date) (histories : Histories) (index : ℤ) :
    Except SystematicError SystematicReplayObservation := do
  let decision ← decision histories index
  let returns ← decision.candidateSymbols.mapM fun symbol =>
    barReturn (histories symbol) (index + 1)
  let netReturnBps ← netReturn returns
  let decisionSession ← found (getAt sessions index)
  let targetSession ← found (getAt sessions (index + 1))
  let observation : SystematicReplayObservation := {
    decisionSession
    targetSession
    regime := decision.regime
    candidateSymbols := decision.candidateSymbols.insertionSort (· ≤ ·)
    netReturnBps }
  raiseIf (observation.validateObservation = false) .invalidModel
  return observation

section

variable (env : SystematicEnvironment)

/-- The first session from a day on, among at most `n` days, and when it closes. -/
def nextSessionFrom : ℕ → Date → Except SystematicError (Date × DateTime)
  | 0, _ => .error .invalidSource
  | n + 1, current =>
    match regularSessionBounds current with
    | some bounds => .ok (current, ⟨bounds.closes, some (env.newYorkOffset bounds.closes)⟩)
    | none => nextSessionFrom n (current + 1)

def nextSession (sessionDate : Date) : Except SystematicError (Date × DateTime) :=
  nextSessionFrom env 14 (sessionDate + 1)

/-- Whether a day is the next session after another one. -/
def follows (current following : Date) : Bool :=
  match nextSession env current with
  | .ok (day, _) => day = following
  | .error _ => false

/-- The sessions of a source that is checked. -/
def checkedSource (source : SwingDailySource) : Except SystematicError (List Date) := do
  raiseIf (source.validateSource env.newYork = false) .invalidSource
  let sessions := (source.barsFor "SPY").map (·.sessionDate)
  raiseIf (source.symbols ≠ SYSTEMATIC_REGIME_UNIVERSE ∨
    sessions.length < 201 ∨
    (source.symbols.any fun symbol => (source.barsFor symbol).map (·.sessionDate) ≠ sessions) ∨
    ((sessions.zip sessions.tail).any fun (current, following) =>
      ¬ follows env current following) ∨
    sessions.getLast? ≠ some source.sessionDate) .invalidSource
  return sessions

def replaySystematicRegime (source : SwingDailySource) :
    Except SystematicError SystematicReplayResult := do
  let sessions ← checkedSource env source
  let observations ← (List.range' 199 (sessions.length - 1 - 199)).mapM fun (index : ℕ) =>
    replayObservation sessions source.barsFor index
  let replay : SystematicReplayResult := {
    sourceKey := env.sourceKey source
    observedAt := source.observedAt
    roundTripCostBps := ROUND_TRIP_COST_BPS
    observations }
  raiseIf (replay.validateReplay = false) .invalidModel
  return replay

/-! ## Cards -/

/-- The first 16 digits of a digest. -/
def shortDigest (material : List JsonAtom) : String :=
  String.ofList ((env.sha.hexdigest material).toList.take 16)

def context (source : SwingDailySource) (decision : Decision) (validUntil : DateTime) :
    Except SystematicError SystematicMarketContext := do
  let digest := shortDigest env
    [.str MARKET_CONTEXT_VERSION, .int source.sessionDate, .str (env.sourceKey source)]
  let context : SystematicMarketContext := {
    contextId := "us-market-context-" ++ env.dateText source.sessionDate ++ "-" ++ digest
    observedAt := source.observedAt
    validUntil
    regime := decision.regime
    equityBreadthCount := decision.breadth
    spyAbove200SessionMean := decision.spyAboveMean
    spy20SessionMomentumPositive := decision.spyMomentumPositive
    producerVersion := MARKET_CONTEXT_VERSION
    evidenceRef := ⟨"systematic/daily_source", env.sourceKey source, source.observedAt⟩ }
  raiseIf (context.validateContext = false) .invalidModel
  return context

def signal (source : SwingDailySource) (context : SystematicMarketContext)
    (strategyVersion symbol : String) (validUntil : DateTime) :
    Except SystematicError TradeSignalEnvelope := do
  let last ← found (source.barsFor symbol).getLast?
  let entry := last.close.toRat
  let evidence : List EvidenceRef := [context.evidenceRef,
    ⟨"systematic/market_context", context.contextId, source.observedAt⟩]
  let digest := shortDigest env [.str strategyVersion, .int source.sessionDate, .str symbol]
  let signal : TradeSignalEnvelope := {
    signalId := "systematic-regime-" ++ env.dateText source.sessionDate ++ "-" ++ symbol ++ "-" ++
      digest
    strategyLane := SYSTEMATIC_REGIME_LANE
    producerStrategyVersion := strategyVersion
    symbol
    observedAt := source.observedAt
    validUntil
    side := .long
    entryType := .limit
    entryPrice := .finite entry
    stopPrice := .finite (entry * (92 / 100))
    targets := [⟨"target_2r", .finite (entry * (116 / 100))⟩]
    actionability := .conditional
    invalidationRule :=
      "Invalidate at the target regular-session close or when the regime changes."
    rationale := "Completed daily trend, breadth, and sleeve momentum agree for next-session " ++
      "shadow evaluation."
    evidenceRefs := evidence.insertionSort fun a b => a.canonicalId ≤ b.canonicalId }
  raiseIf (signal.validateSignal = false) .invalidModel
  return signal

def buildSystematicCard (source : SwingDailySource) (replay : SystematicReplayResult)
    (strategyVersion : String) : Except SystematicError SystematicRecommendationCard := do
  let sessions ← checkedSource env source
  raiseIf (replay.sourceKey ≠ env.sourceKey source ∨
    replay.observedAt.instant ≠ source.observedAt.instant) .invalidSource
  let decision ← decision source.barsFor ((sessions.length : ℤ) - 1)
  let (nextSession, validUntil) ← nextSession env source.sessionDate
  let context ← context env source decision validUntil
  let signals ← decision.candidateSymbols.mapM fun symbol =>
    signal env source context strategyVersion symbol validUntil
  let digest := shortDigest env
    [.str strategyVersion, .int source.sessionDate, .str (env.sourceKey source)]
  let card : SystematicRecommendationCard := {
    cardId := "us-systematic-regime-" ++ env.dateText source.sessionDate ++ "-" ++ digest
    strategyVersion
    observedAt := source.observedAt
    targetSession := nextSession
    context
    decisionKind := if signals ≠ [] then .recommendation else .noRecommendation
    candidateSymbols := decision.candidateSymbols.insertionSort (· ≤ ·)
    signals := signals.insertionSort fun a b => a.symbol ≤ b.symbol
    replayId := replay.replayId env.sha }
  raiseIf (card.validateCard = false) .invalidModel
  return card

end

end TradingAgent.Systematic
