import TradingAgent.Swing.Models

/-!
# Replays and cards of the regime strategy

What the regime strategy returns: the replay of the sessions of a source
(`SystematicReplayResult`), with an observation for each session and the one after it, and the card
of its last session (`SystematicRecommendationCard`), with what each record validates about itself.

The returns of a replay are rational numbers: they are calculated from the prices of valid bars,
which are finite, with exact arithmetic.
-/

namespace TradingAgent.Systematic

open Kr (EvidenceRef validateEvidence)
open Swing (TradeSignalEnvelope)

inductive RegimeLabel
  | riskOn
  | riskOff
  | mixed
  deriving DecidableEq, Repr

def RegimeLabel.value : RegimeLabel → String
  | riskOn => "risk_on"
  | riskOff => "risk_off"
  | mixed => "mixed"

inductive SystematicDecisionKind
  | recommendation
  | noRecommendation
  deriving DecidableEq, Repr

def ROUND_TRIP_COST_BPS : ℚ := 40

/-! ## Contexts -/

structure SystematicMarketContext where
  contextId : String
  observedAt : DateTime
  validUntil : DateTime
  regime : RegimeLabel
  equityBreadthCount : ℕ
  spyAbove200SessionMean : Bool
  spy20SessionMomentumPositive : Bool
  producerVersion : String
  evidenceRef : EvidenceRef
  deriving DecidableEq, Repr

/-- The number of the equities that are counted: `equity_breadth_total`. -/
def EQUITY_BREADTH_TOTAL : ℕ := 3

def SystematicMarketContext.validateContext (context : SystematicMarketContext) : Bool :=
  "us-market-context-".toList <+: context.contextId.toList ∧ context.observedAt.aware ∧
    context.validUntil.aware ∧ context.observedAt < context.validUntil ∧
    context.equityBreadthCount ≤ EQUITY_BREADTH_TOTAL ∧ context.producerVersion ≠ "" ∧
    validateEvidence context.evidenceRef ∧
    context.evidenceRef.observedAt.instant = context.observedAt.instant

/-! ## Replays -/

structure SystematicReplayObservation where
  decisionSession : Date
  targetSession : Date
  regime : RegimeLabel
  candidateSymbols : List String
  netReturnBps : Option ℚ
  deriving DecidableEq, Repr

namespace SystematicReplayObservation

def isRecommendation (observation : SystematicReplayObservation) : Bool :=
  observation.regime ≠ .mixed

def validateObservation (observation : SystematicReplayObservation) : Bool :=
  observation.decisionSession < observation.targetSession ∧
    observation.isRecommendation = decide (observation.candidateSymbols.length = 2) ∧
    observation.isRecommendation = observation.netReturnBps.isSome ∧
    observation.candidateSymbols = sortedSet observation.candidateSymbols

end SystematicReplayObservation

structure SystematicReplayResult where
  sourceKey : String
  observedAt : DateTime
  roundTripCostBps : ℚ
  observations : List SystematicReplayObservation
  deriving DecidableEq, Repr

namespace SystematicReplayResult

def pairs (replay : SystematicReplayResult) : List (Lex (Date × Date)) :=
  replay.observations.map fun item => toLex (item.decisionSession, item.targetSession)

def validateReplay (replay : SystematicReplayResult) : Bool :=
  replay.sourceKey.toList.length = 64 ∧ replay.observedAt.aware ∧
    replay.roundTripCostBps = ROUND_TRIP_COST_BPS ∧ replay.observations ≠ [] ∧
    replay.pairs = sortedSet replay.pairs

/-- What the digest of a replay is made of. -/
def material (replay : SystematicReplayResult) : List JsonAtom :=
  [.str replay.sourceKey, .time replay.observedAt, .decimal (.finite replay.roundTripCostBps)] ++
    replay.observations.flatMap fun item =>
      [.int item.decisionSession, .int item.targetSession, .str item.regime.value,
        .int item.candidateSymbols.length] ++ item.candidateSymbols.map .str ++
        [JsonAtom.ofOption (fun bps => .decimal (.finite bps)) item.netReturnBps]

def replayId (sha : Sha256) (replay : SystematicReplayResult) : String :=
  sha.hexdigest replay.material

end SystematicReplayResult

/-! ## Cards -/

structure SystematicRecommendationCard where
  cardId : String
  strategyVersion : String
  observedAt : DateTime
  targetSession : Date
  context : SystematicMarketContext
  decisionKind : SystematicDecisionKind
  candidateSymbols : List String
  signals : List TradeSignalEnvelope
  replayId : String
  deriving DecidableEq, Repr

namespace SystematicRecommendationCard

def isRecommendation (card : SystematicRecommendationCard) : Bool :=
  card.decisionKind = .recommendation

/-- The validation of a `SystematicRecommendationCard`, whose context and signals are valid. -/
def validateCard (card : SystematicRecommendationCard) : Bool :=
  "us-systematic-regime-".toList <+: card.cardId.toList ∧ card.strategyVersion ≠ "" ∧
    card.observedAt.aware ∧ card.context.observedAt.instant = card.observedAt.instant ∧
    card.isRecommendation = decide (card.context.regime ≠ .mixed) ∧
    card.isRecommendation = decide (card.candidateSymbols.length = 2) ∧
    card.isRecommendation = decide (card.signals.length = 2) ∧
    (card.signals.map (·.symbol)).insertionSort (· ≤ ·) = card.candidateSymbols ∧
    card.replayId.toList.length = 64

end SystematicRecommendationCard

end TradingAgent.Systematic
