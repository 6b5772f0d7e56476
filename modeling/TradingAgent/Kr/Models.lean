import Mathlib.Data.String.Basic
import TradingAgent.Library.SortedSet
import TradingAgent.Library.Text

/-!
# Recommendations and minute bars of the Korean market

The recommendations of the autonomous research of the Korean market (`KrTradeRecommendation`), and
the completed minute bars that a recommendation is followed through (`KrCompletedMinuteBar`), with
what each record validates about itself.

* The clocks of Seoul are nine hours ahead of UTC (`KST`).
* The identities of a recommendation, and of the proposal and the verdict in it, are digests of
  what they are made of.
-/

namespace TradingAgent.Kr

/-- The time zone `Asia/Seoul`. -/
def KST : ZoneInfo := ⟨fun _ => TimeDelta.hours 9⟩

/-! ## Prices -/

/-- The price steps of the exchange, for a positive price. -/
def krEquityTickSize (price : Decimal) : Option Decimal :=
  if ¬ price.isFinite ∨ price ≤ 0 then none
  else if price < 2000 then some 1
  else if price < 5000 then some 5
  else if price < 20000 then some 10
  else if price < 50000 then some 50
  else if price < 200000 then some 100
  else if price < 500000 then some 500
  else some 1000

def isValidKrEquityPrice (price : Decimal) : Bool :=
  (krEquityTickSize price).any fun tick => price % tick = 0

/-! ## Minute bars -/

/-- The pattern `[0-9A-Z]{6}`. -/
def isKrInstrumentSymbolV2 (s : String) : Bool :=
  s.toList.length = 6 ∧ s.toList.all fun c => c.isDigit || c.isUpper

structure EvidenceRef where
  nameSpace : String
  recordId : String
  observedAt : DateTime
  deriving DecidableEq, Repr

/-- The pattern `[a-z0-9][a-z0-9_/.-]{0,127}`. -/
def isNamespace (s : String) : Bool :=
  match s.toList with
  | [] => false
  | c :: cs => (c.isLower || c.isDigit) ∧ cs.length ≤ 127 ∧
      cs.all fun c => c.isLower || c.isDigit || c = '_' || c = '.' || c = '/' || c = '-'

/-- Whether a text has a character twice in a row. -/
def hasDouble (c : Char) (s : String) : Bool :=
  (s.toList.zip s.toList.tail).any fun pair => pair.1 = c && pair.2 = c

def canonicalText (s : String) (maxLength : ℕ) : Bool :=
  s ≠ "" ∧ isStripped s ∧ s.toList.length ≤ maxLength ∧
    s.toList.all fun c => c ≠ '\r' ∧ c ≠ '\n' ∧ c ≠ '\t'

def validateEvidence (evidence : EvidenceRef) : Bool :=
  isNamespace evidence.nameSpace ∧ ¬ hasDouble '.' evidence.nameSpace ∧
    ¬ hasDouble '/' evidence.nameSpace ∧ canonicalText evidence.recordId 512 ∧
    evidence.observedAt.aware

def EvidenceRef.canonicalId (evidence : EvidenceRef) : String :=
  evidence.nameSpace ++ ":" ++ evidence.recordId

structure KrCompletedMinuteBar where
  symbol : String
  startAt : DateTime
  endAt : DateTime
  observedAt : DateTime
  open_ : Decimal
  high : Decimal
  low : Decimal
  close : Decimal
  volume : ℤ
  tradingValueKrw : Decimal
  evidenceRef : EvidenceRef
  deriving DecidableEq, Repr

private def positive (value : Decimal) : Bool := value.isFinite ∧ 0 < value

/-- The average price at which the volume of a bar was traded. -/
def KrCompletedMinuteBar.averagePrice (bar : KrCompletedMinuteBar) : Decimal :=
  if 0 < bar.volume then (bar.tradingValueKrw / (bar.volume : Decimal)).rounded else 0

def validateBar (bar : KrCompletedMinuteBar) : Bool :=
  let localStart := bar.startAt.astimezone KST
  let localEnd := bar.endAt.astimezone KST
  isKrInstrumentSymbolV2 bar.symbol ∧
    (bar.startAt.aware ∧ bar.endAt.aware ∧ bar.observedAt.aware) ∧
    bar.endAt - bar.startAt = TimeDelta.minutes 1 ∧ bar.endAt ≤ bar.observedAt ∧
    localStart.timeOfDay % TimeDelta.minutes 1 = 0 ∧ localStart.date = localEnd.date ∧
    TimeDelta.hours 9 ≤ localStart.timeOfDay ∧
    localEnd.timeOfDay ≤ TimeDelta.hours 15 + TimeDelta.minutes 30 ∧
    ([bar.open_, bar.high, bar.low, bar.close].all positive) ∧
    ¬ Decimal.min bar.open_ bar.close < bar.low ∧ ¬ bar.high < Decimal.max bar.open_ bar.close ∧
    0 < bar.volume ∧ positive bar.tradingValueKrw ∧
    (bar.low ≤ bar.averagePrice ∧ bar.averagePrice ≤ bar.high) ∧
    validateEvidence bar.evidenceRef ∧
    bar.evidenceRef.observedAt.instant = bar.observedAt.instant

/-! ## Recommendations -/

inductive KrSocialVerificationState
  | unverifiedSocial
  | multiSourceCorroborated
  deriving DecidableEq, Repr

def KrSocialVerificationState.value : KrSocialVerificationState → String
  | unverifiedSocial => "unverified_social"
  | multiSourceCorroborated => "multi_source_corroborated"

inductive KrAutonomousCriticStatus
  | approved
  | moreResearch
  | rejected
  deriving DecidableEq, Repr

def KrAutonomousCriticStatus.value : KrAutonomousCriticStatus → String
  | approved => "APPROVED"
  | moreResearch => "MORE_RESEARCH"
  | rejected => "REJECTED"

inductive KrCriticReason
  | approved
  | taskLineage
  | socialLineage
  | marketLineage
  | evidenceLineage
  | noncausalPublication
  | clusterCount
  | currentMarket
  | invalidLevels
  | duplicateExposure
  | contradictoryEvidence
  deriving DecidableEq, Repr

def KrCriticReason.value : KrCriticReason → String
  | approved => "approved"
  | taskLineage => "task_lineage"
  | socialLineage => "social_lineage"
  | marketLineage => "market_lineage"
  | evidenceLineage => "evidence_lineage"
  | noncausalPublication => "noncausal_publication"
  | clusterCount => "cluster_count"
  | currentMarket => "current_market"
  | invalidLevels => "invalid_levels"
  | duplicateExposure => "duplicate_exposure"
  | contradictoryEvidence => "contradictory_evidence"

structure KrAutonomousCriticVerdict where
  verdictId : String
  proposalId : Option String := none
  thesisId : String
  status : KrAutonomousCriticStatus
  reasonCodes : List KrCriticReason
  deriving DecidableEq, Repr

structure KrTradeRecommendation where
  eventId : String
  planId : String
  previousEventId : Option String := none
  timestamp : DateTime
  taskId : String
  thesisId : String
  proposalId : String
  socialSignalId : String
  marketCorroborationId : String
  evidenceRefs : List String
  symbol : String
  theme : String
  entry : Decimal
  stop : Decimal
  targets : Decimal × Decimal
  quantity : ℤ
  rationale : String
  counterevidence : List String
  verificationState : KrSocialVerificationState
  criticVerdictId : String
  criticVerdict : KrAutonomousCriticVerdict
  validUntil : DateTime
  deriving DecidableEq, Repr

/-- A tuple of texts in a JSON text. -/
def texts (values : List String) : List JsonAtom :=
  .int values.length :: values.map .str

/-- The JSON text of a verdict, without its identity. -/
def KrAutonomousCriticVerdict.material (verdict : KrAutonomousCriticVerdict) : List JsonAtom :=
  .ofOption .str verdict.proposalId :: texts (verdict.reasonCodes.map KrCriticReason.value) ++
    [.str verdict.status.value, .str verdict.thesisId]

namespace KrTradeRecommendation

/-- The JSON text of the proposal of a recommendation, without its identity. -/
def proposalMaterial (r : KrTradeRecommendation) : List JsonAtom :=
  texts r.counterevidence ++
    [.decimal r.entry, .int r.quantity, .str r.rationale, .decimal r.stop, .decimal r.targets.1,
      .decimal r.targets.2, .time r.timestamp, .time r.validUntil, .str r.verificationState.value]

/-- The JSON text of a recommendation, without its identity. -/
def material (r : KrTradeRecommendation) : List JsonAtom :=
  texts r.counterevidence ++ r.criticVerdict.material ++
    [.str r.criticVerdict.verdictId, .str r.criticVerdictId, .decimal r.entry] ++
    texts r.evidenceRefs ++
    [.str r.marketCorroborationId, .str "RECOMMEND", .str r.planId,
      .ofOption .str r.previousEventId, .str r.proposalId, .int r.quantity, .str r.rationale,
      .str r.socialSignalId, .decimal r.stop, .str r.symbol, .decimal r.targets.1,
      .decimal r.targets.2, .str r.taskId, .str r.theme, .str r.thesisId, .time r.timestamp,
      .bool false, .time r.validUntil, .str r.verificationState.value, .bool true]

end KrTradeRecommendation

/-- Whether the reasons of a verdict are those of its status. -/
def reasonsAreValid (verdict : KrAutonomousCriticVerdict) : Bool :=
  match verdict.status with
  | .approved => verdict.reasonCodes = [.approved]
  | .moreResearch | .rejected => .approved ∉ verdict.reasonCodes

def validateVerdict (sha : Sha256) (verdict : KrAutonomousCriticVerdict) : Bool :=
  isHex64 verdict.verdictId ∧ verdict.proposalId.all isHex64 ∧ isHex64 verdict.thesisId ∧
    verdict.reasonCodes ≠ [] ∧ reasonsAreValid verdict ∧ verdict.verdictId = sha.hexdigest verdict.material

/-- Whether the levels of a position are in order. -/
def levelsAreOrdered (stop entry : Decimal) (targets : Decimal × Decimal) : Bool :=
  stop < entry ∧ entry < targets.1 ∧ targets.1 < targets.2

/-- The validation of a `KrTradeRecommendation`. -/
def validateRecommendation (sha : Sha256) (r : KrTradeRecommendation) : Bool :=
  ([r.eventId, r.planId, r.taskId, r.thesisId, r.proposalId, r.socialSignalId,
      r.marketCorroborationId, r.criticVerdictId].all isHex64) ∧
    r.previousEventId.all isHex64 ∧ r.timestamp.aware ∧ r.validUntil.aware ∧
    (1 ≤ r.evidenceRefs.length ∧ r.evidenceRefs.length ≤ 128) ∧ 0 < r.quantity ∧
    validateVerdict sha r.criticVerdict ∧
    ([r.entry, r.stop, r.targets.1, r.targets.2].all isValidKrEquityPrice) ∧
    levelsAreOrdered r.stop r.entry r.targets ∧
    r.evidenceRefs = sortedSet r.evidenceRefs ∧
    r.criticVerdictId = r.criticVerdict.verdictId ∧ r.criticVerdict.status = .approved ∧
    r.criticVerdict.thesisId = r.thesisId ∧ r.criticVerdict.proposalId = some r.proposalId ∧
    r.proposalId = sha.hexdigest r.proposalMaterial ∧ r.eventId = sha.hexdigest r.material

end TradingAgent.Kr
