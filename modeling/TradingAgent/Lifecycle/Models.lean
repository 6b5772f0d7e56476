import TradingAgent.Library.SortedSet
import TradingAgent.UsDay.Admission

/-!
# Strategies and their lifecycles

What the experiment ledger stores of a strategy, with what each record validates about itself: the
hypothesis (`HypothesisRegistration`), the version of the strategy (`StrategyVersionRegistration`),
the authority that the version is bound to (`StrategyAuthorityBinding`), and the events of its
lifecycle (`StrategyLifecycleEvent`), which go from state to state by a closed table
(`lifecycleTransitionAllowed`).

* The key of a record is the digest of its JSON text (`payload`), where a list is written with its
  length.
* Python compares aware times by their instants: two records are equal if they are so at these
  (`normal`).
-/

namespace TradingAgent.Lifecycle

open Swing (AgentFamily StrategyLaneRef isIdentifier isFeatureName)
open UsDay (LaneId)

/-! ## Names -/

def laneValue : LaneId → String
  | .intradayMomentum => "intraday_momentum"
  | .swingMomentum => "swing_momentum"
  | .marketRegime => "market_regime"

def marketValue : Swing.MarketId → String
  | .usEquities => "us_equities"
  | .krEquities => "kr_equities"

def familyValue : AgentFamily → String
  | .opportunityManager => "opportunity_manager"
  | .dayTrading => "day_trading"
  | .swingTrading => "swing_trading"
  | .systematicQuant => "systematic_quant"
  | .derivativesResearch => "derivatives_research"
  | .marketContext => "market_context"
  | .allocationManager => "allocation_manager"

inductive AgentOperatingMode
  | contractOnly
  | shadow
  | alpacaPaper
  deriving DecidableEq, Repr

def AgentOperatingMode.value : AgentOperatingMode → String
  | contractOnly => "contract_only"
  | shadow => "shadow"
  | alpacaPaper => "alpaca_paper"

def validLane (lane : StrategyLaneRef) : Bool := isFeatureName lane.strategyId

def canonicalId (lane : StrategyLaneRef) : String :=
  marketValue lane.marketId ++ "/" ++ familyValue lane.agentFamily ++ "/" ++ lane.strategyId

inductive StrategyLifecycleState
  | idea
  | historical
  | experimentalShadow
  | experimentalPaper
  | challenger
  | shadowChampion
  | paperChampion
  | suspended
  | rejected
  deriving DecidableEq, Repr

def StrategyLifecycleState.value : StrategyLifecycleState → String
  | idea => "idea"
  | historical => "historical"
  | experimentalShadow => "experimental_shadow"
  | experimentalPaper => "experimental_paper"
  | challenger => "challenger"
  | shadowChampion => "shadow_champion"
  | paperChampion => "paper_champion"
  | suspended => "suspended"
  | rejected => "rejected"

inductive StrategyLifecycleEventKind
  | registration
  | transition
  deriving DecidableEq, Repr

def StrategyLifecycleEventKind.value : StrategyLifecycleEventKind → String
  | registration => "registration"
  | transition => "transition"

/-- The states that a state may be followed by. -/
def StrategyLifecycleState.allowed : StrategyLifecycleState → List StrategyLifecycleState
  | idea => [historical, rejected]
  | historical => [experimentalShadow, rejected]
  | experimentalShadow => [experimentalPaper, challenger, suspended, rejected]
  | experimentalPaper => [challenger, suspended, rejected]
  | challenger => [shadowChampion, paperChampion, suspended, rejected]
  | shadowChampion => [suspended]
  | paperChampion => [suspended]
  | suspended => [experimentalShadow, experimentalPaper, challenger, shadowChampion, paperChampion,
      rejected]
  | rejected => []

def lifecycleTransitionAllowed (fromState toState : StrategyLifecycleState) : Bool :=
  toState ∈ fromState.allowed

def lifecycleStateRank : StrategyLifecycleState → ℕ
  | .idea => 0
  | .historical => 1
  | .experimentalShadow => 2
  | .experimentalPaper => 3
  | .challenger => 4
  | .shadowChampion => 5
  | .paperChampion => 5
  | .suspended => 6
  | .rejected => 7

/-! ## Texts -/

/-- A text that is not empty, and has no blanks around it: `_canonical_text`. -/
def canonicalText (value : String) : Bool := value ≠ "" ∧ isStripped value

/-- The terms of a contract, in the order in which they were written. -/
def orderedContract (values : List String) : Bool :=
  values ≠ [] ∧ values.Nodup ∧ values.all canonicalText

def canonicalSet (values : List String) (required : Bool) : Bool :=
  (values ≠ [] ∨ ¬ required) ∧ values = sortedSet values ∧ values.all isIdentifier

def canonicalHashes (values : List String) (required : Bool) : Bool :=
  (values ≠ [] ∨ ¬ required) ∧ values = sortedSet values ∧ values.all isHex64

/-- A list, written with its length. -/
def texts (values : List String) : List JsonAtom := .int values.length :: values.map .str

/-- The time, at the clocks of UTC: equal exactly for the times that Python takes as equal. -/
def atInstant (t : DateTime) : DateTime := .utc t.instant

/-! ## Hypotheses -/

inductive ExperimentScopeKind
  | singleLane
  | crossLaneHypothesis
  deriving DecidableEq, Repr

def ExperimentScopeKind.value : ExperimentScopeKind → String
  | singleLane => "single_lane"
  | crossLaneHypothesis => "cross_lane_hypothesis"

structure ExperimentScope where
  scopeKind : ExperimentScopeKind
  hypothesisId : String
  primaryLane : LaneId
  lanes : List LaneId
  sourceHypothesisIds : List String := []
  combinationRule : Option String := none
  registeredAt : DateTime
  deriving DecidableEq, Repr

namespace ExperimentScope

def payload (scope : ExperimentScope) : List JsonAtom :=
  ([.ofOption .str scope.combinationRule, .str scope.hypothesisId] : List JsonAtom) ++
    texts (scope.lanes.map laneValue) ++
    ([.str (laneValue scope.primaryLane), .time scope.registeredAt,
      .str scope.scopeKind.value] : List JsonAtom) ++
    texts scope.sourceHypothesisIds

def normal (scope : ExperimentScope) : ExperimentScope :=
  { scope with registeredAt := atInstant scope.registeredAt }

/-- What a scope of each kind may combine. -/
def kindIsValid (scope : ExperimentScope) : Bool :=
  match scope.scopeKind with
  | .singleLane =>
    scope.lanes = [scope.primaryLane] ∧ scope.sourceHypothesisIds = [] ∧
      scope.combinationRule = none
  | .crossLaneHypothesis =>
    2 ≤ scope.lanes.length ∧ 2 ≤ scope.sourceHypothesisIds.length ∧
      scope.hypothesisId ∉ scope.sourceHypothesisIds ∧ scope.combinationRule.any canonicalText

def validateScope (scope : ExperimentScope) : Bool :=
  scope.registeredAt.aware ∧ isIdentifier scope.hypothesisId ∧
    (scope.sourceHypothesisIds.all isIdentifier) ∧
    scope.lanes.map laneValue = sortedSet (scope.lanes.map laneValue) ∧
    scope.sourceHypothesisIds = sortedSet scope.sourceHypothesisIds ∧
    scope.primaryLane ∈ scope.lanes ∧ scope.kindIsValid

end ExperimentScope

def experimentScopeKey (sha : Sha256) (scope : ExperimentScope) : String :=
  sha.hexdigest scope.payload

structure HypothesisRegistration where
  hypothesisId : String
  experimentScope : ExperimentScope
  experimentScopeKey : String
  primaryLane : LaneId
  hypothesis : String
  falsificationRule : String
  sourceRegisteredAt : DateTime
  ledgerRecordedAt : DateTime
  deriving DecidableEq, Repr

namespace HypothesisRegistration

def payload (registration : HypothesisRegistration) : List JsonAtom :=
  registration.experimentScope.payload ++
    ([.str registration.experimentScopeKey, .str registration.falsificationRule,
      .str registration.hypothesis, .str registration.hypothesisId,
      .time registration.ledgerRecordedAt, .str (laneValue registration.primaryLane),
      .time registration.sourceRegisteredAt] : List JsonAtom)

def normal (registration : HypothesisRegistration) : HypothesisRegistration :=
  { registration with
    experimentScope := registration.experimentScope.normal
    sourceRegisteredAt := atInstant registration.sourceRegisteredAt
    ledgerRecordedAt := atInstant registration.ledgerRecordedAt }

def validateRegistration (sha : Sha256) (registration : HypothesisRegistration) : Bool :=
  registration.experimentScope.validateScope ∧ isIdentifier registration.hypothesisId ∧
    registration.hypothesisId = registration.experimentScope.hypothesisId ∧
    registration.experimentScopeKey = Lifecycle.experimentScopeKey sha registration.experimentScope ∧
    registration.primaryLane = registration.experimentScope.primaryLane ∧
    canonicalText registration.hypothesis ∧ canonicalText registration.falsificationRule ∧
    registration.sourceRegisteredAt.aware ∧ registration.ledgerRecordedAt.aware ∧
    registration.sourceRegisteredAt.instant = registration.experimentScope.registeredAt.instant ∧
    registration.sourceRegisteredAt ≤ registration.ledgerRecordedAt

end HypothesisRegistration

def hypothesisRegistrationKey (sha : Sha256) (registration : HypothesisRegistration) : String :=
  sha.hexdigest registration.payload

/-! ## Versions -/

structure StrategyVersionRegistration where
  strategyId : String
  strategyVersion : String
  hypothesisId : String
  experimentScopeKey : String
  laneId : LaneId
  codeVersion : String
  parameterSet : List String
  dataContract : List String
  costModel : List String
  portfolioPolicy : List String
  sourceRegisteredAt : DateTime
  ledgerRecordedAt : DateTime
  deriving DecidableEq, Repr

namespace StrategyVersionRegistration

def payload (registration : StrategyVersionRegistration) : List JsonAtom :=
  JsonAtom.str registration.codeVersion :: texts registration.costModel ++
    texts registration.dataContract ++
    ([.str registration.experimentScopeKey, .str registration.hypothesisId,
      .str (laneValue registration.laneId), .time registration.ledgerRecordedAt] : List JsonAtom) ++
    texts registration.parameterSet ++ texts registration.portfolioPolicy ++
    ([.time registration.sourceRegisteredAt, .str registration.strategyId,
      .str registration.strategyVersion] : List JsonAtom)

def normal (registration : StrategyVersionRegistration) : StrategyVersionRegistration :=
  { registration with
    sourceRegisteredAt := atInstant registration.sourceRegisteredAt
    ledgerRecordedAt := atInstant registration.ledgerRecordedAt }

def validateRegistration (registration : StrategyVersionRegistration) : Bool :=
  isIdentifier registration.strategyId ∧ isIdentifier registration.strategyVersion ∧
    isIdentifier registration.hypothesisId ∧ isIdentifier registration.codeVersion ∧
    isHex64 registration.experimentScopeKey ∧ orderedContract registration.parameterSet ∧
    orderedContract registration.dataContract ∧ orderedContract registration.costModel ∧
    orderedContract registration.portfolioPolicy ∧ registration.sourceRegisteredAt.aware ∧
    registration.ledgerRecordedAt.aware ∧
    registration.sourceRegisteredAt ≤ registration.ledgerRecordedAt

end StrategyVersionRegistration

def strategyVersionRegistrationKey (sha : Sha256) (registration : StrategyVersionRegistration) :
    String :=
  sha.hexdigest registration.payload

/-! ## Authorities -/

structure StrategyAuthorityBinding where
  strategyVersion : String
  strategyLane : StrategyLaneRef
  operatingMode : AgentOperatingMode
  legacyLaneId : LaneId
  boundAt : DateTime
  deriving DecidableEq, Repr

/-- The lane that strategies of a market and a family were executed in:
    `LegacyExecutionLaneBinding`. -/
def legacyExecutionLane : Swing.MarketId → AgentFamily → Option LaneId
  | .usEquities, .dayTrading => some .intradayMomentum
  | .usEquities, .swingTrading => some .swingMomentum
  | .usEquities, .marketContext => some .marketRegime
  | _, _ => none

def paperAuthorized (lane : StrategyLaneRef) : Bool :=
  lane.marketId = .usEquities ∧ (lane.agentFamily = .dayTrading ∨ lane.agentFamily = .swingTrading)

/-- The modes that the strategies of a lane may operate in: `_operating_mode_allowed`. -/
def operatingModeAllowed (lane : StrategyLaneRef) : AgentOperatingMode → Bool
  | .contractOnly | .shadow => true
  | .alpacaPaper => paperAuthorized lane

namespace StrategyAuthorityBinding

def payload (binding : StrategyAuthorityBinding) : List JsonAtom :=
  [.time binding.boundAt, .str (laneValue binding.legacyLaneId), .str binding.operatingMode.value,
    .str (familyValue binding.strategyLane.agentFamily),
    .str (marketValue binding.strategyLane.marketId), .str binding.strategyLane.strategyId,
    .str binding.strategyVersion]

def normal (binding : StrategyAuthorityBinding) : StrategyAuthorityBinding :=
  { binding with boundAt := atInstant binding.boundAt }

def validateBinding (binding : StrategyAuthorityBinding) : Bool :=
  validLane binding.strategyLane ∧ isIdentifier binding.strategyVersion ∧ binding.boundAt.aware ∧
    legacyExecutionLane binding.strategyLane.marketId binding.strategyLane.agentFamily =
      some binding.legacyLaneId ∧
    operatingModeAllowed binding.strategyLane binding.operatingMode

end StrategyAuthorityBinding

def strategyAuthorityBindingKey (sha : Sha256) (binding : StrategyAuthorityBinding) : String :=
  sha.hexdigest binding.payload

/-! ## Events -/

structure StrategyLifecycleEvent where
  strategyVersion : String
  sequence : ℤ
  eventKind : StrategyLifecycleEventKind
  fromState : Option StrategyLifecycleState
  toState : StrategyLifecycleState
  policyVersion : String
  decisionSessionDate : Date
  effectiveSessionDate : Date
  decidedAt : DateTime
  evidenceKeys : List String
  reasonCodes : List String
  previousEventKey : Option String
  deriving DecidableEq, Repr

/-- The states that the lifecycle of a version may start with. -/
def allowedInitial : List StrategyLifecycleState :=
  [.idea, .historical, .experimentalShadow, .experimentalPaper]

namespace StrategyLifecycleEvent

def payload (event : StrategyLifecycleEvent) : List JsonAtom :=
  ([.time event.decidedAt, .int event.decisionSessionDate, .int event.effectiveSessionDate,
    .str event.eventKind.value] : List JsonAtom) ++ texts event.evidenceKeys ++
    ([.ofOption (.str ·.value) event.fromState, .str event.policyVersion,
      .ofOption .str event.previousEventKey] : List JsonAtom) ++ texts event.reasonCodes ++
    ([.int event.sequence, .str event.strategyVersion, .str event.toState.value] : List JsonAtom)

def normal (event : StrategyLifecycleEvent) : StrategyLifecycleEvent :=
  { event with decidedAt := atInstant event.decidedAt }

def validateRegistration (event : StrategyLifecycleEvent) : Bool :=
  event.sequence = 1 ∧ event.fromState = none ∧ event.previousEventKey = none ∧
    event.toState ∈ allowedInitial ∧
    if event.toState = .idea then "new_strategy_registration" ∈ event.reasonCodes
    else "existing_contract_import" ∈ event.reasonCodes ∧ 3 ≤ event.evidenceKeys.length

def validateTransition (event : StrategyLifecycleEvent) : Bool :=
  2 ≤ event.sequence ∧ event.previousEventKey.any isHex64 ∧
    event.fromState.any (lifecycleTransitionAllowed · event.toState)

def kindIsValid (event : StrategyLifecycleEvent) : Bool :=
  match event.eventKind with
  | .registration => event.validateRegistration
  | .transition => event.validateTransition

def validateEvent (newYork : ZoneInfo) (event : StrategyLifecycleEvent) : Bool :=
  isIdentifier event.strategyVersion ∧ isIdentifier event.policyVersion ∧ 1 ≤ event.sequence ∧
    event.decidedAt.aware ∧
    (event.decidedAt.astimezone newYork).date = event.decisionSessionDate ∧
    event.decisionSessionDate < event.effectiveSessionDate ∧
    (regularSessionBounds event.effectiveSessionDate).isSome ∧
    canonicalHashes event.evidenceKeys true ∧ canonicalSet event.reasonCodes true ∧ event.kindIsValid

end StrategyLifecycleEvent

def strategyLifecycleEventKey (sha : Sha256) (event : StrategyLifecycleEvent) : String :=
  sha.hexdigest event.payload

end TradingAgent.Lifecycle
