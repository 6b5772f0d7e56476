import TradingAgent.Lifecycle.Ledger

/-!
# The lifecycles of several markets

The tables of the experiment ledger for the strategies of all markets: their hypotheses, versions
and lifecycle events, with what each record validates about itself, and the calls that write and
read them.

* These lifecycles begin as shadow experiments. A version is one of the lanes of its hypothesis, but
  its lifecycle can only be read if that is the primary one (`versionParent`).
* The calls for the other tables of the ledger are made in between. A hypothesis or a version that
  is in them already is not registered here.
-/

namespace TradingAgent.Lifecycle

open Except Journal Transition
open Swing (AgentFamily StrategyLaneRef isIdentifier)

/-! ## Records -/

structure MultiMarketExperimentScope where
  scopeKind : ExperimentScopeKind
  hypothesisId : String
  primaryLane : StrategyLaneRef
  lanes : List StrategyLaneRef
  sourceHypothesisIds : List String := []
  combinationRule : Option String := none
  registeredAt : DateTime
  deriving DecidableEq, Repr

def lanePayload (lane : StrategyLaneRef) : List JsonAtom :=
  [.str (familyValue lane.agentFamily), .str (marketValue lane.marketId), .str lane.strategyId]

namespace MultiMarketExperimentScope

def payload (scope : MultiMarketExperimentScope) : List JsonAtom :=
  ([.ofOption .str scope.combinationRule, .str scope.hypothesisId,
    .int scope.lanes.length] : List JsonAtom) ++
    scope.lanes.flatMap lanePayload ++ lanePayload scope.primaryLane ++
    ([.time scope.registeredAt, .str scope.scopeKind.value] : List JsonAtom) ++
    texts scope.sourceHypothesisIds

def normal (scope : MultiMarketExperimentScope) : MultiMarketExperimentScope :=
  { scope with registeredAt := atInstant scope.registeredAt }

/-- What a scope of each kind may combine. -/
def kindIsValid (scope : MultiMarketExperimentScope) : Bool :=
  match scope.scopeKind with
  | .singleLane =>
    scope.lanes = [scope.primaryLane] ∧ scope.sourceHypothesisIds = [] ∧
      scope.combinationRule = none
  | .crossLaneHypothesis =>
    2 ≤ scope.lanes.length ∧ 2 ≤ scope.sourceHypothesisIds.length ∧
      scope.hypothesisId ∉ scope.sourceHypothesisIds ∧ scope.combinationRule.any canonicalText

def validateScope (scope : MultiMarketExperimentScope) : Bool :=
  validLane scope.primaryLane ∧ scope.lanes.all validLane ∧ isIdentifier scope.hypothesisId ∧
    scope.registeredAt.aware ∧
    scope.lanes.map canonicalId = sortedSet (scope.lanes.map canonicalId) ∧
    canonicalId scope.primaryLane ∈ scope.lanes.map canonicalId ∧
    (scope.lanes.all fun lane => lane.marketId = scope.primaryLane.marketId) ∧
    scope.sourceHypothesisIds = sortedSet scope.sourceHypothesisIds ∧
    scope.sourceHypothesisIds.all isIdentifier ∧ scope.kindIsValid

end MultiMarketExperimentScope

def multiMarketExperimentScopeKey (sha : Sha256) (scope : MultiMarketExperimentScope) : String :=
  sha.hexdigest scope.payload

structure MultiMarketHypothesisRegistration where
  hypothesisId : String
  experimentScope : MultiMarketExperimentScope
  experimentScopeKey : String
  hypothesis : String
  falsificationRule : String
  sourceRegisteredAt : DateTime
  ledgerRecordedAt : DateTime
  deriving DecidableEq, Repr

namespace MultiMarketHypothesisRegistration

def payload (registration : MultiMarketHypothesisRegistration) : List JsonAtom :=
  registration.experimentScope.payload ++
    ([.str registration.experimentScopeKey, .str registration.falsificationRule,
      .str registration.hypothesis, .str registration.hypothesisId,
      .time registration.ledgerRecordedAt, .time registration.sourceRegisteredAt] : List JsonAtom)

def normal (registration : MultiMarketHypothesisRegistration) : MultiMarketHypothesisRegistration :=
  { registration with
    experimentScope := registration.experimentScope.normal
    sourceRegisteredAt := atInstant registration.sourceRegisteredAt
    ledgerRecordedAt := atInstant registration.ledgerRecordedAt }

def validateRegistration (sha : Sha256) (registration : MultiMarketHypothesisRegistration) : Bool :=
  registration.experimentScope.validateScope ∧
    registration.hypothesisId = registration.experimentScope.hypothesisId ∧
    registration.experimentScopeKey =
      multiMarketExperimentScopeKey sha registration.experimentScope ∧
    canonicalText registration.hypothesis ∧ canonicalText registration.falsificationRule ∧
    registration.sourceRegisteredAt.aware ∧ registration.ledgerRecordedAt.aware ∧
    registration.sourceRegisteredAt.instant = registration.experimentScope.registeredAt.instant ∧
    registration.sourceRegisteredAt ≤ registration.ledgerRecordedAt

end MultiMarketHypothesisRegistration

def multiMarketHypothesisRegistrationKey (sha : Sha256)
    (registration : MultiMarketHypothesisRegistration) : String :=
  sha.hexdigest registration.payload

structure MultiMarketStrategyVersionRegistration where
  strategyVersion : String
  hypothesisId : String
  experimentScopeKey : String
  strategyLane : StrategyLaneRef
  operatingMode : AgentOperatingMode
  codeVersion : String
  parameterSet : List String
  dataContract : List String
  costModel : List String
  portfolioPolicy : List String
  sourceRegisteredAt : DateTime
  ledgerRecordedAt : DateTime
  deriving DecidableEq, Repr

namespace MultiMarketStrategyVersionRegistration

def payload (registration : MultiMarketStrategyVersionRegistration) : List JsonAtom :=
  JsonAtom.str registration.codeVersion :: texts registration.costModel ++
    texts registration.dataContract ++
    ([.str registration.experimentScopeKey, .str registration.hypothesisId,
      .time registration.ledgerRecordedAt,
      .str registration.operatingMode.value] : List JsonAtom) ++
    texts registration.parameterSet ++ texts registration.portfolioPolicy ++
    JsonAtom.time registration.sourceRegisteredAt :: lanePayload registration.strategyLane ++
    ([.str registration.strategyVersion] : List JsonAtom)

def normal (registration : MultiMarketStrategyVersionRegistration) :
    MultiMarketStrategyVersionRegistration :=
  { registration with
    sourceRegisteredAt := atInstant registration.sourceRegisteredAt
    ledgerRecordedAt := atInstant registration.ledgerRecordedAt }

def validateRegistration (registration : MultiMarketStrategyVersionRegistration) : Bool :=
  validLane registration.strategyLane ∧ isIdentifier registration.strategyVersion ∧
    isIdentifier registration.hypothesisId ∧ isIdentifier registration.codeVersion ∧
    isHex64 registration.experimentScopeKey ∧ orderedContract registration.parameterSet ∧
    orderedContract registration.dataContract ∧ orderedContract registration.costModel ∧
    orderedContract registration.portfolioPolicy ∧ registration.sourceRegisteredAt.aware ∧
    registration.ledgerRecordedAt.aware ∧
    registration.sourceRegisteredAt ≤ registration.ledgerRecordedAt ∧
    operatingModeAllowed registration.strategyLane registration.operatingMode

end MultiMarketStrategyVersionRegistration

def multiMarketStrategyVersionRegistrationKey (sha : Sha256)
    (registration : MultiMarketStrategyVersionRegistration) : String :=
  sha.hexdigest registration.payload

structure MultiMarketStrategyLifecycleEvent where
  strategyVersion : String
  strategyLane : StrategyLaneRef
  sequence : ℤ
  eventKind : StrategyLifecycleEventKind
  fromState : Option StrategyLifecycleState
  toState : StrategyLifecycleState
  policyVersion : String
  decisionSessionDate : Date
  effectiveSessionDate : Date
  decidedAt : DateTime
  sessionCalendarSnapshotId : String
  evidenceKeys : List String
  reasonCodes : List String
  previousEventKey : Option String
  deriving DecidableEq, Repr

/-- What the calls depend on, apart from the tables. -/
structure MultiMarketContext extends Context where
  seoul : ZoneInfo

def MultiMarketContext.marketZone (ctx : MultiMarketContext) : Swing.MarketId → ZoneInfo
  | .usEquities => ctx.newYork
  | .krEquities => ctx.seoul

/-- The day that the clocks of a market show. -/
def marketLocalDate (ctx : MultiMarketContext) (marketId : Swing.MarketId) (value : DateTime) : Date :=
  (value.astimezone (ctx.marketZone marketId)).date

namespace MultiMarketStrategyLifecycleEvent

def payload (event : MultiMarketStrategyLifecycleEvent) : List JsonAtom :=
  ([.time event.decidedAt, .int event.decisionSessionDate, .int event.effectiveSessionDate,
    .str event.eventKind.value] : List JsonAtom) ++ texts event.evidenceKeys ++
    ([.ofOption (.str ·.value) event.fromState, .str event.policyVersion,
      .ofOption .str event.previousEventKey] : List JsonAtom) ++ texts event.reasonCodes ++
    ([.int event.sequence, .str event.sessionCalendarSnapshotId] : List JsonAtom) ++
    lanePayload event.strategyLane ++
    ([.str event.strategyVersion, .str event.toState.value] : List JsonAtom)

def normal (event : MultiMarketStrategyLifecycleEvent) : MultiMarketStrategyLifecycleEvent :=
  { event with decidedAt := atInstant event.decidedAt }

def kindIsValid (event : MultiMarketStrategyLifecycleEvent) : Bool :=
  match event.eventKind with
  | .registration =>
    event.sequence = 1 ∧ event.fromState = none ∧ event.toState = .experimentalShadow ∧
      event.previousEventKey = none ∧ event.reasonCodes = ["multi_market_strategy_registered"]
  | .transition =>
    2 ≤ event.sequence ∧ event.previousEventKey.any isHex64 ∧
      event.fromState.any (lifecycleTransitionAllowed · event.toState)

def validateEvent (ctx : MultiMarketContext) (event : MultiMarketStrategyLifecycleEvent) : Bool :=
  validLane event.strategyLane ∧ isIdentifier event.strategyVersion ∧
    isIdentifier event.policyVersion ∧ 1 ≤ event.sequence ∧ event.decidedAt.aware ∧
    marketLocalDate ctx event.strategyLane.marketId event.decidedAt = event.decisionSessionDate ∧
    event.decisionSessionDate < event.effectiveSessionDate ∧
    isHex64 event.sessionCalendarSnapshotId ∧ canonicalHashes event.evidenceKeys true ∧
    canonicalSet event.reasonCodes true ∧ event.kindIsValid

end MultiMarketStrategyLifecycleEvent

def multiMarketLifecycleEventKey (sha : Sha256) (event : MultiMarketStrategyLifecycleEvent) :
    String :=
  sha.hexdigest event.payload

/-! ## Tables -/

/-- The rows of the tables, as those of `Ledger`. -/
structure MultiMarketLedger where
  legacy : Ledger := {}
  hypotheses : List MultiMarketHypothesisRegistration := []
  strategyVersions : List MultiMarketStrategyVersionRegistration := []
  lifecycleEvents : List MultiMarketStrategyLifecycleEvent := []
  deriving DecidableEq, Repr

/-- The families that the tables have room for. -/
def storableFamily : AgentFamily → Bool
  | .opportunityManager | .dayTrading | .swingTrading | .systematicQuant | .marketContext
  | .allocationManager => true
  | .derivativesResearch => false

/-- A version whose lifecycle can be read, and the key of its hypothesis. -/
structure LifecycleParent where
  version : MultiMarketStrategyVersionRegistration
  hypothesisKey : String
  deriving DecidableEq, Repr

section Calls

variable (ctx : MultiMarketContext)

/-! ## Reading -/

def storedHypothesis (stored : MultiMarketHypothesisRegistration) :
    Except LedgerError MultiMarketHypothesisRegistration := do
  raiseIf (stored.validateRegistration ctx.sha = false) .invalidSource
  return stored

def storedVersion (stored : MultiMarketStrategyVersionRegistration) :
    Except LedgerError MultiMarketStrategyVersionRegistration := do
  raiseIf (stored.validateRegistration = false) .invalidSource
  return stored

def multiMarketHypothesisById (ledger : MultiMarketLedger) (hypothesisId : String) :
    Except LedgerError (Option MultiMarketHypothesisRegistration) :=
  match ledger.hypotheses.find? (·.hypothesisId = hypothesisId) with
  | none => .ok none
  | some stored => some <$> storedHypothesis ctx stored

def multiMarketVersionById (ledger : MultiMarketLedger) (strategyVersion : String) :
    Except LedgerError (Option MultiMarketStrategyVersionRegistration) :=
  match ledger.strategyVersions.find? (·.strategyVersion = strategyVersion) with
  | none => .ok none
  | some stored => some <$> storedVersion stored

def versionMatchesParent (registration : MultiMarketStrategyVersionRegistration)
    (parent : MultiMarketHypothesisRegistration) : Bool :=
  registration.experimentScopeKey = parent.experimentScopeKey ∧
    registration.strategyLane ∈ parent.experimentScope.lanes ∧
    registration.sourceRegisteredAt.instant = parent.sourceRegisteredAt.instant ∧
    parent.ledgerRecordedAt ≤ registration.ledgerRecordedAt

def requireVersionParent (ledger : MultiMarketLedger)
    (registration : MultiMarketStrategyVersionRegistration) : Except LedgerError Unit := do
  let parent ← multiMarketHypothesisById ctx ledger registration.hypothesisId
  raiseIf (¬ parent.any (versionMatchesParent registration)) .invalidSource

def readMultiMarketHypotheses (ledger : MultiMarketLedger) :
    Except LedgerError (List MultiMarketHypothesisRegistration) :=
  ledger.hypotheses.mapM (storedHypothesis ctx)

def readMultiMarketStrategyVersions (ledger : MultiMarketLedger) :
    Except LedgerError (List MultiMarketStrategyVersionRegistration) := do
  let versions ← ledger.strategyVersions.mapM storedVersion
  let _ ← versions.mapM (requireVersionParent ctx ledger)
  return versions

def versionParent (ledger : MultiMarketLedger) (strategyVersion : String) :
    Except LedgerError (Option LifecycleParent) := do
  let versions ← readMultiMarketStrategyVersions ctx ledger
  match versions.filter (·.strategyVersion = strategyVersion) with
  | [] => return none
  | [version] =>
    let hypotheses ← readMultiMarketHypotheses ctx ledger
    match hypotheses.filter (·.hypothesisId = version.hypothesisId) with
    | [hypothesis] =>
      raiseIf (hypothesis.experimentScopeKey ≠ version.experimentScopeKey ∨
        hypothesis.experimentScope.primaryLane ≠ version.strategyLane) .invalidSource
      return some ⟨version, multiMarketHypothesisRegistrationKey ctx.sha hypothesis⟩
    | _ => .error .invalidSource
  | _ => .error .invalidSource

/-! ## Chains -/

def modeSupports : AgentOperatingMode → StrategyLifecycleState → Bool
  | .contractOnly, state => state = .idea ∨ state = .historical
  | .shadow, state => state ≠ .experimentalPaper ∧ state ≠ .paperChampion
  | .alpacaPaper, _ => true

def registrationEvidence (parent : LifecycleParent) (event : MultiMarketStrategyLifecycleEvent) :
    List String :=
  [parent.hypothesisKey, parent.version.experimentScopeKey, event.sessionCalendarSnapshotId,
    multiMarketStrategyVersionRegistrationKey ctx.sha parent.version].insertionSort (· ≤ ·)

def requireRegistrationEvidence (parent : LifecycleParent)
    (event : MultiMarketStrategyLifecycleEvent) : Except LedgerError Unit :=
  raiseIf (event.eventKind ≠ .registration ∨
    event.evidenceKeys ≠ registrationEvidence ctx parent event) .invalidSource

def requireTransition (history : List MultiMarketStrategyLifecycleEvent)
    (previous event : MultiMarketStrategyLifecycleEvent) : Except LedgerError Unit := do
  raiseIf (previous.toState = .rejected ∨ event.eventKind ≠ .transition ∨
    event.previousEventKey ≠ some (multiMarketLifecycleEventKey ctx.sha previous) ∨
    event.fromState ≠ some previous.toState ∨ event.decidedAt < previous.decidedAt ∨
    event.decisionSessionDate < previous.effectiveSessionDate ∨
    ¬ event.previousEventKey.any (· ∈ event.evidenceKeys) ∨
    event.sessionCalendarSnapshotId ∉ event.evidenceKeys) .invalidSource
  if previous.toState = .suspended then
    match (history.dropLast.reverse.map (·.toState)).find? (· ≠ .suspended) with
    | none => .error .invalidSource
    | some active =>
      raiseIf (lifecycleStateRank active < lifecycleStateRank event.toState) .invalidSource
  else .ok ()

/-- The check of an event, after the ones before it. -/
def requireMultiMarketEvent (parent : LifecycleParent)
    (history : List MultiMarketStrategyLifecycleEvent)
    (event : MultiMarketStrategyLifecycleEvent) : Except LedgerError Unit := do
  raiseIf (event.strategyVersion ≠ parent.version.strategyVersion ∨
    event.strategyLane ≠ parent.version.strategyLane ∨ event.sequence ≠ history.length + 1 ∨
    event.decidedAt < parent.version.ledgerRecordedAt ∨
    ¬ modeSupports parent.version.operatingMode event.toState) .invalidSource
  match history.getLast? with
  | none => requireRegistrationEvidence ctx parent event
  | some previous => requireTransition ctx history previous event

def requireChain (parent : Option LifecycleParent)
    (events : List MultiMarketStrategyLifecycleEvent) : Except LedgerError Unit :=
  match parent with
  | none => raiseIf (events ≠ []) .invalidSource
  | some parent => checkEach (requireMultiMarketEvent ctx parent) [] events

def readMultiMarketLifecycleEvents (ledger : MultiMarketLedger) (strategyVersion : String) :
    Except LedgerError (List MultiMarketStrategyLifecycleEvent) := do
  let events ← ((ledger.lifecycleEvents.filter (·.strategyVersion = strategyVersion)).insertionSort
    fun e f => e.sequence ≤ f.sequence).mapM fun stored => do
      raiseIf (stored.validateEvent ctx = false) LedgerError.invalidSource
      return stored
  let parent ← versionParent ctx ledger strategyVersion
  requireChain ctx parent events
  return events

/-! ## Writing -/

def registerMultiMarketHypothesis (registration : MultiMarketHypothesisRegistration)
    (ledger : MultiMarketLedger) : Except LedgerError (Bool × MultiMarketLedger) := do
  raiseIf (registration.validateRegistration ctx.sha = false) .invalidSource
  raiseIf (ledger.legacy.hypotheses.any (·.hypothesisId = registration.hypothesisId)) .conflict
  match ← multiMarketHypothesisById ctx ledger registration.hypothesisId with
  | some existing =>
    if isSame (multiMarketHypothesisRegistrationKey ctx.sha) (·.normal) existing registration then
      return (false, ledger)
    else .error .conflict
  | none =>
    raiseIf ((ledger.hypotheses.any fun stored =>
        multiMarketHypothesisRegistrationKey ctx.sha stored =
          multiMarketHypothesisRegistrationKey ctx.sha registration) ∨
      ¬ storableFamily registration.experimentScope.primaryLane.agentFamily) .conflict
    return (true, { ledger with hypotheses := ledger.hypotheses ++ [registration] })

def registerMultiMarketStrategyVersion (registration : MultiMarketStrategyVersionRegistration)
    (ledger : MultiMarketLedger) : Except LedgerError (Bool × MultiMarketLedger) := do
  raiseIf (registration.validateRegistration = false) .invalidSource
  raiseIf (ledger.legacy.strategyVersions.any (·.strategyVersion = registration.strategyVersion))
    .conflict
  requireVersionParent ctx ledger registration
  match ← multiMarketVersionById ledger registration.strategyVersion with
  | some existing =>
    if isSame (multiMarketStrategyVersionRegistrationKey ctx.sha) (·.normal) existing
        registration then
      return (false, ledger)
    else .error .conflict
  | none =>
    raiseIf ((ledger.strategyVersions.any fun stored =>
        multiMarketStrategyVersionRegistrationKey ctx.sha stored =
          multiMarketStrategyVersionRegistrationKey ctx.sha registration) ∨
      ¬ storableFamily registration.strategyLane.agentFamily) .conflict
    return (true, { ledger with strategyVersions := ledger.strategyVersions ++ [registration] })

/-- The row is refused if its key, or a constraint of its table, is taken. -/
def insertMultiMarketLifecycleEvent (event : MultiMarketStrategyLifecycleEvent)
    (ledger : MultiMarketLedger) : Except LedgerError MultiMarketLedger := do
  raiseIf ((ledger.lifecycleEvents.any fun stored =>
      multiMarketLifecycleEventKey ctx.sha stored = multiMarketLifecycleEventKey ctx.sha event ∨
        stored.strategyVersion = event.strategyVersion ∧ stored.sequence = event.sequence) ∨
    ¬ storableFamily event.strategyLane.agentFamily ∨
    ¬ (ledger.strategyVersions.any (·.strategyVersion = event.strategyVersion)) ∨
    ¬ (event.previousEventKey.all fun previous => ledger.lifecycleEvents.any fun stored =>
      multiMarketLifecycleEventKey ctx.sha stored = previous)) .conflict
  return { ledger with lifecycleEvents := ledger.lifecycleEvents ++ [event] }

def appendMultiMarketLifecycleEvent (event : MultiMarketStrategyLifecycleEvent)
    (ledger : MultiMarketLedger) : Except LedgerError (Bool × MultiMarketLedger) := do
  raiseIf (event.validateEvent ctx = false) .invalidSource
  let parent ← versionParent ctx ledger event.strategyVersion
  raiseIf (parent = none) .invalidSource
  let events ← readMultiMarketLifecycleEvents ctx ledger event.strategyVersion
  match events.find? (·.sequence = event.sequence) with
  | some existing =>
    if isSame (multiMarketLifecycleEventKey ctx.sha) (·.normal) existing event then
      return (false, ledger)
    else .error .conflict
  | none =>
    requireChain ctx parent (events ++ [event])
    let ledger ← insertMultiMarketLifecycleEvent ctx event ledger
    return (true, ledger)

/-! ## Runs -/

inductive MultiMarketCall
  | legacy (call : Call)
  | hypothesis (registration : MultiMarketHypothesisRegistration)
  | version (registration : MultiMarketStrategyVersionRegistration)
  | event (event : MultiMarketStrategyLifecycleEvent)

def runMultiMarket (ledger : MultiMarketLedger) :
    MultiMarketCall → Except LedgerError (Bool × MultiMarketLedger)
  | .legacy call =>
    (run ctx.toContext ledger.legacy call).map fun (b, legacy) => (b, { ledger with legacy })
  | .hypothesis registration => registerMultiMarketHypothesis ctx registration ledger
  | .version registration => registerMultiMarketStrategyVersion ctx registration ledger
  | .event event => appendMultiMarketLifecycleEvent ctx event ledger

def MultiMarketLedger.after (ledger : MultiMarketLedger) (call : MultiMarketCall) :
    MultiMarketLedger :=
  ((runMultiMarket ctx ledger call).map (·.2)).toOption.getD ledger

/-- The ledger of a new database, under transactions of any calls. -/
def multiMarketSystem :
    System (Transaction.Database MultiMarketLedger) (Transaction.Event MultiMarketCall) :=
  Transaction.system {} (MultiMarketLedger.after ctx)

end Calls

end TradingAgent.Lifecycle
