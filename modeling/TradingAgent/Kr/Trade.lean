import TradingAgent.Kr.Grid

/-!
# Requests for a plan of a trade

What the planner of the autonomous trades of the Korean market is given (`KrAutonomousTradeRequest`:
a thesis, the social signal that it is about, and the market as it was corroborated), and the
events that it returns (`KrAutonomousTradeEvent`), with what each record validates about itself.

* The identity of a record is the digest of its `material`, the values of its JSON text.
* A request is read back from its own JSON text before it is used, which validates it again
  (`validateRequest`), and puts the times of its signal on UTC.
-/

namespace TradingAgent.Kr

/-! ## Texts -/

/-- The characters which `split` and `strip` take for blanks. -/
def isSpace (c : Char) : Bool :=
  (9 ≤ c.toNat ∧ c.toNat ≤ 13) ∨ (28 ≤ c.toNat ∧ c.toNat ≤ 32) ∨ c.toNat = 0x85 ∨
    c.toNat = 0xa0 ∨ c.toNat = 0x1680 ∨ (0x2000 ≤ c.toNat ∧ c.toNat ≤ 0x200a) ∨
    c.toNat = 0x2028 ∨ c.toNat = 0x2029 ∨ c.toNat = 0x202f ∨ c.toNat = 0x205f ∨ c.toNat = 0x3000

/-- The test `not s.strip()`. -/
def isBlank (s : String) : Bool := s.toList.all isSpace

/-- The words of a text: the method `split`. -/
def words (s : String) : List (List Char) := (s.toList.splitOnP isSpace).filter (· ≠ [])

/-- Whether the length of a text is within bounds, both included. -/
def lengthBetween (low high : ℕ) (s : String) : Bool :=
  low ≤ s.toList.length ∧ s.toList.length ≤ high

/-! ## The thesis -/

inductive KrAutonomousSetupKind
  | momentumReclaim
  | breakoutContinuation
  deriving DecidableEq, Repr

def KrAutonomousSetupKind.value : KrAutonomousSetupKind → String
  | momentumReclaim => "momentum_reclaim"
  | breakoutContinuation => "breakout_continuation"

structure KrAutonomousTradeThesis where
  thesisId : String
  taskId : String
  symbol : String
  theme : String
  hypothesis : String
  counterevidence : List String
  setupKind : KrAutonomousSetupKind
  socialSignalId : String
  marketCorroborationId : String
  evidenceRefs : List String
  submittedAt : DateTime
  deriving DecidableEq, Repr

def KrAutonomousTradeThesis.material (thesis : KrAutonomousTradeThesis) : List JsonAtom :=
  texts thesis.counterevidence ++ texts thesis.evidenceRefs ++
    [.str thesis.hypothesis, .str thesis.marketCorroborationId, .str thesis.setupKind.value,
      .str thesis.socialSignalId, .time thesis.submittedAt, .str thesis.symbol,
      .str thesis.taskId, .str thesis.theme]

def validateThesis (sha : Sha256) (thesis : KrAutonomousTradeThesis) : Bool :=
  ([thesis.thesisId, thesis.taskId, thesis.socialSignalId,
      thesis.marketCorroborationId].all isHex64) ∧
    lengthBetween 1 160 thesis.theme ∧ lengthBetween 8 1000 thesis.hypothesis ∧
    (1 ≤ thesis.counterevidence.length ∧ thesis.counterevidence.length ≤ 16) ∧
    (1 ≤ thesis.evidenceRefs.length ∧ thesis.evidenceRefs.length ≤ 128) ∧
    thesis.submittedAt.aware ∧ ¬ isBlank thesis.theme ∧ ¬ isBlank thesis.hypothesis ∧
    (thesis.counterevidence.all fun value => ¬ isBlank value) ∧
    thesis.evidenceRefs = sortedSet thesis.evidenceRefs ∧
    thesis.thesisId = sha.hexdigest thesis.material

/-! ## The social signal -/

structure KrSocialSignal where
  signalId : String
  taskId : String
  symbol : String
  theme : String
  claimSummary : String
  evidenceIds : List String
  sourcePayloadSha256s : List String
  repostClusterIds : List String
  independentSourceClusterIds : List String
  postCount : ℕ
  repostClusterCount : ℕ
  independentSourceCount : ℕ
  verificationState : KrSocialVerificationState
  earliestPublishedAt : Option DateTime
  firstObservedAt : DateTime
  normalizedAt : DateTime
  deriving DecidableEq, Repr

namespace KrSocialSignal

def material (signal : KrSocialSignal) : List JsonAtom :=
  .str signal.claimSummary :: .ofOption .time signal.earliestPublishedAt ::
    texts signal.evidenceIds ++ .time signal.firstObservedAt ::
    texts signal.independentSourceClusterIds ++
    [.int signal.independentSourceCount, .time signal.normalizedAt, .int signal.postCount,
      .int signal.repostClusterCount] ++
    texts signal.repostClusterIds ++ .int 1 :: texts signal.sourcePayloadSha256s ++
    [.str signal.symbol, .str signal.taskId, .str signal.theme,
      .str signal.verificationState.value]

/-- The validators of the times of a signal: `astimezone(UTC)`. -/
def normalizeTimestamp (signal : KrSocialSignal) : KrSocialSignal :=
  { signal with
    earliestPublishedAt := signal.earliestPublishedAt.map fun t => .utc t.instant
    firstObservedAt := .utc signal.firstObservedAt.instant
    normalizedAt := .utc signal.normalizedAt.instant }

end KrSocialSignal

/-- The state of a signal from a number of independent sources. -/
def verificationStateOf (independentSourceCount : ℕ) : KrSocialVerificationState :=
  if 2 ≤ independentSourceCount then .multiSourceCorroborated else .unverifiedSocial

/-- A strictly increasing list of digests. -/
def isSha256Tuple (values : List String) : Bool :=
  values = sortedSet values ∧ values.all isHex64

def countBetween (n : ℕ) : Bool := 1 ≤ n ∧ n ≤ 64

def validateSignal (sha : Sha256) (signal : KrSocialSignal) : Bool :=
  (isHex64 signal.signalId ∧ isHex64 signal.taskId) ∧ lengthBetween 1 160 signal.theme ∧
    lengthBetween 8 1000 signal.claimSummary ∧
    ([signal.postCount, signal.repostClusterCount, signal.independentSourceCount].all
      countBetween) ∧
    (signal.earliestPublishedAt.all DateTime.aware ∧ signal.firstObservedAt.aware ∧
      signal.normalizedAt.aware) ∧
    isKrInstrumentSymbolV2 signal.symbol ∧ ¬ isBlank signal.theme ∧
    ¬ isBlank signal.claimSummary ∧
    ([signal.evidenceIds, signal.sourcePayloadSha256s, signal.repostClusterIds,
      signal.independentSourceClusterIds].all isSha256Tuple) ∧
    signal.evidenceIds.length = signal.postCount ∧
    signal.sourcePayloadSha256s.length = signal.postCount ∧
    signal.repostClusterIds.length = signal.repostClusterCount ∧
    signal.independentSourceClusterIds.length = signal.independentSourceCount ∧
    signal.verificationState = verificationStateOf signal.independentSourceCount ∧
    (signal.earliestPublishedAt.all fun t => t ≤ signal.firstObservedAt) ∧
    signal.firstObservedAt ≤ signal.normalizedAt ∧
    signal.signalId = sha.hexdigest signal.material

/-! ## The market -/

inductive KrSessionState
  | «open»
  | closed
  | unknown
  deriving DecidableEq, Repr

inductive KrViState
  | clear
  | staticActive
  | dynamicActive
  | unknown
  deriving DecidableEq, Repr

inductive KrTradingMode
  | continuous
  | callAuction
  | unknown
  deriving DecidableEq, Repr

inductive KrHaltState
  | clear
  | halted
  | unknown
  deriving DecidableEq, Repr

inductive KrDesignationState
  | clear
  | caution
  | warning
  | danger
  | unknown
  deriving DecidableEq, Repr

def KrSessionState.value : KrSessionState → String
  | «open» => "open"
  | closed => "closed"
  | unknown => "unknown"

def KrViState.value : KrViState → String
  | clear => "clear"
  | staticActive => "static_active"
  | dynamicActive => "dynamic_active"
  | unknown => "unknown"

def KrTradingMode.value : KrTradingMode → String
  | continuous => "continuous"
  | callAuction => "call_auction"
  | unknown => "unknown"

def KrHaltState.value : KrHaltState → String
  | clear => "clear"
  | halted => "halted"
  | unknown => "unknown"

def KrDesignationState.value : KrDesignationState → String
  | clear => "clear"
  | caution => "caution"
  | warning => "warning"
  | danger => "danger"
  | unknown => "unknown"

structure KrMarketConstraintSnapshot where
  symbol : String
  observedAt : DateTime
  previousClose : Decimal
  lastPrice : Decimal
  bidPrice : Option Decimal
  askPrice : Option Decimal
  lowerLimitPrice : Decimal
  upperLimitPrice : Decimal
  sessionState : KrSessionState
  viState : KrViState
  tradingMode : KrTradingMode
  haltState : KrHaltState
  designationState : KrDesignationState
  evidenceRefs : List EvidenceRef
  deriving DecidableEq, Repr

def EvidenceRef.material (evidence : EvidenceRef) : List JsonAtom :=
  [.str evidence.nameSpace, .time evidence.observedAt, .str evidence.recordId]

def KrMarketConstraintSnapshot.material (s : KrMarketConstraintSnapshot) : List JsonAtom :=
  .ofOption .decimal s.askPrice :: .ofOption .decimal s.bidPrice ::
    .str s.designationState.value :: .int s.evidenceRefs.length ::
    s.evidenceRefs.flatMap EvidenceRef.material ++
    [.str s.haltState.value, .decimal s.lastPrice, .decimal s.lowerLimitPrice,
      .time s.observedAt, .decimal s.previousClose, .int 1, .str s.sessionState.value,
      .str s.symbol, .str s.tradingMode.value, .decimal s.upperLimitPrice, .str s.viState.value]

private def positiveFinite (value : Decimal) : Bool := value.isFinite ∧ 0 < value

def validateSnapshot (s : KrMarketConstraintSnapshot) : Bool :=
  (s.evidenceRefs.all validateEvidence) ∧ isKrInstrumentSymbolV2 s.symbol ∧ s.observedAt.aware ∧
    ([s.previousClose, s.lastPrice, s.lowerLimitPrice, s.upperLimitPrice].all positiveFinite) ∧
    (s.bidPrice.all positiveFinite ∧ s.askPrice.all positiveFinite) ∧
    s.lowerLimitPrice < s.previousClose ∧ s.previousClose < s.upperLimitPrice ∧
    s.evidenceRefs ≠ [] ∧
    s.evidenceRefs.map EvidenceRef.canonicalId =
      sortedSet (s.evidenceRefs.map EvidenceRef.canonicalId) ∧
    (s.evidenceRefs.all fun item => ¬ s.observedAt < item.observedAt)

structure KrAutonomousMarketCorroboration where
  corroborationId : String
  taskId : String
  socialSignalId : String
  symbol : String
  sessionDate : Date
  calendarSnapshotId : String
  socialFirstObservedAt : DateTime
  marketResponseAt : DateTime
  observedAt : DateTime
  validUntil : DateTime
  latestCompletedBar : KrCompletedMinuteBar
  marketSnapshot : KrMarketConstraintSnapshot
  spreadBps : Decimal
  tradingValueKrw : Decimal
  receiptCount : ℕ
  receiptSha256s : List String
  evidenceCount : ℕ
  evidenceIds : List String
  deriving DecidableEq, Repr

def KrCompletedMinuteBar.material (bar : KrCompletedMinuteBar) : List JsonAtom :=
  [.decimal bar.close, .time bar.endAt] ++ bar.evidenceRef.material ++
    [.decimal bar.high, .decimal bar.low, .time bar.observedAt, .decimal bar.open_, .int 1,
      .time bar.startAt, .str bar.symbol, .decimal bar.tradingValueKrw, .int bar.volume]

namespace KrAutonomousMarketCorroboration

variable (m : KrAutonomousMarketCorroboration)

def material : List JsonAtom :=
  .str m.calendarSnapshotId :: .int m.evidenceCount :: texts m.evidenceIds ++
    m.latestCompletedBar.material ++ .time m.marketResponseAt :: m.marketSnapshot.material ++
    .time m.observedAt :: .int m.receiptCount :: texts m.receiptSha256s ++
    [.int 1, .int m.sessionDate, .time m.socialFirstObservedAt, .str m.socialSignalId,
      .decimal m.spreadBps, .str m.symbol, .str m.taskId, .decimal m.tradingValueKrw,
      .time m.validUntil]

def expectedEvidence : List String :=
  (m.marketSnapshot.evidenceRefs.map EvidenceRef.canonicalId ++
    [m.latestCompletedBar.evidenceRef.canonicalId]).insertionSort (· ≤ ·)

/-- The text before the first colon: `partition(":")[0]`. -/
def beforeColon (s : String) : String := String.ofList (s.toList.takeWhile (· ≠ ':'))

def expectedReceipts : List String :=
  sortedSet (m.marketSnapshot.evidenceRefs.map EvidenceRef.recordId ++
    [beforeColon m.latestCompletedBar.evidenceRef.recordId])

/-- The spread of the quote in basis points of its middle, each operation in 28 digits. -/
def expectedSpread : Decimal :=
  match m.marketSnapshot.bidPrice, m.marketSnapshot.askPrice with
  | some bid, some ask =>
    (((ask - bid).rounded / ((bid + ask).rounded / 2).rounded).rounded * 10000).rounded
  | _, _ => .finite (-1)

def hasValidQuote : Bool :=
  match m.marketSnapshot.bidPrice, m.marketSnapshot.askPrice with
  | some bid, some ask => bid ≤ ask
  | _, _ => false

/-- The start of the minute that a time is in. -/
def minuteOf (t : DateTime) : DateTime :=
  let clock := t.astimezone KST
  { clock with wall := clock.wall - clock.wall % TimeDelta.minutes 1 }

end KrAutonomousMarketCorroboration

private def nonnegativeFinite (value : Decimal) : Bool := value.isFinite ∧ 0 ≤ value

def marketValidity : TimeDelta := TimeDelta.seconds 5

open KrAutonomousMarketCorroboration in
/-- The validation of a `KrAutonomousMarketCorroboration`. -/
def validateCorroboration (sha : Sha256) (m : KrAutonomousMarketCorroboration) : Bool :=
  let bar := m.latestCompletedBar
  let snapshot := m.marketSnapshot
  let localTimes := [m.marketResponseAt, m.observedAt, bar.startAt, snapshot.observedAt]
  (validateBar bar ∧ validateSnapshot snapshot) ∧
    ([m.corroborationId, m.taskId, m.socialSignalId, m.calendarSnapshotId].all isHex64) ∧
    (m.symbol = bar.symbol ∧ m.symbol = snapshot.symbol) ∧
    ((m.validUntil :: m.socialFirstObservedAt :: localTimes).all DateTime.aware) ∧
    (localTimes.all fun t => (t.astimezone KST).date = m.sessionDate) ∧
    (m.socialFirstObservedAt ≤ m.marketResponseAt ∧ m.marketResponseAt ≤ m.observedAt ∧
      m.observedAt < m.validUntil) ∧
    m.marketResponseAt.instant = Max.max bar.observedAt.instant snapshot.observedAt.instant ∧
    bar.endAt.instant = (minuteOf m.observedAt).instant ∧ bar.endAt ≤ m.observedAt ∧
    m.validUntil.instant = (snapshot.observedAt + marketValidity).instant ∧
    m.hasValidQuote ∧ nonnegativeFinite m.spreadBps ∧ m.spreadBps = m.expectedSpread ∧
    nonnegativeFinite m.tradingValueKrw ∧ m.tradingValueKrw = bar.tradingValueKrw ∧
    m.receiptSha256s = m.expectedReceipts ∧
    (m.receiptCount = m.receiptSha256s.length ∧ m.receiptCount = 3) ∧
    m.evidenceIds = m.expectedEvidence ∧
    (m.evidenceCount = m.evidenceIds.length ∧ m.evidenceCount = 3) ∧
    (m.receiptSha256s.all isHex64) ∧ m.corroborationId = sha.hexdigest m.material

/-! ## The request -/

structure KrOpenVirtualExposure where
  symbol : String
  theme : String
  deriving DecidableEq, Repr

structure KrAutonomousTradeRequest where
  thesis : KrAutonomousTradeThesis
  socialSignal : KrSocialSignal
  market : KrAutonomousMarketCorroboration
  evaluatedAt : DateTime
  nextWakeAt : DateTime
  openExposures : List KrOpenVirtualExposure
  previousEventId : Option String := none
  deriving DecidableEq, Repr

namespace KrAutonomousTradeRequest

variable (request : KrAutonomousTradeRequest)

def material : List JsonAtom :=
  .str request.thesis.thesisId :: request.thesis.material ++
    .str request.socialSignal.signalId :: request.socialSignal.material ++
    .str request.market.corroborationId :: request.market.material ++
    [.time request.evaluatedAt, .time request.nextWakeAt, .int request.openExposures.length] ++
    request.openExposures.flatMap (fun item => [.str item.symbol, .str item.theme]) ++
    [.ofOption .str request.previousEventId]

/-- What is read back from the JSON text of a request. -/
def normalize : KrAutonomousTradeRequest :=
  { request with socialSignal := request.socialSignal.normalizeTimestamp }

end KrAutonomousTradeRequest

def validateRequest (sha : Sha256) (request : KrAutonomousTradeRequest) : Bool :=
  validateThesis sha request.thesis ∧ validateSignal sha request.socialSignal ∧
    validateCorroboration sha request.market ∧
    (request.evaluatedAt.aware ∧ request.nextWakeAt.aware) ∧
    (request.openExposures.all fun item => lengthBetween 1 160 item.theme) ∧
    request.previousEventId.all isHex64 ∧ ¬ request.nextWakeAt ≤ request.evaluatedAt

/-- What remains of a request that cannot be trusted. -/
structure KrTradeRejectionContext where
  thesis : KrAutonomousTradeThesis
  evaluatedAt : DateTime
  nextWakeAt : DateTime
  previousEventId : Option String := none
  deriving DecidableEq, Repr

def KrTradeRejectionContext.material (context : KrTradeRejectionContext) : List JsonAtom :=
  .str context.thesis.thesisId :: context.thesis.material ++
    [.time context.evaluatedAt, .time context.nextWakeAt, .ofOption .str context.previousEventId]

def validateContext (sha : Sha256) (context : KrTradeRejectionContext) : Bool :=
  validateThesis sha context.thesis ∧ (context.evaluatedAt.aware ∧ context.nextWakeAt.aware) ∧
    context.previousEventId.all isHex64 ∧ ¬ context.nextWakeAt ≤ context.evaluatedAt

/-! ## Proposals and events -/

structure KrAutonomousTradeProposal where
  proposalId : String
  timestamp : DateTime
  entry : Decimal
  stop : Decimal
  targets : Decimal × Decimal
  quantity : ℤ
  rationale : String
  counterevidence : List String
  verificationState : KrSocialVerificationState
  validUntil : DateTime
  deriving DecidableEq, Repr

def KrAutonomousTradeProposal.material (p : KrAutonomousTradeProposal) : List JsonAtom :=
  texts p.counterevidence ++
    [.decimal p.entry, .int p.quantity, .str p.rationale, .decimal p.stop, .decimal p.targets.1,
      .decimal p.targets.2, .time p.timestamp, .time p.validUntil, .str p.verificationState.value]

/-- The validation of a `KrAutonomousTradeProposal`. -/
def validateProposal (sha : Sha256) (p : KrAutonomousTradeProposal) : Bool :=
  isHex64 p.proposalId ∧ p.timestamp.aware ∧ p.validUntil.aware ∧ 0 < p.quantity ∧
    ([p.entry, p.stop, p.targets.1, p.targets.2].all isValidKrEquityPrice) ∧
    levelsAreOrdered p.stop p.entry p.targets ∧ p.proposalId = sha.hexdigest p.material

inductive KrNoTradeReason
  | duplicateSymbol
  | duplicateTheme
  | staleMarket
  | missingSpread
  | invalidStop
  | zeroQuantity
  deriving DecidableEq, Repr

def KrNoTradeReason.value : KrNoTradeReason → String
  | duplicateSymbol => "duplicate_symbol"
  | duplicateTheme => "duplicate_theme"
  | staleMarket => "stale_market"
  | missingSpread => "missing_spread"
  | invalidStop => "invalid_stop"
  | zeroQuantity => "zero_quantity"

structure KrAutonomousNoTrade where
  eventId : String
  planId : String
  previousEventId : Option String := none
  timestamp : DateTime
  taskId : String
  thesisId : String
  symbol : String
  theme : String
  reasonCodes : List KrNoTradeReason
  nextWakeAt : DateTime
  deriving DecidableEq, Repr

def KrAutonomousNoTrade.material (event : KrAutonomousNoTrade) : List JsonAtom :=
  [.time event.nextWakeAt, .str "NO_TRADE", .str event.planId,
    .ofOption .str event.previousEventId] ++
    texts (event.reasonCodes.map KrNoTradeReason.value) ++
    [.str event.symbol, .str event.taskId, .str event.theme, .str event.thesisId,
      .time event.timestamp, .bool false, .bool true]

def validateNoTrade (sha : Sha256) (event : KrAutonomousNoTrade) : Bool :=
  ([event.eventId, event.planId, event.taskId, event.thesisId].all isHex64) ∧
    event.previousEventId.all isHex64 ∧ event.timestamp.aware ∧ event.nextWakeAt.aware ∧
    event.reasonCodes ≠ [] ∧ ¬ event.nextWakeAt ≤ event.timestamp ∧
    event.eventId = sha.hexdigest event.material

structure KrAutonomousRejected where
  eventId : String
  planId : String
  previousEventId : Option String := none
  timestamp : DateTime
  taskId : String
  thesisId : String
  symbol : String
  theme : String
  reasonCodes : List KrCriticReason
  criticVerdictId : String
  nextWakeAt : DateTime
  deriving DecidableEq, Repr

def KrAutonomousRejected.material (event : KrAutonomousRejected) : List JsonAtom :=
  [.str event.criticVerdictId, .time event.nextWakeAt, .str "REJECTED", .str event.planId,
    .ofOption .str event.previousEventId] ++
    texts (event.reasonCodes.map KrCriticReason.value) ++
    [.str event.symbol, .str event.taskId, .str event.theme, .str event.thesisId,
      .time event.timestamp, .bool false, .bool true]

def validateRejected (sha : Sha256) (event : KrAutonomousRejected) : Bool :=
  ([event.eventId, event.planId, event.taskId, event.thesisId,
      event.criticVerdictId].all isHex64) ∧
    event.previousEventId.all isHex64 ∧ event.timestamp.aware ∧ event.nextWakeAt.aware ∧
    event.reasonCodes ≠ [] ∧ ¬ event.nextWakeAt ≤ event.timestamp ∧
    event.eventId = sha.hexdigest event.material

inductive KrAutonomousTradeEvent
  | recommend (event : KrTradeRecommendation)
  | noTrade (event : KrAutonomousNoTrade)
  | rejected (event : KrAutonomousRejected)
  deriving DecidableEq, Repr

/-- What the planner raises. -/
inductive KrTradeError
  | invalidKrAutonomousTrade
  | invalidKrEquityPrice
  /-- A `ValidationError` of the record that was built. -/
  | validation
  /-- The order of a NaN. -/
  | invalidOperation
  deriving DecidableEq, Repr

end TradingAgent.Kr
