import TradingAgent.UsDay.Lifecycle

/-!
# The admission of a signal

Which theses are put to the paper account (`admitUsDaySignal`): one that recommends a trade, whose
signal is that of the champion, for the market as it is now and while the exchange is open.
-/

namespace TradingAgent.UsDay

open Except
open Kr (EvidenceRef)
open Swing (TradeSignalEnvelope QuoteValidation StrategyLaneRef)

inductive LaneId
  | intradayMomentum
  | swingMomentum
  | marketRegime
  deriving DecidableEq, Repr

inductive DayPromotionStatus
  | rejected
  | insufficient
  | shadowCandidate
  | paperTrialCandidate
  | paperChampionCandidate
  deriving DecidableEq, Repr

inductive DayExecutionEligibilityStatus
  | eligible
  | blocked
  | suspended
  | expired
  deriving DecidableEq, Repr

structure UsDayChampion where
  versionId : String
  strategyVersion : String
  strategyLane : StrategyLaneRef
  deriving DecidableEq, Repr

/-- The situation of the market, with the text of the whole record. -/
structure UsDaySituationMap where
  sessionId : String
  sessionDate : Date
  completedBarAt : DateTime
  evidenceRefs : List EvidenceRef
  text : List JsonAtom
  deriving DecidableEq, Repr

structure UsDayCurrentMarket where
  symbol : String
  quote : QuoteValidation
  currentBarRef : EvidenceRef
  currentBarAt : DateTime
  deriving DecidableEq, Repr

structure PromotionDecision where
  decisionId : String
  hypothesisVersionId : String
  marketId : Swing.MarketId
  status : DayPromotionStatus
  deriving DecidableEq, Repr

structure ExecutionEligibility where
  decisionId : String
  hypothesisVersionId : String
  status : DayExecutionEligibilityStatus
  paperOrderAuthority : Bool
  sessionDate : Date
  effectiveAt : DateTime
  expiresAt : DateTime
  deriving DecidableEq, Repr

structure UsDaySignalAdmissionRequest where
  sessionId : String
  laneId : LaneId
  thesis : UsDayTradeThesis
  signal : TradeSignalEnvelope
  champion : UsDayChampion
  situation : UsDaySituationMap
  currentMarket : UsDayCurrentMarket
  promotion : PromotionDecision
  executionEligibility : ExecutionEligibility
  evaluatedAt : DateTime
  deriving DecidableEq, Repr

/-- What is put to the paper account: the intent of the signal, and how much of it may be traded. -/
structure PaperOrderAdmissionRequest where
  barStartedAt : DateTime
  barFirstObservedAt : Instant
  intentId : String
  strategyId : String
  strategyVersion : String
  symbol : String
  createdAt : DateTime
  entryLimit : ℚ
  stop : ℚ
  target1r : ℚ
  target2r : ℚ
  liquidityAllowedQuantity : ℤ
  estimatedSpreadBps : ℚ
  deriving DecidableEq, Repr

/-- What raises an error. -/
inductive UsDayOperatingError
  | admission (reason : String)
  | operating (reason : String)
  | invalidRequest
  | thesisStore (error : ThesisStoreError)
  /-- A constraint of a table, or a record that lacks what is read of it. -/
  | other
  deriving DecidableEq, Repr

/-- What the program takes from its environment, besides that of the paper store. -/
structure UsDayEnvironment where
  sha : Sha256
  paper : Environment
  /-- The floating-point number of a decimal. -/
  float : Decimal → ℚ
  /-- How much of a signal the market may take, according to the policy. -/
  allowedQuantity : UsDaySignalAdmissionRequest → ℤ

/-! ## Times as Python compares them -/

def sameTime (s t : DateTime) : Bool := s.instant = t.instant

def sameEvidence (a b : EvidenceRef) : Bool :=
  a.nameSpace = b.nameSpace ∧ a.recordId = b.recordId ∧ sameTime a.observedAt b.observedAt

def sameQuote (a b : QuoteValidation) : Bool :=
  a.bid = b.bid ∧ a.ask = b.ask ∧ sameTime a.observedAt b.observedAt ∧
    sameTime a.validUntil b.validUntil ∧ a.spreadBps = b.spreadBps ∧
    a.maxSlippageBps = b.maxSlippageBps

/-! ## The checks -/

section

variable (env : UsDayEnvironment) (request : UsDaySignalAdmissionRequest)

/-- What the clocks of New York show. -/
def newYork (t : DateTime) : DateTime := t.astimezone env.paper.newYork

/-- Whether the exchange is open when the request is evaluated. -/
def currentSession : Bool :=
  request.evaluatedAt.aware ∧
    (regularSessionBounds (newYork env request.evaluatedAt).date).any fun bounds =>
      bounds.opens ≤ (newYork env request.evaluatedAt).wall ∧
        (newYork env request.evaluatedAt).wall < bounds.closes

/-- When the last complete bar has started, on the clocks of New York. -/
def expectedBar : ℤ :=
  let wall := (newYork env request.evaluatedAt).wall
  wall - wall % TimeDelta.minutes 1 - TimeDelta.minutes 1

/-- The signal is that of the thesis. -/
def signalIsOfThesis : Bool :=
  let thesis := request.thesis
  let signal := request.signal
  signal.signalId = thesis.thesisId ∧ thesis.symbol = some signal.symbol ∧
    signal.observedAt.instant = thesis.observedAt ∧ signal.validUntil.instant = thesis.validUntil ∧
    thesis.entryPrice = some signal.entryPrice ∧ thesis.stopPrice = some signal.stopPrice ∧
    signal.targets = thesis.targets ∧ signal.invalidationRule = thesis.invalidationRule ∧
    signal.rationale = thesis.rationale

/-- The signal and the thesis are of the champion, which may trade now. -/
def championIsEligible : Bool :=
  let champion := request.champion
  let eligibility := request.executionEligibility
  request.signal.producerStrategyVersion = champion.strategyVersion ∧
    request.signal.strategyLane = champion.strategyLane ∧
    champion.versionId = request.thesis.agentVersionId ∧
    champion.versionId = request.promotion.hypothesisVersionId ∧
    request.promotion.status = .paperChampionCandidate ∧
    request.promotion.marketId = .usEquities ∧
    eligibility.decisionId = request.promotion.decisionId ∧
    eligibility.hypothesisVersionId = champion.versionId ∧ eligibility.status = .eligible ∧
    eligibility.paperOrderAuthority ∧ eligibility.sessionDate = request.situation.sessionDate ∧
    eligibility.effectiveAt ≤ request.evaluatedAt ∧ request.evaluatedAt < eligibility.expiresAt ∧
    request.signal.strategyLane.marketId = .usEquities ∧
    request.signal.strategyLane.agentFamily = .dayTrading

/-- The signal is for the market as it is now. -/
def marketIsCurrent : Bool :=
  let market := request.currentMarket
  let situation := request.situation
  request.sessionId = situation.sessionId ∧
    situation.sessionDate = (newYork env request.evaluatedAt).date ∧
    request.thesis.situationId = env.sha.hexdigest situation.text ∧
    market.symbol = request.signal.symbol ∧
    (newYork env market.currentBarAt).wall = expectedBar env request ∧
    sameTime situation.completedBarAt market.currentBarAt ∧
    situation.evidenceRefs.any (sameEvidence market.currentBarRef) ∧
    request.signal.quoteValidation.any (sameQuote market.quote) ∧
    market.quote.observedAt ≤ request.signal.observedAt ∧
    request.signal.observedAt ≤ request.evaluatedAt ∧
    request.evaluatedAt ≤ market.quote.validUntil ∧
    market.quote.spreadBps ≤ market.quote.maxSlippageBps

def requireCurrentChampionSignal : Except UsDayOperatingError Unit :=
  raiseIf (¬ (request.laneId = .intradayMomentum ∧ request.thesis.decision = .recommend ∧
    request.signal.actionability = .currentQuoteValidated ∧ signalIsOfThesis request ∧
    championIsEligible request ∧ marketIsCurrent env request ∧ currentSession env request))
    (.admission "signal_not_eligible_for_paper")

def admitUsDaySignal : Except UsDayOperatingError PaperOrderAdmissionRequest := do
  requireCurrentChampionSignal env request
  let signal := request.signal
  let market := request.currentMarket
  let quantity := env.allowedQuantity request
  raiseIf (quantity ≤ 0) (.admission "market_liquidity_policy_invalid")
  raiseIf (signal.side = .short) (.admission "short_signal_forbidden")
  match signal.targets with
  | first :: second :: _ =>
    return {
      barStartedAt := market.currentBarAt
      barFirstObservedAt := request.thesis.observedAt
      intentId := signal.signalId
      strategyId := signal.strategyLane.strategyId
      strategyVersion := signal.producerStrategyVersion
      symbol := signal.symbol
      createdAt := signal.observedAt
      entryLimit := env.float signal.entryPrice
      stop := env.float signal.stopPrice
      target1r := env.float first.price
      target2r := env.float second.price
      liquidityAllowedQuantity := quantity
      estimatedSpreadBps := env.float market.quote.spreadBps }
  | _ => .error .other

end

/-! ## What is admitted -/

variable {env : UsDayEnvironment} {request : UsDaySignalAdmissionRequest}
  {admission : PaperOrderAdmissionRequest}

/-- What is admitted recommends a trade, with its prices, and is evaluated after it was observed. -/
theorem admitted_cases (h : admitUsDaySignal env request = .ok admission) :
    request.thesis.decision = .recommend ∧ request.thesis.symbol = some request.signal.symbol ∧
      request.thesis.entryPrice = some request.signal.entryPrice ∧
      request.thesis.stopPrice = some request.signal.stopPrice ∧
      (∃ first second rest, request.thesis.targets = first :: second :: rest) ∧
      request.thesis.observedAt ≤ request.evaluatedAt.instant ∧
      request.evaluatedAt.aware = true := by
  obtain ⟨_, hcurrent, h⟩ := bind_eq_ok.1 h
  rw [requireCurrentChampionSignal, raiseIf_eq_ok, not_not] at hcurrent
  obtain ⟨-, hdecision, -, hsignal, -, hmarket, hsession⟩ := hcurrent
  rw [signalIsOfThesis, decide_eq_true_eq] at hsignal
  obtain ⟨-, hsymbol, hobserved, -, hentry, hstop, htargets, -, -⟩ := hsignal
  rw [marketIsCurrent, decide_eq_true_eq] at hmarket
  obtain ⟨-, -, -, -, -, -, -, -, -, hbefore, -, -⟩ := hmarket
  rw [currentSession, decide_eq_true_eq] at hsession
  obtain ⟨_, -, h⟩ := bind_eq_ok.1 h
  obtain ⟨_, -, h⟩ := bind_eq_ok.1 h
  refine ⟨hdecision, hsymbol, hentry, hstop, ?_, hobserved ▸ hbefore, hsession.1⟩
  rw [← htargets]
  split at h
  · rename_i first second rest hlist
    exact ⟨first, second, rest, hlist⟩
  · cases h

end TradingAgent.UsDay
