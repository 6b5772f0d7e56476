import TradingAgent.Kr.Trade

/-!
# The planner

The planner makes an event of a request: a recommendation with levels on the price grid and a
quantity within the budgets, an event that says why there is no trade, or the rejection of the
critic. Every record is validated as it is built, and what does not validate is raised.
-/

namespace TradingAgent.Kr

variable (sha : Sha256) (casefold : String → String)

/-- `model_validate` of a record. -/
def modelValidate {α : Type} (isValid : α → Bool) (record : α) : Except KrTradeError α :=
  if isValid record then .ok record else .error .validation

/-! ## The boundary -/

/-- A request that can be written as JSON and read back from it. -/
def revalidateKrAutonomousTradeRequest (request : KrAutonomousTradeRequest) :
    Option KrAutonomousTradeRequest :=
  if validateRequest sha request.normalize then some request.normalize else none

def projectKrTradeRejectionContext (request : KrAutonomousTradeRequest) :
    Option KrTradeRejectionContext :=
  let context : KrTradeRejectionContext :=
    { thesis := request.thesis
      evaluatedAt := request.evaluatedAt
      nextWakeAt := request.nextWakeAt
      previousEventId := request.previousEventId }
  if validateContext sha context then some context else none

def hasMissingKrTradeSpread (request : KrAutonomousTradeRequest) : Except KrTradeError Bool :=
  let snapshot := request.market.marketSnapshot
  if snapshot.bidPrice = none ∨ snapshot.askPrice = none then .ok true
  else if request.market.spreadBps = .nan then .error .invalidOperation
  else .ok (request.market.spreadBps < 0)

/-! ## The proposal -/

/-- What a request and the context of a rejected one have in common. -/
structure KrTradeEventContext where
  thesis : KrAutonomousTradeThesis
  evaluatedAt : DateTime
  nextWakeAt : DateTime
  previousEventId : Option String
  planId : String

def KrAutonomousTradeRequest.context (request : KrAutonomousTradeRequest) :
    KrTradeEventContext where
  thesis := request.thesis
  evaluatedAt := request.evaluatedAt
  nextWakeAt := request.nextWakeAt
  previousEventId := request.previousEventId
  planId := sha.hexdigest request.material

def KrTradeRejectionContext.context (context : KrTradeRejectionContext) :
    KrTradeEventContext where
  thesis := context.thesis
  evaluatedAt := context.evaluatedAt
  nextWakeAt := context.nextWakeAt
  previousEventId := context.previousEventId
  planId := sha.hexdigest context.material

def precriticNoTradeReasons (request : KrAutonomousTradeRequest) : List KrNoTradeReason :=
  let snapshot := request.market.marketSnapshot
  (if request.openExposures.any fun item => item.symbol = request.thesis.symbol then
    [.duplicateSymbol] else []) ++
  (if request.openExposures.any fun item => casefold item.theme = casefold request.thesis.theme
    then [.duplicateTheme] else []) ++
  (if request.market.validUntil ≤ request.evaluatedAt then [.staleMarket] else []) ++
  (if snapshot.bidPrice = none ∨ snapshot.askPrice = none ∨ request.market.spreadBps < 0 then
    [.missingSpread] else [])

/-- The risk budget and the maximum notional. -/
def budgets : KrSocialVerificationState → Decimal × Decimal
  | .multiSourceCorroborated => (25000, 1000000)
  | .unverifiedSocial => (5000, 300000)

def KrSocialVerificationState.riskBudget (state : KrSocialVerificationState) : Decimal :=
  (budgets state).1

def KrSocialVerificationState.maximumNotional (state : KrSocialVerificationState) : Decimal :=
  (budgets state).2

/-- The most shares that both budgets allow. -/
def quantityFor (state : KrSocialVerificationState) (entry riskPerShare : Decimal) : ℤ :=
  ⌊(Decimal.min (state.riskBudget / riskPerShare).rounded
    (state.maximumNotional / entry).rounded).toRat⌋

/-- `round_kr_equity_price_up` and `round_kr_equity_price_down`, which may raise. -/
def orInvalidPrice (price : Option Decimal) : Except KrTradeError Decimal :=
  price.elim (.error .invalidKrEquityPrice) .ok

def proposeKrAutonomousTrade (request : KrAutonomousTradeRequest) :
    Except KrTradeError (KrAutonomousTradeProposal ⊕ KrNoTradeReason) :=
  match request.market.marketSnapshot.askPrice with
  | none => .ok (.inr .missingSpread)
  | some ask => do
    if ¬ ask.isFinite ∨ ask ≤ 0 then return .inr .missingSpread
    let entry ← orInvalidPrice (roundKrEquityPriceUp ask)
    let stop ← orInvalidPrice (roundKrEquityPriceDown request.market.latestCompletedBar.low)
    if entry ≤ stop then return .inr .invalidStop
    let riskPerShare := (entry - stop).rounded
    let quantity := quantityFor request.socialSignal.verificationState entry riskPerShare
    if quantity ≤ 0 then return .inr .zeroQuantity
    let first ← orInvalidPrice (roundKrEquityPriceUp (entry + riskPerShare).rounded)
    let second ← orInvalidPrice
      (roundKrEquityPriceUp (entry + (riskPerShare * 2).rounded).rounded)
    let draft : KrAutonomousTradeProposal :=
      { proposalId := ""
        timestamp := request.evaluatedAt
        entry, stop
        targets := (first, second)
        quantity
        rationale := request.thesis.hypothesis
        counterevidence := request.thesis.counterevidence
        verificationState := request.socialSignal.verificationState
        validUntil := request.market.validUntil }
    let proposal ← modelValidate (validateProposal sha)
      { draft with proposalId := sha.hexdigest draft.material }
    return .inl proposal

/-! ## The critic -/

/-- The reasons of the critic for which a proposal is rejected. -/
def isRejection : KrCriticReason → Bool
  | .taskLineage | .socialLineage | .marketLineage | .evidenceLineage | .noncausalPublication
  | .clusterCount | .contradictoryEvidence => true
  | _ => false

def criticReasons (request : KrAutonomousTradeRequest)
    (proposal : Option KrAutonomousTradeProposal) : List KrCriticReason :=
  let thesis := request.thesis
  let signal := request.socialSignal
  let market := request.market
  (if thesis.taskId ≠ signal.taskId ∨ market.taskId ≠ signal.taskId then [.taskLineage]
    else []) ++
  (if thesis.socialSignalId ≠ signal.signalId ∨ market.socialSignalId ≠ signal.signalId ∨
      thesis.symbol ≠ signal.symbol ∨ thesis.theme ≠ signal.theme then [.socialLineage]
    else []) ++
  (if thesis.marketCorroborationId ≠ market.corroborationId ∨ thesis.symbol ≠ market.symbol
    then [.marketLineage] else []) ++
  (if thesis.evidenceRefs ≠ sortedSet (signal.evidenceIds ++ market.evidenceIds)
    then [.evidenceLineage] else []) ++
  (if signal.earliestPublishedAt.all fun t => market.marketResponseAt ≤ t
    then [.noncausalPublication] else []) ++
  (if signal.independentSourceCount ≠ signal.independentSourceClusterIds.length
    then [.clusterCount] else []) ++
  (if market.validUntil ≤ request.evaluatedAt ∨ market.spreadBps < 0 then [.currentMarket]
    else []) ++
  (if proposal = none then [.invalidLevels] else []) ++
  (if request.openExposures.any fun item =>
      item.symbol = thesis.symbol ∨ casefold item.theme = casefold thesis.theme
    then [.duplicateExposure] else []) ++
  (if thesis.counterevidence.any fun item =>
      words (casefold item) = words (casefold thesis.hypothesis)
    then [.contradictoryEvidence] else [])

def buildVerdict (thesisId : String) (proposalId : Option String)
    (status : KrAutonomousCriticStatus) (reasonCodes : List KrCriticReason) :
    Except KrTradeError KrAutonomousCriticVerdict :=
  let draft : KrAutonomousCriticVerdict := ⟨"", proposalId, thesisId, status, reasonCodes⟩
  modelValidate (validateVerdict sha) { draft with verdictId := sha.hexdigest draft.material }

/-- The verdict of the critic (`_critic`). -/
def critic (request : KrAutonomousTradeRequest) (proposal : Option KrAutonomousTradeProposal) :
    Except KrTradeError KrAutonomousCriticVerdict :=
  let reasons := criticReasons casefold request proposal
  let build := buildVerdict sha request.thesis.thesisId
    (proposal.map KrAutonomousTradeProposal.proposalId)
  if reasons.any isRejection then build .rejected reasons
  else if reasons ≠ [] then build .moreResearch reasons
  else build .approved [.approved]

def buildKrIntegrityVerdict (context : KrTradeEventContext) :
    Except KrTradeError KrAutonomousCriticVerdict :=
  buildVerdict sha context.thesis.thesisId none .rejected [.evidenceLineage]

/-! ## The events -/

def recommendation (request : KrAutonomousTradeRequest) (proposal : KrAutonomousTradeProposal)
    (verdict : KrAutonomousCriticVerdict) (planId : String) :
    Except KrTradeError KrAutonomousTradeEvent := do
  let draft : KrTradeRecommendation :=
    { eventId := ""
      planId
      previousEventId := request.previousEventId
      timestamp := request.evaluatedAt
      taskId := request.thesis.taskId
      thesisId := request.thesis.thesisId
      proposalId := proposal.proposalId
      socialSignalId := request.socialSignal.signalId
      marketCorroborationId := request.market.corroborationId
      evidenceRefs := request.thesis.evidenceRefs
      symbol := request.thesis.symbol
      theme := request.thesis.theme
      entry := proposal.entry
      stop := proposal.stop
      targets := proposal.targets
      quantity := proposal.quantity
      rationale := proposal.rationale
      counterevidence := proposal.counterevidence
      verificationState := proposal.verificationState
      criticVerdictId := verdict.verdictId
      criticVerdict := verdict
      validUntil := proposal.validUntil }
  let event ← modelValidate (validateRecommendation sha)
    { draft with eventId := sha.hexdigest draft.material }
  return .recommend event

def noTrade (context : KrTradeEventContext) (reasons : List KrNoTradeReason) :
    Except KrTradeError KrAutonomousTradeEvent := do
  let draft : KrAutonomousNoTrade :=
    { eventId := ""
      planId := context.planId
      previousEventId := context.previousEventId
      timestamp := context.evaluatedAt
      taskId := context.thesis.taskId
      thesisId := context.thesis.thesisId
      symbol := context.thesis.symbol
      theme := context.thesis.theme
      reasonCodes := reasons
      nextWakeAt := context.nextWakeAt }
  let event ← modelValidate (validateNoTrade sha)
    { draft with eventId := sha.hexdigest draft.material }
  return .noTrade event

def rejected (context : KrTradeEventContext) (verdict : KrAutonomousCriticVerdict) :
    Except KrTradeError KrAutonomousTradeEvent := do
  let draft : KrAutonomousRejected :=
    { eventId := ""
      planId := context.planId
      previousEventId := context.previousEventId
      timestamp := context.evaluatedAt
      taskId := context.thesis.taskId
      thesisId := context.thesis.thesisId
      symbol := context.thesis.symbol
      theme := context.thesis.theme
      reasonCodes := verdict.reasonCodes
      criticVerdictId := verdict.verdictId
      nextWakeAt := context.nextWakeAt }
  let event ← modelValidate (validateRejected sha)
    { draft with eventId := sha.hexdigest draft.material }
  return .rejected event

def finalizeKrAutonomousTrade (request : KrAutonomousTradeRequest)
    (proposal : KrAutonomousTradeProposal) : Except KrTradeError KrAutonomousTradeEvent :=
  match revalidateKrAutonomousTradeRequest sha request with
  | none => .error .invalidKrAutonomousTrade
  | some request => do
    let expected ← proposeKrAutonomousTrade sha request
    if expected ≠ .inl proposal then throw .invalidKrAutonomousTrade
    let planId := sha.hexdigest request.material
    let verdict ← critic sha casefold request (some proposal)
    match verdict.status with
    | .approved => recommendation sha request proposal verdict planId
    | .moreResearch => noTrade sha (request.context sha) [.invalidStop]
    | .rejected => rejected sha (request.context sha) verdict

def planKrAutonomousTrade (request : KrAutonomousTradeRequest) :
    Except KrTradeError KrAutonomousTradeEvent :=
  match revalidateKrAutonomousTradeRequest sha request with
  | none =>
    match projectKrTradeRejectionContext sha request with
    | none => .error .invalidKrAutonomousTrade
    | some context => do
      if ← hasMissingKrTradeSpread request then noTrade sha (context.context sha) [.missingSpread]
      else rejected sha (context.context sha) (← buildKrIntegrityVerdict sha (context.context sha))
  | some request =>
    let reasons := precriticNoTradeReasons casefold request
    if reasons ≠ [] then noTrade sha (request.context sha) reasons
    else do
      match ← proposeKrAutonomousTrade sha request with
      | .inr failure => noTrade sha (request.context sha) [failure]
      | .inl proposal => finalizeKrAutonomousTrade sha casefold request proposal

end TradingAgent.Kr
