import Mathlib.Data.Prod.Lex
import Mathlib.Data.String.Basic
import TradingAgent.Calendar
import TradingAgent.Library.Fold
import TradingAgent.Library.SortedSet
import TradingAgent.Subscription.Models

/-!
# The decision of the subscription policy

Which instruments to subscribe to (`buildSubscriptionPolicyDecision`): the best candidates, as many
as there is room for, but those first that are subscribed to and have not been for long. Inputs
that do not pass their checks (`validateSubscriptionPolicyInputs`) are refused with the one error
`SubscriptionPolicyError`, which is `none` here.
-/

namespace TradingAgent

/-! ## The checks of the inputs -/

/-- The function `_valid_identity`. -/
def validIdentity (key : String × String) : Bool := isInstrument key.1 ∧ isSymbol key.2

/-- The function `_unique_identities`. -/
def uniqueIdentities (keys : List (String × String)) : Bool :=
  (keys.map (·.1)).Nodup ∧ (keys.map (·.2)).Nodup

/-- The function `_positive_duration`. -/
def positiveDuration (value : TimeDelta) : Bool := 0 < value ∧ value ≤ TimeDelta.days 1

def BroadScannerCandidate.isValid (c : BroadScannerCandidate) : Bool :=
  validIdentity c.key ∧ c.priorityScore.isFinite ∧ ¬ c.priorityScore < 0 ∧ 0 < c.sourceRank

/-- The function `_valid_candidates`. -/
def validCandidates (candidates : List BroadScannerCandidate) : Bool :=
  candidates.all (·.isValid) ∧ uniqueIdentities (candidates.map (·.key))

/-- The function `_valid_active`. -/
def validActive (active : List ActiveMarketDataSubscription) (evaluatedAt : DateTime) : Bool :=
  (∀ a ∈ active, validIdentity a.key ∧ a.subscribedAt.aware ∧ ¬ evaluatedAt < a.subscribedAt) ∧
    uniqueIdentities (active.map (·.key))

/-- The function `_valid_cooldowns`. -/
def validCooldowns (cooldowns : List SubscriptionCooldown) : Bool :=
  (∀ c ∈ cooldowns, validIdentity c.key ∧ c.eligibleAfter.aware) ∧
    uniqueIdentities (cooldowns.map (·.key))

/-- The loop of `_consistent_symbols`, with the symbols of the instruments so far. -/
def consistentSymbols : (String → Option String) → List (String × String) → Bool
  | _, [] => true
  | symbols, (instrumentId, symbol) :: keys =>
    match symbols instrumentId with
    | some existing => existing = symbol && consistentSymbols symbols keys
    | none =>
      consistentSymbols (fun i => if i = instrumentId then some symbol else symbols i) keys

def SubscriptionPolicyConfig.isValid (config : SubscriptionPolicyConfig) : Bool :=
  ¬ config.capacity ≤ 0 ∧ positiveDuration config.maxCandidateAge ∧
    positiveDuration config.minimumResidency ∧ positiveDuration config.evictionCooldown

def validateSubscriptionPolicyInputs (snapshot : BroadScannerSnapshot) (evaluatedAt : DateTime)
    (active : List ActiveMarketDataSubscription) (cooldowns : List SubscriptionCooldown)
    (config : SubscriptionPolicyConfig) : Bool :=
  (evaluatedAt.aware ∧ snapshot.observedAt.aware ∧ ¬ evaluatedAt < snapshot.observedAt ∧
    config.isValid) ∧ validCandidates snapshot.candidates ∧
    validActive active evaluatedAt ∧ validCooldowns cooldowns ∧
    (∀ a ∈ active, a.instrumentId ∉ cooldowns.map (·.instrumentId)) ∧
    consistentSymbols (fun _ => none)
      (snapshot.candidates.map (·.key) ++ active.map (·.key) ++ cooldowns.map (·.key))

/-! ## The decision -/

/-- The function `_in_regular_session`. -/
def inRegularSession (newYork : ZoneInfo) (value : DateTime) : Bool :=
  let current := value.astimezone newYork
  match regularSessionBounds current.date with
  | none => false
  | some bounds => bounds.opens ≤ current.wall ∧ current.wall < bounds.closes

def POLICY_SEMANTIC_VERSION : String := "us_dynamic_quote_trade_v1"

def CHANNELS : List SubscriptionChannel := [.quote, .trade]

/-- The function `_candidate_rank_key`. The score is finite, as the inputs were checked. -/
def candidateRankKey (c : BroadScannerCandidate) : ℚ ×ₗ ℤ ×ₗ String ×ₗ String :=
  toLex (-c.priorityScore.toRat, toLex (c.sourceRank, toLex (c.instrumentId, c.symbol)))

def unsubscribeAction (a : ActiveMarketDataSubscription) : SubscriptionAction :=
  ⟨.unsubscribe, a.instrumentId, a.symbol, CHANNELS⟩

def subscribeAction (d : DesiredMarketDataSubscription) : SubscriptionAction :=
  ⟨.subscribe, d.instrumentId, d.symbol, CHANNELS⟩

/-- The function `_blocked_decision`. -/
def blockedDecision (snapshot : BroadScannerSnapshot) (evaluatedAt : DateTime)
    (active : List ActiveMarketDataSubscription) (config : SubscriptionPolicyConfig)
    (status : SubscriptionPolicyStatus) : SubscriptionPolicyDecision where
  identity := snapshot.identity
  evaluatedAt := evaluatedAt
  candidateObservedAt := snapshot.observedAt
  status := status
  policySemanticVersion := POLICY_SEMANTIC_VERSION
  config := config
  desired := []
  actions := (active.insertionSort fun a b => a.instrumentId ≤ b.instrumentId).map unsubscribeAction
  newCooldowns := []

section Ready

variable (snapshot : BroadScannerSnapshot) (evaluatedAt : DateTime)
  (active : List ActiveMarketDataSubscription) (cooldowns : List SubscriptionCooldown)
  (config : SubscriptionPolicyConfig)

/-- The candidates that are not cooling down, best first. -/
def eligible : List BroadScannerCandidate :=
  (snapshot.candidates.insertionSort fun a b => candidateRankKey a ≤ candidateRankKey b).filter
    fun c => match dictGet (·.instrumentId) cooldowns c.instrumentId with
      | none => true
      | some cooldown => cooldown.eligibleAfter ≤ evaluatedAt

/-- The eligible candidates that have not been subscribed to for long. -/
def residents : List BroadScannerCandidate :=
  (eligible snapshot evaluatedAt cooldowns).filter fun c =>
    match dictGet (·.instrumentId) active c.instrumentId with
    | none => false
    | some a => evaluatedAt - a.subscribedAt < config.minimumResidency

/-- The residents that there is room for. -/
def protectedCandidates : List BroadScannerCandidate :=
  (residents snapshot evaluatedAt active cooldowns config).take config.capacity.toNat

/-- The other candidates. -/
def competitors : List BroadScannerCandidate :=
  (eligible snapshot evaluatedAt cooldowns).filter fun c =>
    c.instrumentId ∉ (protectedCandidates snapshot evaluatedAt active cooldowns config).map
      (·.instrumentId)

def selectedIds : List String :=
  let protectedOnes := protectedCandidates snapshot evaluatedAt active cooldowns config
  let remaining := config.capacity - protectedOnes.length
  protectedOnes.map (·.instrumentId) ++
    ((competitors snapshot evaluatedAt active cooldowns config).take remaining.toNat).map
      (·.instrumentId)

def selected : List BroadScannerCandidate :=
  (eligible snapshot evaluatedAt cooldowns).filter fun c =>
    c.instrumentId ∈ selectedIds snapshot evaluatedAt active cooldowns config

def desiredSubscriptions : List DesiredMarketDataSubscription :=
  (selected snapshot evaluatedAt active cooldowns config).map fun c =>
    ⟨c.instrumentId, c.symbol, CHANNELS⟩

/-- The subscriptions that end. -/
def removed : List ActiveMarketDataSubscription :=
  (active.insertionSort fun a b => a.instrumentId ≤ b.instrumentId).filter fun a =>
    a.instrumentId ∉ selectedIds snapshot evaluatedAt active cooldowns config

/-- The subscriptions that start. -/
def added : List DesiredMarketDataSubscription :=
  (desiredSubscriptions snapshot evaluatedAt active cooldowns config).filter fun d =>
    d.instrumentId ∉ active.map (·.instrumentId)

/-- The decision on current candidates, during a session. -/
def readyDecision : SubscriptionPolicyDecision where
  identity := snapshot.identity
  evaluatedAt := evaluatedAt
  candidateObservedAt := snapshot.observedAt
  status := .ready
  policySemanticVersion := POLICY_SEMANTIC_VERSION
  config := config
  desired := desiredSubscriptions snapshot evaluatedAt active cooldowns config
  actions := (removed snapshot evaluatedAt active cooldowns config).map unsubscribeAction ++
    (added snapshot evaluatedAt active cooldowns config).map subscribeAction
  newCooldowns := (removed snapshot evaluatedAt active cooldowns config).map fun a =>
    ⟨a.instrumentId, a.symbol, evaluatedAt + config.evictionCooldown⟩

end Ready

def buildSubscriptionPolicyDecision (newYork : ZoneInfo) (snapshot : BroadScannerSnapshot)
    (evaluatedAt : DateTime) (active : List ActiveMarketDataSubscription)
    (cooldowns : List SubscriptionCooldown) (config : SubscriptionPolicyConfig) :
    Option SubscriptionPolicyDecision :=
  if validateSubscriptionPolicyInputs snapshot evaluatedAt active cooldowns config = false then none
  else if inRegularSession newYork evaluatedAt = false ∨
      inRegularSession newYork snapshot.observedAt = false then
    some (blockedDecision snapshot evaluatedAt active config .blockedSessionClosed)
  else if config.maxCandidateAge < evaluatedAt - snapshot.observedAt then
    some (blockedDecision snapshot evaluatedAt active config .blockedStale)
  else some (readyDecision snapshot evaluatedAt active cooldowns config)

end TradingAgent
