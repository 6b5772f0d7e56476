import TradingAgent.Library.Decimal
import TradingAgent.Library.Text

/-!
# The models of the subscription policy

The records of the policy that chooses which instruments to subscribe to, among the candidates of
a scanner: what it reads, what it decides (`SubscriptionPolicyDecision`), and what is kept of it
from one decision to the next (`SubscriptionPolicyRuntimeState`).
-/

namespace TradingAgent

inductive SubscriptionChannel
  | quote
  | trade
  deriving DecidableEq, Repr

def SubscriptionChannel.value : SubscriptionChannel → String
  | quote => "quote"
  | trade => "trade"

inductive SubscriptionActionKind
  | unsubscribe
  | subscribe
  deriving DecidableEq, Repr

def SubscriptionActionKind.value : SubscriptionActionKind → String
  | unsubscribe => "unsubscribe"
  | subscribe => "subscribe"

inductive SubscriptionPolicyStatus
  | ready
  | blockedStale
  | blockedSessionClosed
  deriving DecidableEq, Repr

def SubscriptionPolicyStatus.value : SubscriptionPolicyStatus → String
  | ready => "ready"
  | blockedStale => "blocked_stale"
  | blockedSessionClosed => "blocked_session_closed"

structure ResearchInputIdentity where
  scope : String
  datasetId : String
  canonicalEventContentSha256 : String
  rawManifestId : String
  rawManifestContentSha256 : String
  identitySha256 : String
  deriving DecidableEq, Repr

structure BroadScannerCandidate where
  instrumentId : String
  symbol : String
  priorityScore : Decimal
  sourceRank : ℤ
  deriving DecidableEq, Repr

structure BroadScannerSnapshot where
  identity : ResearchInputIdentity
  observedAt : DateTime
  candidates : List BroadScannerCandidate
  deriving DecidableEq, Repr

structure ActiveMarketDataSubscription where
  instrumentId : String
  symbol : String
  subscribedAt : DateTime
  deriving DecidableEq, Repr

structure SubscriptionCooldown where
  instrumentId : String
  symbol : String
  eligibleAfter : DateTime
  deriving DecidableEq, Repr

structure SubscriptionPolicyConfig where
  capacity : ℤ
  maxCandidateAge : TimeDelta
  minimumResidency : TimeDelta
  evictionCooldown : TimeDelta
  deriving DecidableEq, Repr

structure DesiredMarketDataSubscription where
  instrumentId : String
  symbol : String
  channels : List SubscriptionChannel
  deriving DecidableEq, Repr

structure SubscriptionAction where
  kind : SubscriptionActionKind
  instrumentId : String
  symbol : String
  channels : List SubscriptionChannel
  deriving DecidableEq, Repr

structure SubscriptionPolicyDecision where
  identity : ResearchInputIdentity
  evaluatedAt : DateTime
  candidateObservedAt : DateTime
  status : SubscriptionPolicyStatus
  policySemanticVersion : String
  config : SubscriptionPolicyConfig
  desired : List DesiredMarketDataSubscription
  actions : List SubscriptionAction
  newCooldowns : List SubscriptionCooldown
  deriving DecidableEq, Repr

structure SubscriptionPolicyRuntimeState where
  stateId : String
  decisionSha256 : String
  evaluatedAt : DateTime
  active : List ActiveMarketDataSubscription
  cooldowns : List SubscriptionCooldown
  deriving DecidableEq, Repr

/-- The identity of a candidate: its instrument, with its symbol. -/
def BroadScannerCandidate.key (c : BroadScannerCandidate) : String × String :=
  (c.instrumentId, c.symbol)

def ActiveMarketDataSubscription.key (a : ActiveMarketDataSubscription) : String × String :=
  (a.instrumentId, a.symbol)

def SubscriptionCooldown.key (c : SubscriptionCooldown) : String × String :=
  (c.instrumentId, c.symbol)

/-- The instruments that are subscribed to after a decision, if there is one. -/
def activeOf (state : Option SubscriptionPolicyRuntimeState) : List ActiveMarketDataSubscription :=
  state.elim [] (·.active)

def cooldownsOf (state : Option SubscriptionPolicyRuntimeState) : List SubscriptionCooldown :=
  state.elim [] (·.cooldowns)

end TradingAgent
