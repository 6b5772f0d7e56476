import TradingAgent.Subscription.Policy

/-!
# The state of the subscription policy

What is kept of the decisions (`advanceSubscriptionPolicyState`): since when the instruments are
subscribed to, and until when those that were evicted cool down. Only decisions on current
candidates are taken over. The state is stored as JSON text (`stateBytes`), and read again with
all its checks (`stateFromBytes`).

The texts are the payloads here: a payload is written by `json.dumps` with sorted keys, and read
again as it was. The one error `SubscriptionPolicyStateError` is `none`.
-/

namespace TradingAgent

/-! ## Payloads -/

structure ActivePayload where
  instrumentId : JsonAtom
  subscribedAt : JsonAtom
  symbol : JsonAtom
  deriving DecidableEq, Repr

structure CooldownPayload where
  eligibleAfter : JsonAtom
  instrumentId : JsonAtom
  symbol : JsonAtom
  deriving DecidableEq, Repr

structure StatePayload where
  active : List ActivePayload
  cooldowns : List CooldownPayload
  decisionSha256 : JsonAtom
  evaluatedAt : JsonAtom
  stateId : JsonAtom
  deriving DecidableEq, Repr

/-- The text of a payload, atom by atom. -/
def StatePayload.text (p : StatePayload) : List JsonAtom :=
  .int p.active.length :: p.active.flatMap (fun a => [a.instrumentId, a.subscribedAt, a.symbol]) ++
    .int p.cooldowns.length ::
      p.cooldowns.flatMap (fun c => [c.eligibleAfter, c.instrumentId, c.symbol]) ++
    [p.decisionSha256, p.evaluatedAt, p.stateId]

/-- The function `_payload`. -/
def SubscriptionPolicyRuntimeState.payload (state : SubscriptionPolicyRuntimeState) :
    StatePayload where
  active := state.active.map fun a => ⟨.str a.instrumentId, .time a.subscribedAt, .str a.symbol⟩
  cooldowns := state.cooldowns.map fun c =>
    ⟨.time c.eligibleAfter, .str c.instrumentId, .str c.symbol⟩
  decisionSha256 := .str state.decisionSha256
  evaluatedAt := .time state.evaluatedAt
  stateId := .str state.stateId

/-- The function `_state_sha256`. -/
def stateSha256 (sha : Sha256) (state : SubscriptionPolicyRuntimeState) : String :=
  sha.hexdigest ({ state.payload with stateId := .str "" } : StatePayload).text

/-- The function `_decision_sha256`. -/
def decisionSha256 (sha : Sha256) (decision : SubscriptionPolicyDecision) : String :=
  let channels (channels : List SubscriptionChannel) : List JsonAtom :=
    .int channels.length :: channels.map fun channel => .str channel.value
  sha.hexdigest <|
    .int decision.actions.length :: decision.actions.flatMap (fun item =>
      [.str item.kind.value, .str item.instrumentId, .str item.symbol] ++ channels item.channels) ++
    .time decision.candidateObservedAt ::
    [.int decision.config.capacity, .int decision.config.maxCandidateAge,
      .int decision.config.minimumResidency, .int decision.config.evictionCooldown] ++
    .int decision.desired.length :: decision.desired.flatMap (fun item =>
      [.str item.instrumentId, .str item.symbol] ++ channels item.channels) ++
    .time decision.evaluatedAt :: .str decision.identity.identitySha256 ::
    .int decision.newCooldowns.length :: decision.newCooldowns.flatMap (fun item =>
      [.str item.instrumentId, .str item.symbol, .time item.eligibleAfter]) ++
    [.str decision.policySemanticVersion, .str decision.status.value]

/-! ## The checks of a state -/

/-- The function `_valid_identity_set`. -/
def validIdentitySet (keys : List (String × String)) : Bool :=
  uniqueIdentities keys ∧ keys.all validIdentity

/-- The function `_valid_active`. -/
def validActiveState (active : List ActiveMarketDataSubscription) (evaluatedAt : DateTime) : Bool :=
  validIdentitySet (active.map (·.key)) ∧
    ∀ a ∈ active, a.subscribedAt.aware ∧ ¬ evaluatedAt < a.subscribedAt

/-- The function `_valid_cooldowns`. -/
def validCooldownState (cooldowns : List SubscriptionCooldown) (evaluatedAt : DateTime) : Bool :=
  validIdentitySet (cooldowns.map (·.key)) ∧
    ∀ c ∈ cooldowns, c.eligibleAfter.aware ∧ ¬ c.eligibleAfter ≤ evaluatedAt

def validateSubscriptionPolicyState (sha : Sha256) (state : SubscriptionPolicyRuntimeState) :
    Bool :=
  isHex64 state.stateId ∧ isHex64 state.decisionSha256 ∧ state.evaluatedAt.aware ∧
    validActiveState state.active state.evaluatedAt ∧
    validCooldownState state.cooldowns state.evaluatedAt ∧
    (∀ a ∈ state.active, a.instrumentId ∉ state.cooldowns.map (·.instrumentId)) ∧
    state.stateId = stateSha256 sha state

/-! ## The next state -/

/-- The function `_validate_decision`. -/
def validateDecision (decision : SubscriptionPolicyDecision) : Bool :=
  decision.status = .ready ∧ decision.evaluatedAt.aware ∧ decision.candidateObservedAt.aware ∧
    ¬ decision.evaluatedAt < decision.candidateObservedAt ∧
    (decision.desired.map (·.instrumentId)).Nodup

/-- The function `_subscribed_at`. -/
def subscribedAt (prior : Option ActiveMarketDataSubscription) (symbol : String)
    (evaluatedAt : DateTime) : Option DateTime :=
  match prior with
  | none => some evaluatedAt
  | some prior => if prior.symbol ≠ symbol then none else some prior.subscribedAt

/-- The subscription that a decision starts, or keeps. -/
def activate (prior : List ActiveMarketDataSubscription) (evaluatedAt : DateTime)
    (item : DesiredMarketDataSubscription) : Option ActiveMarketDataSubscription :=
  (subscribedAt (dictGet (·.instrumentId) prior item.instrumentId) item.symbol evaluatedAt).map
    fun time => ⟨item.instrumentId, item.symbol, time⟩

/-- The loop over the new cooldowns: one of an instrument that already cools down is the same. -/
def addCooldown (cooldowns : List SubscriptionCooldown) (item : SubscriptionCooldown) :
    Option (List SubscriptionCooldown) :=
  match cooldowns.find? (·.instrumentId = item.instrumentId) with
  | none => some (cooldowns ++ [item])
  | some existing =>
    if existing.symbol ≠ item.symbol ∨ existing.eligibleAfter.instant ≠ item.eligibleAfter.instant
    then none
    else some (cooldowns.map fun c => if c.instrumentId = item.instrumentId then item else c)

/-- The cooldowns that are kept. -/
def keptCooldowns (prior : List SubscriptionCooldown) (decision : SubscriptionPolicyDecision) :
    List SubscriptionCooldown :=
  prior.filter fun c => decision.evaluatedAt < c.eligibleAfter ∧
    c.instrumentId ∉ decision.desired.map (·.instrumentId)

/-- Whether a decision may follow a state. -/
def mayFollow (sha : Sha256) (prior : Option SubscriptionPolicyRuntimeState)
    (decision : SubscriptionPolicyDecision) : Bool :=
  ∀ state ∈ prior, validateSubscriptionPolicyState sha state ∧
    ¬ decision.evaluatedAt < state.evaluatedAt

/-- The state of a decision, with its digest. -/
def makeState (sha : Sha256) (decision : SubscriptionPolicyDecision)
    (active : List ActiveMarketDataSubscription) (cooldowns : List SubscriptionCooldown) :
    SubscriptionPolicyRuntimeState :=
  let provisional : SubscriptionPolicyRuntimeState :=
    { stateId := String.ofList (List.replicate 64 '0')
      decisionSha256 := decisionSha256 sha decision
      evaluatedAt := decision.evaluatedAt
      active := active
      cooldowns := cooldowns.insertionSort fun a b => a.instrumentId ≤ b.instrumentId }
  { provisional with stateId := stateSha256 sha provisional }

def advanceSubscriptionPolicyState (sha : Sha256) (prior : Option SubscriptionPolicyRuntimeState)
    (decision : SubscriptionPolicyDecision) : Option SubscriptionPolicyRuntimeState :=
  if validateDecision decision = false ∨ mayFollow sha prior decision = false then none
  else
    (decision.desired.mapM (activate (activeOf prior) decision.evaluatedAt)).bind fun active =>
    (decision.newCooldowns.foldlM addCooldown
      (keptCooldowns (cooldownsOf prior) decision)).bind fun cooldowns =>
    let state := makeState sha decision active cooldowns
    if validateSubscriptionPolicyState sha state then some state else none

/-! ## Storing a state -/

def stateBytes (sha : Sha256) (state : SubscriptionPolicyRuntimeState) : Option StatePayload :=
  if validateSubscriptionPolicyState sha state then some state.payload else none

/-- The atom is a text. -/
def JsonAtom.text : JsonAtom → Option String
  | .str s => some s
  | _ => none

/-- The function `fromisoformat`, on what was written by `isoformat`. -/
def JsonAtom.fromisoformat : JsonAtom → Option DateTime
  | .time t => some t
  | _ => none

def ActivePayload.read (p : ActivePayload) : Option ActiveMarketDataSubscription := do
  pure ⟨← JsonAtom.text p.instrumentId, ← JsonAtom.text p.symbol,
    ← JsonAtom.fromisoformat p.subscribedAt⟩

def CooldownPayload.read (p : CooldownPayload) : Option SubscriptionCooldown := do
  pure ⟨← JsonAtom.text p.instrumentId, ← JsonAtom.text p.symbol,
    ← JsonAtom.fromisoformat p.eligibleAfter⟩

def stateFromBytes (sha : Sha256) (value : StatePayload) :
    Option SubscriptionPolicyRuntimeState := do
  let active ← value.active.mapM ActivePayload.read
  let cooldowns ← value.cooldowns.mapM CooldownPayload.read
  let state : SubscriptionPolicyRuntimeState :=
    { stateId := ← JsonAtom.text value.stateId
      decisionSha256 := ← JsonAtom.text value.decisionSha256
      evaluatedAt := ← JsonAtom.fromisoformat value.evaluatedAt
      active, cooldowns }
  if stateBytes sha state = some value then some state else none

end TradingAgent
