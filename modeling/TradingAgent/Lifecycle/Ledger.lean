import TradingAgent.Library.Transaction
import TradingAgent.Lifecycle.Authority

/-!
# The experiment ledger

* The tables of the hypotheses, the versions of strategies, their authorities and the events of
  their lifecycles (`Ledger`), the calls that write them, and those that read the lifecycles. The
  write of a call is the last thing that it does, so that one that raises an error has not written.
* What a call that returns has done is said once for each (`registerHypothesis_cases`,
  `registerStrategyVersion_cases`, `registerStrategyAuthorityBinding_cases`, `append_cases`).
* The calls are made in transactions, by one writer at a time (`system`).
-/

namespace TradingAgent.Lifecycle

open Except Journal Transition

/-- The rows of the tables. A row stands for the JSON text that it holds; its other columns are
    copies of fields of the record, and its key is that of the record. -/
structure Ledger where
  hypotheses : List HypothesisRegistration := []
  strategyVersions : List StrategyVersionRegistration := []
  strategyAuthorityBindings : List StrategyAuthorityBinding := []
  strategyLifecycleEvents : List StrategyLifecycleEvent := []
  deriving DecidableEq, Repr

/-- What the calls depend on, apart from the tables. -/
structure Context where
  sha : Sha256
  newYork : ZoneInfo

section Calls

variable (ctx : Context)

/-! ## Reading -/

def hypothesisById (ledger : Ledger) (hypothesisId : String) :
    Except LedgerError (Option HypothesisRegistration) :=
  match ledger.hypotheses.find? (·.hypothesisId = hypothesisId) with
  | none => .ok none
  | some stored => do
    raiseIf (stored.validateRegistration ctx.sha = false) .invalidSource
    return some stored

def strategyVersionById (ledger : Ledger) (strategyVersion : String) :
    Except LedgerError (Option StrategyVersionRegistration) :=
  match ledger.strategyVersions.find? (·.strategyVersion = strategyVersion) with
  | none => .ok none
  | some stored => do
    raiseIf (stored.validateRegistration = false) .invalidSource
    return some stored

def strategyAuthorityByVersion (ledger : Ledger) (strategyVersion : String) :
    Except LedgerError (Option StrategyAuthorityBinding) :=
  match ledger.strategyAuthorityBindings.find? (·.strategyVersion = strategyVersion) with
  | none => .ok none
  | some stored => do
    raiseIf (stored.validateBinding = false) .invalidSource
    return some stored

def versionMatchesHypothesis (version : StrategyVersionRegistration)
    (hypothesis : HypothesisRegistration) : Bool :=
  version.hypothesisId = hypothesis.hypothesisId ∧
    version.experimentScopeKey = hypothesis.experimentScopeKey ∧
    version.laneId = hypothesis.primaryLane ∧
    version.sourceRegisteredAt.instant = hypothesis.sourceRegisteredAt.instant ∧
    hypothesis.ledgerRecordedAt ≤ version.ledgerRecordedAt

def verifiedLifecycleParent (ledger : Ledger) (strategyVersion : String) :
    Except LedgerError (Option Parent) := do
  match ← strategyVersionById ledger strategyVersion with
  | none => return none
  | some version =>
    match ← hypothesisById ctx ledger version.hypothesisId with
    | none => .error .invalidSource
    | some hypothesis =>
      raiseIf (versionMatchesHypothesis version hypothesis = false) .invalidSource
      return some ⟨version, hypothesis⟩

def lifecycleEventsByVersion (ledger : Ledger) (strategyVersion : String) :
    Except LedgerError (List StrategyLifecycleEvent) :=
  ((ledger.strategyLifecycleEvents.filter (·.strategyVersion = strategyVersion)).insertionSort
    fun e f => e.sequence ≤ f.sequence).mapM fun stored => do
      raiseIf (stored.validateEvent ctx.newYork = false) .invalidSource
      return stored

/-- What is known of a version before an event of it is appended: its parent, its events and its
    authority, which have all been checked. -/
structure VersionState where
  parent : Option Parent
  events : List StrategyLifecycleEvent
  authority : Option StrategyAuthorityBinding
  deriving DecidableEq, Repr

def readVersion (ledger : Ledger) (strategyVersion : String) : Except LedgerError VersionState := do
  let parent ← verifiedLifecycleParent ctx ledger strategyVersion
  let events ← lifecycleEventsByVersion ctx ledger strategyVersion
  requireValidLifecycleChain ctx.sha parent events
  let authority ← strategyAuthorityByVersion ledger strategyVersion
  requirePersistedChampionAuthority ctx.sha authority events
  return ⟨parent, events, authority⟩

def lifecycleEvents (ledger : Ledger) (strategyVersion : String) :
    Except LedgerError (List StrategyLifecycleEvent) := do
  let parent ← verifiedLifecycleParent ctx ledger strategyVersion
  let events ← lifecycleEventsByVersion ctx ledger strategyVersion
  let authority ← strategyAuthorityByVersion ledger strategyVersion
  requireValidLifecycleChain ctx.sha parent events
  requirePersistedChampionAuthority ctx.sha authority events
  return events

def lifecycleState (ledger : Ledger) (strategyVersion : String) (asOfSessionDate : Date) :
    Except LedgerError (Option StrategyLifecycleEvent) := do
  let events ← lifecycleEvents ctx ledger strategyVersion
  return inEffect (fun event => event.effectiveSessionDate ≤ asOfSessionDate) events

/-! ## Writing -/

/-- Whether a record is stored already: with the same text, and equal to it. -/
def isSame {α : Type} [DecidableEq α] (key : α → String) (normal : α → α) (existing record : α) :
    Bool :=
  key existing = key record ∧ normal existing = normal record

def registerHypothesis (registration : HypothesisRegistration) (ledger : Ledger) :
    Except LedgerError (Bool × Ledger) := do
  raiseIf (registration.validateRegistration ctx.sha = false) .invalidSource
  match ← hypothesisById ctx ledger registration.hypothesisId with
  | some existing =>
    if isSame (hypothesisRegistrationKey ctx.sha) (·.normal) existing registration then
      return (false, ledger)
    else .error .conflict
  | none =>
    raiseIf (ledger.hypotheses.any fun stored => hypothesisRegistrationKey ctx.sha stored =
      hypothesisRegistrationKey ctx.sha registration) .conflict
    return (true, { ledger with hypotheses := ledger.hypotheses ++ [registration] })

def registerStrategyVersion (registration : StrategyVersionRegistration) (ledger : Ledger) :
    Except LedgerError (Bool × Ledger) := do
  raiseIf (registration.validateRegistration = false) .invalidSource
  let parent ← hypothesisById ctx ledger registration.hypothesisId
  raiseIf (¬ parent.any (versionMatchesHypothesis registration)) .invalidSource
  match ← strategyVersionById ledger registration.strategyVersion with
  | some existing =>
    if isSame (strategyVersionRegistrationKey ctx.sha) (·.normal) existing registration then
      return (false, ledger)
    else .error .conflict
  | none =>
    raiseIf (ledger.strategyVersions.any fun stored =>
      strategyVersionRegistrationKey ctx.sha stored =
        strategyVersionRegistrationKey ctx.sha registration) .conflict
    return (true, { ledger with strategyVersions := ledger.strategyVersions ++ [registration] })

def authorityMatchesVersion (binding : StrategyAuthorityBinding)
    (version : StrategyVersionRegistration) : Bool :=
  binding.strategyLane.strategyId = version.strategyId ∧ binding.legacyLaneId = version.laneId ∧
    version.ledgerRecordedAt ≤ binding.boundAt

def registerStrategyAuthorityBinding (binding : StrategyAuthorityBinding) (ledger : Ledger) :
    Except LedgerError (Bool × Ledger) := do
  raiseIf (binding.validateBinding = false) .invalidSource
  let parent ← strategyVersionById ledger binding.strategyVersion
  raiseIf (¬ parent.any (authorityMatchesVersion binding)) .invalidSource
  match ← strategyAuthorityByVersion ledger binding.strategyVersion with
  | some existing =>
    if isSame (strategyAuthorityBindingKey ctx.sha) (·.normal) existing binding then
      return (false, ledger)
    else .error .conflict
  | none =>
    raiseIf (ledger.strategyAuthorityBindings.any fun stored =>
      strategyAuthorityBindingKey ctx.sha stored = strategyAuthorityBindingKey ctx.sha binding)
      .conflict
    return (true,
      { ledger with strategyAuthorityBindings := ledger.strategyAuthorityBindings ++ [binding] })

/-- The row is refused if its key, or a constraint of its table, is taken. -/
def insertLifecycleEvent (event : StrategyLifecycleEvent) (ledger : Ledger) :
    Except LedgerError Ledger := do
  raiseIf ((ledger.strategyLifecycleEvents.any fun stored =>
      strategyLifecycleEventKey ctx.sha stored = strategyLifecycleEventKey ctx.sha event ∨
      stored.strategyVersion = event.strategyVersion ∧ stored.sequence = event.sequence) ∨
    ¬ (ledger.strategyVersions.any (·.strategyVersion = event.strategyVersion)) ∨
    ¬ (event.previousEventKey.all fun previous =>
      ledger.strategyLifecycleEvents.any fun stored =>
        strategyLifecycleEventKey ctx.sha stored = previous)) .conflict
  return { ledger with strategyLifecycleEvents := ledger.strategyLifecycleEvents ++ [event] }

def requireValidLifecycleCandidate (parent : Option Parent) (events : List StrategyLifecycleEvent)
    (event : StrategyLifecycleEvent) : Except LedgerError Unit := do
  raiseIf (parent = none) .invalidSource
  requireValidLifecycleChain ctx.sha parent (events ++ [event])

def appendLifecycleEvent (event : StrategyLifecycleEvent) (ledger : Ledger) :
    Except LedgerError (Bool × Ledger) := do
  raiseIf (event.validateEvent ctx.newYork = false) .invalidSource
  let state ← readVersion ctx ledger event.strategyVersion
  match state.events.find? (·.sequence = event.sequence) with
  | some existing =>
    if isSame (strategyLifecycleEventKey ctx.sha) (·.normal) existing event then
      return (false, ledger)
    else .error .conflict
  | none =>
    requireValidLifecycleCandidate ctx state.parent state.events event
    requireNewChampionAuthority ctx.sha state.authority state.events event
    let ledger ← insertLifecycleEvent ctx event ledger
    return (true, ledger)

/-! ## Runs -/

inductive Call
  | hypothesis (registration : HypothesisRegistration)
  | version (registration : StrategyVersionRegistration)
  | authority (binding : StrategyAuthorityBinding)
  | event (event : StrategyLifecycleEvent)

def run (ledger : Ledger) : Call → Except LedgerError (Bool × Ledger)
  | .hypothesis registration => registerHypothesis ctx registration ledger
  | .version registration => registerStrategyVersion ctx registration ledger
  | .authority binding => registerStrategyAuthorityBinding ctx binding ledger
  | .event event => appendLifecycleEvent ctx event ledger

def Ledger.after (ledger : Ledger) (call : Call) : Ledger :=
  ((run ctx ledger call).map (·.2)).toOption.getD ledger

/-- The ledger of a new database, under transactions of any calls. -/
def system : System (Transaction.Database Ledger) (Transaction.Event Call) :=
  Transaction.system {} (Ledger.after ctx)

end Calls

/-! ## What the calls do -/

variable {ctx : Context} {ledger next : Ledger} {b : Bool}

/-- A lookup that succeeds, of a record that is valid. -/
theorem hypothesisById_eq_ok {hypothesisId : String} {found : Option HypothesisRegistration}
    (h : hypothesisById ctx ledger hypothesisId = .ok found) :
    found = ledger.hypotheses.find? (·.hypothesisId = hypothesisId) := by
  rw [hypothesisById] at h
  cases hfind : ledger.hypotheses.find? (·.hypothesisId = hypothesisId) with
  | none =>
    rw [hfind] at h
    cases h
    rfl
  | some stored =>
    rw [hfind] at h
    obtain ⟨_, -, h⟩ := bind_eq_ok.1 h
    cases h
    rfl

theorem strategyVersionById_eq_ok {version : String} {found : Option StrategyVersionRegistration}
    (h : strategyVersionById ledger version = .ok found) :
    found = ledger.strategyVersions.find? (·.strategyVersion = version) := by
  rw [strategyVersionById] at h
  cases hfind : ledger.strategyVersions.find? (·.strategyVersion = version) with
  | none =>
    rw [hfind] at h
    cases h
    rfl
  | some stored =>
    rw [hfind] at h
    obtain ⟨_, -, h⟩ := bind_eq_ok.1 h
    cases h
    rfl

theorem strategyAuthorityByVersion_eq_ok {version : String}
    {found : Option StrategyAuthorityBinding}
    (h : strategyAuthorityByVersion ledger version = .ok found) :
    found = ledger.strategyAuthorityBindings.find? (·.strategyVersion = version) := by
  rw [strategyAuthorityByVersion] at h
  cases hfind : ledger.strategyAuthorityBindings.find? (·.strategyVersion = version) with
  | none =>
    rw [hfind] at h
    cases h
    rfl
  | some stored =>
    rw [hfind] at h
    obtain ⟨_, -, h⟩ := bind_eq_ok.1 h
    cases h
    rfl

/-- A hypothesis is registered once. -/
theorem registerHypothesis_cases {registration : HypothesisRegistration}
    (h : registerHypothesis ctx registration ledger = .ok (b, next)) :
    registration.validateRegistration ctx.sha = true ∧
      (b = false ∧ next = ledger ∨
        ledger.hypotheses.find? (·.hypothesisId = registration.hypothesisId) = none ∧ b = true ∧
          next = { ledger with hypotheses := ledger.hypotheses ++ [registration] }) := by
  obtain ⟨_, hvalid, h⟩ := bind_eq_ok.1 h
  refine ⟨by simpa using hvalid, ?_⟩
  obtain ⟨found, hfound, h⟩ := bind_eq_ok.1 h
  cases found with
  | some existing =>
    dsimp only at h
    split_ifs at h
    cases h
    exact .inl ⟨rfl, rfl⟩
  | none =>
    obtain ⟨_, -, h⟩ := bind_eq_ok.1 h
    cases h
    exact .inr ⟨(hypothesisById_eq_ok hfound).symm, rfl, rfl⟩

/-- A version is registered once, and matches its hypothesis. -/
theorem registerStrategyVersion_cases {registration : StrategyVersionRegistration}
    (h : registerStrategyVersion ctx registration ledger = .ok (b, next)) :
    registration.validateRegistration = true ∧
      (∃ parent,
        ledger.hypotheses.find? (·.hypothesisId = registration.hypothesisId) = some parent ∧
          versionMatchesHypothesis registration parent = true) ∧
      (b = false ∧ next = ledger ∨
        ledger.strategyVersions.find? (·.strategyVersion = registration.strategyVersion) = none ∧
          b = true ∧ next =
            { ledger with strategyVersions := ledger.strategyVersions ++ [registration] }) := by
  obtain ⟨_, hvalid, h⟩ := bind_eq_ok.1 h
  obtain ⟨parent, hparent, h⟩ := bind_eq_ok.1 h
  obtain ⟨_, hmatches, hrest⟩ := bind_eq_ok.1 h
  rw [raiseIf_eq_ok, not_not, Option.any_eq_true] at hmatches
  obtain ⟨hypothesis, rfl, hmatches⟩ := hmatches
  refine ⟨by simpa using hvalid, ⟨hypothesis, (hypothesisById_eq_ok hparent).symm, hmatches⟩, ?_⟩
  obtain ⟨found, hfound, h⟩ := bind_eq_ok.1 hrest
  cases found with
  | some existing =>
    dsimp only at h
    split_ifs at h
    cases h
    exact .inl ⟨rfl, rfl⟩
  | none =>
    obtain ⟨_, -, h⟩ := bind_eq_ok.1 h
    cases h
    exact .inr ⟨(strategyVersionById_eq_ok hfound).symm, rfl, rfl⟩

/-- A version is bound to an authority once. -/
theorem registerStrategyAuthorityBinding_cases {binding : StrategyAuthorityBinding}
    (h : registerStrategyAuthorityBinding ctx binding ledger = .ok (b, next)) :
    binding.validateBinding = true ∧
      (∃ parent, ledger.strategyVersions.find? (·.strategyVersion = binding.strategyVersion) =
        some parent) ∧
      (b = false ∧ next = ledger ∨
        ledger.strategyAuthorityBindings.find? (·.strategyVersion = binding.strategyVersion) =
            none ∧
          b = true ∧ next = { ledger with
            strategyAuthorityBindings := ledger.strategyAuthorityBindings ++ [binding] }) := by
  obtain ⟨_, hvalid, h⟩ := bind_eq_ok.1 h
  obtain ⟨parent, hparent, h⟩ := bind_eq_ok.1 h
  obtain ⟨_, hmatches, hrest⟩ := bind_eq_ok.1 h
  rw [raiseIf_eq_ok, not_not, Option.any_eq_true] at hmatches
  obtain ⟨version, rfl, -⟩ := hmatches
  refine ⟨by simpa using hvalid, ⟨version, (strategyVersionById_eq_ok hparent).symm⟩, ?_⟩
  obtain ⟨found, hfound, h⟩ := bind_eq_ok.1 hrest
  cases found with
  | some existing =>
    dsimp only at h
    split_ifs at h
    cases h
    exact .inl ⟨rfl, rfl⟩
  | none =>
    obtain ⟨_, -, h⟩ := bind_eq_ok.1 h
    cases h
    exact .inr ⟨(strategyAuthorityByVersion_eq_ok hfound).symm, rfl, rfl⟩

/-- An event is appended to a version that was read, and that admits it. -/
theorem append_cases {event : StrategyLifecycleEvent}
    (h : appendLifecycleEvent ctx event ledger = .ok (b, next)) :
    event.validateEvent ctx.newYork = true ∧
      ∃ state, readVersion ctx ledger event.strategyVersion = .ok state ∧
        (b = false ∧ next = ledger ∨
          (∃ parent, state.parent = some parent) ∧
            requireValidLifecycleChain ctx.sha state.parent (state.events ++ [event]) = .ok () ∧
            requireNewChampionAuthority ctx.sha state.authority state.events event = .ok () ∧
            b = true ∧ next = { ledger with
              strategyLifecycleEvents := ledger.strategyLifecycleEvents ++ [event] }) := by
  obtain ⟨_, hvalid, h⟩ := bind_eq_ok.1 h
  obtain ⟨state, hstate, h⟩ := bind_eq_ok.1 h
  refine ⟨by simpa using hvalid, state, hstate, ?_⟩
  cases hfind : state.events.find? (·.sequence = event.sequence) with
  | some existing =>
    simp only [hfind] at h
    split_ifs at h
    cases h
    exact .inl ⟨rfl, rfl⟩
  | none =>
    simp only [hfind] at h
    obtain ⟨⟨⟩, hcandidate, h⟩ := bind_eq_ok.1 h
    obtain ⟨⟨⟩, hauthority, h⟩ := bind_eq_ok.1 h
    obtain ⟨written, hwritten, h⟩ := bind_eq_ok.1 h
    cases h
    obtain ⟨_, hparent, hchain⟩ := bind_eq_ok.1 hcandidate
    obtain ⟨_, -, hwritten⟩ := bind_eq_ok.1 hwritten
    cases hwritten
    exact .inr ⟨Option.ne_none_iff_exists'.1 (by simpa using hparent), hchain, hauthority, rfl, rfl⟩

/-- The ledger is as it was, or the call has returned. -/
theorem after_cases (ctx : Context) (ledger : Ledger) (call : Call) :
    ledger.after ctx call = ledger ∨ ∃ b, run ctx ledger call = .ok (b, ledger.after ctx call) := by
  cases h : run ctx ledger call with
  | error error => exact .inl (by rw [Ledger.after, h]; rfl)
  | ok result => exact .inr ⟨result.1, by rw [Ledger.after, h]; rfl⟩

end TradingAgent.Lifecycle
