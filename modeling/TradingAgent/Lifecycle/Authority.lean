import TradingAgent.Library.Journal
import TradingAgent.Lifecycle.Models

/-!
# The chain of a lifecycle, and its authority

The checks of the events of one version, each made of an event and the ones before it: that they are
a chain (`requireValidLifecycleChain`), and that the version had the authority to be a champion
whenever it became one (`requirePersistedChampionAuthority`, and `requireNewChampionAuthority` for
an event that is new).
-/

namespace TradingAgent.Lifecycle

open Except Journal

/-- What a call may raise. -/
inductive LedgerError
  | conflict
  | invalidSource
  deriving DecidableEq, Repr

/-! ## Chains -/

/-- A version, and the hypothesis that it tests. -/
structure Parent where
  version : StrategyVersionRegistration
  hypothesis : HypothesisRegistration
  deriving DecidableEq, Repr

/-- The keys that an imported version shows: of its hypothesis, its scope and itself. -/
def importEvidence (sha : Sha256) (parent : Parent) : List String :=
  [hypothesisRegistrationKey sha parent.hypothesis, parent.version.experimentScopeKey,
    strategyVersionRegistrationKey sha parent.version].insertionSort (· ≤ ·)

def requireValidImportEvidence (sha : Sha256) (parent : Parent) (event : StrategyLifecycleEvent) :
    Except LedgerError Unit :=
  if event.toState = .idea then .ok ()
  else raiseIf (event.evidenceKeys ≠ importEvidence sha parent) .invalidSource

/-- The last state before an event that was not a suspension. -/
def previousActive (priorEvents : List StrategyLifecycleEvent) : Option StrategyLifecycleState :=
  (priorEvents.reverse.map (·.toState)).find? (· ≠ .suspended)

def requireValidSuspendedRecovery (priorEvents : List StrategyLifecycleEvent)
    (target : StrategyLifecycleState) : Except LedgerError Unit :=
  if target = .rejected then .ok ()
  else match previousActive priorEvents with
    | none => .error .invalidSource
    | some active => raiseIf (lifecycleStateRank active < lifecycleStateRank target) .invalidSource

/-- The check of an event that follows others. -/
def requireSuccessor (sha : Sha256) (priorEvents : List StrategyLifecycleEvent)
    (previous event : StrategyLifecycleEvent) : Except LedgerError Unit := do
  raiseIf (previous.toState = .rejected ∨ event.eventKind ≠ .transition ∨
    event.previousEventKey ≠ some (strategyLifecycleEventKey sha previous) ∨
    event.fromState ≠ some previous.toState ∨ event.decidedAt < previous.decidedAt ∨
    event.decisionSessionDate < previous.effectiveSessionDate) .invalidSource
  if previous.toState = .suspended then
    requireValidSuspendedRecovery priorEvents event.toState
  else .ok ()

/-- The check of an event, after the ones before it. -/
def requireLifecycleEvent (sha : Sha256) (parent : Parent)
    (priorEvents : List StrategyLifecycleEvent) (event : StrategyLifecycleEvent) :
    Except LedgerError Unit := do
  raiseIf (event.strategyVersion ≠ parent.version.strategyVersion ∨
    event.sequence ≠ priorEvents.length + 1 ∨
    event.decidedAt < parent.version.ledgerRecordedAt) .invalidSource
  match priorEvents.getLast? with
  | none =>
    raiseIf (event.eventKind ≠ .registration) .invalidSource
    requireValidImportEvidence sha parent event
  | some previous => requireSuccessor sha priorEvents previous event

def requireValidLifecycleChain (sha : Sha256) (parent : Option Parent)
    (events : List StrategyLifecycleEvent) : Except LedgerError Unit :=
  match parent with
  | none => raiseIf (events ≠ []) .invalidSource
  | some parent => checkEach (requireLifecycleEvent sha parent) [] events

/-! ## Authority -/

/-- The mode that a champion operates in: `_required_champion_mode`. -/
def requiredChampionMode : StrategyLifecycleState → Option AgentOperatingMode
  | .shadowChampion => some .shadow
  | .paperChampion => some .alpacaPaper
  | .idea | .historical | .experimentalShadow | .experimentalPaper | .challenger | .suspended
  | .rejected => none

def requireExactAuthority (sha : Sha256) (binding : Option StrategyAuthorityBinding)
    (event : StrategyLifecycleEvent) (requiredMode : AgentOperatingMode) :
    Except LedgerError Unit :=
  match binding with
  | none => .error .invalidSource
  | some binding =>
    raiseIf (binding.operatingMode ≠ requiredMode ∨ event.decidedAt < binding.boundAt ∨
      strategyAuthorityBindingKey sha binding ∉ event.evidenceKeys) .invalidSource

/-- Whether a version has been traded on paper. -/
def hasPaperPhase (events : List StrategyLifecycleEvent) : Bool :=
  events.any (·.toState = .experimentalPaper)

def requireChampionPath (priorEvents : List StrategyLifecycleEvent)
    (target : StrategyLifecycleState) : Except LedgerError Unit :=
  match target with
  | .shadowChampion => raiseIf (hasPaperPhase priorEvents = true) .invalidSource
  | .paperChampion => raiseIf (hasPaperPhase priorEvents = false) .invalidSource
  | .idea | .historical | .experimentalShadow | .experimentalPaper | .challenger | .suspended
  | .rejected => .ok ()

def requireNewChampionAuthority (sha : Sha256) (binding : Option StrategyAuthorityBinding)
    (priorEvents : List StrategyLifecycleEvent) (event : StrategyLifecycleEvent) :
    Except LedgerError Unit :=
  match requiredChampionMode event.toState with
  | none => .ok ()
  | some requiredMode => do
    requireExactAuthority sha binding event requiredMode
    requireChampionPath priorEvents event.toState

/-- A champion from before there were authorities. -/
def isLegacyPaperChampion (binding : Option StrategyAuthorityBinding)
    (event : StrategyLifecycleEvent) : Bool :=
  event.toState = .paperChampion ∧ binding.all fun binding => event.decidedAt < binding.boundAt

def requirePersistedChampionAuthority (sha : Sha256) (binding : Option StrategyAuthorityBinding)
    (events : List StrategyLifecycleEvent) : Except LedgerError Unit :=
  checkEach (fun priorEvents event =>
    if isLegacyPaperChampion binding event then .ok ()
    else requireNewChampionAuthority sha binding priorEvents event) [] events

/-! ## What the checks say -/

variable {sha : Sha256} {parent : Parent} {binding : Option StrategyAuthorityBinding}
  {priorEvents events : List StrategyLifecycleEvent} {previous event : StrategyLifecycleEvent}

theorem requireValidLifecycleChain_some :
    requireValidLifecycleChain sha (some parent) events = .ok () ↔
      Admitted (fun priorEvents event =>
        requireLifecycleEvent sha parent priorEvents event = .ok ()) events :=
  checkEach_eq_ok

/-- What an event of a chain says about itself and the version. -/
theorem requireLifecycleEvent_cases (h : requireLifecycleEvent sha parent priorEvents event = .ok ()) :
    event.strategyVersion = parent.version.strategyVersion ∧
      event.sequence = priorEvents.length + 1 ∧ parent.version.ledgerRecordedAt ≤ event.decidedAt ∧
      (priorEvents = [] ∧ event.eventKind = .registration ∧
          requireValidImportEvidence sha parent event = .ok () ∨
        ∃ earlier previous, priorEvents = earlier ++ [previous] ∧
          requireSuccessor sha priorEvents previous event = .ok ()) := by
  obtain ⟨_, hevent, h⟩ := bind_eq_ok.1 h
  rw [raiseIf_eq_ok, not_or, not_or, not_not, not_not, DateTime.not_lt] at hevent
  refine ⟨hevent.1, hevent.2.1, hevent.2.2, ?_⟩
  rcases List.eq_nil_or_concat' priorEvents with rfl | ⟨earlier, previous, rfl⟩
  · obtain ⟨_, hkind, h⟩ := bind_eq_ok.1 h
    exact .inl ⟨rfl, by simpa using hkind, h⟩
  · rw [List.getLast?_concat] at h
    exact .inr ⟨earlier, previous, rfl, h⟩

theorem requireSuccessor_cases (h : requireSuccessor sha priorEvents previous event = .ok ()) :
    previous.toState ≠ .rejected ∧ event.eventKind = .transition ∧
      event.previousEventKey = some (strategyLifecycleEventKey sha previous) ∧
      event.fromState = some previous.toState ∧ previous.decidedAt ≤ event.decidedAt ∧
      previous.effectiveSessionDate ≤ event.decisionSessionDate ∧
      (previous.toState = .suspended →
        requireValidSuspendedRecovery priorEvents event.toState = .ok ()) := by
  obtain ⟨_, hevent, h⟩ := bind_eq_ok.1 h
  simp only [raiseIf_eq_ok, not_or, not_not, ne_eq, DateTime.not_lt] at hevent
  obtain ⟨hrejected, hkind, hkey, hfrom, hdecided, hdate⟩ := hevent
  refine ⟨hrejected, hkind, hkey, hfrom, hdecided, not_lt.1 hdate, fun hsuspended => ?_⟩
  rwa [if_pos hsuspended] at h

/-- A suspended version is rejected, or it recovers to no more than it was. -/
theorem requireValidSuspendedRecovery_cases {target : StrategyLifecycleState}
    (h : requireValidSuspendedRecovery priorEvents target = .ok ()) :
    target = .rejected ∨ ∃ active, previousActive priorEvents = some active ∧
      lifecycleStateRank target ≤ lifecycleStateRank active := by
  rw [requireValidSuspendedRecovery] at h
  split_ifs at h with htarget
  · exact .inl htarget
  · cases hactive : previousActive priorEvents with
    | none =>
      rw [hactive] at h
      cases h
    | some active =>
      rw [hactive] at h
      exact .inr ⟨active, rfl, not_lt.1 (raiseIf_eq_ok.1 h)⟩

/-- A new champion is bound to the mode that it operates in, since before the decision, and shows the
    key of the binding. -/
theorem requireNewChampionAuthority_cases {mode : AgentOperatingMode}
    (h : requireNewChampionAuthority sha binding priorEvents event = .ok ())
    (hmode : requiredChampionMode event.toState = some mode) :
    requireChampionPath priorEvents event.toState = .ok () ∧
      ∃ bound, binding = some bound ∧ bound.operatingMode = mode ∧
        bound.boundAt ≤ event.decidedAt ∧
        strategyAuthorityBindingKey sha bound ∈ event.evidenceKeys := by
  rw [requireNewChampionAuthority, hmode] at h
  obtain ⟨⟨⟩, hexact, hpath⟩ := bind_eq_ok.1 h
  refine ⟨hpath, ?_⟩
  cases binding with
  | none => cases hexact
  | some bound =>
    simp only [requireExactAuthority, raiseIf_eq_ok, not_or, not_not, ne_eq, DateTime.not_lt]
      at hexact
    exact ⟨bound, rfl, hexact.1, hexact.2.1, hexact.2.2⟩

/-- What is required of a new event is all that is required of a stored one. -/
theorem requirePersistedChampionAuthority_of_admitted
    (h : Admitted (fun priorEvents event =>
      requireNewChampionAuthority sha binding priorEvents event = .ok ()) events) :
    requirePersistedChampionAuthority sha binding events = .ok () := by
  refine checkEach_eq_ok.2 (h.mono fun priorEvents event _ hevent => ?_)
  split_ifs
  · rfl
  · exact hevent

end TradingAgent.Lifecycle
