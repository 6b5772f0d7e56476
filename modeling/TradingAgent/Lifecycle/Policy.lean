import TradingAgent.Lifecycle.History
import TradingAgent.Lifecycle.Path

/-!
# What holds of every lifecycle

For any calls, in any transactions:

* the lifecycle of each version can be read, and is a path (`lifecycleEvents_isPath`);
* a champion has been a challenger, with the authority of the mode that it operates in, and a
  version is a champion of one mode only (`champion_isAuthorised`);
* the state as of a day is final once no event is decided before that day
  (`lifecycleState_of_run`);
* an event that is submitted again is recognised, and its place is not taken by another one
  (`resubmission`).
-/

namespace TradingAgent.Lifecycle

open Except Journal Transition

variable {ctx : Context} {ledger next : Ledger} {b : Bool} {version : String}
  {parent : Option Parent} {binding : Option StrategyAuthorityBinding}
  {priorEvents events : List StrategyLifecycleEvent} {event previous : StrategyLifecycleEvent}
  {db later : Transaction.Database Ledger}

/-! ## Paths -/

theorem kindIsValid_of_validateEvent (h : event.validateEvent ctx.newYork = true) :
    event.kindIsValid = true := by
  simp only [StrategyLifecycleEvent.validateEvent, decide_eq_true_eq] at h
  exact h.2.2.2.2.2.2.2.2.2

theorem effective_of_validateEvent (h : event.validateEvent ctx.newYork = true) :
    event.decisionSessionDate < event.effectiveSessionDate := by
  simp only [StrategyLifecycleEvent.validateEvent, decide_eq_true_eq] at h
  exact h.2.2.2.2.2.1

theorem initial_of_registration (h : event.validateEvent ctx.newYork = true)
    (hkind : event.eventKind = .registration) : event.toState ∈ allowedInitial := by
  have hvalid := kindIsValid_of_validateEvent h
  simp only [StrategyLifecycleEvent.kindIsValid, hkind,
    StrategyLifecycleEvent.validateRegistration, decide_eq_true_eq] at hvalid
  exact hvalid.2.2.2.1

theorem allowed_of_transition (h : event.validateEvent ctx.newYork = true)
    (hkind : event.eventKind = .transition) {fromState : StrategyLifecycleState}
    (hfrom : event.fromState = some fromState) :
    lifecycleTransitionAllowed fromState event.toState = true := by
  have hvalid := kindIsValid_of_validateEvent h
  simp only [StrategyLifecycleEvent.kindIsValid, hkind, StrategyLifecycleEvent.validateTransition,
    hfrom, Option.any_some, decide_eq_true_eq] at hvalid
  exact hvalid.2.2

theorem previousActive_eq (priorEvents : List StrategyLifecycleEvent) :
    previousActive priorEvents = lastActive (priorEvents.map (·.toState)) := by
  rw [previousActive, lastActive, List.map_reverse]

/-- What admits an event lets its state follow those before. -/
theorem Admits.follows (h : Admits ctx parent binding priorEvents event) :
    Follows allowedInitial true (priorEvents.map (·.toState)) event.toState := by
  obtain ⟨p, -, hevent⟩ := h.chained
  obtain ⟨-, -, -, ⟨rfl, hkind, -⟩ | ⟨earlier, previous, rfl, hsucc⟩⟩ :=
    requireLifecycleEvent_cases hevent
  · exact .start rfl (initial_of_registration h.valid hkind)
  · obtain ⟨-, hkind, -, hfrom, -, -, hsuspended⟩ := requireSuccessor_cases hsucc
    refine .next List.map_append (allowed_of_transition h.valid hkind hfrom) fun heq => ?_
    rcases requireValidSuspendedRecovery_cases (hsuspended heq) with hrejected | hrecovered
    · exact .inl ⟨rfl, hrejected⟩
    · rw [previousActive_eq] at hrecovered
      exact .inr hrecovered

theorem admitted_states (h : Admitted (Admits ctx parent binding) events) :
    Admitted (Follows allowedInitial true) (events.map (·.toState)) :=
  h.map fun _ _ => Admits.follows

/-- The events of a lifecycle, as a path from one of the initial states. -/
structure IsPath (sha : Sha256) (events : List StrategyLifecycleEvent) : Prop where
  starts : ∀ e ∈ events.head?, e.eventKind = .registration ∧ e.toState ∈ allowedInitial
  follows : events.IsChain fun e f =>
    lifecycleTransitionAllowed e.toState f.toState = true ∧ f.fromState = some e.toState ∧
      f.previousEventKey = some (strategyLifecycleEventKey sha e) ∧ e.decidedAt ≤ f.decidedAt
  effective : events.Pairwise fun e f => e.effectiveSessionDate < f.effectiveSessionDate
  ends : ∀ before e after, events = before ++ e :: after → e.toState = .rejected → after = []

/-- An event takes effect after the one before it. -/
theorem pairwise_effective (h : Admitted (Admits ctx parent binding) events) :
    events.Pairwise fun e f => e.effectiveSessionDate < f.effectiveSessionDate := by
  have htrans : IsTrans StrategyLifecycleEvent fun e f =>
      e.effectiveSessionDate < f.effectiveSessionDate := ⟨fun _ _ _ => lt_trans⟩
  refine (h.isChain fun m e f _ hf => ?_).pairwise
  obtain ⟨-, -, -, -, -, hdate, -⟩ := requireSuccessor_cases hf.successor
  exact lt_of_le_of_lt hdate (effective_of_validateEvent hf.valid)

theorem isPath_of_admitted (h : Admitted (Admits ctx parent binding) events) :
    IsPath ctx.sha events where
  starts := by
    intro e he
    obtain ⟨rest, rfl⟩ := List.head?_eq_some_iff.1 he
    have hadmits := (Admitted.of_append_cons (l := []) h).2
    obtain ⟨p, -, hevent⟩ := hadmits.chained
    obtain ⟨-, -, -, ⟨-, hkind, -⟩ | ⟨_, _, hnil, -⟩⟩ := requireLifecycleEvent_cases hevent
    · exact ⟨hkind, initial_of_registration hadmits.valid hkind⟩
    · exact absurd hnil (by simp)
  follows := by
    refine h.isChain fun m e f _ hf => ?_
    obtain ⟨-, hkind, hkey, hfrom, hdecided, -, -⟩ := requireSuccessor_cases hf.successor
    exact ⟨allowed_of_transition hf.valid hkind hfrom, hfrom, hkey, hdecided⟩
  effective := pairwise_effective h
  ends := by
    rintro before e after rfl hrejected
    cases after with
    | nil => rfl
    | cons f after =>
      rw [List.append_cons] at h
      have hsucc := (Admitted.of_append_cons h).2.successor
      exact absurd hrejected (requireSuccessor_cases hsucc).1

/-- The lifecycle of each version can be read at any time, and is a path. -/
theorem lifecycleEvents_isPath (h : (system ctx).Reachable db) (version : String) :
    lifecycleEvents ctx db.committed version = .ok (db.committed.historyOf version) ∧
      IsPath ctx.sha (db.committed.historyOf version) := by
  obtain ⟨hledger, -⟩ := isLedger_of_reachable h
  exact ⟨hledger.lifecycleEvents_eq, isPath_of_admitted (hledger.histories version)⟩

theorem ChampionSample.promoted_isPath :
    lifecycleEvents env promoted.committed "v1" = .ok (promoted.committed.historyOf "v1") ∧
      IsPath env.sha (promoted.committed.historyOf "v1") :=
  lifecycleEvents_isPath (reachable_challenged.run run_promoted) "v1"

/-! ## Champions -/

theorem isChampion_of_requiredMode {state : StrategyLifecycleState} {mode : AgentOperatingMode}
    (h : requiredChampionMode state = some mode) : state.isChampion = true := by
  cases state <;> first | rfl | cases h

theorem exists_requiredMode {state : StrategyLifecycleState} (h : state.isChampion = true) :
    ∃ mode, requiredChampionMode state = some mode := by
  cases state <;> first | exact ⟨_, rfl⟩ | cases h

/-- The champions of different kinds operate in different modes. -/
theorem requiredChampionMode_inj {state other : StrategyLifecycleState} {mode : AgentOperatingMode}
    (h : requiredChampionMode state = some mode) (h' : requiredChampionMode other = some mode) :
    state = other := by
  cases state <;> cases h <;> cases other <;> first | rfl | cases h'

/-- What the path to a champion is required to have been. -/
theorem hasPaperPhase_of_requireChampionPath {state : StrategyLifecycleState}
    {mode : AgentOperatingMode} (hmode : requiredChampionMode state = some mode)
    (h : requireChampionPath priorEvents state = .ok ()) :
    hasPaperPhase priorEvents = decide (mode = .alpacaPaper) := by
  cases state <;> cases hmode
  · simpa [requireChampionPath] using h
  · simpa [requireChampionPath] using h

theorem paperAuthorized_of_validateBinding {bound : StrategyAuthorityBinding}
    (h : bound.validateBinding = true) (hmode : bound.operatingMode = .alpacaPaper) :
    paperAuthorized bound.strategyLane = true := by
  simp only [StrategyAuthorityBinding.validateBinding, hmode, operatingModeAllowed,
    decide_eq_true_eq] at h
  exact h.2.2.2.2

/-- How an event made its version the champion of a mode. -/
structure IsAuthorised (ctx : Context) (ledger : Ledger) (mode : AgentOperatingMode)
    (event : StrategyLifecycleEvent) : Prop where
  bound : ∃ binding ∈ ledger.strategyAuthorityBindings,
    binding.strategyVersion = event.strategyVersion ∧ binding.operatingMode = mode ∧
      binding.boundAt ≤ event.decidedAt ∧
      strategyAuthorityBindingKey ctx.sha binding ∈ event.evidenceKeys ∧
      (mode = .alpacaPaper → paperAuthorized binding.strategyLane = true)
  path : ∃ before after, ledger.historyOf event.strategyVersion = before ++ event :: after ∧
    (∃ c ∈ before, c.toState = .challenger) ∧ hasPaperPhase before = decide (mode = .alpacaPaper)

theorem IsLedger.authorityOf_mem {bound : StrategyAuthorityBinding}
    (hfind : ledger.authorityOf version = some bound) :
    bound ∈ ledger.strategyAuthorityBindings ∧ bound.strategyVersion = version :=
  ⟨List.mem_of_find?_eq_some hfind, by simpa using List.find?_some hfind⟩

theorem IsLedger.isAuthorised (h : IsLedger ctx ledger) {mode : AgentOperatingMode}
    (hevent : event ∈ ledger.strategyLifecycleEvents)
    (hmode : requiredChampionMode event.toState = some mode) :
    (∃ bound, ledger.authorityOf event.strategyVersion = some bound ∧
      bound.operatingMode = mode) ∧ IsAuthorised ctx ledger mode event := by
  have hmem : event ∈ ledger.historyOf event.strategyVersion := mem_history.2 ⟨hevent, rfl⟩
  obtain ⟨before, after, hsplit⟩ := List.append_of_mem hmem
  have hhistory := h.histories event.strategyVersion
  rw [hsplit] at hhistory
  obtain ⟨hbefore, hadmits⟩ := hhistory.of_append_cons
  obtain ⟨hpath, bound, hbound, hmodes, hsince, hkey⟩ :=
    requireNewChampionAuthority_cases hadmits.authorised hmode
  obtain ⟨hstored, hversion⟩ := IsLedger.authorityOf_mem hbound
  refine ⟨⟨bound, hbound, hmodes⟩,
    ⟨bound, hstored, hversion, hmodes, hsince, hkey, fun hpaper => ?_⟩,
    before, after, hsplit, ?_, hasPaperPhase_of_requireChampionPath hmode hpath⟩
  · exact paperAuthorized_of_validateBinding (h.bindings bound hstored) (hmodes.trans hpaper)
  · -- On the path of the states, a champion has been a challenger.
    have hinitial : ∀ s ∈ allowedInitial, s.isChampion = false := by decide
    have hstates := admitted_states hbefore
    have hchallenger := challenger_mem_of_follows hinitial hstates
      (challenger_mem hinitial hstates) hadmits.follows (isChampion_of_requiredMode hmode)
    exact List.mem_map.1 hchallenger

/-- A champion has the authority of its mode and has been a challenger, and its version is never the
    champion of another mode. -/
theorem champion_isAuthorised (h : (system ctx).Reachable db) {mode : AgentOperatingMode}
    (hevent : event ∈ db.committed.strategyLifecycleEvents)
    (hmode : requiredChampionMode event.toState = some mode) :
    IsAuthorised ctx db.committed mode event ∧
      ∀ other ∈ db.committed.strategyLifecycleEvents,
        other.strategyVersion = event.strategyVersion → other.toState.isChampion = true →
          other.toState = event.toState := by
  obtain ⟨hledger, -⟩ := isLedger_of_reachable h
  obtain ⟨⟨bound, hbound, hmodes⟩, hauthorised⟩ := hledger.isAuthorised hevent hmode
  refine ⟨hauthorised, fun other hother hversion hchampion => ?_⟩
  obtain ⟨otherMode, hotherMode⟩ := exists_requiredMode hchampion
  -- Both are bound to the one authority of the version.
  obtain ⟨⟨otherBound, hotherBound, hotherModes⟩, -⟩ := hledger.isAuthorised hother hotherMode
  rw [hversion, hbound] at hotherBound
  cases hotherBound
  obtain rfl := hmodes.symm.trans hotherModes
  exact requiredChampionMode_inj hotherMode hmode

theorem ChampionSample.promoted_isAuthorised :
    IsAuthorised env promoted.committed .alpacaPaper champion ∧
      ∀ other ∈ promoted.committed.strategyLifecycleEvents,
        other.strategyVersion = champion.strategyVersion → other.toState.isChampion = true →
          other.toState = champion.toState :=
  champion_isAuthorised (reachable_challenged.run run_promoted)
    (by rw [events_promoted]; simp) rfl

/-! ## The state as of a day -/

/-- The state as of a day does not change by events that are decided on that day or later. -/
theorem lifecycleState_of_run (h : (system ctx).Reachable db)
    {calls : List (Transaction.Event Call)} (hrun : (system ctx).Run db calls later)
    {day : Date}
    (hlate : ∀ e ∈ later.committed.strategyLifecycleEvents.drop
      db.committed.strategyLifecycleEvents.length, e.strategyVersion = version →
        day ≤ (e.decidedAt.astimezone ctx.newYork).date) :
    lifecycleState ctx later.committed version day =
      lifecycleState ctx db.committed version day := by
  obtain ⟨hledger, -⟩ := isLedger_of_reachable h
  obtain ⟨hlater, -⟩ := isLedger_of_reachable (h.run hrun)
  obtain ⟨added, hadded⟩ := (isExtension_of_run h hrun).events
  rw [← hadded, List.drop_left] at hlate
  rw [hlater.lifecycleState_eq, hledger.lifecycleState_eq]
  have hhistory : later.committed.historyOf version =
      db.committed.historyOf version ++ history (·.strategyVersion) added version := by
    rw [Ledger.historyOf, ← hadded, history_append, Ledger.historyOf]
  have hvalid : ∀ e ∈ later.committed.historyOf version, e.validateEvent ctx.newYork = true :=
    (hlater.histories version).forall_mem fun _ _ _ _ ha => ha.valid
  rw [hhistory] at hvalid ⊢
  rw [inEffect_append]
  intro e he
  have hevent := hvalid e (List.mem_append_right _ he)
  have hdate := effective_of_validateEvent hevent
  simp only [StrategyLifecycleEvent.validateEvent, decide_eq_true_eq] at hevent
  obtain ⟨hmem, hversion⟩ := mem_history.1 he
  have hday := hlate e hmem hversion
  rw [hevent.2.2.2.2.1] at hday
  simpa using lt_of_le_of_lt hday hdate

theorem ChampionSample.state_before_promotion :
    lifecycleState env promoted.committed "v1" (.ofCivil 2026 7 15) =
      lifecycleState env challenged.committed "v1" (.ofCivil 2026 7 15) := by
  refine lifecycleState_of_run reachable_challenged run_promoted ?_
  rw [events_promoted, events_challenged]
  intro e he _
  obtain rfl := List.mem_singleton.1 he
  decide +kernel

/-! ## Submitting an event again -/

theorem find?_sequence (h : Admitted (Admits ctx parent binding) events) (hevent : event ∈ events) :
    events.find? (·.sequence = event.sequence) = some event := by
  have hnodup : (events.map (·.sequence)).Nodup :=
    List.pairwise_map.2 ((pairwise_sequence h).imp ne_of_lt)
  exact find?_key_of_mem hnodup hevent

/-- The place of a stored event is taken: the same event is recognised, and any other is refused. -/
theorem IsLedger.append_of_mem (h : IsLedger ctx ledger) {stored : StrategyLifecycleEvent}
    (hstored : stored ∈ ledger.strategyLifecycleEvents)
    (hversion : event.strategyVersion = stored.strategyVersion)
    (hsequence : event.sequence = stored.sequence) :
    appendLifecycleEvent ctx event ledger =
      if event.validateEvent ctx.newYork = true then
        if isSame (strategyLifecycleEventKey ctx.sha) (·.normal) stored event then
          .ok (false, ledger)
        else .error .conflict
      else .error .invalidSource := by
  have hmem : stored ∈ ledger.historyOf event.strategyVersion :=
    mem_history.2 ⟨hstored, hversion.symm⟩
  rw [appendLifecycleEvent, raiseIf_bind, h.readVersion_eq, ok_bind, hsequence,
    find?_sequence (h.histories _) hmem]
  by_cases hvalid : event.validateEvent ctx.newYork = true
  · rw [if_neg (by simp [hvalid]), if_pos hvalid]
    rfl
  · rw [if_pos (by simpa using hvalid), if_neg hvalid]

/-- After any run, an event that was committed before is recognised when it is submitted again, and
    no call gives its place to another event. -/
theorem resubmission (h : (system ctx).Reachable db) {calls : List (Transaction.Event Call)}
    (hrun : (system ctx).Run db calls later)
    (hevent : event ∈ db.committed.strategyLifecycleEvents) :
    appendLifecycleEvent ctx event later.committed = .ok (false, later.committed) ∧
      ∀ e ∈ later.committed.strategyLifecycleEvents, e.strategyVersion = event.strategyVersion →
        e.sequence = event.sequence → e = event := by
  obtain ⟨hlater, -⟩ := isLedger_of_reachable (h.run hrun)
  have hmem := (isExtension_of_run h hrun).events.subset hevent
  have hhistory : event ∈ later.committed.historyOf event.strategyVersion :=
    mem_history.2 ⟨hmem, rfl⟩
  have hvalid := (hlater.histories event.strategyVersion).forall_mem
    (fun _ _ _ _ ha => ha.valid) event hhistory
  refine ⟨?_, fun e he hversion hsequence => ?_⟩
  · rw [hlater.append_of_mem hmem rfl rfl, if_pos hvalid, if_pos (by simp [isSame])]
  · have he' := mem_history.2 ⟨he, hversion⟩
    have hfind := find?_sequence (hlater.histories event.strategyVersion) he'
    rw [hsequence, find?_sequence (hlater.histories _) hhistory] at hfind
    exact (Option.some.inj hfind).symm

theorem ChampionSample.paper_resubmitted :
    appendLifecycleEvent env paper promoted.committed = .ok (false, promoted.committed) ∧
      ∀ e ∈ promoted.committed.strategyLifecycleEvents, e.strategyVersion = paper.strategyVersion →
        e.sequence = paper.sequence → e = paper :=
  resubmission reachable_challenged run_promoted (by rw [events_challenged]; simp)

end TradingAgent.Lifecycle
