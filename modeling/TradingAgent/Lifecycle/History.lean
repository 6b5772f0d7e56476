import TradingAgent.Lifecycle.Ledger

/-!
# The lifecycles of a ledger

* In every ledger that the calls lead to, the events of each version are a chain that the version,
  its hypothesis and its authority admit (`IsLedger`, `isLedger_of_reachable`), so that reading them
  succeeds (`readVersion_eq`, `lifecycleEvents_eq`).
* Nothing is taken from a ledger (`isExtension_of_run`).
-/

namespace TradingAgent.Lifecycle

open Except Journal Transition

namespace Ledger

/-- The version that a name stands for, with its hypothesis. -/
def parentOf (ledger : Ledger) (strategyVersion : String) : Option Parent := do
  let version ← ledger.strategyVersions.find? (·.strategyVersion = strategyVersion)
  let hypothesis ← ledger.hypotheses.find? (·.hypothesisId = version.hypothesisId)
  return ⟨version, hypothesis⟩

def authorityOf (ledger : Ledger) (strategyVersion : String) : Option StrategyAuthorityBinding :=
  ledger.strategyAuthorityBindings.find? (·.strategyVersion = strategyVersion)

/-- The events of a version, in the order in which they were written. -/
def historyOf (ledger : Ledger) (strategyVersion : String) : List StrategyLifecycleEvent :=
  history (·.strategyVersion) ledger.strategyLifecycleEvents strategyVersion

end Ledger

/-- Whether an event may follow the ones before it. -/
structure Admits (ctx : Context) (parent : Option Parent) (binding : Option StrategyAuthorityBinding)
    (priorEvents : List StrategyLifecycleEvent) (event : StrategyLifecycleEvent) : Prop where
  valid : event.validateEvent ctx.newYork = true
  chained : ∃ p, parent = some p ∧ requireLifecycleEvent ctx.sha p priorEvents event = .ok ()
  authorised : requireNewChampionAuthority ctx.sha binding priorEvents event = .ok ()

/-- What is known of every ledger that the calls lead to. -/
structure IsLedger (ctx : Context) (ledger : Ledger) : Prop where
  hypotheses : ∀ h ∈ ledger.hypotheses, h.validateRegistration ctx.sha = true
  versions : ∀ v ∈ ledger.strategyVersions, v.validateRegistration = true ∧
    ∃ h, ledger.hypotheses.find? (·.hypothesisId = v.hypothesisId) = some h ∧
      versionMatchesHypothesis v h = true
  bindings : ∀ b ∈ ledger.strategyAuthorityBindings, b.validateBinding = true
  histories : ∀ version, Admitted
    (Admits ctx (ledger.parentOf version) (ledger.authorityOf version))
    (ledger.historyOf version)

variable {ctx : Context} {ledger next : Ledger} {b : Bool} {version : String}

/-! ## Reading -/

section Reading

variable {parent : Option Parent} {binding : Option StrategyAuthorityBinding}
  {priorEvents events : List StrategyLifecycleEvent} {event previous : StrategyLifecycleEvent}

/-- An event is numbered by its place. -/
theorem Admits.sequence (h : Admits ctx parent binding priorEvents event) :
    event.sequence = priorEvents.length + 1 := by
  obtain ⟨p, -, hevent⟩ := h.chained
  exact (requireLifecycleEvent_cases hevent).2.1

theorem Admits.successor (h : Admits ctx parent binding (priorEvents ++ [previous]) event) :
    requireSuccessor ctx.sha (priorEvents ++ [previous]) previous event = .ok () := by
  obtain ⟨p, -, hevent⟩ := h.chained
  obtain ⟨-, -, -, ⟨hnil, -⟩ | ⟨earlier, last, hlast, hsucc⟩⟩ := requireLifecycleEvent_cases hevent
  · exact absurd hnil (by simp)
  · obtain ⟨-, hsingle⟩ := List.append_inj' hlast rfl
    cases hsingle
    exact hsucc

theorem pairwise_sequence (h : Admitted (Admits ctx parent binding) events) :
    events.Pairwise fun e f => e.sequence < f.sequence := by
  have htrans : IsTrans StrategyLifecycleEvent fun e f => e.sequence < f.sequence :=
    ⟨fun _ _ _ => lt_trans⟩
  refine (h.isChain fun m e f hm hf => ?_).pairwise
  rw [(admitted_concat.1 hm).2.sequence, hf.sequence, List.length_append, List.length_singleton,
    Nat.cast_add, Nat.cast_one]
  exact lt_add_one _

/-- The chain of the events is what has been checked of each of them. -/
theorem requireValidLifecycleChain_of_admitted
    (h : Admitted (Admits ctx parent binding) events) :
    requireValidLifecycleChain ctx.sha parent events = .ok () := by
  cases parent with
  | none =>
    -- Without a version, nothing is admitted.
    cases h with
    | nil => rfl
    | concat _ ha =>
      obtain ⟨p, hp, -⟩ := ha.chained
      cases hp
  | some parent =>
    refine requireValidLifecycleChain_some.2 (h.mono fun m e _ he => ?_)
    obtain ⟨p, hp, hevent⟩ := he.chained
    cases hp
    exact hevent

end Reading

namespace IsLedger

variable (h : IsLedger ctx ledger)

include h

theorem hypothesisById_eq (hypothesisId : String) : hypothesisById ctx ledger hypothesisId =
    .ok (ledger.hypotheses.find? (·.hypothesisId = hypothesisId)) := by
  rw [hypothesisById]
  cases hfind : ledger.hypotheses.find? (·.hypothesisId = hypothesisId) with
  | none => rfl
  | some stored =>
    have hvalid := h.hypotheses stored (List.mem_of_find?_eq_some hfind)
    exact bind_eq_ok.2 ⟨(), raiseIf_eq_ok.2 (by simp [hvalid]), rfl⟩

theorem strategyVersionById_eq : strategyVersionById ledger version =
    .ok (ledger.strategyVersions.find? (·.strategyVersion = version)) := by
  rw [strategyVersionById]
  cases hfind : ledger.strategyVersions.find? (·.strategyVersion = version) with
  | none => rfl
  | some stored =>
    have hvalid := (h.versions stored (List.mem_of_find?_eq_some hfind)).1
    exact bind_eq_ok.2 ⟨(), raiseIf_eq_ok.2 (by simp [hvalid]), rfl⟩

theorem strategyAuthorityByVersion_eq :
    strategyAuthorityByVersion ledger version = .ok (ledger.authorityOf version) := by
  rw [strategyAuthorityByVersion, Ledger.authorityOf]
  cases hfind : ledger.strategyAuthorityBindings.find? (·.strategyVersion = version) with
  | none => rfl
  | some stored =>
    have hvalid := h.bindings stored (List.mem_of_find?_eq_some hfind)
    exact bind_eq_ok.2 ⟨(), raiseIf_eq_ok.2 (by simp [hvalid]), rfl⟩

theorem verifiedLifecycleParent_eq :
    verifiedLifecycleParent ctx ledger version = .ok (ledger.parentOf version) := by
  rw [verifiedLifecycleParent, h.strategyVersionById_eq, ok_bind, Ledger.parentOf]
  cases hfind : ledger.strategyVersions.find? (·.strategyVersion = version) with
  | none => rfl
  | some stored =>
    obtain ⟨-, hypothesis, hhypothesis, hmatches⟩ :=
      h.versions stored (List.mem_of_find?_eq_some hfind)
    simp only [h.hypothesisById_eq, hhypothesis, ok_bind, Option.bind_eq_bind, Option.bind_some]
    exact bind_eq_ok.2 ⟨(), raiseIf_eq_ok.2 (by simp [hmatches]), rfl⟩

theorem lifecycleEventsByVersion_eq :
    lifecycleEventsByVersion ctx ledger version = .ok (ledger.historyOf version) := by
  have hsorted : (ledger.historyOf version).Pairwise fun e f => e.sequence ≤ f.sequence :=
    (pairwise_sequence (h.histories version)).imp le_of_lt
  rw [lifecycleEventsByVersion]
  change ((ledger.historyOf version).insertionSort _).mapM _ = _
  rw [hsorted.insertionSort_eq]
  refine mapM_self fun stored hstored => ?_
  have hvalid := (h.histories version).forall_mem (fun _ _ _ _ ha => ha.valid) stored hstored
  exact bind_eq_ok.2 ⟨(), raiseIf_eq_ok.2 (by simp [hvalid]), rfl⟩

theorem requirePersistedChampionAuthority_eq : requirePersistedChampionAuthority ctx.sha
    (ledger.authorityOf version) (ledger.historyOf version) = .ok () :=
  requirePersistedChampionAuthority_of_admitted
    ((h.histories version).mono fun _ _ _ hadmits => hadmits.authorised)

/-- What is read of a version is what was written. -/
theorem readVersion_eq : readVersion ctx ledger version =
    .ok ⟨ledger.parentOf version, ledger.historyOf version, ledger.authorityOf version⟩ := by
  rw [readVersion, h.verifiedLifecycleParent_eq, ok_bind, h.lifecycleEventsByVersion_eq, ok_bind,
    requireValidLifecycleChain_of_admitted (h.histories version), ok_bind,
    h.strategyAuthorityByVersion_eq, ok_bind, h.requirePersistedChampionAuthority_eq, ok_bind]
  rfl

theorem lifecycleEvents_eq :
    lifecycleEvents ctx ledger version = .ok (ledger.historyOf version) := by
  rw [lifecycleEvents, h.verifiedLifecycleParent_eq, ok_bind, h.lifecycleEventsByVersion_eq,
    ok_bind, h.strategyAuthorityByVersion_eq, ok_bind,
    requireValidLifecycleChain_of_admitted (h.histories version), ok_bind,
    h.requirePersistedChampionAuthority_eq, ok_bind]
  rfl

theorem lifecycleState_eq (asOfSessionDate : Date) :
    lifecycleState ctx ledger version asOfSessionDate =
      .ok (inEffect (fun event => event.effectiveSessionDate ≤ asOfSessionDate)
        (ledger.historyOf version)) := by
  rw [lifecycleState, h.lifecycleEvents_eq, ok_bind]
  rfl

end IsLedger

/-! ## Writing -/

/-- An event that a version admits without an authority is admitted with any. -/
theorem requireNewChampionAuthority_of_none {sha : Sha256}
    {priorEvents : List StrategyLifecycleEvent} {event : StrategyLifecycleEvent}
    (h : requireNewChampionAuthority sha none priorEvents event = .ok ())
    (binding : Option StrategyAuthorityBinding) :
    requireNewChampionAuthority sha binding priorEvents event = .ok () := by
  cases hmode : requiredChampionMode event.toState with
  | none => rw [requireNewChampionAuthority, hmode]
  | some mode =>
    obtain ⟨-, bound, hbound, -⟩ := requireNewChampionAuthority_cases h hmode
    cases hbound

theorem isLedger_empty : IsLedger ctx {} where
  hypotheses := by simp
  versions := by simp
  bindings := by simp
  histories _ := .nil

/-- Versions keep their hypotheses when another one is registered. -/
theorem IsLedger.addHypothesis (h : IsLedger ctx ledger) {registration : HypothesisRegistration}
    (hvalid : registration.validateRegistration ctx.sha = true) :
    IsLedger ctx { ledger with hypotheses := ledger.hypotheses ++ [registration] } where
  hypotheses := by
    intro stored hstored
    rcases List.mem_append.1 hstored with hstored | hstored
    · exact h.hypotheses stored hstored
    · rwa [List.mem_singleton.1 hstored]
  versions := by
    intro stored hstored
    obtain ⟨hversion, hypothesis, hfind, hmatches⟩ := h.versions stored hstored
    exact ⟨hversion, hypothesis, find?_append_of_eq_some hfind _, hmatches⟩
  bindings := h.bindings
  histories version := by
    refine (h.histories version).mono ?_
    rintro m e - ⟨hvalid, ⟨p, hp, hevent⟩, hauthority⟩
    refine ⟨hvalid, ⟨p, ?_, hevent⟩, hauthority⟩
    rw [Ledger.parentOf] at hp ⊢
    cases hfind : ledger.strategyVersions.find? (·.strategyVersion = version) with
    | none =>
      rw [hfind] at hp
      cases hp
    | some stored =>
      obtain ⟨-, hypothesis, hhypothesis, -⟩ := h.versions stored (List.mem_of_find?_eq_some hfind)
      simp only [hfind, hhypothesis, Option.bind_eq_bind, Option.bind_some] at hp ⊢
      rw [find?_append_of_eq_some hhypothesis]
      exact hp

/-- A version is registered without any events of it. -/
theorem IsLedger.addVersion (h : IsLedger ctx ledger) {registration : StrategyVersionRegistration}
    (hvalid : registration.validateRegistration = true)
    (hparent : ∃ parent,
      ledger.hypotheses.find? (·.hypothesisId = registration.hypothesisId) = some parent ∧
        versionMatchesHypothesis registration parent = true) :
    IsLedger ctx { ledger with strategyVersions := ledger.strategyVersions ++ [registration] } where
  hypotheses := h.hypotheses
  versions := by
    intro stored hstored
    rcases List.mem_append.1 hstored with hstored | hstored
    · exact h.versions stored hstored
    · rw [List.mem_singleton.1 hstored]
      exact ⟨hvalid, hparent⟩
  bindings := h.bindings
  histories version := by
    refine (h.histories version).mono ?_
    rintro m e - ⟨hvalid, ⟨p, hp, hevent⟩, hauthority⟩
    refine ⟨hvalid, ⟨p, ?_, hevent⟩, hauthority⟩
    rw [Ledger.parentOf] at hp ⊢
    cases hfind : ledger.strategyVersions.find? (·.strategyVersion = version) with
    | none =>
      rw [hfind] at hp
      cases hp
    | some stored =>
      rw [hfind] at hp
      simp only [find?_append_of_eq_some hfind]
      exact hp

/-- A binding adds nothing to what has been admitted before it: a champion has one already. -/
theorem IsLedger.addBinding (h : IsLedger ctx ledger) {binding : StrategyAuthorityBinding}
    (hvalid : binding.validateBinding = true) :
    IsLedger ctx { ledger with
      strategyAuthorityBindings := ledger.strategyAuthorityBindings ++ [binding] } where
  hypotheses := h.hypotheses
  versions := h.versions
  bindings := by
    intro stored hstored
    rcases List.mem_append.1 hstored with hstored | hstored
    · exact h.bindings stored hstored
    · rwa [List.mem_singleton.1 hstored]
  histories version := by
    refine (h.histories version).mono ?_
    rintro m e - ⟨hvalid, hparent, hauthority⟩
    refine ⟨hvalid, hparent, ?_⟩
    rw [Ledger.authorityOf] at hauthority ⊢
    cases hfind : ledger.strategyAuthorityBindings.find? (·.strategyVersion = version) with
    | none =>
      rw [hfind] at hauthority
      exact requireNewChampionAuthority_of_none hauthority _
    | some stored =>
      rw [hfind] at hauthority
      simp only [find?_append_of_eq_some hfind]
      exact hauthority

theorem IsLedger.addEvent (h : IsLedger ctx ledger) {event : StrategyLifecycleEvent}
    (hadmits : Admits ctx (ledger.parentOf event.strategyVersion)
      (ledger.authorityOf event.strategyVersion) (ledger.historyOf event.strategyVersion) event) :
    IsLedger ctx { ledger with
      strategyLifecycleEvents := ledger.strategyLifecycleEvents ++ [event] } where
  hypotheses := h.hypotheses
  versions := h.versions
  bindings := h.bindings
  histories := forall_admitted_history_concat h.histories hadmits

/-- An event that was appended is admitted by the ones before it. -/
theorem admits_of_append (h : IsLedger ctx ledger) {event : StrategyLifecycleEvent}
    (happend : appendLifecycleEvent ctx event ledger = .ok (b, next)) :
    next = ledger ∨
      Admits ctx (ledger.parentOf event.strategyVersion)
          (ledger.authorityOf event.strategyVersion) (ledger.historyOf event.strategyVersion)
          event ∧
        next = { ledger with
          strategyLifecycleEvents := ledger.strategyLifecycleEvents ++ [event] } := by
  obtain ⟨hvalid, state, hread, hcases⟩ := append_cases happend
  rw [h.readVersion_eq] at hread
  cases hread
  rcases hcases with ⟨-, heq⟩ | ⟨⟨parent, hparent⟩, hchain, hauthority, -, heq⟩
  · exact .inl heq
  · dsimp only at hparent hchain hauthority
    rw [hparent, requireValidLifecycleChain_some, admitted_concat] at hchain
    exact .inr ⟨⟨hvalid, ⟨parent, hparent, hchain.2⟩, hauthority⟩, heq⟩

theorem isLedger_after (ledger : Ledger) (call : Call) (h : IsLedger ctx ledger) :
    IsLedger ctx (ledger.after ctx call) := by
  rcases after_cases ctx ledger call with heq | ⟨b, hrun⟩
  · rwa [heq]
  · generalize ledger.after ctx call = next at hrun
    cases call with
    | hypothesis registration =>
      obtain ⟨hvalid, ⟨-, rfl⟩ | ⟨-, -, rfl⟩⟩ := registerHypothesis_cases hrun
      · exact h
      · exact h.addHypothesis hvalid
    | version registration =>
      obtain ⟨hvalid, hparent, ⟨-, rfl⟩ | ⟨-, -, rfl⟩⟩ := registerStrategyVersion_cases hrun
      · exact h
      · exact h.addVersion hvalid hparent
    | authority binding =>
      obtain ⟨hvalid, -, ⟨-, rfl⟩ | ⟨-, -, rfl⟩⟩ := registerStrategyAuthorityBinding_cases hrun
      · exact h
      · exact h.addBinding hvalid
    | event event =>
      obtain rfl | ⟨hadmits, rfl⟩ := admits_of_append h hrun
      · exact h
      · exact h.addEvent hadmits

/-- The ledger is as the calls keep it at any time, committed or not. -/
theorem isLedger_of_reachable {db : Transaction.Database Ledger}
    (h : (system ctx).Reachable db) : db.All (IsLedger ctx) :=
  Transaction.invariant isLedger_empty isLedger_after h

/-! ## What stays -/

/-- The rows of one ledger are the first rows of another one. -/
structure IsExtension (ledger later : Ledger) : Prop where
  hypotheses : ledger.hypotheses <+: later.hypotheses
  versions : ledger.strategyVersions <+: later.strategyVersions
  bindings : ledger.strategyAuthorityBindings <+: later.strategyAuthorityBindings
  events : ledger.strategyLifecycleEvents <+: later.strategyLifecycleEvents

namespace IsExtension

theorem refl (ledger : Ledger) : IsExtension ledger ledger :=
  ⟨List.prefix_rfl, List.prefix_rfl, List.prefix_rfl, List.prefix_rfl⟩

theorem trans {ledger later last : Ledger} (h : IsExtension ledger later)
    (h' : IsExtension later last) : IsExtension ledger last :=
  ⟨h.hypotheses.trans h'.hypotheses, h.versions.trans h'.versions, h.bindings.trans h'.bindings,
    h.events.trans h'.events⟩

end IsExtension

theorem isExtension_after (ctx : Context) (ledger : Ledger) (call : Call) :
    IsExtension ledger (ledger.after ctx call) := by
  rcases after_cases ctx ledger call with heq | ⟨b, hrun⟩
  · rw [heq]
    exact .refl ledger
  · generalize ledger.after ctx call = next at hrun
    cases call with
    | hypothesis registration =>
      obtain ⟨-, ⟨-, rfl⟩ | ⟨-, -, rfl⟩⟩ := registerHypothesis_cases hrun
      · exact .refl _
      · exact { IsExtension.refl ledger with hypotheses := List.prefix_append _ _ }
    | version registration =>
      obtain ⟨-, -, ⟨-, rfl⟩ | ⟨-, -, rfl⟩⟩ := registerStrategyVersion_cases hrun
      · exact .refl _
      · exact { IsExtension.refl ledger with versions := List.prefix_append _ _ }
    | authority binding =>
      obtain ⟨-, -, ⟨-, rfl⟩ | ⟨-, -, rfl⟩⟩ := registerStrategyAuthorityBinding_cases hrun
      · exact .refl _
      · exact { IsExtension.refl ledger with bindings := List.prefix_append _ _ }
    | event event =>
      obtain ⟨-, state, -, ⟨-, rfl⟩ | ⟨-, -, -, -, rfl⟩⟩ := append_cases hrun
      · exact .refl _
      · exact { IsExtension.refl ledger with events := List.prefix_append _ _ }

/-- What was committed once stays committed. -/
theorem isExtension_of_run {db later : Transaction.Database Ledger}
    {events : List (Transaction.Event Call)} (h : (system ctx).Reachable db)
    (hrun : (system ctx).Run db events later) : IsExtension db.committed later.committed :=
  Transaction.related .refl (fun _ _ _ => .trans) isLedger_empty isLedger_after
    (fun ledger call _ => isExtension_after ctx ledger call) h hrun

/-! ## A champion -/

namespace ChampionSample

/-- A digit for a number, and zeros. -/
def hex (n : ℕ) : String :=
  String.ofList ("0123456789abcdef".toList.getD (n % 16) '0' :: List.replicate 63 '0')

/-- What an atom of a text adds to that number. -/
def number : JsonAtom → ℕ
  | .int n => n.natAbs
  | _ => 1

theorem isHex64_hex (n : ℕ) : isHex64 (hex n) = true := by
  -- Only the first of the characters depends on the number.
  have h : ∀ k < 16, ("0123456789abcdef".toList.getD k '0' :: List.replicate 63 '0').all
      (fun c => c.isDigit || ('a' ≤ c && c ≤ 'f')) = true := by decide
  rw [isHex64, hex, String.toList_ofList, decide_eq_true_iff]
  exact ⟨by simp, h _ (Nat.mod_lt n (by decide))⟩

def env : Context where
  sha := ⟨fun material => hex (material.map number).sum, fun _ => isHex64_hex _⟩
  newYork := ⟨fun _ => .hours (-4)⟩

/-- Noon in New York on a day of July 2026. -/
def noon (day : ℤ) : DateTime := .combine (.ofCivil 2026 7 day) 12 0 (.hours (-4))

def scope : ExperimentScope where
  scopeKind := .singleLane
  hypothesisId := "momentum"
  primaryLane := .intradayMomentum
  lanes := [.intradayMomentum]
  registeredAt := noon 1

def hypothesis : HypothesisRegistration where
  hypothesisId := "momentum"
  experimentScope := scope
  experimentScopeKey := experimentScopeKey env.sha scope
  primaryLane := .intradayMomentum
  hypothesis := "prices go on"
  falsificationRule := "they do not"
  sourceRegisteredAt := noon 1
  ledgerRecordedAt := noon 1

def registration : StrategyVersionRegistration where
  strategyId := "momentum"
  strategyVersion := "v1"
  hypothesisId := "momentum"
  experimentScopeKey := experimentScopeKey env.sha scope
  laneId := .intradayMomentum
  codeVersion := "c1"
  parameterSet := ["p"]
  dataContract := ["d"]
  costModel := ["c"]
  portfolioPolicy := ["o"]
  sourceRegisteredAt := noon 1
  ledgerRecordedAt := noon 1

def binding : StrategyAuthorityBinding where
  strategyVersion := "v1"
  strategyLane := ⟨.usEquities, .dayTrading, "momentum"⟩
  operatingMode := .alpacaPaper
  legacyLaneId := .intradayMomentum
  boundAt := noon 2

/-- An event that was decided on a day, and takes effect on the next one. -/
def event (sequence day : ℤ) (previous : Option StrategyLifecycleEvent)
    (toState : StrategyLifecycleState) : StrategyLifecycleEvent where
  strategyVersion := "v1"
  sequence := sequence
  eventKind := if previous = none then .registration else .transition
  fromState := previous.map (·.toState)
  toState := toState
  policyVersion := "policy"
  decisionSessionDate := .ofCivil 2026 7 day
  effectiveSessionDate := .ofCivil 2026 7 (day + 1)
  decidedAt := noon day
  evidenceKeys := [strategyAuthorityBindingKey env.sha binding]
  reasonCodes := ["new_strategy_registration"]
  previousEventKey := previous.map (strategyLifecycleEventKey env.sha)

def idea : StrategyLifecycleEvent := event 1 6 none .idea
def historical : StrategyLifecycleEvent := event 2 7 (some idea) .historical
def shadow : StrategyLifecycleEvent := event 3 8 (some historical) .experimentalShadow
def paper : StrategyLifecycleEvent := event 4 9 (some shadow) .experimentalPaper
def challenger : StrategyLifecycleEvent := event 5 13 (some paper) .challenger
def champion : StrategyLifecycleEvent := event 6 15 (some challenger) .paperChampion

/-- A version is registered, and becomes a challenger. -/
def challenged : Transaction.Database Ledger :=
  [.begin, .call (.hypothesis hypothesis), .call (.version registration), .call (.event idea),
    .call (.event historical), .call (.authority binding), .call (.event shadow),
    .call (.event paper), .call (.event challenger), .commit].foldl
    (Transaction.step (Ledger.after env)) ⟨{}, none⟩

/-- It becomes the champion, in a transaction of its own. -/
def promotion : List (Transaction.Event Call) := [.begin, .call (.event champion), .commit]

def promoted : Transaction.Database Ledger := promotion.foldl (Transaction.step (Ledger.after env)) challenged

theorem reachable_challenged : (system env).Reachable challenged := by
  unfold challenged
  exact Transaction.reachable_foldl {} (Ledger.after env) _

theorem run_promoted : (system env).Run challenged promotion promoted := by
  unfold promoted
  exact Transaction.run_foldl {} (Ledger.after env) challenged promotion

theorem events_challenged : challenged.committed.strategyLifecycleEvents =
    [idea, historical, shadow, paper, challenger] := by
  decide +kernel

theorem events_promoted : promoted.committed.strategyLifecycleEvents =
    [idea, historical, shadow, paper, challenger, champion] := by
  decide +kernel

end ChampionSample

end TradingAgent.Lifecycle
