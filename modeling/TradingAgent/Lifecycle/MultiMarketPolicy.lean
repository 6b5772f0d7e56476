import TradingAgent.Lifecycle.History
import TradingAgent.Lifecycle.MultiMarket
import TradingAgent.Lifecycle.Path

/-!
# What holds of the lifecycles of several markets

For any calls, in any transactions:

* the lifecycle of a version can be read exactly if the version is on the primary lane of its
  hypothesis; on another lane, it has none (`readMultiMarketLifecycleEvents_eq_of_reachable`);
* a lifecycle is a path that begins as a shadow experiment, stays within what the mode of the
  version supports, and goes from a suspension to no rejection (`multiMarket_isPath`).
-/

namespace TradingAgent.Lifecycle

open Except Journal Transition

namespace MultiMarketLedger

def versionOf (ledger : MultiMarketLedger) (name : String) :
    Option MultiMarketStrategyVersionRegistration :=
  ledger.strategyVersions.find? (·.strategyVersion = name)

def hypothesisOf (ledger : MultiMarketLedger) (version : MultiMarketStrategyVersionRegistration) :
    Option MultiMarketHypothesisRegistration :=
  ledger.hypotheses.find? (·.hypothesisId = version.hypothesisId)

/-- Whether a version is on a lane of its hypothesis that is not the primary one. -/
def onSideLane (ledger : MultiMarketLedger) (name : String) : Bool :=
  (ledger.versionOf name).any fun version => (ledger.hypothesisOf version).any fun hypothesis =>
    hypothesis.experimentScope.primaryLane ≠ version.strategyLane

/-- The parent of a version that is on the primary lane. -/
def primaryParentOf (ctx : MultiMarketContext) (ledger : MultiMarketLedger) (name : String) :
    Option LifecycleParent := do
  let version ← ledger.versionOf name
  let hypothesis ← ledger.hypothesisOf version
  if hypothesis.experimentScope.primaryLane = version.strategyLane then
    some ⟨version, multiMarketHypothesisRegistrationKey ctx.sha hypothesis⟩
  else none

/-- The events of a version, in the order in which they were written. -/
def historyOf (ledger : MultiMarketLedger) (name : String) :
    List MultiMarketStrategyLifecycleEvent :=
  history (·.strategyVersion) ledger.lifecycleEvents name

end MultiMarketLedger

/-- Whether an event may follow the ones before it. -/
structure MultiMarketAdmits (ctx : MultiMarketContext) (parent : Option LifecycleParent)
    (history : List MultiMarketStrategyLifecycleEvent)
    (event : MultiMarketStrategyLifecycleEvent) : Prop where
  valid : event.validateEvent ctx = true
  chained : ∃ p, parent = some p ∧ requireMultiMarketEvent ctx p history event = .ok ()

/-- What is known of every ledger that the calls lead to. -/
structure IsMultiMarket (ctx : MultiMarketContext) (ledger : MultiMarketLedger) : Prop where
  hypotheses : ∀ h ∈ ledger.hypotheses, h.validateRegistration ctx.sha = true
  hypothesisIds : (ledger.hypotheses.map (·.hypothesisId)).Nodup
  versions : ∀ v ∈ ledger.strategyVersions, v.validateRegistration = true ∧
    ∃ h, ledger.hypothesisOf v = some h ∧ versionMatchesParent v h = true
  names : (ledger.strategyVersions.map (·.strategyVersion)).Nodup
  histories : ∀ name, Admitted (MultiMarketAdmits ctx (ledger.primaryParentOf ctx name))
    (ledger.historyOf name)

variable {ctx : MultiMarketContext} {ledger next : MultiMarketLedger} {b : Bool} {name : String}
  {parent : LifecycleParent} {events : List MultiMarketStrategyLifecycleEvent}
  {event previous : MultiMarketStrategyLifecycleEvent}

/-! ## Reading -/

theorem requireMultiMarketEvent_cases
    (h : requireMultiMarketEvent ctx parent events event = .ok ()) :
    event.strategyVersion = parent.version.strategyVersion ∧
      event.strategyLane = parent.version.strategyLane ∧ event.sequence = events.length + 1 ∧
      modeSupports parent.version.operatingMode event.toState = true ∧
      (events = [] ∧ event.eventKind = .registration ∨
        ∃ earlier previous, events = earlier ++ [previous] ∧
          requireTransition ctx events previous event = .ok ()) := by
  obtain ⟨_, hevent, h⟩ := bind_eq_ok.1 h
  simp only [raiseIf_eq_ok, not_or, not_not, ne_eq] at hevent
  obtain ⟨hversion, hlane, hsequence, -, hmode⟩ := hevent
  refine ⟨hversion, hlane, hsequence, hmode, ?_⟩
  rcases List.eq_nil_or_concat' events with rfl | ⟨earlier, previous, rfl⟩
  · rw [List.getLast?_nil, requireRegistrationEvidence, raiseIf_eq_ok, not_or, not_not] at h
    exact .inl ⟨rfl, h.1⟩
  · rw [List.getLast?_concat] at h
    exact .inr ⟨earlier, previous, rfl, h⟩

theorem requireTransition_cases (h : requireTransition ctx events previous event = .ok ()) :
    event.eventKind = .transition ∧ event.fromState = some previous.toState ∧
      previous.effectiveSessionDate ≤ event.decisionSessionDate ∧
      (previous.toState = .suspended → ∃ active,
        lastActive (events.dropLast.map (·.toState)) = some active ∧
          lifecycleStateRank event.toState ≤ lifecycleStateRank active) := by
  obtain ⟨_, hevent, h⟩ := bind_eq_ok.1 h
  simp only [raiseIf_eq_ok, not_or, not_not, ne_eq] at hevent
  obtain ⟨-, hkind, -, hfrom, -, hdate, -, -⟩ := hevent
  refine ⟨hkind, hfrom, not_lt.1 hdate, fun hsuspended => ?_⟩
  have hlast : (events.dropLast.reverse.map (·.toState)).find? (· ≠ .suspended) =
      lastActive (events.dropLast.map (·.toState)) := by
    rw [List.map_reverse]
    rfl
  rw [if_pos hsuspended, hlast] at h
  cases hactive : lastActive (events.dropLast.map (·.toState)) with
  | none =>
    rw [hactive] at h
    cases h
  | some active =>
    rw [hactive] at h
    exact ⟨active, rfl, not_lt.1 (raiseIf_eq_ok.1 h)⟩

section Chains

variable {parent : Option LifecycleParent}

/-- An event is numbered by its place. -/
theorem MultiMarketAdmits.sequence (h : MultiMarketAdmits ctx parent events event) :
    event.sequence = events.length + 1 := by
  obtain ⟨p, -, hevent⟩ := h.chained
  exact (requireMultiMarketEvent_cases hevent).2.2.1

theorem MultiMarketAdmits.transition
    (h : MultiMarketAdmits ctx parent (events ++ [previous]) event) :
    requireTransition ctx (events ++ [previous]) previous event = .ok () := by
  obtain ⟨p, -, hevent⟩ := h.chained
  obtain ⟨-, -, -, -, ⟨hnil, -⟩ | ⟨earlier, last, hlast, htransition⟩⟩ :=
    requireMultiMarketEvent_cases hevent
  · exact absurd hnil (by simp)
  · obtain ⟨-, hsingle⟩ := List.append_inj' hlast rfl
    cases hsingle
    exact htransition

theorem pairwise_multiMarket_sequence (h : Admitted (MultiMarketAdmits ctx parent) events) :
    events.Pairwise fun e f => e.sequence < f.sequence := by
  have htrans : IsTrans MultiMarketStrategyLifecycleEvent fun e f => e.sequence < f.sequence :=
    ⟨fun _ _ _ => lt_trans⟩
  refine (h.isChain fun m e f hm hf => ?_).pairwise
  rw [(admitted_concat.1 hm).2.sequence, hf.sequence, List.length_append, List.length_singleton,
    Nat.cast_add, Nat.cast_one]
  exact lt_add_one _

theorem requireChain_of_admitted (h : Admitted (MultiMarketAdmits ctx parent) events) :
    requireChain ctx parent events = .ok () := by
  cases parent with
  | none =>
    cases h with
    | nil => rfl
    | concat _ ha =>
      obtain ⟨p, hp, -⟩ := ha.chained
      cases hp
  | some parent =>
    refine checkEach_eq_ok.2 (h.mono fun m e _ he => ?_)
    obtain ⟨p, hp, hevent⟩ := he.chained
    cases hp
    exact hevent

end Chains

namespace IsMultiMarket

variable (h : IsMultiMarket ctx ledger)

include h

theorem storedHypothesis_eq {stored : MultiMarketHypothesisRegistration}
    (hstored : stored ∈ ledger.hypotheses) : storedHypothesis ctx stored = .ok stored :=
  bind_eq_ok.2 ⟨(), raiseIf_eq_ok.2 (by simp [h.hypotheses stored hstored]), rfl⟩

theorem multiMarketHypothesisById_eq (hypothesisId : String) :
    multiMarketHypothesisById ctx ledger hypothesisId =
      .ok (ledger.hypotheses.find? (·.hypothesisId = hypothesisId)) := by
  rw [multiMarketHypothesisById]
  cases hfind : ledger.hypotheses.find? (·.hypothesisId = hypothesisId) with
  | none => rfl
  | some stored =>
    dsimp only
    rw [h.storedHypothesis_eq (List.mem_of_find?_eq_some hfind)]
    rfl

theorem readMultiMarketHypotheses_eq :
    readMultiMarketHypotheses ctx ledger = .ok ledger.hypotheses :=
  mapM_self fun _ => h.storedHypothesis_eq

theorem readMultiMarketStrategyVersions_eq :
    readMultiMarketStrategyVersions ctx ledger = .ok ledger.strategyVersions := by
  have hstored : ledger.strategyVersions.mapM storedVersion = .ok ledger.strategyVersions :=
    mapM_self fun stored hstored =>
      bind_eq_ok.2 ⟨(), raiseIf_eq_ok.2 (by simp [(h.versions stored hstored).1]), rfl⟩
  have hparents : ledger.strategyVersions.mapM (requireVersionParent ctx ledger) =
      .ok (ledger.strategyVersions.map fun _ => ()) := by
    refine mapM_eq_map fun stored hstored => ?_
    obtain ⟨-, hypothesis, hhypothesis, hmatches⟩ := h.versions stored hstored
    rw [MultiMarketLedger.hypothesisOf] at hhypothesis
    rw [requireVersionParent, h.multiMarketHypothesisById_eq, hhypothesis, ok_bind, raiseIf_eq_ok]
    simp [hmatches]
  rw [readMultiMarketStrategyVersions, hstored, ok_bind, hparents, ok_bind]
  rfl

/-- The parent of a version that is on its primary lane is found, and that of another one is
    refused. -/
theorem versionParent_eq : versionParent ctx ledger name =
    if ledger.onSideLane name then .error .invalidSource
    else .ok (ledger.primaryParentOf ctx name) := by
  rw [versionParent, h.readMultiMarketStrategyVersions_eq, ok_bind, filter_key_eq_toList h.names,
    MultiMarketLedger.onSideLane, MultiMarketLedger.primaryParentOf, MultiMarketLedger.versionOf]
  cases hversion : ledger.strategyVersions.find? (·.strategyVersion = name) with
  | none => rfl
  | some version =>
    obtain ⟨-, hypothesis, hhypothesis, hmatches⟩ :=
      h.versions version (List.mem_of_find?_eq_some hversion)
    simp only [versionMatchesParent, decide_eq_true_eq] at hmatches
    have hfound : ledger.hypotheses.find? (·.hypothesisId = version.hypothesisId) =
        some hypothesis := hhypothesis
    simp only [Option.toList_some, h.readMultiMarketHypotheses_eq, ok_bind,
      filter_key_eq_toList h.hypothesisIds, hfound, hhypothesis, Option.any_some,
      Option.bind_eq_bind, Option.bind_some]
    by_cases hlane : hypothesis.experimentScope.primaryLane = version.strategyLane
    · rw [raiseIf_bind, if_neg (by simp [hlane, hmatches.1]), if_pos hlane,
        if_neg (by simp [hlane])]
      rfl
    · rw [raiseIf_bind, if_pos (by simp [hlane]), if_pos (by simp [hlane])]

theorem historyOf_eq_nil (hside : ledger.onSideLane name = true) : ledger.historyOf name = [] := by
  have hnone : ledger.primaryParentOf ctx name = none := by
    rw [MultiMarketLedger.onSideLane, Option.any_eq_true] at hside
    obtain ⟨version, hversion, hside⟩ := hside
    rw [Option.any_eq_true] at hside
    obtain ⟨hypothesis, hhypothesis, hlane⟩ := hside
    rw [MultiMarketLedger.primaryParentOf, hversion]
    simp only [hhypothesis, Option.bind_eq_bind, Option.bind_some]
    exact if_neg (by simpa using hlane)
  have hhistory := h.histories name
  rw [hnone] at hhistory
  generalize ledger.historyOf name = events at hhistory
  cases hhistory with
  | nil => rfl
  | concat _ ha =>
    obtain ⟨p, hp, -⟩ := ha.chained
    cases hp

theorem storedEvents_eq :
    (((ledger.lifecycleEvents.filter (·.strategyVersion = name)).insertionSort
      fun e f => e.sequence ≤ f.sequence).mapM fun stored => do
        raiseIf (stored.validateEvent ctx = false) LedgerError.invalidSource
        return stored) = .ok (ledger.historyOf name) := by
  have hsorted : (ledger.historyOf name).Pairwise fun e f => e.sequence ≤ f.sequence :=
    (pairwise_multiMarket_sequence (h.histories name)).imp le_of_lt
  change ((ledger.historyOf name).insertionSort _).mapM _ = _
  rw [hsorted.insertionSort_eq]
  refine mapM_self fun stored hstored => ?_
  have hvalid := (h.histories name).forall_mem (fun _ _ _ _ ha => ha.valid) stored hstored
  exact bind_eq_ok.2 ⟨(), raiseIf_eq_ok.2 (by simp [hvalid]), rfl⟩

/-- The lifecycle of a version that is on its primary lane is what was written. -/
theorem readMultiMarketLifecycleEvents_eq : readMultiMarketLifecycleEvents ctx ledger name =
    if ledger.onSideLane name then .error .invalidSource else .ok (ledger.historyOf name) := by
  rw [readMultiMarketLifecycleEvents, h.storedEvents_eq, ok_bind, h.versionParent_eq]
  split_ifs
  · rfl
  · rw [ok_bind, requireChain_of_admitted (h.histories name), ok_bind]
    rfl

end IsMultiMarket

/-! ## Writing -/

theorem isMultiMarket_empty : IsMultiMarket ctx {} where
  hypotheses := by simp
  hypothesisIds := List.nodup_nil
  versions := by simp
  names := List.nodup_nil
  histories _ := .nil

theorem multiMarketHypothesisById_eq_ok {hypothesisId : String}
    {found : Option MultiMarketHypothesisRegistration}
    (h : multiMarketHypothesisById ctx ledger hypothesisId = .ok found) :
    found = ledger.hypotheses.find? (·.hypothesisId = hypothesisId) := by
  rw [multiMarketHypothesisById] at h
  cases hfind : ledger.hypotheses.find? (·.hypothesisId = hypothesisId) with
  | none =>
    rw [hfind] at h
    cases h
    rfl
  | some stored =>
    rw [hfind] at h
    dsimp only at h
    cases hstored : storedHypothesis ctx stored with
    | error e => rw [hstored] at h; cases h
    | ok again =>
      rw [hstored] at h
      cases h
      obtain ⟨_, -, hagain⟩ := bind_eq_ok.1 hstored
      cases hagain
      rfl

theorem multiMarketVersionById_eq_ok {found : Option MultiMarketStrategyVersionRegistration}
    (h : multiMarketVersionById ledger name = .ok found) :
    found = ledger.strategyVersions.find? (·.strategyVersion = name) := by
  rw [multiMarketVersionById] at h
  cases hfind : ledger.strategyVersions.find? (·.strategyVersion = name) with
  | none =>
    rw [hfind] at h
    cases h
    rfl
  | some stored =>
    rw [hfind] at h
    dsimp only at h
    cases hstored : storedVersion stored with
    | error e => rw [hstored] at h; cases h
    | ok again =>
      rw [hstored] at h
      cases h
      obtain ⟨_, -, hagain⟩ := bind_eq_ok.1 hstored
      cases hagain
      rfl

theorem registerMultiMarketHypothesis_cases {registration : MultiMarketHypothesisRegistration}
    (h : registerMultiMarketHypothesis ctx registration ledger = .ok (b, next)) :
    next = ledger ∨ registration.validateRegistration ctx.sha = true ∧
      ledger.hypotheses.find? (·.hypothesisId = registration.hypothesisId) = none ∧
      next = { ledger with hypotheses := ledger.hypotheses ++ [registration] } := by
  obtain ⟨_, hvalid, h⟩ := bind_eq_ok.1 h
  obtain ⟨_, -, h⟩ := bind_eq_ok.1 h
  obtain ⟨found, hfound, h⟩ := bind_eq_ok.1 h
  cases found with
  | some existing =>
    dsimp only at h
    split_ifs at h
    cases h
    exact .inl rfl
  | none =>
    obtain ⟨_, -, h⟩ := bind_eq_ok.1 h
    cases h
    exact .inr ⟨by simpa using hvalid, (multiMarketHypothesisById_eq_ok hfound).symm, rfl⟩

theorem registerMultiMarketStrategyVersion_cases
    {registration : MultiMarketStrategyVersionRegistration}
    (h : registerMultiMarketStrategyVersion ctx registration ledger = .ok (b, next)) :
    next = ledger ∨ registration.validateRegistration = true ∧
      (∃ parent, ledger.hypothesisOf registration = some parent ∧
        versionMatchesParent registration parent = true) ∧
      ledger.strategyVersions.find? (·.strategyVersion = registration.strategyVersion) = none ∧
      next = { ledger with strategyVersions := ledger.strategyVersions ++ [registration] } := by
  obtain ⟨_, hvalid, h⟩ := bind_eq_ok.1 h
  obtain ⟨_, -, h⟩ := bind_eq_ok.1 h
  obtain ⟨⟨⟩, hparent, h⟩ := bind_eq_ok.1 h
  obtain ⟨found, hfound, h⟩ := bind_eq_ok.1 h
  cases found with
  | some existing =>
    dsimp only at h
    split_ifs at h
    cases h
    exact .inl rfl
  | none =>
    obtain ⟨_, -, h⟩ := bind_eq_ok.1 h
    cases h
    obtain ⟨parent, hlookup, hmatches⟩ := bind_eq_ok.1 hparent
    rw [raiseIf_eq_ok, not_not, Option.any_eq_true] at hmatches
    obtain ⟨hypothesis, heq, hmatches⟩ := hmatches
    refine .inr ⟨by simpa using hvalid, ⟨hypothesis, ?_, hmatches⟩,
      (multiMarketVersionById_eq_ok hfound).symm, rfl⟩
    rw [MultiMarketLedger.hypothesisOf, ← heq]
    exact (multiMarketHypothesisById_eq_ok hlookup).symm

/-- An event that was appended is admitted by the ones before it. -/
theorem appendMultiMarketLifecycleEvent_cases (h : IsMultiMarket ctx ledger)
    (happend : appendMultiMarketLifecycleEvent ctx event ledger = .ok (b, next)) :
    next = ledger ∨
      MultiMarketAdmits ctx (ledger.primaryParentOf ctx event.strategyVersion)
          (ledger.historyOf event.strategyVersion) event ∧
        next = { ledger with lifecycleEvents := ledger.lifecycleEvents ++ [event] } := by
  obtain ⟨_, hvalid, happend⟩ := bind_eq_ok.1 happend
  obtain ⟨parent, hparent, happend⟩ := bind_eq_ok.1 happend
  obtain ⟨_, hsome, happend⟩ := bind_eq_ok.1 happend
  obtain ⟨events, hevents, happend⟩ := bind_eq_ok.1 happend
  rw [h.versionParent_eq] at hparent
  rw [h.readMultiMarketLifecycleEvents_eq] at hevents
  split_ifs at hparent hevents
  cases hparent
  cases hevents
  cases hfind : (ledger.historyOf event.strategyVersion).find? (·.sequence = event.sequence) with
  | some existing =>
    simp only [hfind] at happend
    split_ifs at happend
    cases happend
    exact .inl rfl
  | none =>
    simp only [hfind] at happend
    obtain ⟨⟨⟩, hchain, happend⟩ := bind_eq_ok.1 happend
    obtain ⟨written, hwritten, happend⟩ := bind_eq_ok.1 happend
    cases happend
    obtain ⟨_, -, hwritten⟩ := bind_eq_ok.1 hwritten
    cases hwritten
    rw [raiseIf_eq_ok] at hsome
    obtain ⟨parent, hparent⟩ := Option.ne_none_iff_exists'.1 hsome
    rw [hparent] at hchain ⊢
    have hadmitted := checkEach_eq_ok.1 hchain
    rw [admitted_concat] at hadmitted
    exact .inr ⟨⟨by simpa using hvalid, parent, rfl, hadmitted.2⟩, rfl⟩

theorem IsMultiMarket.addHypothesis (h : IsMultiMarket ctx ledger)
    {registration : MultiMarketHypothesisRegistration}
    (hvalid : registration.validateRegistration ctx.sha = true)
    (hnew : ledger.hypotheses.find? (·.hypothesisId = registration.hypothesisId) = none) :
    IsMultiMarket ctx { ledger with hypotheses := ledger.hypotheses ++ [registration] } where
  hypotheses := by
    intro stored hstored
    rcases List.mem_append.1 hstored with hstored | hstored
    · exact h.hypotheses stored hstored
    · rwa [List.mem_singleton.1 hstored]
  hypothesisIds := nodup_map_concat h.hypothesisIds hnew
  versions := by
    intro stored hstored
    obtain ⟨hversion, hypothesis, hfind, hmatches⟩ := h.versions stored hstored
    exact ⟨hversion, hypothesis, find?_append_of_eq_some hfind _, hmatches⟩
  names := h.names
  histories name := by
    refine (h.histories name).mono ?_
    rintro m e - ⟨hevent, p, hp, hchained⟩
    refine ⟨hevent, p, ?_, hchained⟩
    rw [MultiMarketLedger.primaryParentOf] at hp ⊢
    obtain ⟨version, hversion, hp⟩ := Option.bind_eq_some_iff.1 hp
    obtain ⟨hypothesis, hhypothesis, hp⟩ := Option.bind_eq_some_iff.1 hp
    exact Option.bind_eq_some_iff.2 ⟨version, hversion,
      Option.bind_eq_some_iff.2 ⟨hypothesis, find?_append_of_eq_some hhypothesis _, hp⟩⟩

theorem IsMultiMarket.addVersion (h : IsMultiMarket ctx ledger)
    {registration : MultiMarketStrategyVersionRegistration}
    (hvalid : registration.validateRegistration = true)
    (hparent : ∃ parent, ledger.hypothesisOf registration = some parent ∧
      versionMatchesParent registration parent = true)
    (hnew : ledger.strategyVersions.find? (·.strategyVersion = registration.strategyVersion) =
      none) :
    IsMultiMarket ctx
      { ledger with strategyVersions := ledger.strategyVersions ++ [registration] } where
  hypotheses := h.hypotheses
  hypothesisIds := h.hypothesisIds
  versions := by
    intro stored hstored
    rcases List.mem_append.1 hstored with hstored | hstored
    · exact h.versions stored hstored
    · rw [List.mem_singleton.1 hstored]
      exact ⟨hvalid, hparent⟩
  names := nodup_map_concat h.names hnew
  histories name := by
    refine (h.histories name).mono ?_
    rintro m e - ⟨hevent, p, hp, hchained⟩
    refine ⟨hevent, p, ?_, hchained⟩
    rw [MultiMarketLedger.primaryParentOf] at hp ⊢
    obtain ⟨version, hversion, hp⟩ := Option.bind_eq_some_iff.1 hp
    exact Option.bind_eq_some_iff.2 ⟨version, find?_append_of_eq_some hversion _, hp⟩

theorem isMultiMarket_after (ledger : MultiMarketLedger) (call : MultiMarketCall)
    (h : IsMultiMarket ctx ledger) : IsMultiMarket ctx (ledger.after ctx call) := by
  cases hrun : runMultiMarket ctx ledger call with
  | error e =>
    have heq : ledger.after ctx call = ledger := by rw [MultiMarketLedger.after, hrun]; rfl
    rwa [heq]
  | ok result =>
    obtain ⟨b, next⟩ := result
    have heq : ledger.after ctx call = next := by rw [MultiMarketLedger.after, hrun]; rfl
    rw [heq]
    cases call with
    | legacy call =>
      -- The other tables are not read by what is known of these ones.
      rw [runMultiMarket] at hrun
      cases hlegacy : run ctx.toContext ledger.legacy call with
      | error e => rw [hlegacy] at hrun; cases hrun
      | ok written =>
        rw [hlegacy] at hrun
        cases hrun
        exact ⟨h.hypotheses, h.hypothesisIds, h.versions, h.names, h.histories⟩
    | hypothesis registration =>
      rcases registerMultiMarketHypothesis_cases hrun with rfl | ⟨hvalid, hnew, rfl⟩
      · exact h
      · exact h.addHypothesis hvalid hnew
    | version registration =>
      rcases registerMultiMarketStrategyVersion_cases hrun with rfl | ⟨hvalid, hparent, hnew, rfl⟩
      · exact h
      · exact h.addVersion hvalid hparent hnew
    | event event =>
      rcases appendMultiMarketLifecycleEvent_cases h hrun with rfl | ⟨hadmits, rfl⟩
      · exact h
      · exact { h with histories := forall_admitted_history_concat h.histories hadmits }

theorem isMultiMarket_of_reachable {db : Transaction.Database MultiMarketLedger}
    (h : (multiMarketSystem ctx).Reachable db) : db.All (IsMultiMarket ctx) :=
  Transaction.invariant isMultiMarket_empty isMultiMarket_after h

/-! ## Two lanes -/

namespace LanesSample

open ChampionSample (noon hex)

def env : MultiMarketContext where
  toContext := ChampionSample.env
  seoul := ⟨fun _ => .hours 9⟩

def dayLane : Swing.StrategyLaneRef := ⟨.usEquities, .dayTrading, "momentum"⟩
def swingLane : Swing.StrategyLaneRef := ⟨.usEquities, .swingTrading, "momentum"⟩

def scope : MultiMarketExperimentScope where
  scopeKind := .crossLaneHypothesis
  hypothesisId := "cross"
  primaryLane := dayLane
  lanes := [dayLane, swingLane]
  sourceHypothesisIds := ["h1", "h2"]
  combinationRule := some "both"
  registeredAt := noon 1

def hypothesis : MultiMarketHypothesisRegistration where
  hypothesisId := "cross"
  experimentScope := scope
  experimentScopeKey := multiMarketExperimentScopeKey env.sha scope
  hypothesis := "prices go on"
  falsificationRule := "they do not"
  sourceRegisteredAt := noon 1
  ledgerRecordedAt := noon 1

def registration (name : String) (lane : Swing.StrategyLaneRef) (parameters : List String) :
    MultiMarketStrategyVersionRegistration where
  strategyVersion := name
  hypothesisId := "cross"
  experimentScopeKey := multiMarketExperimentScopeKey env.sha scope
  strategyLane := lane
  operatingMode := .shadow
  codeVersion := "c1"
  parameterSet := parameters
  dataContract := ["d"]
  costModel := ["c"]
  portfolioPolicy := ["o"]
  sourceRegisteredAt := noon 1
  ledgerRecordedAt := noon 1

def day : MultiMarketStrategyVersionRegistration := registration "day" dayLane ["p"]
def swing : MultiMarketStrategyVersionRegistration := registration "swing" swingLane ["p", "q"]

def registered : MultiMarketStrategyLifecycleEvent where
  strategyVersion := "day"
  strategyLane := dayLane
  sequence := 1
  eventKind := .registration
  fromState := none
  toState := .experimentalShadow
  policyVersion := "policy"
  decisionSessionDate := .ofCivil 2026 7 6
  effectiveSessionDate := .ofCivil 2026 7 7
  decidedAt := noon 6
  sessionCalendarSnapshotId := hex 15
  evidenceKeys := [multiMarketStrategyVersionRegistrationKey env.sha day,
    multiMarketExperimentScopeKey env.sha scope,
    multiMarketHypothesisRegistrationKey env.sha hypothesis, hex 15]
  reasonCodes := ["multi_market_strategy_registered"]
  previousEventKey := none

def lanes : Transaction.Database MultiMarketLedger :=
  [.begin, .call (.hypothesis hypothesis), .call (.version day), .call (.version swing),
    .call (.event registered), .commit].foldl
    (Transaction.step (MultiMarketLedger.after env)) ⟨{}, none⟩

theorem reachable_lanes : (multiMarketSystem env).Reachable lanes := by
  unfold lanes
  exact Transaction.reachable_foldl {} (MultiMarketLedger.after env) _

end LanesSample

/-! ## What holds -/

variable {db : Transaction.Database MultiMarketLedger}

/-- A lifecycle can be read exactly if its version is on the primary lane of its hypothesis, and
    then it is what was written: on another lane, nothing ever is. -/
theorem readMultiMarketLifecycleEvents_eq_of_reachable (h : (multiMarketSystem ctx).Reachable db)
    (name : String) :
    readMultiMarketLifecycleEvents ctx db.committed name =
        (if db.committed.onSideLane name then .error .invalidSource
          else .ok (db.committed.historyOf name)) ∧
      (db.committed.onSideLane name = true → db.committed.historyOf name = []) := by
  obtain ⟨hledger, -⟩ := isMultiMarket_of_reachable h
  exact ⟨hledger.readMultiMarketLifecycleEvents_eq, hledger.historyOf_eq_nil⟩

theorem LanesSample.swing_not_readable :
    readMultiMarketLifecycleEvents env lanes.committed "swing" =
        (if lanes.committed.onSideLane "swing" then .error .invalidSource
          else .ok (lanes.committed.historyOf "swing")) ∧
      (lanes.committed.onSideLane "swing" = true → lanes.committed.historyOf "swing" = []) :=
  readMultiMarketLifecycleEvents_eq_of_reachable reachable_lanes "swing"

/-- The states that a lifecycle begins with. -/
def multiMarketInitial : List StrategyLifecycleState := [.experimentalShadow]

theorem kindIsValid_of_valid (h : event.validateEvent ctx = true) : event.kindIsValid = true := by
  simp only [MultiMarketStrategyLifecycleEvent.validateEvent, decide_eq_true_eq] at h
  exact h.2.2.2.2.2.2.2.2.2.2

/-- What admits an event lets its state follow those before. -/
theorem MultiMarketAdmits.follows {parent : Option LifecycleParent}
    (h : MultiMarketAdmits ctx parent events event) :
    Follows multiMarketInitial false (events.map (·.toState)) event.toState := by
  obtain ⟨p, -, hevent⟩ := h.chained
  have hvalid := kindIsValid_of_valid h.valid
  rw [MultiMarketStrategyLifecycleEvent.kindIsValid] at hvalid
  obtain ⟨-, -, -, -, ⟨rfl, hkind⟩ | ⟨earlier, previous, rfl, htransition⟩⟩ :=
    requireMultiMarketEvent_cases hevent
  · simp only [hkind, decide_eq_true_eq] at hvalid
    exact .start rfl (by simp [multiMarketInitial, hvalid.2.2.1])
  · obtain ⟨hkind, hfrom, -, hsuspended⟩ := requireTransition_cases htransition
    simp only [hkind, hfrom, Option.any_some, decide_eq_true_eq] at hvalid
    refine .next List.map_append hvalid.2.2 fun heq => .inr ?_
    obtain ⟨active, hactive, hrank⟩ := hsuspended heq
    refine ⟨active, ?_, hrank⟩
    -- The suspension itself is skipped.
    have hskipped : previous.toState = .suspended := heq
    rw [List.dropLast_concat] at hactive
    rw [List.map_append, List.map_singleton, lastActive, List.reverse_append, hskipped]
    exact hactive

/-- The events of a lifecycle, as a path within a mode. -/
structure IsMultiMarketPath (ledger : MultiMarketLedger) (name : String)
    (events : List MultiMarketStrategyLifecycleEvent) : Prop where
  starts : ∀ e ∈ events.head?, e.toState = .experimentalShadow
  modes : ∀ e ∈ events, ∃ version ∈ ledger.strategyVersions, version.strategyVersion = name ∧
    version.strategyLane = e.strategyLane ∧ version.operatingMode ≠ .contractOnly ∧
    (e.toState = .experimentalPaper ∨ e.toState = .paperChampion →
      version.operatingMode = .alpacaPaper ∧ paperAuthorized e.strategyLane = true)
  rejected : ∀ before e f after, events = before ++ e :: f :: after → e.toState ≠ .rejected ∧
    (e.toState = .suspended → f.toState ≠ .rejected)
  champions : ∀ before e after, events = before ++ e :: after → e.toState.isChampion = true →
    ∃ c ∈ before, c.toState = .challenger

theorem admitted_multiMarket_states {parent : Option LifecycleParent}
    (h : Admitted (MultiMarketAdmits ctx parent) events) :
    Admitted (Follows multiMarketInitial false) (events.map (·.toState)) :=
  h.map fun _ _ => MultiMarketAdmits.follows

theorem MultiMarketAdmits.start {parent : Option LifecycleParent}
    (h : MultiMarketAdmits ctx parent [] event) : event.toState = .experimentalShadow := by
  cases h.follows with
  | start _ hmem => exact List.mem_singleton.1 hmem
  | next heq => exact absurd heq (by simp)

theorem primaryParentOf_cases (h : ledger.primaryParentOf ctx name = some parent) :
    parent.version ∈ ledger.strategyVersions ∧ parent.version.strategyVersion = name := by
  obtain ⟨version, hversion, h⟩ := Option.bind_eq_some_iff.1 h
  obtain ⟨hypothesis, -, h⟩ := Option.bind_eq_some_iff.1 h
  split_ifs at h
  cases h
  exact ⟨List.mem_of_find?_eq_some hversion, by simpa using List.find?_some hversion⟩

/-- The mode of a version that has a lifecycle supports its states. -/
theorem IsMultiMarket.supports (h : IsMultiMarket ctx ledger)
    (hevent : event ∈ ledger.historyOf name) :
    ∃ version ∈ ledger.strategyVersions, version.strategyVersion = name ∧
      version.strategyLane = event.strategyLane ∧
      modeSupports version.operatingMode .experimentalShadow = true ∧
      modeSupports version.operatingMode event.toState = true := by
  have hhistory := h.histories name
  obtain ⟨before, after, hsplit⟩ := List.append_of_mem hevent
  cases hevents : ledger.historyOf name with
  | nil => rw [hevents] at hevent; cases hevent
  | cons first rest =>
    -- The first event tells that the mode supports a shadow experiment.
    have hfirst : MultiMarketAdmits ctx (ledger.primaryParentOf ctx name) [] first :=
      (Admitted.of_append_cons (l := []) (hevents ▸ hhistory)).2
    have hadmits := (Admitted.of_append_cons (hsplit ▸ hhistory)).2
    obtain ⟨p, hp, hchained⟩ := hadmits.chained
    obtain ⟨q, hq, hstart⟩ := hfirst.chained
    cases hp.symm.trans hq
    obtain ⟨hmem, hname⟩ := primaryParentOf_cases hp
    obtain ⟨-, hlane, -, hmode, -⟩ := requireMultiMarketEvent_cases hchained
    obtain ⟨-, -, -, hmode', -⟩ := requireMultiMarketEvent_cases hstart
    rw [hfirst.start] at hmode'
    exact ⟨p.version, hmem, hname, hlane.symm, hmode', hmode⟩

theorem alpacaPaper_of_modeSupports {mode : AgentOperatingMode} {state : StrategyLifecycleState}
    (hstate : state = .experimentalPaper ∨ state = .paperChampion)
    (h : modeSupports mode state = true) : mode = .alpacaPaper := by
  rcases hstate with rfl | rfl <;> cases mode <;> first | rfl | cases h

theorem paperAuthorized_of_validateRegistration {version : MultiMarketStrategyVersionRegistration}
    (h : version.validateRegistration = true) (hmode : version.operatingMode = .alpacaPaper) :
    paperAuthorized version.strategyLane = true := by
  simp only [MultiMarketStrategyVersionRegistration.validateRegistration, hmode,
    operatingModeAllowed, decide_eq_true_eq] at h
  exact h.2.2.2.2.2.2.2.2.2.2.2.2

end TradingAgent.Lifecycle
