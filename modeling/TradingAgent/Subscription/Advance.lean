import TradingAgent.Library.Transition
import TradingAgent.Subscription.Selection
import TradingAgent.Subscription.State

/-!
# Decisions taken over

The system of the policy (`policySystem`): from no state, it takes the observations one after the
other, each by a decision on the state before it and by its taking over. What one step does is
said once (`PolicyStep`), and what it leaves can be stored and read again
(`stateFromBytes_stateBytes`).
-/

namespace TradingAgent

open Transition

/-- What the policy is run on, each time. -/
structure PolicyObservation where
  snapshot : BroadScannerSnapshot
  evaluatedAt : DateTime
  config : SubscriptionPolicyConfig
  deriving DecidableEq, Repr

variable {sha : Sha256} {newYork : ZoneInfo}

section Observation

variable (newYork) (s : Option SubscriptionPolicyRuntimeState) (o : PolicyObservation)

/-- The decision on an observation. -/
def PolicyObservation.decide : Option SubscriptionPolicyDecision :=
  buildSubscriptionPolicyDecision newYork o.snapshot o.evaluatedAt (activeOf s) (cooldownsOf s)
    o.config

/-- The candidates that an observation selects. -/
def PolicyObservation.selected : List BroadScannerCandidate :=
  TradingAgent.selected o.snapshot o.evaluatedAt (activeOf s) (cooldownsOf s) o.config

def PolicyObservation.residents : List BroadScannerCandidate :=
  TradingAgent.residents o.snapshot o.evaluatedAt (activeOf s) (cooldownsOf s) o.config

def PolicyObservation.removed : List ActiveMarketDataSubscription :=
  TradingAgent.removed o.snapshot o.evaluatedAt (activeOf s) (cooldownsOf s) o.config

def PolicyObservation.added : List DesiredMarketDataSubscription :=
  TradingAgent.added o.snapshot o.evaluatedAt (activeOf s) (cooldownsOf s) o.config

def PolicyObservation.ready : SubscriptionPolicyDecision :=
  readyDecision o.snapshot o.evaluatedAt (activeOf s) (cooldownsOf s) o.config

end Observation

/-- The alternation of decisions and states, from no state. A step is an observation on which
    neither of the two functions raises an error. -/
def policySystem (sha : Sha256) (newYork : ZoneInfo) :
    System (Option SubscriptionPolicyRuntimeState) PolicyObservation where
  init s := s = none
  step s o t := ∃ d, o.decide newYork s = some d ∧
    ∃ state, advanceSubscriptionPolicyState sha s d = some state ∧ t = some state

/-! ## What taking over a decision does -/

theorem activate_eq_some {prior : List ActiveMarketDataSubscription} {evaluatedAt : DateTime}
    {item : DesiredMarketDataSubscription} {a : ActiveMarketDataSubscription} :
    activate prior evaluatedAt item = some a ↔
      a.key = (item.instrumentId, item.symbol) ∧
        match dictGet (·.instrumentId) prior item.instrumentId with
        | none => a.subscribedAt = evaluatedAt
        | some p => p.symbol = item.symbol ∧ a.subscribedAt = p.subscribedAt := by
  obtain ⟨i, symbol, time⟩ := a
  rw [activate, Option.map_eq_some_iff, ActiveMarketDataSubscription.key, Prod.mk.injEq]
  simp only [ActiveMarketDataSubscription.mk.injEq]
  cases hget : dictGet (·.instrumentId) prior item.instrumentId with
  | none =>
    simp only [subscribedAt, Option.some_inj, exists_eq_left']
    constructor
    · rintro ⟨rfl, rfl, rfl⟩
      exact ⟨⟨rfl, rfl⟩, rfl⟩
    · rintro ⟨⟨rfl, rfl⟩, rfl⟩
      exact ⟨rfl, rfl, rfl⟩
  | some p =>
    simp only [subscribedAt, ite_not, Option.ite_none_right_eq_some, Option.some_inj]
    constructor
    · rintro ⟨t, ⟨hp, rfl⟩, rfl, rfl, rfl⟩
      exact ⟨⟨rfl, rfl⟩, hp, rfl⟩
    · rintro ⟨⟨rfl, rfl⟩, hp, rfl⟩
      exact ⟨_, ⟨hp, rfl⟩, rfl, rfl, rfl⟩

/-- Taking over keeps the instruments that a decision desires, with their symbols. -/
theorem activated_keys {prior : List ActiveMarketDataSubscription} {evaluatedAt : DateTime}
    {desired : List DesiredMarketDataSubscription} {active : List ActiveMarketDataSubscription}
    (h : desired.mapM (activate prior evaluatedAt) = some active) :
    active.map (·.key) = desired.map fun d => (d.instrumentId, d.symbol) :=
  (map_eq_of_forall₂ (forall₂_of_mapM_eq_some h) fun _ _ hda =>
    (activate_eq_some.1 hda).1.symm).symm

/-- Cooldowns of new instruments are added as they are. -/
theorem foldlM_addCooldown {rows new : List SubscriptionCooldown}
    (h : ((rows ++ new).map (·.instrumentId)).Nodup) :
    new.foldlM addCooldown rows = some (rows ++ new) := by
  induction new generalizing rows with
  | nil => rw [List.append_nil, List.foldlM_nil, Option.pure_def]
  | cons item new ih =>
    have hnew : rows.find? (·.instrumentId = item.instrumentId) = none := by
      refine List.find?_eq_none.2 fun row hrow hid => ?_
      rw [List.map_append, List.nodup_append] at h
      exact h.2.2 _ (List.mem_map_of_mem hrow) _ (List.mem_map_of_mem List.mem_cons_self)
        (of_decide_eq_true hid)
    have hstep : addCooldown rows item = some (rows ++ [item]) := by rw [addCooldown, hnew]
    rw [List.append_cons] at h ⊢
    rw [List.foldlM_cons, hstep]
    exact ih h

theorem advance_eq_some {prior : Option SubscriptionPolicyRuntimeState}
    {decision : SubscriptionPolicyDecision} {state : SubscriptionPolicyRuntimeState} :
    advanceSubscriptionPolicyState sha prior decision = some state ↔
      validateDecision decision = true ∧ mayFollow sha prior decision = true ∧
        ∃ active cooldowns,
          decision.desired.mapM (activate (activeOf prior) decision.evaluatedAt) = some active ∧
          decision.newCooldowns.foldlM addCooldown (keptCooldowns (cooldownsOf prior) decision) =
            some cooldowns ∧
          validateSubscriptionPolicyState sha state = true ∧
          state = makeState sha decision active cooldowns := by
  rw [advanceSubscriptionPolicyState, Option.ite_none_left_eq_some, not_or, Bool.not_eq_false,
    Bool.not_eq_false, and_assoc]
  refine and_congr_right fun _ => and_congr_right fun _ => ?_
  simp only [Option.bind_eq_some_iff, Option.ite_none_right_eq_some, Option.some_inj]
  constructor
  · rintro ⟨active, hactive, cooldowns, hcooldowns, hvalid, rfl⟩
    exact ⟨active, cooldowns, hactive, hcooldowns, hvalid, rfl⟩
  · rintro ⟨active, cooldowns, hactive, hcooldowns, hvalid, rfl⟩
    exact ⟨active, hactive, cooldowns, hcooldowns, hvalid, rfl⟩

/-! ## What the inputs of a decision satisfy -/

section Inputs

variable {s : Option SubscriptionPolicyRuntimeState} {o : PolicyObservation}

/-- The inputs of a decision pass their checks. -/
structure ValidInputs (s : Option SubscriptionPolicyRuntimeState) (o : PolicyObservation) : Prop where
  aware : o.evaluatedAt.aware = true ∧ o.snapshot.observedAt.aware = true
  observedAt_le : ¬ o.evaluatedAt < o.snapshot.observedAt
  config : o.config.isValid = true
  candidates : ∀ c ∈ o.snapshot.candidates, c.isValid = true
  nodup_candidates : (o.snapshot.candidates.map (·.instrumentId)).Nodup ∧
    (o.snapshot.candidates.map (·.symbol)).Nodup
  active : ∀ a ∈ activeOf s, validIdentity a.key = true ∧ a.subscribedAt.aware = true ∧
    ¬ o.evaluatedAt < a.subscribedAt
  nodup_active : ((activeOf s).map (·.instrumentId)).Nodup ∧ ((activeOf s).map (·.symbol)).Nodup
  cooldowns : ∀ c ∈ cooldownsOf s, validIdentity c.key = true ∧ c.eligibleAfter.aware = true
  nodup_cooldowns : ((cooldownsOf s).map (·.instrumentId)).Nodup ∧
    ((cooldownsOf s).map (·.symbol)).Nodup
  disjoint : ∀ a ∈ activeOf s, a.instrumentId ∉ (cooldownsOf s).map (·.instrumentId)
  symbols : (o.snapshot.candidates.map (·.key) ++ (activeOf s).map (·.key) ++
    (cooldownsOf s).map (·.key)).Pairwise fun k k' => k.1 = k'.1 → k.2 = k'.2

theorem validInputs_iff : validateSubscriptionPolicyInputs o.snapshot o.evaluatedAt (activeOf s)
    (cooldownsOf s) o.config = true ↔ ValidInputs s o := by
  simp only [validateSubscriptionPolicyInputs, validCandidates, validActive, validCooldowns,
    consistentSymbols_iff, uniqueIdentities_iff, decide_eq_true_eq, List.map_map, List.all_eq_true]
  constructor
  · rintro ⟨⟨haware, haware', hle, hconfig⟩, ⟨hcandidates, hnodup⟩, ⟨hactive, hnodup'⟩,
      ⟨hcooldowns, hnodup''⟩, hdisjoint, -, hsymbols⟩
    exact ⟨⟨haware, haware'⟩, hle, hconfig, hcandidates, hnodup, hactive, hnodup', hcooldowns,
      hnodup'', hdisjoint, hsymbols⟩
  · intro h
    exact ⟨⟨h.aware.1, h.aware.2, h.observedAt_le, h.config⟩, ⟨h.candidates, h.nodup_candidates⟩,
      ⟨h.active, h.nodup_active⟩, ⟨h.cooldowns, h.nodup_cooldowns⟩, h.disjoint,
      fun k _ s hs => absurd hs (Option.not_mem_none s), h.symbols⟩

theorem SubscriptionPolicyConfig.isValid_iff {config : SubscriptionPolicyConfig} :
    config.isValid = true ↔ 0 < config.capacity ∧ positiveDuration config.maxCandidateAge = true ∧
      positiveDuration config.minimumResidency = true ∧
      positiveDuration config.evictionCooldown = true := by
  rw [isValid, decide_eq_true_eq, not_le]

theorem positiveDuration_iff {value : TimeDelta} :
    positiveDuration value = true ↔ 0 < value ∧ value ≤ TimeDelta.days 1 := by
  rw [positiveDuration, decide_eq_true_eq]

namespace ValidInputs

variable (h : ValidInputs s o)
include h

theorem capacity_pos : 0 < o.config.capacity := (SubscriptionPolicyConfig.isValid_iff.1 h.config).1

theorem evictionCooldown_pos : 0 < o.config.evictionCooldown :=
  (positiveDuration_iff.1 (SubscriptionPolicyConfig.isValid_iff.1 h.config).2.2.2).1

/-- A candidate and a subscription of one instrument have one symbol. -/
theorem symbol_active {c : BroadScannerCandidate} (hc : c ∈ o.snapshot.candidates)
    {a : ActiveMarketDataSubscription} (ha : a ∈ activeOf s)
    (hid : a.instrumentId = c.instrumentId) : a.symbol = c.symbol := by
  have hpair := (List.pairwise_append.1 (List.pairwise_append.1 h.symbols).1).2.2
  exact (hpair c.key (List.mem_map_of_mem hc) a.key (List.mem_map_of_mem ha) hid.symm).symm

theorem nodup_selected : ((o.selected s).map (·.instrumentId)).Nodup ∧
    ((o.selected s).map (·.symbol)).Nodup := by
  have hperm := List.perm_insertionSort
    (fun a b : BroadScannerCandidate => candidateRankKey a ≤ candidateRankKey b)
    o.snapshot.candidates
  have hsub : (o.selected s).Sublist (o.snapshot.candidates.insertionSort
      fun a b => candidateRankKey a ≤ candidateRankKey b) :=
    List.filter_sublist.trans List.filter_sublist
  exact ⟨((hperm.map _).nodup_iff.2 h.nodup_candidates.1).sublist (hsub.map _),
    ((hperm.map _).nodup_iff.2 h.nodup_candidates.2).sublist (hsub.map _)⟩

omit h in
theorem mem_selected {c : BroadScannerCandidate} (hc : c ∈ o.selected s) :
    c ∈ o.snapshot.candidates :=
  mem_candidates_of_mem_eligible (TradingAgent.mem_selected.1 hc).1

theorem removed_ids : ((o.removed s).map (·.instrumentId)).Nodup ∧
    ((o.removed s).map (·.symbol)).Nodup := by
  have hperm := List.perm_insertionSort
    (fun a b : ActiveMarketDataSubscription => a.instrumentId ≤ b.instrumentId) (activeOf s)
  exact ⟨((hperm.map _).nodup_iff.2 h.nodup_active.1).sublist (List.filter_sublist.map _),
    ((hperm.map _).nodup_iff.2 h.nodup_active.2).sublist (List.filter_sublist.map _)⟩

/-- The cooldowns that are kept, and those that start, are of different instruments. -/
theorem nodup_cooldown_ids : ((keptCooldowns (cooldownsOf s) (o.ready s) ++
    (o.ready s).newCooldowns).map (·.instrumentId)).Nodup := by
  have hnew : (o.ready s).newCooldowns.map (·.instrumentId) =
      (o.removed s).map (·.instrumentId) := List.map_map
  rw [List.map_append, hnew, List.nodup_append]
  refine ⟨h.nodup_cooldowns.1.sublist (List.filter_sublist.map _), h.removed_ids.1, ?_⟩
  rintro i hi j hj rfl
  obtain ⟨a, ha, rfl⟩ := List.mem_map.1 hj
  exact h.disjoint a (mem_removed.1 ha).1 ((List.filter_sublist.map _).subset hi)

end ValidInputs

/-- The decision on an observation is ready exactly if the inputs are valid and current, during
    a session. -/
theorem decide_ready_iff {d : SubscriptionPolicyDecision} :
    o.decide newYork s = some d ∧ d.status = .ready ↔
      ValidInputs s o ∧ inRegularSession newYork o.evaluatedAt = true ∧
        inRegularSession newYork o.snapshot.observedAt = true ∧
        ¬ o.config.maxCandidateAge < o.evaluatedAt - o.snapshot.observedAt ∧ d = o.ready s := by
  rw [PolicyObservation.decide, buildSubscriptionPolicyDecision, Option.ite_none_left_eq_some,
    Bool.not_eq_false, validInputs_iff, and_assoc]
  refine and_congr_right fun _ => ?_
  split_ifs with hsession hage
  · refine iff_of_false ?_ fun ⟨hnow, hthen, _⟩ => ?_
    · rintro ⟨hd, hstatus⟩
      rw [← Option.some_inj.1 hd] at hstatus
      simp [blockedDecision] at hstatus
    · rcases hsession with hfalse | hfalse
      · exact absurd (hnow.symm.trans hfalse) (by decide)
      · exact absurd (hthen.symm.trans hfalse) (by decide)
  · refine iff_of_false ?_ fun ⟨_, _, hfresh, _⟩ => hfresh hage
    rintro ⟨hd, hstatus⟩
    rw [← Option.some_inj.1 hd] at hstatus
    simp [blockedDecision] at hstatus
  · rw [not_or, Bool.not_eq_false, Bool.not_eq_false] at hsession
    constructor
    · rintro ⟨hd, -⟩
      exact ⟨hsession.1, hsession.2, hage, (Option.some_inj.1 hd).symm⟩
    · rintro ⟨-, -, -, rfl⟩
      exact ⟨rfl, rfl⟩

end Inputs

/-! ## What a step does -/

/-- What a step from a state `s` by an observation `o` leads to. -/
structure PolicyStep (sha : Sha256) (newYork : ZoneInfo) (s : Option SubscriptionPolicyRuntimeState)
    (o : PolicyObservation) (t : SubscriptionPolicyRuntimeState) : Prop where
  inputs : ValidInputs s o
  decision : o.decide newYork s = some (o.ready s)
  time : ∀ state ∈ s, state.evaluatedAt ≤ o.evaluatedAt
  evaluatedAt : t.evaluatedAt = o.evaluatedAt
  active : (o.ready s).desired.mapM (activate (activeOf s) o.evaluatedAt) = some t.active
  mem_cooldowns : ∀ c, c ∈ t.cooldowns ↔
    c ∈ keptCooldowns (cooldownsOf s) (o.ready s) ∨ c ∈ (o.ready s).newCooldowns
  valid : validateSubscriptionPolicyState sha t = true

theorem mayFollow_iff {prior : Option SubscriptionPolicyRuntimeState}
    {decision : SubscriptionPolicyDecision} :
    mayFollow sha prior decision = true ↔ ∀ state ∈ prior,
      validateSubscriptionPolicyState sha state = true ∧
        state.evaluatedAt ≤ decision.evaluatedAt := by
  simp only [mayFollow, decide_eq_true_eq, DateTime.not_lt]

theorem policyStep_of_step {s t : Option SubscriptionPolicyRuntimeState} {o : PolicyObservation}
    (h : (policySystem sha newYork).step s o t) :
    ∃ state, t = some state ∧ PolicyStep sha newYork s o state := by
  obtain ⟨d, hd, state, hadvance, rfl⟩ := h
  obtain ⟨hdecision, hfollow, active, cooldowns, hactive, hcooldowns, hvalid, rfl⟩ :=
    advance_eq_some.1 hadvance
  have hstatus : d.status = .ready := by
    rw [validateDecision, decide_eq_true_eq] at hdecision
    exact hdecision.1
  obtain ⟨hinputs, -, -, -, rfl⟩ := decide_ready_iff.1 ⟨hd, hstatus⟩
  rw [foldlM_addCooldown hinputs.nodup_cooldown_ids, Option.some_inj] at hcooldowns
  refine ⟨_, rfl, hinputs, hd, fun state hs => (mayFollow_iff.1 hfollow state hs).2, rfl, hactive,
    fun c => ?_, hvalid⟩
  rw [← List.mem_append, hcooldowns]
  exact List.mem_insertionSort _

namespace PolicyStep

variable {s : Option SubscriptionPolicyRuntimeState} {o : PolicyObservation}
  {t : SubscriptionPolicyRuntimeState} (h : PolicyStep sha newYork s o t)
include h

/-- The subscriptions after a step are those it desires. -/
theorem active_keys : t.active.map (·.key) = (o.selected s).map (·.key) := by
  rw [activated_keys h.active]
  exact List.map_map

theorem active_ids : t.active.map (·.instrumentId) = (o.selected s).map (·.instrumentId) := by
  have hkeys := congrArg (List.map Prod.fst) h.active_keys
  rwa [List.map_map, List.map_map] at hkeys

/-- No more instruments are subscribed to than there is room for. -/
theorem length_active_le : t.active.length ≤ o.config.capacity := by
  have hlength : t.active.length = (o.selected s).length := by
    rw [← List.length_map (f := fun a : ActiveMarketDataSubscription => a.instrumentId),
      h.active_ids, List.length_map]
  rw [hlength]
  exact length_selected_le h.inputs.nodup_candidates.1 h.inputs.capacity_pos.le

/-- A subscription that goes on is the one it was. -/
theorem mem_active_of_selected {a : ActiveMarketDataSubscription} (ha : a ∈ activeOf s)
    (hid : a.instrumentId ∈ (o.selected s).map (·.instrumentId)) : a ∈ t.active := by
  obtain ⟨c, hc, hid⟩ := List.mem_map.1 hid
  have hdesired : (⟨c.instrumentId, c.symbol, CHANNELS⟩ : DesiredMarketDataSubscription) ∈
      (o.ready s).desired := List.mem_map.2 ⟨c, hc, rfl⟩
  obtain ⟨a', ha', hactivate⟩ :=
    exists_right_of_forall₂ (forall₂_of_mapM_eq_some h.active) hdesired
  obtain ⟨hkey, htime⟩ := activate_eq_some.1 hactivate
  have hget : dictGet (·.instrumentId) (activeOf s) c.instrumentId = some a :=
    hid ▸ dictGet_of_mem h.inputs.nodup_active.1 ha
  dsimp only at htime
  rw [hget] at htime
  obtain ⟨hid', hsymbol'⟩ := Prod.mk.inj hkey
  have heq : a' = a := by
    obtain ⟨i, symbol, time⟩ := a
    obtain ⟨i', symbol', time'⟩ := a'
    obtain ⟨hsymbol, htime⟩ := htime
    dsimp only at hid hid' hsymbol hsymbol' htime
    rw [hid', hid, hsymbol', hsymbol, htime]
  exact heq ▸ ha'

/-- A resident stays subscribed to, while there is room for the residents. -/
theorem resident_mem_active {a : ActiveMarketDataSubscription} (ha : a ∈ activeOf s)
    (hresident : o.evaluatedAt - a.subscribedAt < o.config.minimumResidency)
    (hcandidate : a.instrumentId ∈ o.snapshot.candidates.map (·.instrumentId))
    (hroom : (o.residents s).length ≤ o.config.capacity) : a ∈ t.active := by
  obtain ⟨c, hc, hid⟩ := List.mem_map.1 hcandidate
  -- What is subscribed to does not cool down, so the candidate is eligible.
  have heligible : c ∈ eligible o.snapshot o.evaluatedAt (cooldownsOf s) := by
    refine (mem_eligible h.inputs.nodup_cooldowns.1).2 ⟨hc, fun cooldown hmem hid' => ?_⟩
    exact absurd (List.mem_map.2 ⟨cooldown, hmem, hid'.trans hid⟩) (h.inputs.disjoint a ha)
  have hc : c ∈ o.residents s :=
    (mem_residents h.inputs.nodup_active.1).2 ⟨heligible, a, ha, hid.symm, hresident⟩
  refine h.mem_active_of_selected ha ?_
  rw [← hid]
  exact List.mem_map_of_mem (mem_selected_of_resident hroom hc)

/-- An instrument that is evicted cools down. -/
theorem cooldown_of_evicted {a : ActiveMarketDataSubscription} (ha : a ∈ activeOf s)
    (hevicted : a.instrumentId ∉ t.active.map (·.instrumentId)) :
    ⟨a.instrumentId, a.symbol, o.evaluatedAt + o.config.evictionCooldown⟩ ∈ t.cooldowns := by
  refine (h.mem_cooldowns _).2 (.inr (List.mem_map.2 ⟨a, mem_removed.2 ⟨ha, fun hmem => ?_⟩, rfl⟩))
  exact hevicted (h.active_ids ▸ selectedIds_subset hmem)

/-- A cooldown that is not over stays. -/
theorem cooldown_mem {c : SubscriptionCooldown} (hc : c ∈ cooldownsOf s)
    (htime : o.evaluatedAt < c.eligibleAfter) : c ∈ t.cooldowns := by
  refine (h.mem_cooldowns c).2 (.inl (List.mem_filter.2 ⟨hc, ?_⟩))
  rw [decide_eq_true_eq]
  refine ⟨htime, fun hdesired => ?_⟩
  -- What is desired is eligible, and so does not cool down.
  obtain ⟨d, hd, hid⟩ := List.mem_map.1 hdesired
  obtain ⟨candidate, hcandidate, rfl⟩ := List.mem_map.1 hd
  have heligible := (TradingAgent.mem_selected.1 hcandidate).1
  have hover := ((mem_eligible h.inputs.nodup_cooldowns.1).1 heligible).2 c hc hid.symm
  exact absurd htime (DateTime.not_lt.2 hover)

end PolicyStep

end TradingAgent
