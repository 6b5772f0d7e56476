import Mathlib.Data.Finset.Basic
import Mathlib.Data.Finset.Lattice.Lemmas
import TradingAgent.Subscription.Advance

/-!
# Runs of the subscription policy

What the policy keeps over its runs (`policy_keeps_promises`): it stays within its capacity, and
the instruments that it evicts out until they are eligible again; its actions are exactly what
changes; its states can be stored and read again.

A decision is not always taken over. One that is blocked, out of hours or on old candidates, is
refused, and candidates whose symbols are not those of the state are refused before. Besides, an
instrument may be evicted under the symbol of another one that still cools down, and then the
state is not valid (`policy_refuses_its_output`).
-/

namespace TradingAgent

open Transition

variable {sha : Sha256} {newYork : ZoneInfo} {s : Option SubscriptionPolicyRuntimeState}
  {o : PolicyObservation} {t : SubscriptionPolicyRuntimeState}

/-! ## The actions -/

/-- What an action makes of the subscriptions: it ends one that there is, or starts a new one. -/
def applyAction (subscribed : Finset (String × String)) (action : SubscriptionAction) :
    Option (Finset (String × String)) :=
  let key := (action.instrumentId, action.symbol)
  match action.kind with
  | .unsubscribe => if key ∈ subscribed then some (subscribed.erase key) else none
  | .subscribe => if key ∈ subscribed then none else some (insert key subscribed)

theorem foldlM_unsubscribe {rows : List ActiveMarketDataSubscription}
    {subscribed : Finset (String × String)} (hnodup : (rows.map (·.key)).Nodup)
    (hsub : ∀ a ∈ rows, a.key ∈ subscribed) :
    (rows.map unsubscribeAction).foldlM applyAction subscribed =
      some (subscribed \ (rows.map (·.key)).toFinset) := by
  induction rows generalizing subscribed with
  | nil => exact congrArg some Finset.sdiff_empty.symm
  | cons a rows ih =>
    obtain ⟨ha, hnodup⟩ := List.nodup_cons.1 hnodup
    obtain ⟨hmem, hsub⟩ := List.forall_mem_cons.1 hsub
    have hstep : applyAction subscribed (unsubscribeAction a) = some (subscribed.erase a.key) :=
      if_pos hmem
    rw [List.map_cons, List.foldlM_cons, hstep]
    refine (ih hnodup fun b hb => Finset.mem_erase.2 ⟨fun heq => ?_, hsub b hb⟩).trans ?_
    · exact ha (List.mem_map.2 ⟨b, hb, heq⟩)
    · rw [List.map_cons, List.toFinset_cons, Finset.sdiff_insert, Finset.erase_sdiff_comm]

theorem foldlM_subscribe {rows : List DesiredMarketDataSubscription}
    {subscribed : Finset (String × String)}
    (hnodup : (rows.map fun d => (d.instrumentId, d.symbol)).Nodup)
    (hnew : ∀ d ∈ rows, (d.instrumentId, d.symbol) ∉ subscribed) :
    (rows.map subscribeAction).foldlM applyAction subscribed =
      some (subscribed ∪ (rows.map fun d => (d.instrumentId, d.symbol)).toFinset) := by
  induction rows generalizing subscribed with
  | nil => exact congrArg some (Finset.union_empty _).symm
  | cons d rows ih =>
    obtain ⟨hd, hnodup⟩ := List.nodup_cons.1 hnodup
    obtain ⟨hmem, hnew⟩ := List.forall_mem_cons.1 hnew
    have hstep : applyAction subscribed (subscribeAction d) =
        some (insert (d.instrumentId, d.symbol) subscribed) := if_neg hmem
    rw [List.map_cons, List.foldlM_cons, hstep]
    refine (ih hnodup fun d' hd' hin => ?_).trans ?_
    · rcases Finset.mem_insert.1 hin with heq | hin
      · exact hd (List.mem_map.2 ⟨d', hd', heq⟩)
      · exact hnew d' hd' hin
    · rw [List.map_cons, List.toFinset_cons, Finset.insert_union, Finset.union_insert]

/-- The actions of a step make the subscriptions before it those after it. -/
theorem PolicyStep.actions (h : PolicyStep sha newYork s o t) :
    (o.ready s).actions.foldlM applyAction ((activeOf s).map (·.key)).toFinset =
      some (t.active.map (·.key)).toFinset := by
  have hremoved : ∀ a ∈ o.removed s, a.key ∈ ((activeOf s).map (·.key)).toFinset := fun a ha =>
    List.mem_toFinset.2 (List.mem_map_of_mem (mem_removed.1 ha).1)
  have hnodup_removed : ((o.removed s).map (·.key)).Nodup :=
    List.Nodup.of_map Prod.fst (by rw [List.map_map]; exact h.inputs.removed_ids.1)
  have hnodup_selected : ((o.selected s).map (·.key)).Nodup :=
    List.Nodup.of_map Prod.fst (by rw [List.map_map]; exact h.inputs.nodup_selected.1)
  have hdesired : (o.ready s).desired.map (fun d => (d.instrumentId, d.symbol)) =
      (o.selected s).map (·.key) := List.map_map
  have hadded : ∀ d ∈ o.added s, (d.instrumentId, d.symbol) ∉
      ((activeOf s).map (·.key)).toFinset \ ((o.removed s).map (·.key)).toFinset := by
    intro d hd hmem
    obtain ⟨a, ha, hkey⟩ := List.mem_map.1 (List.mem_toFinset.1 (Finset.mem_sdiff.1 hmem).1)
    have hnew := of_decide_eq_true (List.mem_filter.1 hd).2
    exact hnew (List.mem_map.2 ⟨a, ha, congrArg Prod.fst hkey⟩)
  have hnodup_added : ((o.added s).map fun d => (d.instrumentId, d.symbol)).Nodup :=
    (hdesired ▸ hnodup_selected).sublist (List.filter_sublist.map _)
  change ((o.removed s).map unsubscribeAction ++ (o.added s).map subscribeAction).foldlM
    applyAction _ = _
  rw [List.foldlM_append, foldlM_unsubscribe hnodup_removed hremoved]
  refine (foldlM_subscribe hnodup_added hadded).trans (congrArg some ?_)
  rw [h.active_keys]
  ext key
  rw [Finset.mem_union, Finset.mem_sdiff, List.mem_toFinset, List.mem_toFinset, List.mem_toFinset,
    List.mem_toFinset, ← hdesired]
  constructor
  · rintro (⟨hactive, hkept⟩ | hnew)
    · -- What is not removed is selected, under the same symbol.
      obtain ⟨a, ha, rfl⟩ := List.mem_map.1 hactive
      have hid : a.instrumentId ∈ (o.selected s).map (·.instrumentId) := by
        by_contra hnot
        exact hkept (List.mem_map_of_mem
          (mem_removed.2 ⟨ha, fun hid => hnot (selectedIds_subset hid)⟩))
      obtain ⟨c, hc, hid⟩ := List.mem_map.1 hid
      have hsymbol := h.inputs.symbol_active (ValidInputs.mem_selected hc) ha hid.symm
      rw [hdesired]
      exact List.mem_map.2 ⟨c, hc, Prod.ext hid hsymbol.symm⟩
    · exact (List.filter_sublist.map _).subset hnew
  · intro hkey
    obtain ⟨d, hd, rfl⟩ := List.mem_map.1 hkey
    by_cases hnew : d.instrumentId ∈ (activeOf s).map (·.instrumentId)
    · obtain ⟨a, ha, hid⟩ := List.mem_map.1 hnew
      obtain ⟨c, hc, rfl⟩ := List.mem_map.1 hd
      have hsymbol := h.inputs.symbol_active (ValidInputs.mem_selected hc) ha hid
      refine .inl ⟨List.mem_map.2 ⟨a, ha, Prod.ext hid hsymbol⟩, fun hremove => ?_⟩
      obtain ⟨a', ha', hkey'⟩ := List.mem_map.1 hremove
      refine (mem_removed.1 ha').2 ?_
      rw [(Prod.mk.inj hkey').1]
      exact (TradingAgent.mem_selected.1 hc).2
    · exact .inr (List.mem_map_of_mem (List.mem_filter.2 ⟨hd, decide_eq_true hnew⟩))

/-! ## The states of a run -/

theorem validateState_iff {state : SubscriptionPolicyRuntimeState} :
    validateSubscriptionPolicyState sha state = true ↔
      isHex64 state.stateId = true ∧ isHex64 state.decisionSha256 = true ∧
      state.evaluatedAt.aware = true ∧ validActiveState state.active state.evaluatedAt = true ∧
      validCooldownState state.cooldowns state.evaluatedAt = true ∧
      (∀ a ∈ state.active, a.instrumentId ∉ state.cooldowns.map (·.instrumentId)) ∧
      state.stateId = stateSha256 sha state := by
  rw [validateSubscriptionPolicyState, decide_eq_true_eq]

/-- A step leads to a state that passes its checks. -/
theorem reachable_valid (hs : (policySystem sha newYork).Reachable s) :
    ∀ state ∈ s, validateSubscriptionPolicyState sha state = true := by
  refine hs.invariant (P := fun s => ∀ state ∈ s,
    validateSubscriptionPolicyState sha state = true) ?_ ?_
  · rintro _ rfl state hstate
    exact absurd hstate (Option.not_mem_none state)
  · intro s o t _ _ hstep state hstate
    obtain ⟨state', rfl, h⟩ := policyStep_of_step hstep
    exact Option.some_inj.1 hstate ▸ h.valid

/-- Along a run, there is a state from the first step on, and time goes on. -/
theorem run_evaluatedAt {os : List PolicyObservation}
    (h : (policySystem sha newYork).Run s os (some t)) :
    ∀ state ∈ s, state.evaluatedAt ≤ t.evaluatedAt := by
  generalize hu : some t = u at h
  induction h with
  | nil s =>
    intro state hstate
    rw [← hu] at hstate
    exact Option.some_inj.1 hstate ▸ le_refl (α := ℤ) _
  | cons hstep _ ih =>
    intro state hstate
    obtain ⟨next, rfl, h⟩ := policyStep_of_step hstep
    have hle := h.time state hstate
    rw [← h.evaluatedAt] at hle
    exact le_trans (α := ℤ) hle (ih hu next rfl)

/-- A cooldown stays along a run, until it is over. -/
theorem run_cooldown {os : List PolicyObservation}
    (h : (policySystem sha newYork).Run s os (some t)) {c : SubscriptionCooldown}
    (hc : c ∈ cooldownsOf s) (htime : t.evaluatedAt < c.eligibleAfter) : c ∈ t.cooldowns := by
  generalize hu : some t = u at h
  induction h with
  | nil s =>
    rw [← hu] at hc
    exact hc
  | cons hstep hrun ih =>
    subst hu
    obtain ⟨next, rfl, h⟩ := policyStep_of_step hstep
    refine ih (h.cooldown_mem hc ?_) rfl
    rw [← h.evaluatedAt]
    exact lt_of_le_of_lt (α := ℤ) (run_evaluatedAt hrun next rfl) htime

/-- What cools down is not subscribed to. -/
theorem cooldown_not_active {state : SubscriptionPolicyRuntimeState}
    (h : validateSubscriptionPolicyState sha state = true) {c : SubscriptionCooldown}
    (hc : c ∈ state.cooldowns) : c.instrumentId ∉ state.active.map (·.instrumentId) := by
  intro hmem
  obtain ⟨a, ha, hid⟩ := List.mem_map.1 hmem
  obtain ⟨-, -, -, -, -, hdisjoint, -⟩ := validateState_iff.1 h
  exact hdisjoint a ha (hid ▸ List.mem_map_of_mem hc)

/-- What a step evicts is not subscribed to again before it is eligible. -/
theorem PolicyStep.evicted (h : PolicyStep sha newYork s o t)
    (ht : (policySystem sha newYork).Reachable (some t))
    {a : ActiveMarketDataSubscription} (ha : a ∈ activeOf s)
    (hevicted : a.instrumentId ∉ t.active.map (·.instrumentId)) {os : List PolicyObservation}
    {u : SubscriptionPolicyRuntimeState} (hrun : (policySystem sha newYork).Run (some t) os (some u))
    (htime : u.evaluatedAt < o.evaluatedAt + o.config.evictionCooldown) :
    a.instrumentId ∉ u.active.map (·.instrumentId) :=
  cooldown_not_active (reachable_valid (ht.run hrun) u rfl)
    (run_cooldown hrun (h.cooldown_of_evicted ha hevicted) htime)

/-! ## Storing and reading a state -/

theorem stateFromBytes_payload {state : SubscriptionPolicyRuntimeState}
    (h : validateSubscriptionPolicyState sha state = true) :
    stateFromBytes sha state.payload = some state := by
  have hbytes : stateBytes sha state = some state.payload := if_pos h
  have hactive : state.payload.active.mapM ActivePayload.read = some state.active :=
    mapM_map_eq_some fun _ _ => rfl
  have hcooldowns : state.payload.cooldowns.mapM CooldownPayload.read = some state.cooldowns :=
    mapM_map_eq_some fun _ _ => rfl
  rw [stateFromBytes, hactive, hcooldowns]
  exact if_pos hbytes

/-! ## Taking over a decision -/

theorem validIdentitySet_iff {keys : List (String × String)} :
    validIdentitySet keys = true ↔ ((keys.map (·.1)).Nodup ∧ (keys.map (·.2)).Nodup) ∧
      ∀ key ∈ keys, validIdentity key = true := by
  rw [validIdentitySet, decide_eq_true_eq, uniqueIdentities_iff, List.all_eq_true]

/-- The order of the cooldowns does not matter to whether they are valid. -/
theorem validCooldownState_perm {cooldowns cooldowns' : List SubscriptionCooldown} {now : DateTime}
    (hperm : cooldowns.Perm cooldowns') (h : validCooldownState cooldowns now = true) :
    validCooldownState cooldowns' now = true := by
  rw [validCooldownState, decide_eq_true_eq, validIdentitySet_iff] at h ⊢
  obtain ⟨⟨⟨hids, hsymbols⟩, hvalid⟩, htimes⟩ := h
  have hkeys := hperm.map (·.key)
  exact ⟨⟨⟨(hkeys.map _).nodup_iff.1 hids, (hkeys.map _).nodup_iff.1 hsymbols⟩,
    fun key hkey => hvalid key (hkeys.mem_iff.2 hkey)⟩, fun c hc => htimes c (hperm.mem_iff.2 hc)⟩

section Advance

variable (h : ValidInputs s o)
include h

theorem validActiveState_activated {active : List ActiveMarketDataSubscription}
    (hactive : (o.ready s).desired.mapM (activate (activeOf s) o.evaluatedAt) = some active) :
    validActiveState active o.evaluatedAt = true := by
  have hkeys : active.map (·.key) = (o.selected s).map (·.key) := by
    rw [activated_keys hactive]
    exact List.map_map
  rw [validActiveState, decide_eq_true_eq, validIdentitySet_iff, hkeys, List.map_map, List.map_map]
  refine ⟨⟨h.nodup_selected, fun key hkey => ?_⟩, fun a ha => ?_⟩
  · obtain ⟨c, hc, rfl⟩ := List.mem_map.1 hkey
    have hvalid := h.candidates c (ValidInputs.mem_selected hc)
    rw [BroadScannerCandidate.isValid, decide_eq_true_eq] at hvalid
    exact hvalid.1
  · -- It starts now, or goes on.
    obtain ⟨d, -, hda⟩ := exists_left_of_forall₂ (forall₂_of_mapM_eq_some hactive) ha
    have htime := (activate_eq_some.1 hda).2
    cases hget : dictGet (·.instrumentId) (activeOf s) d.instrumentId with
    | none =>
      rw [hget] at htime
      have htime : a.subscribedAt = o.evaluatedAt := htime
      rw [htime]
      exact ⟨h.aware.1, lt_irrefl o.evaluatedAt.instant⟩
    | some p =>
      rw [hget] at htime
      rw [htime.2]
      exact (h.active p (dictGet_eq_some hget).1).2

theorem validCooldownState_added (hshared : ∀ new ∈ (o.ready s).newCooldowns,
      ∀ c ∈ cooldownsOf s, o.evaluatedAt < c.eligibleAfter → c.symbol ≠ new.symbol) :
    validCooldownState (keptCooldowns (cooldownsOf s) (o.ready s) ++ (o.ready s).newCooldowns)
      o.evaluatedAt = true := by
  rw [validCooldownState, decide_eq_true_eq, validIdentitySet_iff, List.map_map, List.map_map]
  have hsymbols : (o.ready s).newCooldowns.map (·.symbol) = (o.removed s).map (·.symbol) :=
    List.map_map
  refine ⟨⟨⟨h.nodup_cooldown_ids, ?_⟩, fun key hkey => ?_⟩, fun c hc => ?_⟩
  · change ((keptCooldowns (cooldownsOf s) (o.ready s) ++
      (o.ready s).newCooldowns).map (·.symbol)).Nodup
    rw [List.map_append, List.nodup_append]
    refine ⟨h.nodup_cooldowns.2.sublist (List.filter_sublist.map _), ?_, ?_⟩
    · rw [hsymbols]
      exact h.removed_ids.2
    · rintro _ hkept _ hnew rfl
      obtain ⟨c, hc, hsymbol⟩ := List.mem_map.1 hkept
      obtain ⟨new, hnew, hsymbol'⟩ := List.mem_map.1 hnew
      obtain ⟨hc, hlater⟩ := List.mem_filter.1 hc
      exact hshared new hnew c hc (of_decide_eq_true hlater).1 (hsymbol.trans hsymbol'.symm)
  · obtain ⟨c, hc, rfl⟩ := List.mem_map.1 hkey
    rcases List.mem_append.1 hc with hc | hc
    · exact (h.cooldowns c (List.mem_filter.1 hc).1).1
    · obtain ⟨a, ha, rfl⟩ := List.mem_map.1 hc
      exact (h.active a (mem_removed.1 ha).1).1
  · rcases List.mem_append.1 hc with hc | hc
    · obtain ⟨hc, hlater⟩ := List.mem_filter.1 hc
      exact ⟨(h.cooldowns c hc).2, not_le_of_gt (α := ℤ) (of_decide_eq_true hlater).1⟩
    · obtain ⟨a, -, rfl⟩ := List.mem_map.1 hc
      refine ⟨h.aware.1, fun hle => ?_⟩
      have hle : (o.evaluatedAt + o.config.evictionCooldown).instant ≤ o.evaluatedAt.instant := hle
      rw [DateTime.instant_add] at hle
      exact absurd hle (not_le_of_gt (lt_add_of_pos_right _ h.evictionCooldown_pos))

/-- The state of a ready decision passes its checks, if no instrument is evicted under the symbol
    of another one that still cools down. -/
theorem validate_makeState (hshared : ∀ new ∈ (o.ready s).newCooldowns,
      ∀ c ∈ cooldownsOf s, o.evaluatedAt < c.eligibleAfter → c.symbol ≠ new.symbol)
    {active : List ActiveMarketDataSubscription}
    (hactive : (o.ready s).desired.mapM (activate (activeOf s) o.evaluatedAt) = some active) :
    validateSubscriptionPolicyState sha (makeState sha (o.ready s) active
      (keptCooldowns (cooldownsOf s) (o.ready s) ++ (o.ready s).newCooldowns)) = true := by
  rw [validateState_iff]
  refine ⟨sha.isHex64_hexdigest _, sha.isHex64_hexdigest _, h.aware.1,
    validActiveState_activated h hactive, ?_, ?_, rfl⟩
  · exact validCooldownState_perm (List.perm_insertionSort _ _).symm
      (validCooldownState_added h hshared)
  · -- What is kept is not desired, and what is new was removed.
    intro a ha hcooling
    have hkeys := congrArg (List.map Prod.fst) (activated_keys hactive)
    rw [List.map_map, List.map_map] at hkeys
    have hdesired : a.instrumentId ∈ (o.ready s).desired.map (·.instrumentId) :=
      hkeys ▸ List.mem_map_of_mem ha
    obtain ⟨c, hc, hid⟩ := List.mem_map.1 hcooling
    rcases List.mem_append.1 ((List.mem_insertionSort _).1 hc) with hc | hc
    · exact (of_decide_eq_true (List.mem_filter.1 hc).2).2 (hid ▸ hdesired)
    · obtain ⟨a', ha', rfl⟩ := List.mem_map.1 hc
      obtain ⟨d, hd, hid'⟩ := List.mem_map.1 hdesired
      obtain ⟨c, hc, rfl⟩ := List.mem_map.1 hd
      refine (mem_removed.1 ha').2 ?_
      rw [show a'.instrumentId = c.instrumentId from hid.trans hid'.symm]
      exact (TradingAgent.mem_selected.1 hc).2

/-- A ready decision is taken over, if no instrument is evicted under the symbol of another one
    that still cools down. -/
theorem exists_advance (hfollow : mayFollow sha s (o.ready s) = true)
    (hshared : ∀ new ∈ (o.ready s).newCooldowns, ∀ c ∈ cooldownsOf s,
      o.evaluatedAt < c.eligibleAfter → c.symbol ≠ new.symbol) :
    ∃ t, advanceSubscriptionPolicyState sha s (o.ready s) = some t := by
  have hdecision : validateDecision (o.ready s) = true := by
    rw [validateDecision, decide_eq_true_eq]
    refine ⟨rfl, h.aware.1, h.aware.2, h.observedAt_le, ?_⟩
    have hids : (o.ready s).desired.map (·.instrumentId) =
        (o.selected s).map (·.instrumentId) := List.map_map
    rw [hids]
    exact h.nodup_selected.1
  have hactive : ∃ active,
      (o.ready s).desired.mapM (activate (activeOf s) o.evaluatedAt) = some active := by
    refine exists_mapM_eq_some fun d hd => ?_
    obtain ⟨c, hc, rfl⟩ := List.mem_map.1 hd
    cases hget : dictGet (·.instrumentId) (activeOf s) c.instrumentId with
    | none => exact ⟨⟨c.instrumentId, c.symbol, o.evaluatedAt⟩,
        activate_eq_some.2 ⟨rfl, by rw [hget]⟩⟩
    | some p =>
      obtain ⟨hp, hid⟩ := dictGet_eq_some hget
      have hsymbol := h.symbol_active (ValidInputs.mem_selected hc) hp hid
      exact ⟨⟨c.instrumentId, c.symbol, p.subscribedAt⟩,
        activate_eq_some.2 ⟨rfl, by rw [hget]; exact ⟨hsymbol, rfl⟩⟩⟩
  obtain ⟨active, hactive⟩ := hactive
  exact ⟨_, advance_eq_some.2 ⟨hdecision, hfollow, active, _, hactive,
    foldlM_addCooldown h.nodup_cooldown_ids, validate_makeState h hshared hactive, rfl⟩⟩

end Advance

/-! ## The promises -/

/-- What the policy can be run on in a state: valid candidates, under the symbols of the state,
    that are current, during a session and not before the state. -/
structure PolicyObservation.IsCurrent (newYork : ZoneInfo)
    (s : Option SubscriptionPolicyRuntimeState) (o : PolicyObservation) : Prop where
  aware : o.evaluatedAt.aware = true ∧ o.snapshot.observedAt.aware = true
  observedAt_le : o.snapshot.observedAt ≤ o.evaluatedAt
  config : o.config.isValid = true
  candidates : validCandidates o.snapshot.candidates = true
  session : inRegularSession newYork o.evaluatedAt = true ∧
    inRegularSession newYork o.snapshot.observedAt = true
  fresh : o.evaluatedAt - o.snapshot.observedAt ≤ o.config.maxCandidateAge
  time : ∀ state ∈ s, state.evaluatedAt ≤ o.evaluatedAt
  symbols : ∀ c ∈ o.snapshot.candidates,
    (∀ a ∈ activeOf s, a.instrumentId = c.instrumentId → a.symbol = c.symbol) ∧
    ∀ cooldown ∈ cooldownsOf s, cooldown.instrumentId = c.instrumentId →
      cooldown.symbol = c.symbol

/-- No two of the keys have the same instrument under different symbols. -/
theorem pairwise_of_nodup {keys : List (String × String)} (h : (keys.map (·.1)).Nodup) :
    keys.Pairwise fun k k' => k.1 = k'.1 → k.2 = k'.2 :=
  (List.pairwise_map.1 h).imp fun hne heq => absurd heq hne

/-- What the checks of a state say of its subscriptions and cooldowns. -/
structure CheckedState (s : Option SubscriptionPolicyRuntimeState) : Prop where
  active_keys : validIdentitySet ((activeOf s).map (·.key)) = true
  active_times : ∀ a ∈ activeOf s, a.subscribedAt.aware = true ∧
    ∀ state ∈ s, a.subscribedAt ≤ state.evaluatedAt
  cooldown_keys : validIdentitySet ((cooldownsOf s).map (·.key)) = true
  cooldown_times : ∀ c ∈ cooldownsOf s, c.eligibleAfter.aware = true
  disjoint : ∀ a ∈ activeOf s, a.instrumentId ∉ (cooldownsOf s).map (·.instrumentId)

theorem checkedState (hs : ∀ state ∈ s, validateSubscriptionPolicyState sha state = true) :
    CheckedState s := by
  cases s with
  | none =>
    exact ⟨by decide, fun a ha => absurd ha List.not_mem_nil, by decide,
      fun c hc => absurd hc List.not_mem_nil, fun a ha => absurd ha List.not_mem_nil⟩
  | some state =>
    obtain ⟨-, -, -, hactive, hcooldowns, hdisjoint, -⟩ := validateState_iff.1 (hs state rfl)
    rw [validActiveState, decide_eq_true_eq] at hactive
    rw [validCooldownState, decide_eq_true_eq] at hcooldowns
    refine ⟨hactive.1, fun a ha => ⟨(hactive.2 a ha).1, fun state' hstate' => ?_⟩,
      hcooldowns.1, fun c hc => (hcooldowns.2 c hc).1, hdisjoint⟩
    exact Option.some_inj.1 hstate' ▸ DateTime.not_lt.1 (hactive.2 a ha).2

/-- The checks of the inputs accept a state that passes its own. -/
theorem PolicyObservation.IsCurrent.validInputs (h : o.IsCurrent newYork s)
    (hs : CheckedState s) : ValidInputs s o := by
  obtain ⟨⟨hactive, hactive'⟩, hactiveIds⟩ := validIdentitySet_iff.1 hs.active_keys
  obtain ⟨⟨hcooldowns, hcooldowns'⟩, hcooldownIds⟩ := validIdentitySet_iff.1 hs.cooldown_keys
  have hcandidates := h.candidates
  rw [validCandidates, decide_eq_true_eq, List.all_eq_true, uniqueIdentities_iff] at hcandidates
  obtain ⟨hvalid, hnodup, hnodup'⟩ := hcandidates
  have hsymbols : (o.snapshot.candidates.map (·.key) ++ (activeOf s).map (·.key) ++
      (cooldownsOf s).map (·.key)).Pairwise fun k k' => k.1 = k'.1 → k.2 = k'.2 := by
    rw [List.pairwise_append, List.pairwise_append]
    refine ⟨⟨pairwise_of_nodup hnodup, pairwise_of_nodup hactive, fun k hk k' hk' hid => ?_⟩,
      pairwise_of_nodup hcooldowns, fun k hk k' hk' hid => ?_⟩
    · obtain ⟨c, hc, rfl⟩ := List.mem_map.1 hk
      obtain ⟨a, ha, rfl⟩ := List.mem_map.1 hk'
      exact ((h.symbols c hc).1 a ha hid.symm).symm
    · obtain ⟨cooldown, hcooldown, rfl⟩ := List.mem_map.1 hk'
      rcases List.mem_append.1 hk with hk | hk
      · obtain ⟨c, hc, rfl⟩ := List.mem_map.1 hk
        exact ((h.symbols c hc).2 cooldown hcooldown hid.symm).symm
      · -- What is subscribed to does not cool down.
        obtain ⟨a, ha, rfl⟩ := List.mem_map.1 hk
        exact absurd (List.mem_map.2 ⟨cooldown, hcooldown, hid.symm⟩) (hs.disjoint a ha)
  rw [List.map_map] at hnodup hnodup' hactive hactive' hcooldowns hcooldowns'
  refine ⟨h.aware, DateTime.not_lt.2 h.observedAt_le, h.config, hvalid, ⟨hnodup, hnodup'⟩,
    fun a ha => ⟨hactiveIds _ (List.mem_map_of_mem ha), (hs.active_times a ha).1, ?_⟩,
    ⟨hactive, hactive'⟩, fun c hc => ⟨hcooldownIds _ (List.mem_map_of_mem hc),
      hs.cooldown_times c hc⟩, ⟨hcooldowns, hcooldowns'⟩, hs.disjoint, hsymbols⟩
  cases s with
  | none => exact absurd ha List.not_mem_nil
  | some state =>
    exact DateTime.not_lt.2
      (le_trans (α := ℤ) ((hs.active_times a ha).2 state rfl) (h.time state rfl))

/-- **What the policy keeps.** On current candidates, it does not raise an error, unless an
    instrument is evicted under the symbol of another one that still cools down. -/
theorem policy_keeps_promises (hs : (policySystem sha newYork).Reachable s) :
    (∀ o : PolicyObservation, o.IsCurrent newYork s → ∃ d, o.decide newYork s = some d ∧ d.status = .ready ∧
      ((∀ new ∈ d.newCooldowns, ∀ c ∈ cooldownsOf s, o.evaluatedAt < c.eligibleAfter →
        c.symbol ≠ new.symbol) →
      ∃ t, advanceSubscriptionPolicyState sha s d = some t)) ∧
    (∀ state ∈ s, (∀ a ∈ state.active, a.instrumentId ∉ state.cooldowns.map (·.instrumentId)) ∧
      (stateBytes sha state).bind (stateFromBytes sha) = some state) ∧
    ∀ (o : PolicyObservation) u, (policySystem sha newYork).step s o u → ∃ d t, o.decide newYork s = some d ∧
      u = some t ∧ t.active.length ≤ o.config.capacity ∧
      d.actions.foldlM applyAction ((activeOf s).map (·.key)).toFinset =
        some (t.active.map (·.key)).toFinset ∧
      (∀ a ∈ activeOf s, o.evaluatedAt - a.subscribedAt < o.config.minimumResidency →
        a.instrumentId ∈ o.snapshot.candidates.map (·.instrumentId) →
        (o.residents s).length ≤ o.config.capacity → a ∈ t.active) ∧
      ∀ a ∈ activeOf s, a.instrumentId ∉ t.active.map (·.instrumentId) →
        ∀ os later, (policySystem sha newYork).Run u os (some later) →
          later.evaluatedAt < o.evaluatedAt + o.config.evictionCooldown →
          a.instrumentId ∉ later.active.map (·.instrumentId) := by
  refine ⟨fun o ho => ?_, fun state hstate => ?_, fun o u hstep => ?_⟩
  · have hinputs := ho.validInputs (checkedState (reachable_valid hs))
    obtain ⟨hdecide, hstatus⟩ := decide_ready_iff.2 ⟨hinputs, ho.session.1, ho.session.2,
      not_lt_of_ge ho.fresh, rfl⟩
    refine ⟨o.ready s, hdecide, hstatus, fun hshared => ?_⟩
    refine exists_advance hinputs (mayFollow_iff.2 fun state hstate => ?_) hshared
    exact ⟨reachable_valid hs state hstate, ho.time state hstate⟩
  · have hvalid := reachable_valid hs state hstate
    have hbytes : stateBytes sha state = some state.payload := if_pos hvalid
    obtain ⟨-, -, -, -, -, hdisjoint, -⟩ := validateState_iff.1 hvalid
    refine ⟨hdisjoint, ?_⟩
    rw [hbytes]
    exact stateFromBytes_payload hvalid
  · obtain ⟨t, rfl, h⟩ := policyStep_of_step hstep
    refine ⟨o.ready s, t, h.decision, rfl, h.length_active_le, h.actions,
      fun a ha hresident hcandidate hroom => h.resident_mem_active ha hresident hcandidate hroom, ?_⟩
    intro a ha hevicted os later hrun htime
    exact h.evicted (hs.step hstep) ha hevicted hrun htime

/-! Runs on the 15th of July 2026. -/

namespace PolicySample

theorem isHex64_zeros : isHex64 (String.ofList (List.replicate 64 '0')) = true := by
  decide +kernel

/-- A digest, of which only its form matters here. -/
def zeros : Sha256 := ⟨fun _ => String.ofList (List.replicate 64 '0'), fun _ => isHex64_zeros⟩

/-- The clocks of New York in the summer. -/
def easternDaylight : ZoneInfo := ⟨fun _ => -TimeDelta.hours 4⟩

def identity : ResearchInputIdentity :=
  ⟨"us_equities.policy_state.fixture", "ds_policy_state", "a", "raw_policy_state", "b", "c"⟩

/-- Some minutes after ten in New York. -/
def clock (minutes : ℤ) : DateTime :=
  ⟨(Date.ofCivil 2026 7 15).start + TimeDelta.hours 14 + TimeDelta.minutes minutes, some 0⟩

/-- An observation of one candidate, with room for one. -/
def observe (minutes : ℤ) (instrumentId symbol : String) : PolicyObservation where
  snapshot := ⟨identity, clock minutes, [⟨instrumentId, symbol, 10, 1⟩]⟩
  evaluatedAt := clock minutes
  config := ⟨1, TimeDelta.seconds 30, TimeDelta.minutes 2, TimeDelta.minutes 5⟩

/-- A step, as a function. -/
def next (s : Option SubscriptionPolicyRuntimeState) (o : PolicyObservation) :
    Option (Option SubscriptionPolicyRuntimeState) :=
  (o.decide easternDaylight s).bind fun d => (advanceSubscriptionPolicyState zeros s d).map some

theorem run_replay {os : List PolicyObservation} {s t : Option SubscriptionPolicyRuntimeState}
    (h : System.replay next s os = some t) : (policySystem zeros easternDaylight).Run s os t := by
  induction os generalizing s with
  | nil =>
    obtain rfl := Option.some_inj.1 h
    exact .nil s
  | cons o os ih =>
    obtain ⟨u, hu, h⟩ := Option.bind_eq_some_iff.1 h
    obtain ⟨d, hd, hu⟩ := Option.bind_eq_some_iff.1 hu
    obtain ⟨state, hstate, rfl⟩ := Option.map_eq_some_iff.1 hu
    exact .cons ⟨d, hd, state, hstate, rfl⟩ (ih h)

/-- The decision on one more observation is not taken over. -/
def isRefused (os : List PolicyObservation) (o : PolicyObservation)
    (status : SubscriptionPolicyStatus) : Bool :=
  match System.replay next none os with
  | none => false
  | some s => match o.decide easternDaylight s with
    | none => false
    | some d => d.status = status ∧ advanceSubscriptionPolicyState zeros s d = none

end PolicySample

open PolicySample in
/-- After three minutes, an instrument is evicted, and its state is read again as it was. -/
theorem policy_keeps_promises_sample :
    ∃ state, (policySystem zeros easternDaylight).Reachable (some state) ∧
      state.cooldowns.map (·.instrumentId) = ["us-eq-a"] ∧
      (stateBytes zeros state).bind (stateFromBytes zeros) = some state := by
  have hcooldowns : (System.replay next none
      [observe 0 "us-eq-a" "AAA", observe 3 "us-eq-b" "BBB"]).map (fun s =>
        (cooldownsOf s).map (·.instrumentId)) = some ["us-eq-a"] := by
    decide +kernel
  obtain ⟨s, hs, hcooldowns⟩ := Option.map_eq_some_iff.1 hcooldowns
  have hreachable : (policySystem zeros easternDaylight).Reachable s := ⟨none, _, rfl, run_replay hs⟩
  cases s with
  | none => exact absurd hcooldowns (by decide)
  | some state =>
    exact ⟨state, hreachable, hcooldowns,
      ((policy_keeps_promises hreachable).2.1 state rfl).2⟩

open PolicySample in
/-- A blocked decision is refused, and so is a ready one that evicts an instrument under the symbol
    of another one that still cools down. Before that, candidates under other symbols than those
    of the state are refused. -/
theorem policy_refuses_its_output :
    isRefused [] (observe (-60) "us-eq-a" "AAA") .blockedSessionClosed = true ∧
    isRefused [observe 0 "us-eq-a" "AAA", observe 3 "us-eq-b" "AAA"] (observe 4 "us-eq-c" "CCC")
      .ready = true ∧
    (System.replay next none [observe 0 "us-eq-a" "AAA"]).map
      ((observe 3 "us-eq-a" "AAB").decide easternDaylight) = some none := by
  decide +kernel

end TradingAgent
