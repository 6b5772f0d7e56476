import TradingAgent.Subscription.Policy

/-!
# What the policy selects

The selection among valid inputs: it is within the capacity (`length_selected_le`), takes none of
the instruments that cool down (`mem_eligible`), and keeps the residents there is room for
(`mem_selected_of_resident`). The actions of the decision are the difference between the
subscriptions before and after it.
-/

namespace TradingAgent

/-- No instrument has two symbols, among some keys and those already known. -/
theorem consistentSymbols_iff {symbols : String → Option String} {keys : List (String × String)} :
    consistentSymbols symbols keys = true ↔
      (∀ k ∈ keys, ∀ s ∈ symbols k.1, s = k.2) ∧
        keys.Pairwise fun k k' => k.1 = k'.1 → k.2 = k'.2 := by
  induction keys generalizing symbols with
  | nil => simp [consistentSymbols]
  | cons key keys ih =>
    obtain ⟨i, symbol⟩ := key
    rw [consistentSymbols, List.forall_mem_cons, List.pairwise_cons]
    cases hi : symbols i with
    | some existing =>
      dsimp only
      rw [Bool.and_eq_true, decide_eq_true_eq, ih]
      constructor
      · rintro ⟨rfl, hknown, hpair⟩
        refine ⟨⟨fun s hs => ?_, hknown⟩, fun k hk hik => ?_, hpair⟩
        · exact (Option.some_inj.1 hs).symm
        · exact hknown k hk existing (hik ▸ hi)
      · rintro ⟨⟨hhead, hknown⟩, -, hpair⟩
        exact ⟨hhead existing rfl, hknown, hpair⟩
    | none =>
      dsimp only
      rw [ih]
      constructor
      · rintro ⟨hknown, hpair⟩
        refine ⟨⟨fun s hs => absurd hs (Option.not_mem_none s), fun k hk s hs => ?_⟩,
          fun k hk hik => hknown k hk symbol (if_pos hik.symm), hpair⟩
        have hne : k.1 ≠ i := by
          rintro rfl
          exact absurd (hi.symm.trans hs) (Option.some_ne_none s).symm
        exact hknown k hk s ((if_neg hne).trans hs)
      · rintro ⟨⟨-, hknown⟩, hhead, hpair⟩
        refine ⟨fun k hk s hs => ?_, hpair⟩
        split_ifs at hs with hki
        · exact (Option.some_inj.1 hs) ▸ hhead k hk hki.symm
        · exact hknown k hk s hs

theorem uniqueIdentities_iff {keys : List (String × String)} :
    uniqueIdentities keys = true ↔ (keys.map (·.1)).Nodup ∧ (keys.map (·.2)).Nodup := by
  rw [uniqueIdentities, decide_eq_true_eq]

section Selection

variable {snapshot : BroadScannerSnapshot} {evaluatedAt : DateTime}
  {active : List ActiveMarketDataSubscription} {cooldowns : List SubscriptionCooldown}
  {config : SubscriptionPolicyConfig} {c : BroadScannerCandidate}

/-- The candidates that do not cool down. -/
theorem mem_eligible (hcooldowns : (cooldowns.map (·.instrumentId)).Nodup) :
    c ∈ eligible snapshot evaluatedAt cooldowns ↔ c ∈ snapshot.candidates ∧
      ∀ cooldown ∈ cooldowns, cooldown.instrumentId = c.instrumentId →
        cooldown.eligibleAfter ≤ evaluatedAt := by
  rw [eligible, List.mem_filter, List.mem_insertionSort]
  refine and_congr_right fun _ => ?_
  cases hget : dictGet (·.instrumentId) cooldowns c.instrumentId with
  | none =>
    have hnone := dictGet_eq_none.1 hget
    exact iff_of_true rfl fun cooldown hmem hid => absurd hid (hnone cooldown hmem)
  | some cooldown =>
    obtain ⟨hmem, hid⟩ := dictGet_eq_some hget
    dsimp only
    rw [decide_eq_true_eq]
    refine ⟨fun h cooldown' hmem' hid' => ?_, fun h => h cooldown hmem hid⟩
    rwa [List.inj_on_of_nodup_map hcooldowns hmem' hmem (hid'.trans hid.symm)]

theorem mem_candidates_of_mem_eligible (h : c ∈ eligible snapshot evaluatedAt cooldowns) :
    c ∈ snapshot.candidates :=
  (List.mem_insertionSort _).1 (List.mem_filter.1 h).1

/-- A resident is an eligible candidate that is subscribed to, and has not been for long. -/
theorem mem_residents (hactive : (active.map (·.instrumentId)).Nodup) :
    c ∈ residents snapshot evaluatedAt active cooldowns config ↔
      c ∈ eligible snapshot evaluatedAt cooldowns ∧ ∃ a ∈ active,
        a.instrumentId = c.instrumentId ∧ evaluatedAt - a.subscribedAt < config.minimumResidency := by
  rw [residents, List.mem_filter]
  refine and_congr_right fun _ => ?_
  cases hget : dictGet (·.instrumentId) active c.instrumentId with
  | none =>
    have hnone := dictGet_eq_none.1 hget
    refine iff_of_false Bool.false_ne_true ?_
    rintro ⟨a, ha, hid, -⟩
    exact hnone a ha hid
  | some a =>
    obtain ⟨ha, hid⟩ := dictGet_eq_some hget
    dsimp only
    rw [decide_eq_true_eq]
    refine ⟨fun h => ⟨a, ha, hid, h⟩, ?_⟩
    rintro ⟨a', ha', hid', h⟩
    rwa [List.inj_on_of_nodup_map hactive ha ha' (hid.trans hid'.symm)]

theorem mem_selected : c ∈ selected snapshot evaluatedAt active cooldowns config ↔
    c ∈ eligible snapshot evaluatedAt cooldowns ∧
      c.instrumentId ∈ selectedIds snapshot evaluatedAt active cooldowns config := by
  rw [selected, List.mem_filter, decide_eq_true_eq]

/-- A resident that there is room for is selected. -/
theorem mem_selected_of_resident (hcapacity :
      (residents snapshot evaluatedAt active cooldowns config).length ≤ config.capacity)
    (h : c ∈ residents snapshot evaluatedAt active cooldowns config) :
    c ∈ selected snapshot evaluatedAt active cooldowns config := by
  have hall : protectedCandidates snapshot evaluatedAt active cooldowns config =
      residents snapshot evaluatedAt active cooldowns config :=
    List.take_of_length_le (by omega)
  refine mem_selected.2 ⟨(List.mem_filter.1 h).1, ?_⟩
  rw [selectedIds, hall]
  exact List.mem_append_left _ (List.mem_map_of_mem h)

/-- The identifiers selected are those of candidates. -/
theorem selectedIds_subset :
    selectedIds snapshot evaluatedAt active cooldowns config ⊆
      (selected snapshot evaluatedAt active cooldowns config).map (·.instrumentId) := by
  intro i hi
  suffices h : ∃ c ∈ eligible snapshot evaluatedAt cooldowns, c.instrumentId = i by
    obtain ⟨c, hc, rfl⟩ := h
    exact List.mem_map_of_mem (mem_selected.2 ⟨hc, hi⟩)
  rcases List.mem_append.1 hi with hi | hi
  · obtain ⟨c, hc, rfl⟩ := List.mem_map.1 hi
    exact ⟨c, (List.mem_filter.1 (List.mem_of_mem_take hc)).1, rfl⟩
  · obtain ⟨c, hc, rfl⟩ := List.mem_map.1 hi
    exact ⟨c, (List.mem_filter.1 (List.mem_of_mem_take hc)).1, rfl⟩

theorem length_selectedIds_le (hcapacity : 0 ≤ config.capacity) :
    (selectedIds snapshot evaluatedAt active cooldowns config).length ≤ config.capacity := by
  have htake := List.length_take_le config.capacity.toNat
    (residents snapshot evaluatedAt active cooldowns config)
  have hrest := List.length_take_le
    (config.capacity - (protectedCandidates snapshot evaluatedAt active cooldowns config).length).toNat
    (competitors snapshot evaluatedAt active cooldowns config)
  rw [← protectedCandidates] at htake
  rw [selectedIds, List.length_append, List.length_map, List.length_map]
  omega

theorem nodup_eligible (hcandidates : (snapshot.candidates.map (·.instrumentId)).Nodup) :
    ((eligible snapshot evaluatedAt cooldowns).map (·.instrumentId)).Nodup := by
  have hperm := List.perm_insertionSort
    (fun a b : BroadScannerCandidate => candidateRankKey a ≤ candidateRankKey b) snapshot.candidates
  exact ((hperm.map _).nodup_iff.2 hcandidates).sublist (List.filter_sublist.map _)

/-- The selection is within the capacity. -/
theorem length_selected_le (hcandidates : (snapshot.candidates.map (·.instrumentId)).Nodup)
    (hcapacity : 0 ≤ config.capacity) :
    (selected snapshot evaluatedAt active cooldowns config).length ≤ config.capacity := by
  have hnodup : ((selected snapshot evaluatedAt active cooldowns config).map
      (·.instrumentId)).Nodup :=
    (nodup_eligible hcandidates).sublist (List.filter_sublist.map _)
  have hsub : (selected snapshot evaluatedAt active cooldowns config).map (·.instrumentId) ⊆
      selectedIds snapshot evaluatedAt active cooldowns config := by
    intro i hi
    obtain ⟨c, hc, rfl⟩ := List.mem_map.1 hi
    exact (mem_selected.1 hc).2
  have hle := (List.subperm_of_subset hnodup hsub).length_le
  rw [List.length_map] at hle
  have := @length_selectedIds_le snapshot evaluatedAt active cooldowns config hcapacity
  omega

theorem mem_removed {a : ActiveMarketDataSubscription} :
    a ∈ removed snapshot evaluatedAt active cooldowns config ↔
      a ∈ active ∧ a.instrumentId ∉ selectedIds snapshot evaluatedAt active cooldowns config := by
  rw [removed, List.mem_filter, List.mem_insertionSort, decide_eq_true_eq]

end Selection

end TradingAgent
