import Mathlib.Data.Prod.Lex
import TradingAgent.DayResearch.Writer

/-!
# Reading the ledger

* What is read of the families, the versions and the capsules, and of the attempts that were bound to
  a version (`readDayAttemptsForReview`), is audited when it is read. Of tables that were only written
  by the calls, every read succeeds (`reads_of_reachable`, `readDayAttemptsForReview_of_reachable`).
* A binding or a capsule is judged in the same way whether the graph of the versions is at hand, or
  each row is read, with the lineage of its version (`coherence_agrees`).
-/

namespace TradingAgent.DayResearch

open Except Transition

variable {ctx : DayResearchContext} {ledger : DayResearchLedger} {store : ExperimentLedgerStore}

/-! ## Readers -/

section Readers

variable (ctx : DayResearchContext) (ledger : DayResearchLedger)

def dayHypothesisFamilies : Except LedgerError (List HypothesisFamily) := do
  let families ← ledger.families.mapM (storedFamily ctx)
  raiseIf (dictLen (·.familyId) families ≠ families.length)
    (.invalidSource "stored_day_family_identity_duplicate")
  requireStoredFamilyGraph families
  return families

def dayHypothesisVersions (familyId : Option String) (marketId : Option Swing.MarketId) :
    Except LedgerError (List HypothesisVersion) := do
  let versions ← ledger.versions.mapM (storedVersion ctx)
  let families ← dayHypothesisFamilies ctx ledger
  raiseIf (dictLen (·.hypothesisVersionId) versions ≠ versions.length)
    (.invalidSource "stored_day_version_identity_duplicate")
  requireStoredVersionGraph families versions
  return versions.filter fun version =>
    (familyId.all fun id => version.familyId = id) ∧
      (marketId.all fun market => version.marketId = market)

def dayStrategyCapsules (marketId : Option Swing.MarketId) (hypothesisVersionId : Option String) :
    Except LedgerError (List StrategyCapsule) := do
  let capsules ← ledger.capsules.mapM (storedCapsule ctx)
  raiseIf (dictLen (·.capsuleId) capsules ≠ capsules.length)
    (.invalidSource "stored_day_capsule_identity_duplicate")
  let audit ← storedBindingAudit ctx ledger
  capsules.forM (requireCapsuleParentCoherence ctx ledger (some audit))
  return capsules.filter fun capsule =>
    (marketId.all fun market => capsule.marketId = market) ∧
      (hypothesisVersionId.all fun id => capsule.hypothesisVersionId = id)

structure DayResearchAttemptForReview where
  binding : DayResearchAttemptBinding
  attempt : ResearchAttempt
  deriving DecidableEq, Repr

/-- When it was bound, then its branch, then its identity. -/
def DayResearchAttemptForReview.key (record : DayResearchAttemptForReview) :
    Instant ×ₗ ℤ ×ₗ String :=
  toLex (record.binding.boundAt, toLex (record.attempt.branchIndex, record.attempt.attemptId))

def requiredStoredAttempt (attemptId : String) : Except LedgerError ResearchAttempt := do
  match ← storedAttempt ledger attemptId with
  | none => .error (.invalidSource "stored_day_attempt_binding_attempt_missing")
  | some attempt => return attempt

def readDayAttemptsForReview (marketId : Swing.MarketId) (hypothesisVersionId : String) :
    Except LedgerError (List DayResearchAttemptForReview) := do
  match ← versionById ctx ledger hypothesisVersionId with
  | none => .error (.invalidSource "day_research_attempt_binding_version_missing")
  | some version =>
    requireSameMarket version.marketId marketId
    let audit ← storedBindingAudit ctx ledger
    let records ← (audit.bindings.filter fun binding =>
      binding.hypothesisVersionId = hypothesisVersionId).mapM fun binding =>
        return ⟨binding, ← requiredStoredAttempt ledger binding.attemptId⟩
    raiseIf (records.any fun record => record.binding.marketId ≠ marketId)
      (.invalidSource "stored_day_attempt_binding_market_invalid")
    return records.insertionSort fun a b => a.key ≤ b.key

end Readers

/-- The tables that may be read: those that are committed, or that the open transaction sees. -/
def ExperimentLedgerStore.Shows (store : ExperimentLedgerStore) (ledger : DayResearchLedger) :
    Prop :=
  ledger = store.committed ∨ ∃ writer ∈ store.writer, ledger = writer.tables

theorem isLedger_of_shows (h : (storeSystem ctx).Reachable store) (hshows : store.Shows ledger) :
    IsLedger ctx ledger := by
  have hstore := isStore_of_reachable h
  rcases hshows with rfl | ⟨writer, hwriter, rfl⟩
  · exact hstore.committed
  · exact hstore.tables writer hwriter

/-! ## Every read succeeds -/

theorem dayHypothesisFamilies_eq (h : AreFamilies ctx ledger.families) :
    dayHypothesisFamilies ctx ledger = .ok ledger.families := by
  rw [dayHypothesisFamilies]
  refine bind_eq_ok.2 ⟨_, mapM_validatedRow_eq_ok.2 ⟨h.valid, rfl⟩, ?_⟩
  refine bind_eq_ok.2 ⟨⟨⟩, by simpa using dictLen_eq_iff.2 h.nodup, ?_⟩
  exact bind_eq_ok.2 ⟨⟨⟩, (requireStoredFamilyGraph_eq_ok h.nodup).2 h.parent, rfl⟩

/-- The tables that any calls, commits and losses have left are audited without an error, in any
    state, and every row is read. -/
theorem reads_of_reachable (h : (storeSystem ctx).Reachable store) (hshows : store.Shows ledger) :
    storedBindingAudit ctx ledger = .ok ⟨ledger.bindings, ⟨ledger.families, ledger.versions⟩⟩ ∧
      dayHypothesisFamilies ctx ledger = .ok ledger.families ∧
      (∀ familyId marketId, dayHypothesisVersions ctx ledger familyId marketId =
        .ok (ledger.versions.filter fun version =>
          (familyId.all fun id => version.familyId = id) ∧
            (marketId.all fun market => version.marketId = market))) ∧
      ∀ marketId hypothesisVersionId, dayStrategyCapsules ctx ledger marketId hypothesisVersionId =
        .ok (ledger.capsules.filter fun capsule =>
          (marketId.all fun market => capsule.marketId = market) ∧
            (hypothesisVersionId.all fun id => capsule.hypothesisVersionId = id)) := by
  have hledger := isLedger_of_shows h hshows
  have haudit := storedBindingAudit_eq_ok.2 ⟨hledger.isAudited, rfl⟩
  have hfamilies := dayHypothesisFamilies_eq hledger.families
  refine ⟨haudit, hfamilies, fun familyId marketId => ?_, fun marketId hypothesisVersionId => ?_⟩
  · have hversions := hledger.versions
    rw [dayHypothesisVersions]
    refine bind_eq_ok.2 ⟨_, mapM_validatedRow_eq_ok.2 ⟨hversions.valid, rfl⟩, ?_⟩
    refine bind_eq_ok.2 ⟨_, hfamilies, ?_⟩
    refine bind_eq_ok.2 ⟨⟨⟩, by simpa using dictLen_eq_iff.2 hversions.nodup, ?_⟩
    exact bind_eq_ok.2 ⟨⟨⟩, (requireStoredVersionGraph_eq_ok hledger.families.nodup
      hversions.nodup).2 ⟨hversions.family, hversions.parent⟩, rfl⟩
  · have hcapsules := hledger.capsules
    rw [dayStrategyCapsules]
    refine bind_eq_ok.2 ⟨_, mapM_validatedRow_eq_ok.2 ⟨hcapsules.valid, rfl⟩, ?_⟩
    refine bind_eq_ok.2 ⟨⟨⟩, by simpa using dictLen_eq_iff.2 hcapsules.nodup, ?_⟩
    refine bind_eq_ok.2 ⟨_, haudit, bind_eq_ok.2 ⟨⟨⟩, forM_eq_ok.2 fun capsule hmem => ?_, rfl⟩⟩
    exact (requireCapsuleParentCoherence_eq_ok hledger.isAudited).2
      (hcapsules.published capsule hmem)

theorem SearchSample.reads_searched : storedBindingAudit SearchSample.env searched.committed =
    .ok ⟨searched.committed.bindings,
      ⟨searched.committed.families, searched.committed.versions⟩⟩ :=
  (reads_of_reachable reachable_searched (.inl rfl)).1

/-! ## Attempts for a review -/

/-- The attempt that is read for a binding is the one that it names, and is terminal. -/
theorem requiredStoredAttempt_cases (h : IsLedger ctx ledger) {binding : DayResearchAttemptBinding}
    (hmem : binding ∈ ledger.bindings) :
    ∃ attempt ∈ ledger.attempts, attempt.attemptId = binding.attemptId ∧
      attempt.status ≠ .started ∧ requiredStoredAttempt ledger binding.attemptId = .ok attempt := by
  obtain ⟨version, attempt, manifest, hrests⟩ := h.bindings.rests binding hmem
  obtain ⟨hattempt, hid⟩ := eq_of_filter_eq_singleton hrests.attempt_row
  refine ⟨attempt, hattempt, hid, hrests.matches_binding.terminal, ?_⟩
  rw [requiredStoredAttempt, storedAttempt, rowBy_eq_some.2 ⟨hrests.attempt_row,
    hrests.attempt_valid⟩, ok_bind]
  rfl

/-- What is read for the review of a version are all of its bindings, each with its attempt, in the
    order of their keys, none of which occurs twice. -/
theorem readDayAttemptsForReview_of_reachable (h : (storeSystem ctx).Reachable store)
    (hshows : store.Shows ledger) {version : HypothesisVersion}
    (hversion : version ∈ ledger.versions) :
    ∃ records, readDayAttemptsForReview ctx ledger version.marketId version.hypothesisVersionId =
        .ok records ∧
      (records.map (·.binding)).Perm (ledger.bindings.filter fun binding =>
        binding.hypothesisVersionId = version.hypothesisVersionId) ∧
      records.Pairwise (fun a b => a.key < b.key) ∧
      ∀ record ∈ records, record.attempt ∈ ledger.attempts ∧
        record.attempt.attemptId = record.binding.attemptId ∧ record.attempt.status ≠ .started := by
  have hledger := isLedger_of_shows h hshows
  let bindings := ledger.bindings.filter fun binding =>
    binding.hypothesisVersionId = version.hypothesisVersionId
  let read (binding : DayResearchAttemptBinding) :
      Except LedgerError DayResearchAttemptForReview := do
    return ⟨binding, ← requiredStoredAttempt ledger binding.attemptId⟩
  have hread : ∀ binding ∈ bindings, ∃ attempt ∈ ledger.attempts,
      attempt.attemptId = binding.attemptId ∧ attempt.status ≠ .started ∧
        read binding = .ok ⟨binding, attempt⟩ := by
    intro binding hb
    obtain ⟨attempt, hattempt, hid, hterminal, hstored⟩ :=
      requiredStoredAttempt_cases hledger (List.mem_filter.1 hb).1
    exact ⟨attempt, hattempt, hid, hterminal, bind_eq_ok.2 ⟨attempt, hstored, rfl⟩⟩
  obtain ⟨records, hrecords⟩ := exists_mapM_eq_ok.2 fun binding hb => by
    obtain ⟨attempt, -, -, -, hstored⟩ := hread binding hb
    exact ⟨_, hstored⟩
  have hpairs := forall₂_of_mapM_eq_ok hrecords
  have hbindings : bindings.map id = records.map (·.binding) :=
    map_eq_of_forall₂ hpairs fun binding record hrecord => by
      obtain ⟨attempt, -, hpure⟩ := bind_eq_ok.1 hrecord
      cases hpure
      rfl
  rw [List.map_id] at hbindings
  have hrecord : ∀ record ∈ records, record.binding ∈ bindings ∧
      record.attempt ∈ ledger.attempts ∧ record.attempt.attemptId = record.binding.attemptId ∧
        record.attempt.status ≠ .started := by
    intro record hmem
    have hb : record.binding ∈ bindings := hbindings ▸ List.mem_map_of_mem hmem
    obtain ⟨binding, hb', heq⟩ := exists_left_of_forall₂ hpairs hmem
    obtain ⟨attempt, hattempt, hid, hterminal, hstored⟩ := hread binding hb'
    cases hstored.symm.trans heq
    exact ⟨hb, hattempt, hid, hterminal⟩
  have hmarket : ∀ record ∈ records, record.binding.marketId = version.marketId := by
    intro record hmem
    obtain ⟨hb, hid⟩ := List.mem_filter.1 (hrecord record hmem).1
    obtain ⟨version', _, _, hrests⟩ := hledger.bindings.rests _ hb
    have hsame : version' = version :=
      List.inj_on_of_nodup_map hledger.versions.nodup hrests.version_mem hversion
        (hrests.version_id.trans (of_decide_eq_true hid))
    rw [← hrests.matches_binding.market, hsame]
  -- No attempt is bound twice, so that no key occurs twice.
  have hkeys : (records.map (·.key)).Nodup := by
    have hnodup : (bindings.map (·.attemptId)).Nodup :=
      hledger.bindings.attempt_nodup.sublist (List.filter_sublist.map _)
    rw [hbindings, List.map_map] at hnodup
    refine List.Nodup.of_map (fun key => (ofLex (ofLex key).2).2) ?_
    rw [List.map_map]
    convert hnodup using 1
    exact List.map_congr_left fun record hmem => (hrecord record hmem).2.2.1
  have hperm := List.perm_insertionSort
    (fun a b : DayResearchAttemptForReview => a.key ≤ b.key) records
  refine ⟨records.insertionSort fun a b => a.key ≤ b.key, ?_, ?_,
    pairwise_insertionSort_of_key hkeys, fun record hmem =>
      (hrecord record (hperm.mem_iff.1 hmem)).2⟩
  · rw [readDayAttemptsForReview, versionById_eq hledger.versions,
      find?_key_of_mem hledger.versions.nodup hversion, ok_bind]
    refine bind_eq_ok.2 ⟨⟨⟩, requireSameMarket_eq_ok.2 rfl, ?_⟩
    refine bind_eq_ok.2 ⟨_, storedBindingAudit_eq_ok.2 ⟨hledger.isAudited, rfl⟩, ?_⟩
    refine bind_eq_ok.2 ⟨records, hrecords, bind_eq_ok.2 ⟨⟨⟩, ?_, rfl⟩⟩
    simpa using hmarket
  · have hmap := hperm.map (·.binding)
    rwa [← hbindings] at hmap

theorem SearchSample.readDayAttemptsForReview_searched :
    ∃ records, readDayAttemptsForReview SearchSample.env searched.committed
        SearchSample.version.marketId SearchSample.version.hypothesisVersionId = .ok records ∧
      (records.map (·.binding)).Perm (searched.committed.bindings.filter fun binding =>
        binding.hypothesisVersionId = SearchSample.version.hypothesisVersionId) ∧
      records.Pairwise (fun a b => a.key < b.key) ∧
      ∀ record ∈ records, record.attempt ∈ searched.committed.attempts ∧
        record.attempt.attemptId = record.binding.attemptId ∧ record.attempt.status ≠ .started :=
  readDayAttemptsForReview_of_reachable reachable_searched (.inl rfl)
    (by rw [committed_searched]; simp [published, bound, versioned])

/-! ## Reading each row -/

/-- The walk along the ancestors of a version comes to an end: it goes back in time, and sees no
    version twice. -/
theorem requireAncestors_eq_ok (h : AreVersions ctx ledger.families ledger.versions) {fuel : ℕ}
    {seen : List String} {child : HypothesisVersion} (hchild : child ∈ ledger.versions)
    (hnodup : seen.Nodup)
    (hseen : ∀ id ∈ seen, ∃ version ∈ ledger.versions, version.hypothesisVersionId = id ∧
      child.createdAt ≤ version.createdAt)
    (hfuel : ledger.versions.length < fuel + seen.length) :
    requireAncestors ctx ledger fuel seen child = .ok () := by
  induction fuel generalizing seen child with
  | zero =>
    have hsubset : seen ⊆ ledger.versions.map (·.hypothesisVersionId) := by
      intro id hid
      obtain ⟨version, hmem, rfl, -⟩ := hseen id hid
      exact List.mem_map_of_mem hmem
    have hle := (hnodup.subperm hsubset).length_le
    rw [List.length_map] at hle
    omega
  | succ fuel ih =>
    rw [requireAncestors]
    cases hid : child.parentVersionId with
    | none => rfl
    | some id =>
      obtain ⟨parent, hmem, rfl, hprecedes⟩ := h.parent child hchild id hid
      have hnew : parent.hypothesisVersionId ∉ seen := by
        intro hparent
        obtain ⟨version, hversion, heq, hle⟩ := hseen _ hparent
        rw [List.inj_on_of_nodup_map h.nodup hversion hmem heq] at hle
        exact absurd hprecedes.lt hle.not_gt
      simp only [versionById_eq h, find?_key_of_mem h.nodup hmem, ok_bind]
      refine bind_eq_ok.2 ⟨⟨⟩, by simpa using hnew, ?_⟩
      refine bind_eq_ok.2 ⟨⟨⟩, requireParentVersion_eq_ok.2 hprecedes, ?_⟩
      refine ih hmem (List.nodup_cons.2 ⟨hnew, hnodup⟩) ?_ ?_
      · refine List.forall_mem_cons.2 ⟨⟨parent, hmem, rfl, le_rfl⟩, fun id hid => ?_⟩
        obtain ⟨version, hversion, heq, hle⟩ := hseen id hid
        exact ⟨version, hversion, heq, hprecedes.lt.le.trans hle⟩
      · rw [List.length_cons]
        omega

theorem requireTargetVersionLineage_eq_ok (h : IsLedger ctx ledger) {version : HypothesisVersion}
    (hversion : version ∈ ledger.versions) :
    requireTargetVersionLineage ctx ledger version = .ok () := by
  obtain ⟨family, hfamily, hid, hle⟩ := h.versions.family version hversion
  rw [requireTargetVersionLineage, familyById_eq h.families, ← hid,
    find?_key_of_mem h.families.nodup hfamily, ok_bind]
  refine bind_eq_ok.2 ⟨⟨⟩, by simpa using hle, ?_⟩
  refine requireAncestors_eq_ok h.versions hversion (List.nodup_singleton _) ?_ ?_
  · simpa using ⟨version, hversion, rfl, le_rfl⟩
  · rw [List.length_singleton]
    omega

theorem versionById_eq_graph (h : IsLedger ctx ledger) (id : String) :
    versionById ctx ledger id =
      .ok (StoredDayResearchVersionGraph.version ⟨ledger.families, ledger.versions⟩ id) := by
  rw [versionById_eq h.versions, StoredDayResearchVersionGraph.version,
    dictGet_eq_find? h.versions.nodup]

theorem bindingCoherence_agrees (h : IsLedger ctx ledger) (binding : DayResearchAttemptBinding) :
    requireBindingParentCoherence ctx ledger none binding =
      requireBindingParentCoherence ctx ledger (some ⟨ledger.families, ledger.versions⟩)
        binding := by
  simp only [requireBindingParentCoherence, versionById_eq_graph h, ok_bind, Option.isNone_none,
    Option.isNone_some, if_true, Bool.false_eq_true, if_false]
  cases storedAttempt ledger binding.attemptId with
  | error e => rfl
  | ok attempt =>
    cases hversion : StoredDayResearchVersionGraph.version ⟨ledger.families, ledger.versions⟩
      binding.hypothesisVersionId with
    | none => rfl
    | some version =>
      cases attempt with
      | none => rfl
      | some attempt =>
        have hmem := (dictGet_eq_some hversion).1
        simp only [ok_bind, requireTargetVersionLineage_eq_ok h hmem]

/-- A binding and a capsule, whether they are in the tables or not, are judged in the same way,
    error by error, by the audited graph and by the reads of the single rows. -/
theorem coherence_agrees (h : (storeSystem ctx).Reachable store) (hshows : store.Shows ledger) :
    ∃ audit, storedBindingAudit ctx ledger = .ok audit ∧
      (∀ binding, requireBindingParentCoherence ctx ledger none binding =
        requireBindingParentCoherence ctx ledger (some audit.graph) binding) ∧
      ∀ capsule, requireCapsuleParentCoherence ctx ledger none capsule =
        requireCapsuleParentCoherence ctx ledger (some audit) capsule := by
  have hledger := isLedger_of_shows h hshows
  have haudit := storedBindingAudit_eq_ok.2 ⟨hledger.isAudited, rfl⟩
  refine ⟨_, haudit, bindingCoherence_agrees hledger, fun capsule => ?_⟩
  simp only [requireCapsuleParentCoherence, versionById_eq_graph hledger, haudit, ok_bind,
    Option.map_none, Option.map_some, bindingCoherence_agrees hledger]
  rfl

theorem SearchSample.coherence_searched : ∃ audit,
    storedBindingAudit SearchSample.env searched.committed = .ok audit ∧
      (∀ binding, requireBindingParentCoherence SearchSample.env searched.committed none binding =
        requireBindingParentCoherence SearchSample.env searched.committed (some audit.graph)
          binding) ∧
      ∀ capsule, requireCapsuleParentCoherence SearchSample.env searched.committed none capsule =
        requireCapsuleParentCoherence SearchSample.env searched.committed (some audit) capsule :=
  coherence_agrees reachable_searched (.inl rfl)

end TradingAgent.DayResearch
