import TradingAgent.DayResearch.Ledger

/-!
# What the audits accept

* What a read accepts is said once for each (`rowBy_eq_some`, `requireParentVersion_eq_ok`,
  `requireBindingProtocol_eq_ok`, `requireBindingParentCoherence_eq_ok`), for any rows there may be.
* The audit succeeds exactly if the tables are sound (`IsAudited`, `storedBindingAudit_eq_ok`): the
  lineages go back in time, each binding rests on a version and on an attempt that it matches
  (`Rests`), and the debits of each search are within its one budget (`IsBudgeted`).
-/

namespace TradingAgent.DayResearch

open Except

variable {ctx : DayResearchContext} {ledger : DayResearchLedger}

/-! ## Rows -/

section Rows

variable {α : Type} {isValid : α → Bool} {reason duplicate : String} {column : α → String}
  {rows : List α} {row found : α} {value : String}

theorem validatedRow_eq_ok :
    validatedRow isValid reason row = .ok found ↔ isValid row = true ∧ found = row := by
  rw [validatedRow, bind_eq_ok]
  constructor
  · rintro ⟨_, hvalid, hrow⟩
    exact ⟨by simpa using hvalid, (pure_eq_ok.1 hrow).symm⟩
  · rintro ⟨hvalid, rfl⟩
    exact ⟨⟨⟩, by simpa using hvalid, rfl⟩

theorem mapM_validatedRow_eq_ok {found : List α} :
    rows.mapM (validatedRow isValid reason) = .ok found ↔
      (∀ row ∈ rows, isValid row = true) ∧ found = rows := by
  constructor
  · intro h
    refine ⟨fun row hrow => ?_, mapM_eq_self (fun a b hab => (validatedRow_eq_ok.1 hab).2) h⟩
    obtain ⟨b, hb⟩ := exists_mapM_eq_ok.1 ⟨_, h⟩ row hrow
    exact (validatedRow_eq_ok.1 hb).1
  · rintro ⟨hvalid, rfl⟩
    exact mapM_self fun row hrow => validatedRow_eq_ok.2 ⟨hvalid row hrow, rfl⟩

/-- A row is found if it is the only one, and is valid. -/
theorem rowBy_eq_some :
    rowBy column (validatedRow isValid reason) duplicate rows value = .ok (some row) ↔
      rows.filter (fun r => column r = value) = [row] ∧ isValid row = true := by
  rw [rowBy]
  cases rows.filter fun r => column r = value with
  | nil => simp
  | cons first rest =>
    cases rest with
    | nil =>
      simp only [bind_eq_ok, validatedRow_eq_ok, pure_eq_ok]
      constructor
      · rintro ⟨_, ⟨hvalid, rfl⟩, hrow⟩
        cases hrow
        exact ⟨rfl, hvalid⟩
      · rintro ⟨hrow, hvalid⟩
        cases hrow
        exact ⟨_, ⟨hvalid, rfl⟩, rfl⟩
    | cons second rest => simp

/-- If no value occurs twice, and the rows are valid, what is found is the row of the value. -/
theorem rowBy_eq_find? (hnodup : (rows.map column).Nodup)
    (hvalid : ∀ row ∈ rows, isValid row = true) :
    rowBy column (validatedRow isValid reason) duplicate rows value =
      .ok (rows.find? fun r => column r = value) := by
  cases hfind : rows.find? fun r => column r = value with
  | none =>
    have hnone : rows.filter (fun r => column r = value) = [] :=
      List.filter_eq_nil_iff.2 (List.find?_eq_none.1 hfind)
    rw [rowBy, hnone]
  | some row =>
    obtain ⟨hmem, rfl⟩ := find?_key_eq_some hfind
    exact rowBy_eq_some.2 ⟨filter_key_eq_singleton hnodup hmem, hvalid row hmem⟩

/-- If no key occurs twice, it does not matter which row of a key comes last. -/
theorem dictGet_eq_find? (hnodup : (rows.map column).Nodup) :
    dictGet column rows value = rows.find? fun r => column r = value := by
  cases hfind : rows.find? fun r => column r = value with
  | none =>
    refine dictGet_eq_none.2 fun r hr hvalue => ?_
    exact List.find?_eq_none.1 hfind r hr (decide_eq_true hvalue)
  | some row =>
    obtain ⟨hmem, rfl⟩ := find?_key_eq_some hfind
    exact dictGet_of_mem hnodup hmem

theorem dictGet_eq_some_iff (hnodup : (rows.map column).Nodup) :
    dictGet column rows value = some row ↔ row ∈ rows ∧ column row = value := by
  refine ⟨dictGet_eq_some, ?_⟩
  rintro ⟨hmem, rfl⟩
  exact dictGet_of_mem hnodup hmem

end Rows

/-! ## Lineages -/

/-- A version that another one may come from. -/
structure Precedes (parent child : HypothesisVersion) : Prop where
  market : parent.marketId = child.marketId
  family : parent.familyId = child.familyId
  parent_created : parent.createdAt < parent.registrationCompletedBarAt
  parent_completed : parent.registrationCompletedBarAt < parent.firstShadowEligibleAt
  created : parent.firstShadowEligibleAt ≤ child.createdAt
  child_created : child.createdAt < child.registrationCompletedBarAt
  child_completed : child.registrationCompletedBarAt < child.firstShadowEligibleAt

theorem Precedes.lt {parent child : HypothesisVersion} (h : Precedes parent child) :
    parent.createdAt < child.createdAt :=
  (h.parent_created.trans h.parent_completed).trans_le h.created

theorem requireSameMarket_eq_ok {parent child : Swing.MarketId} {u : Unit} :
    requireSameMarket parent child = .ok u ↔ parent = child := by
  simp [requireSameMarket]

theorem requireParentVersion_eq_ok {parent child : HypothesisVersion} {u : Unit} :
    requireParentVersion parent child = .ok u ↔ Precedes parent child := by
  simp only [requireParentVersion, bind_eq_ok, requireSameMarket_eq_ok, raiseIf_eq_ok, not_or,
    not_not]
  constructor
  · rintro ⟨_, hmarket, hfamily, h₁, h₂, h₃, h₄, h₅⟩
    exact ⟨hmarket, hfamily, h₁, h₂, h₃, h₄, h₅⟩
  · rintro ⟨hmarket, hfamily, h₁, h₂, h₃, h₄, h₅⟩
    exact ⟨⟨⟩, hmarket, hfamily, h₁, h₂, h₃, h₄, h₅⟩

/-- Something increases from each row to those that name it as their parent, so that the walks along
    the parents come to an end. -/
theorem requireAcyclicParentGraph_eq_ok {α : Type} {rows : List α} {key : α → String}
    {parentOf : α → Option String} {reason : String} (created : α → Instant)
    (hnodup : (rows.map key).Nodup)
    (hparent : ∀ row ∈ rows, ∀ id, parentOf row = some id →
      ∃ parent ∈ rows, key parent = id ∧ created parent < created row) :
    requireAcyclicParentGraph (rows.map fun row => (key row, parentOf row)) reason = .ok () := by
  have hrow : ∀ k p, ((dictGet (·.1) (rows.map fun row => (key row, parentOf row)) k).bind (·.2)) =
      some p → ∃ row ∈ rows, key row = k ∧ parentOf row = some p := by
    intro k p hparent
    obtain ⟨⟨k', p'⟩, hget, rfl⟩ := Option.bind_eq_some_iff.1 hparent
    obtain ⟨hmem, rfl⟩ := dictGet_eq_some hget
    obtain ⟨row, hmem, heq⟩ := List.mem_map.1 hmem
    exact ⟨row, hmem, congrArg Prod.fst heq, congrArg Prod.snd heq⟩
  rw [requireAcyclicParentGraph, raiseIf_eq_ok, Bool.not_eq_false, Ancestry.checkAll_eq_true]
  · refine Ancestry.isAcyclic_of_lt (f := fun k => ((dictGet key rows k).map created).getD 0) ?_
    intro p k hk
    obtain ⟨row, hmem, rfl, hp⟩ := hrow k p hk
    obtain ⟨parent, hmem', rfl, hlt⟩ := hparent row hmem p hp
    simpa [dictGet_of_mem hnodup hmem, dictGet_of_mem hnodup hmem'] using hlt
  · intro k p hk
    obtain ⟨row, hmem, rfl, -⟩ := hrow k p hk
    exact List.mem_map.2 ⟨(key row, parentOf row), List.mem_map_of_mem hmem, rfl⟩

/-- The families, one for each identity, each after its parent. -/
structure AreFamilies (ctx : DayResearchContext) (families : List HypothesisFamily) : Prop where
  nodup : (families.map (·.familyId)).Nodup
  valid : ∀ family ∈ families, family.validateFamily ctx.digests = true
  parent : ∀ family ∈ families, ∀ id, family.parentFamilyId = some id →
    ∃ parent ∈ families, parent.familyId = id ∧ parent.createdAt < family.createdAt

/-- The versions, one for each identity, each of a family, and after its parent. -/
structure AreVersions (ctx : DayResearchContext) (families : List HypothesisFamily)
    (versions : List HypothesisVersion) : Prop where
  nodup : (versions.map (·.hypothesisVersionId)).Nodup
  valid : ∀ version ∈ versions, version.validateVersion ctx.digests = true
  family : ∀ version ∈ versions, ∃ family ∈ families,
    family.familyId = version.familyId ∧ family.createdAt ≤ version.createdAt
  parent : ∀ version ∈ versions, ∀ id, version.parentVersionId = some id →
    ∃ parent ∈ versions, parent.hypothesisVersionId = id ∧ Precedes parent version

theorem requireStoredFamilyGraph_eq_ok {families : List HypothesisFamily} {u : Unit}
    (hnodup : (families.map (·.familyId)).Nodup) :
    requireStoredFamilyGraph families = .ok u ↔
      ∀ family ∈ families, ∀ id, family.parentFamilyId = some id →
        ∃ parent ∈ families, parent.familyId = id ∧ parent.createdAt < family.createdAt := by
  rw [requireStoredFamilyGraph, bind_eq_ok]
  constructor
  · rintro ⟨_, hfamilies, -⟩ family hmem id hid
    have hfamily := forM_eq_ok.1 hfamilies family hmem
    rw [raiseIf_eq_ok, hid, Option.any_some] at hfamily
    cases hget : dictGet (·.familyId) families id with
    | none => simp [hget] at hfamily
    | some parent =>
      obtain ⟨hparent, rfl⟩ := dictGet_eq_some hget
      exact ⟨parent, hparent, rfl, by simpa [hget] using hfamily⟩
  · intro hparent
    refine ⟨⟨⟩, forM_eq_ok.2 fun family hmem => ?_,
      requireAcyclicParentGraph_eq_ok (·.createdAt) hnodup hparent⟩
    rw [raiseIf_eq_ok]
    cases hid : family.parentFamilyId with
    | none => simp
    | some id =>
      obtain ⟨parent, hmem', rfl, hlt⟩ := hparent family hmem id hid
      simpa [dictGet_of_mem hnodup hmem'] using hlt

theorem requireStoredVersionGraph_eq_ok {families : List HypothesisFamily}
    {versions : List HypothesisVersion} {u : Unit}
    (hfamilies : (families.map (·.familyId)).Nodup)
    (hversions : (versions.map (·.hypothesisVersionId)).Nodup) :
    requireStoredVersionGraph families versions = .ok u ↔
      (∀ version ∈ versions, ∃ family ∈ families,
        family.familyId = version.familyId ∧ family.createdAt ≤ version.createdAt) ∧
      ∀ version ∈ versions, ∀ id, version.parentVersionId = some id →
        ∃ parent ∈ versions, parent.hypothesisVersionId = id ∧ Precedes parent version := by
  rw [requireStoredVersionGraph, bind_eq_ok]
  constructor
  · rintro ⟨_, hall, -⟩
    have hversion := forM_eq_ok.1 hall
    constructor
    · intro version hmem
      obtain ⟨_, hfamily, -⟩ := bind_eq_ok.1 (hversion version hmem)
      rw [raiseIf_eq_ok] at hfamily
      cases hget : dictGet (·.familyId) families version.familyId with
      | none => simp [hget] at hfamily
      | some family =>
        obtain ⟨hmem', hid⟩ := dictGet_eq_some hget
        exact ⟨family, hmem', hid, by simpa [hget] using hfamily⟩
    · intro version hmem id hid
      obtain ⟨_, -, hparent⟩ := bind_eq_ok.1 (hversion version hmem)
      rw [hid] at hparent
      dsimp only at hparent
      cases hget : dictGet (·.hypothesisVersionId) versions id with
      | none => simp [hget] at hparent
      | some parent =>
        obtain ⟨hmem', rfl⟩ := dictGet_eq_some hget
        rw [hget] at hparent
        exact ⟨parent, hmem', rfl, requireParentVersion_eq_ok.1 hparent⟩
  · rintro ⟨hfamily, hparent⟩
    refine ⟨⟨⟩, forM_eq_ok.2 fun version hmem => bind_eq_ok.2 ⟨⟨⟩, ?_, ?_⟩, ?_⟩
    · obtain ⟨family, hmem', hid, hle⟩ := hfamily version hmem
      rw [raiseIf_eq_ok, ← hid, dictGet_of_mem hfamilies hmem']
      simpa using hle
    · cases hid : version.parentVersionId with
      | none => rfl
      | some id =>
        obtain ⟨parent, hmem', rfl, hprecedes⟩ := hparent version hmem id hid
        dsimp only
        rw [dictGet_of_mem hversions hmem']
        exact requireParentVersion_eq_ok.2 hprecedes
    · refine requireAcyclicParentGraph_eq_ok (·.createdAt) hversions ?_
      intro version hmem id hid
      obtain ⟨parent, hmem', rfl, hprecedes⟩ := hparent version hmem id hid
      exact ⟨parent, hmem', rfl, hprecedes.lt⟩

theorem storedDayResearchVersionGraph_eq_ok {graph : StoredDayResearchVersionGraph} :
    storedDayResearchVersionGraph ctx ledger = .ok graph ↔
      AreFamilies ctx ledger.families ∧ AreVersions ctx ledger.families ledger.versions ∧
        graph = ⟨ledger.families, ledger.versions⟩ := by
  simp only [storedDayResearchVersionGraph, bind_eq_ok, storedFamily, storedVersion,
    mapM_validatedRow_eq_ok, raiseIf_eq_ok, not_not, dictLen_eq_iff, pure_eq_ok]
  constructor
  · rintro ⟨_, ⟨hvalid, rfl⟩, _, hnodup, _, hfamilies, _, ⟨hvalid', rfl⟩, _, hnodup', _,
      hversions, rfl⟩
    have hfamilies := (requireStoredFamilyGraph_eq_ok hnodup).1 hfamilies
    obtain ⟨hfamily, hparent⟩ := (requireStoredVersionGraph_eq_ok hnodup hnodup').1 hversions
    exact ⟨⟨hnodup, hvalid, hfamilies⟩, ⟨hnodup', hvalid', hfamily, hparent⟩, rfl⟩
  · rintro ⟨hfamilies, hversions, rfl⟩
    exact ⟨_, ⟨hfamilies.valid, rfl⟩, ⟨⟩, hfamilies.nodup, ⟨⟩,
      (requireStoredFamilyGraph_eq_ok hfamilies.nodup).2 hfamilies.parent, _,
      ⟨hversions.valid, rfl⟩, ⟨⟩, hversions.nodup, ⟨⟩,
      (requireStoredVersionGraph_eq_ok hfamilies.nodup hversions.nodup).2
        ⟨hversions.family, hversions.parent⟩, rfl⟩

/-! ## Bindings -/

/-- What a binding matches. -/
structure Matches (version : HypothesisVersion) (attempt : ResearchAttempt)
    (manifest : PreregistrationManifest) (binding : DayResearchAttemptBinding) : Prop where
  market : version.marketId = binding.marketId
  family : binding.multipleTestingFamily = version.multipleTestingFamily
  search : version.multipleTestingFamily = manifest.hypothesis.multipleTestingFamily
  code : attempt.codeSha256 = version.codeSha256
  data : attempt.dataManifestSha256 = version.dataManifestSha256
  finished : ∃ finishedAt, attempt.finishedAt = some finishedAt ∧
    finishedAt.instant < binding.boundAt
  created : version.createdAt < binding.boundAt
  completed : version.registrationCompletedBarAt < binding.boundAt
  terminal : attempt.status ≠ .started
  succeeded : attempt.status = .succeeded → binding.artifactRef ∈ attempt.artifactRefs
  failed : attempt.status ≠ .succeeded →
    binding.artifactRef = preregisteredAttemptedArtifactRef attempt.codeSha256

theorem requireBindingProtocol_eq_ok {version : HypothesisVersion} {attempt : ResearchAttempt}
    {manifest : PreregistrationManifest} {binding : DayResearchAttemptBinding} {u : Unit} :
    requireBindingProtocol version attempt manifest binding = .ok u ↔
      Matches version attempt manifest binding := by
  simp only [requireBindingProtocol, bind_eq_ok, requireSameMarket_eq_ok, raiseIf_eq_ok, not_or,
    not_not, not_le]
  have hfinished : ¬ (attempt.finishedAt.all fun finishedAt =>
      binding.boundAt ≤ finishedAt.instant) = true ↔
      ∃ finishedAt, attempt.finishedAt = some finishedAt ∧ finishedAt.instant < binding.boundAt := by
    cases attempt.finishedAt <;> simp
  rw [hfinished]
  constructor
  · rintro ⟨_, hmarket, _, ⟨hfamily, hsearch, hcode, hdata, hfinished, hcreated, hcompleted⟩,
      hstatus⟩
    refine ⟨hmarket, hfamily, hsearch, hcode, hdata, hfinished, hcreated, hcompleted, ?_, ?_, ?_⟩
    all_goals cases hattempt : attempt.status <;> simp_all
  · intro h
    refine ⟨⟨⟩, h.market, ⟨⟩, ⟨h.family, h.search, h.code, h.data, h.finished, h.created,
      h.completed⟩, ?_⟩
    have hterminal := h.terminal
    have hsucceeded := h.succeeded
    have hfailed := h.failed
    cases hattempt : attempt.status <;> simp_all

/-- What an attempt was made for: a hypothesis that was registered before, with its seal. -/
structure IsPreregistered (ctx : DayResearchContext) (ledger : DayResearchLedger)
    (attempt : ResearchAttempt) (manifest : PreregistrationManifest) : Prop where
  row : ledger.preregistrations.filter (fun row =>
    row.hypothesis.hypothesisId = attempt.hypothesisId) = [manifest]
  valid : manifest.validateManifest ctx = true
  code : attempt.codeSha256 = manifest.hypothesis.codeSha256
  data : attempt.dataManifestSha256 = manifest.hypothesis.dataManifestSha256
  sealed : ledger.holdoutSeals.filter (fun row => row.hypothesisId = attempt.hypothesisId) =
    [⟨attempt.hypothesisId, manifest.hypothesis.holdoutPeriodSealedRef⟩]

theorem eq_of_filter_eq_singleton {α : Type} {rows : List α} {column : α → String}
    {value : String} {row : α} (h : rows.filter (fun r => column r = value) = [row]) :
    row ∈ rows ∧ column row = value := by
  have hmem : row ∈ rows.filter fun r => column r = value := h ▸ List.mem_singleton_self row
  exact ⟨(List.mem_filter.1 hmem).1, of_decide_eq_true (List.mem_filter.1 hmem).2⟩

theorem requireAttemptPreregistration_eq_ok {attempt : ResearchAttempt}
    {manifest : PreregistrationManifest} :
    requireAttemptPreregistration ctx ledger attempt = .ok manifest ↔
      IsPreregistered ctx ledger attempt manifest := by
  rw [requireAttemptPreregistration, bind_eq_ok]
  constructor
  · rintro ⟨found, hfound, h⟩
    cases found with
    | none => cases h
    | some row =>
      obtain ⟨hrow, hvalid⟩ := rowBy_eq_some.1 hfound
      obtain ⟨_, hcode, h⟩ := bind_eq_ok.1 h
      obtain ⟨_, hsealed, h⟩ := bind_eq_ok.1 h
      cases h
      rw [raiseIf_eq_ok, not_or, not_not, not_not] at hcode
      obtain ⟨-, hid⟩ := eq_of_filter_eq_singleton hrow
      rw [requireAttemptHoldoutSeal, bind_eq_ok] at hsealed
      obtain ⟨sealRow, hsealRow, hsealed⟩ := hsealed
      cases sealRow with
      | none => cases hsealed
      | some sealRow =>
        obtain ⟨hsealRow, -⟩ := rowBy_eq_some.1 hsealRow
        obtain ⟨-, hid'⟩ := eq_of_filter_eq_singleton hsealRow
        rw [raiseIf_eq_ok, not_not] at hsealed
        refine ⟨hrow, hvalid, hcode.1, hcode.2, ?_⟩
        rw [← hid, hsealRow, ← hid', ← hsealed]
  · intro h
    obtain ⟨-, hid⟩ := eq_of_filter_eq_singleton h.row
    refine ⟨some manifest, rowBy_eq_some.2 ⟨h.row, h.valid⟩, ?_⟩
    have hvalid := h.valid
    rw [PreregistrationManifest.validateManifest, decide_eq_true_iff] at hvalid
    refine bind_eq_ok.2 ⟨⟨⟩, by simp [h.code, h.data], bind_eq_ok.2 ⟨⟨⟩, ?_, rfl⟩⟩
    rw [requireAttemptHoldoutSeal, bind_eq_ok]
    refine ⟨_, rowBy_eq_some.2 ⟨hid ▸ h.sealed, ?_⟩, ?_⟩
    · exact hvalid.2.2.2.1
    · simp

/-- What a binding rests on. -/
structure Rests (ctx : DayResearchContext) (ledger : DayResearchLedger)
    (binding : DayResearchAttemptBinding) (version : HypothesisVersion)
    (attempt : ResearchAttempt) (manifest : PreregistrationManifest) : Prop where
  version_mem : version ∈ ledger.versions
  version_id : version.hypothesisVersionId = binding.hypothesisVersionId
  attempt_row : ledger.attempts.filter (fun row => row.attemptId = binding.attemptId) = [attempt]
  attempt_valid : attempt.validateAttempt = true
  preregistered : IsPreregistered ctx ledger attempt manifest
  matches_binding : Matches version attempt manifest binding

/-- A binding is coherent with a graph of the versions exactly if it rests on one of them. -/
theorem requireBindingParentCoherence_eq_ok {binding : DayResearchAttemptBinding}
    {version : HypothesisVersion} {attempt : ResearchAttempt}
    (hversions : (ledger.versions.map (·.hypothesisVersionId)).Nodup) :
    requireBindingParentCoherence ctx ledger (some ⟨ledger.families, ledger.versions⟩) binding =
        .ok (version, attempt) ↔
      ∃ manifest, Rests ctx ledger binding version attempt manifest := by
  simp only [requireBindingParentCoherence, ok_bind, bind_eq_ok]
  constructor
  · rintro ⟨found, hfound, h⟩
    cases hget : StoredDayResearchVersionGraph.version ⟨ledger.families, ledger.versions⟩
      binding.hypothesisVersionId with
    | none => simp [hget] at h
    | some row =>
      rw [hget] at h
      cases found with
      | none => cases h
      | some found =>
        obtain ⟨hrow, hvalid⟩ := rowBy_eq_some.1 hfound
        obtain ⟨hmem, hid⟩ := (dictGet_eq_some_iff hversions).1 hget
        simp only [Option.isNone_some, Bool.false_eq_true, if_false, bind_eq_ok] at h
        obtain ⟨manifest, hmanifest, _, hprotocol, hpure⟩ := h
        cases hpure
        exact ⟨manifest, hmem, hid, hrow, hvalid, requireAttemptPreregistration_eq_ok.1 hmanifest,
          requireBindingProtocol_eq_ok.1 hprotocol⟩
  · rintro ⟨manifest, h⟩
    have hget : StoredDayResearchVersionGraph.version ⟨ledger.families, ledger.versions⟩
        binding.hypothesisVersionId = some version :=
      (dictGet_eq_some_iff hversions).2 ⟨h.version_mem, h.version_id⟩
    refine ⟨some attempt, rowBy_eq_some.2 ⟨h.attempt_row, h.attempt_valid⟩, ?_⟩
    simp only [hget, Option.isNone_some, Bool.false_eq_true, if_false]
    refine bind_eq_ok.2 ⟨manifest, ?_, bind_eq_ok.2 ⟨⟨⟩, ?_, rfl⟩⟩
    · exact requireAttemptPreregistration_eq_ok.2 h.preregistered
    · exact requireBindingProtocol_eq_ok.2 h.matches_binding

/-! ## Budgets -/

/-- What was debited from the budget of a search. -/
def debited (bindings : List DayResearchAttemptBinding) (key : Swing.MarketId × String) : ℤ :=
  ((bindings.filter fun binding => binding.budgetKey = key).map (·.searchBudgetDebit)).sum

theorem debited_concat (bindings : List DayResearchAttemptBinding)
    (binding : DayResearchAttemptBinding) (key : Swing.MarketId × String) :
    debited (bindings ++ [binding]) key =
      debited bindings key + if binding.budgetKey = key then binding.searchBudgetDebit else 0 := by
  by_cases h : binding.budgetKey = key <;> simp [debited, h]

/-- Each search has one budget, and its debits are within it. -/
structure IsBudgeted (bindings : List DayResearchAttemptBinding) : Prop where
  one : ∀ a ∈ bindings, ∀ b ∈ bindings, a.budgetKey = b.budgetKey →
    a.multipleTestingBudget = b.multipleTestingBudget
  within : ∀ binding ∈ bindings, debited bindings binding.budgetKey ≤ binding.multipleTestingBudget

/-- What the pass over some bindings has found. -/
structure Budgets.Are (budgets : Budgets) (bindings : List DayResearchAttemptBinding) : Prop where
  debit : ∀ key, (budgets.debitByFamily.row key).getD 0 = debited bindings key
  mem_keys : ∀ key, key ∈ budgets.debitByFamily.keys ↔ ∃ binding ∈ bindings, binding.budgetKey = key
  budget : ∀ binding ∈ bindings,
    budgets.budgetByFamily.row binding.budgetKey = some binding.multipleTestingBudget
  unknown : ∀ key, (∀ binding ∈ bindings, binding.budgetKey ≠ key) →
    budgets.budgetByFamily.row key = none

theorem Budgets.add_eq_ok {budgets next : Budgets} {binding : DayResearchAttemptBinding} :
    budgets.add binding = .ok next ↔
      (budgets.budgetByFamily.row binding.budgetKey).getD binding.multipleTestingBudget =
          binding.multipleTestingBudget ∧
        next = {
          debitByFamily := budgets.debitByFamily.set binding.budgetKey
            ((budgets.debitByFamily.row binding.budgetKey).getD 0 + binding.searchBudgetDebit)
          budgetByFamily := budgets.budgetByFamily.set binding.budgetKey
            binding.multipleTestingBudget } := by
  simp only [Budgets.add, bind_eq_ok, raiseIf_eq_ok, not_not, pure_eq_ok]
  constructor
  · rintro ⟨_, hone, rfl⟩
    exact ⟨hone, by rw [hone]⟩
  · rintro ⟨hone, rfl⟩
    exact ⟨⟨⟩, hone, by rw [hone]⟩

theorem Budgets.Are.add {budgets next : Budgets} {bindings : List DayResearchAttemptBinding}
    {binding : DayResearchAttemptBinding} (h : budgets.Are bindings)
    (hadd : budgets.add binding = .ok next) : next.Are (bindings ++ [binding]) := by
  obtain ⟨hone, rfl⟩ := Budgets.add_eq_ok.1 hadd
  refine ⟨fun key => ?_, fun key => ?_, ?_, fun key hkey => ?_⟩
  · rw [debited_concat, ← h.debit, Table.row_set]
    by_cases heq : key = binding.budgetKey
    · subst heq
      simp
    · rw [if_neg heq, if_neg (Ne.symm heq), add_zero]
  · have hset := Table.mem_keys (budgets.debitByFamily.set binding.budgetKey
      ((budgets.debitByFamily.row binding.budgetKey).getD 0 + binding.searchBudgetDebit)) key
    rw [hset, Table.row_set, exists_mem_concat, ← h.mem_keys, Table.mem_keys]
    by_cases heq : key = binding.budgetKey
    · simp [heq]
    · simp [heq, Ne.symm heq]
  · intro a ha
    rw [Table.row_set]
    split_ifs with heq
    · rcases List.mem_append.1 ha with ha | ha
      · have hbudget := h.budget a ha
        rw [heq] at hbudget
        rw [hbudget, Option.getD_some] at hone
        rw [hone]
      · rw [List.mem_singleton.1 ha]
    · rcases List.mem_append.1 ha with ha | ha
      · exact h.budget a ha
      · exact absurd (congrArg _ (List.mem_singleton.1 ha)) heq
  · rw [Table.row_set, if_neg, h.unknown key fun a ha => hkey a (List.mem_append_left _ ha)]
    exact fun heq => hkey binding (by simp) heq.symm

theorem Budgets.are_of_foldlM {bindings : List DayResearchAttemptBinding} {budgets : Budgets}
    (h : bindings.foldlM Budgets.add ⟨.empty, .empty⟩ = .ok budgets) : budgets.Are bindings := by
  induction bindings using List.reverseRecOn generalizing budgets with
  | nil =>
    cases h
    exact ⟨fun _ => rfl, fun _ => by simp [Table.empty], by simp, fun _ _ => rfl⟩
  | append_singleton bindings binding ih =>
    rw [List.foldlM_append, bind_eq_ok] at h
    obtain ⟨before, hbefore, hadd⟩ := h
    rw [List.foldlM_cons, bind_eq_ok] at hadd
    obtain ⟨_, hadd, hpure⟩ := hadd
    cases hpure
    exact (ih hbefore).add hadd

theorem Budgets.exists_foldlM {bindings : List DayResearchAttemptBinding}
    (hone : ∀ a ∈ bindings, ∀ b ∈ bindings, a.budgetKey = b.budgetKey →
      a.multipleTestingBudget = b.multipleTestingBudget) :
    ∃ budgets, bindings.foldlM Budgets.add ⟨.empty, .empty⟩ = .ok budgets := by
  induction bindings using List.reverseRecOn with
  | nil => exact ⟨_, rfl⟩
  | append_singleton bindings binding ih =>
    obtain ⟨before, hbefore⟩ := ih fun a ha b hb =>
      hone a (List.mem_append_left _ ha) b (List.mem_append_left _ hb)
    have hbudget : (before.budgetByFamily.row binding.budgetKey).getD binding.multipleTestingBudget =
        binding.multipleTestingBudget := by
      by_cases hknown : ∃ a ∈ bindings, a.budgetKey = binding.budgetKey
      · obtain ⟨a, ha, hkey⟩ := hknown
        rw [← hkey, (Budgets.are_of_foldlM hbefore).budget a ha, Option.getD_some]
        exact hone a (List.mem_append_left _ ha) binding (by simp) hkey
      · rw [(Budgets.are_of_foldlM hbefore).unknown _ fun a ha hkey => hknown ⟨a, ha, hkey⟩]
        rfl
    rw [List.foldlM_append, hbefore, ok_bind, List.foldlM_cons, Budgets.add_eq_ok.2 ⟨hbudget, rfl⟩]
    exact ⟨_, rfl⟩

theorem requireStoredBindingBudgets_eq_ok {bindings : List DayResearchAttemptBinding} {u : Unit} :
    requireStoredBindingBudgets bindings = .ok u ↔ IsBudgeted bindings := by
  rw [requireStoredBindingBudgets, bind_eq_ok]
  constructor
  · rintro ⟨budgets, hbudgets, hwithin⟩
    have hare := Budgets.are_of_foldlM hbudgets
    rw [raiseIf_eq_ok, Bool.not_eq_true, List.any_eq_false] at hwithin
    refine ⟨fun a ha b hb hkey => ?_, fun binding hmem => ?_⟩
    · have hbudget := hare.budget a ha
      rw [hkey, hare.budget b hb] at hbudget
      exact (Option.some.inj hbudget).symm
    · have hle := hwithin _ ((hare.mem_keys _).2 ⟨binding, hmem, rfl⟩)
      rw [hare.debit, hare.budget binding hmem] at hle
      simpa using hle
  · intro h
    obtain ⟨budgets, hbudgets⟩ := Budgets.exists_foldlM h.one
    have hare := Budgets.are_of_foldlM hbudgets
    refine ⟨budgets, hbudgets, ?_⟩
    rw [raiseIf_eq_ok, Bool.not_eq_true, List.any_eq_false]
    intro key hkey
    obtain ⟨binding, hmem, rfl⟩ := (hare.mem_keys key).1 hkey
    rw [hare.debit, hare.budget binding hmem]
    simpa using h.within binding hmem

/-! ## The audit -/

/-- The bindings, one for each identity and for each attempt. -/
structure AreBindings (ctx : DayResearchContext) (ledger : DayResearchLedger) : Prop where
  nodup : (ledger.bindings.map (·.bindingId)).Nodup
  attempt_nodup : (ledger.bindings.map (·.attemptId)).Nodup
  valid : ∀ binding ∈ ledger.bindings, binding.validateBinding ctx.digests = true
  rests : ∀ binding ∈ ledger.bindings, ∃ version attempt manifest,
    Rests ctx ledger binding version attempt manifest
  budgeted : IsBudgeted ledger.bindings

/-- What an audit accepts. -/
structure IsAudited (ctx : DayResearchContext) (ledger : DayResearchLedger) : Prop where
  families : AreFamilies ctx ledger.families
  versions : AreVersions ctx ledger.families ledger.versions
  bindings : AreBindings ctx ledger

theorem storedBindingAudit_eq_ok {audit : StoredDayResearchBindingAudit} :
    storedBindingAudit ctx ledger = .ok audit ↔
      IsAudited ctx ledger ∧ audit = ⟨ledger.bindings, ⟨ledger.families, ledger.versions⟩⟩ := by
  simp only [storedBindingAudit, bind_eq_ok, storedBinding, mapM_validatedRow_eq_ok, raiseIf_eq_ok,
    not_not, dictLen_eq_iff, storedDayResearchVersionGraph_eq_ok, pure_eq_ok,
    requireStoredBindingBudgets_eq_ok]
  constructor
  · rintro ⟨_, ⟨hvalid, rfl⟩, _, hnodup, _, hattempts, _, ⟨hfamilies, hversions, rfl⟩, _, hrests, _,
      hbudgeted, rfl⟩
    refine ⟨⟨hfamilies, hversions, hnodup, hattempts, hvalid, fun binding hmem => ?_, hbudgeted⟩,
      rfl⟩
    obtain ⟨⟨version, attempt⟩, hcoherent, -⟩ := bind_eq_ok.1 (forM_eq_ok.1 hrests binding hmem)
    obtain ⟨manifest, h⟩ := (requireBindingParentCoherence_eq_ok hversions.nodup).1 hcoherent
    exact ⟨version, attempt, manifest, h⟩
  · rintro ⟨h, rfl⟩
    refine ⟨_, ⟨h.bindings.valid, rfl⟩, ⟨⟩, h.bindings.nodup, ⟨⟩, h.bindings.attempt_nodup, _,
      ⟨h.families, h.versions, rfl⟩, ⟨⟩, ?_, ⟨⟩, h.bindings.budgeted, rfl⟩
    refine forM_eq_ok.2 fun binding hmem => ?_
    obtain ⟨version, attempt, manifest, hrests⟩ := h.bindings.rests binding hmem
    exact bind_eq_ok.2 ⟨(version, attempt),
      (requireBindingParentCoherence_eq_ok h.versions.nodup).2 ⟨manifest, hrests⟩, rfl⟩

end TradingAgent.DayResearch
