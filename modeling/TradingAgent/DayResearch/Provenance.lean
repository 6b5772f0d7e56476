import Mathlib.Algebra.Order.BigOperators.Group.List
import TradingAgent.DayResearch.Reading

/-!
# Where the rows come from

What holds of the tables that any calls, commits and losses have left, and what a call cannot do any
more once something is committed.

* The versions and the families descend from roots, each before those that come from it
  (`lineage_of_reachable`). The check for cycles, by itself, finds those of any graph
  (`requireAcyclicParentGraph_iff`), as the audit finds any fault of the tables
  (`storedBindingAudit_iff`).
* A search keeps to the budget that its first binding has named (`searchBudget_of_run`).
* A capsule publishes the code of one successful attempt, which was registered and sealed before
  (`provenance_of_capsule`), and the holdout of a search is revealed once (`holdout_of_run`).
* What is committed is not written again, and nothing else under its identity (`call_of_committed`).
-/

namespace TradingAgent.DayResearch

open Ancestry Except Relation Transition

variable {ctx : DayResearchContext} {ledger : DayResearchLedger}
  {store later : ExperimentLedgerStore} {events : List (Transaction.Event Call)}

/-! ## Audits -/

/-- The parent of a node. -/
def parentIn (parentIds : List (String × Option String)) (id : String) : Option String :=
  (dictGet (·.1) parentIds id).bind (·.2)

/-- Only what is in the graph has a parent. -/
theorem mem_of_parentIn {parentIds : List (String × Option String)} {id parentId : String}
    (h : parentIn parentIds id = some parentId) : id ∈ parentIds.map (·.1) := by
  obtain ⟨node, hget, -⟩ := Option.bind_eq_some_iff.1 h
  obtain ⟨hmem, rfl⟩ := dictGet_eq_some hget
  exact List.mem_map_of_mem hmem

/-- The check passes exactly the graphs without a cycle, whether they are those of a ledger or not. -/
theorem requireAcyclicParentGraph_iff (parentIds : List (String × Option String))
    (reason : String) :
    requireAcyclicParentGraph parentIds reason = .ok () ↔ IsAcyclic (parentIn parentIds) := by
  rw [requireAcyclicParentGraph, raiseIf_eq_ok, Bool.not_eq_false]
  exact checkAll_eq_true fun _ _ => mem_of_parentIn

/-- The audit accepts exactly the tables that are sound, whatever has written them. -/
theorem storedBindingAudit_iff :
    (∃ audit, storedBindingAudit ctx ledger = .ok audit) ↔ IsAudited ctx ledger := by
  constructor
  · rintro ⟨audit, haudit⟩
    exact (storedBindingAudit_eq_ok.1 haudit).1
  · intro h
    exact ⟨_, storedBindingAudit_eq_ok.2 ⟨h, rfl⟩⟩

/-! ## Lineages -/

section Rows

variable {α : Type} {rows : List α} {key : α → String} {parentOf : α → Option String}

theorem parentIn_of_mem (hnodup : (rows.map key).Nodup) {row : α} (hmem : row ∈ rows) :
    parentIn (rows.map fun row => (key row, parentOf row)) (key row) = parentOf row := by
  have hkeys : ((rows.map fun row => (key row, parentOf row)).map (·.1)).Nodup := by
    rw [List.map_map]
    exact hnodup
  have hget : dictGet (·.1) (rows.map fun row => (key row, parentOf row)) (key row) =
      some (key row, parentOf row) :=
    (dictGet_eq_some_iff hkeys).2 ⟨List.mem_map.2 ⟨row, hmem, rfl⟩, rfl⟩
  rw [parentIn, hget, Option.bind_some]

/-- What relates each row to its parent relates it to each of its ancestors. -/
theorem exists_ancestor {R : α → α → Prop} (htrans : ∀ a b c, R a b → R b c → R a c)
    (hnodup : (rows.map key).Nodup)
    (hparent : ∀ row ∈ rows, ∀ id, parentOf row = some id →
      ∃ parent ∈ rows, key parent = id ∧ R parent row) {id k : String}
    (hpath : TransGen (IsParent (parentIn (rows.map fun row => (key row, parentOf row)))) id k)
    {row : α} (hmem : row ∈ rows) (hk : key row = k) :
    ∃ ancestor ∈ rows, key ancestor = id ∧ R ancestor row := by
  -- By induction on the path, from the row on.
  induction hpath generalizing row with
  | single hp =>
    subst hk
    exact hparent row hmem id ((parentIn_of_mem hnodup hmem).symm.trans hp)
  | tail _ hp ih =>
    subst hk
    obtain ⟨parent, hmem', hid, hR⟩ :=
      hparent row hmem _ ((parentIn_of_mem hnodup hmem).symm.trans hp)
    obtain ⟨ancestor, hancestor, hid', hR'⟩ := ih hmem' hid
    exact ⟨ancestor, hancestor, hid', htrans _ _ _ hR' hR⟩

/-- If the ancestors of each row are rows, so is the root that it comes from. -/
theorem exists_root_row {R : α → α → Prop} (htrans : ∀ a b c, R a b → R b c → R a c)
    (hirrefl : ∀ a, ¬ R a a) (hnodup : (rows.map key).Nodup)
    (hparent : ∀ row ∈ rows, ∀ id, parentOf row = some id →
      ∃ parent ∈ rows, key parent = id ∧ R parent row) :
    IsAcyclic (parentIn (rows.map fun row => (key row, parentOf row))) ∧
      ∀ row ∈ rows, ∃ root ∈ rows, parentOf root = none ∧
        ReflTransGen (IsParent (parentIn (rows.map fun row => (key row, parentOf row))))
          (key root) (key row) := by
  have hacyclic : IsAcyclic (parentIn (rows.map fun row => (key row, parentOf row))) := by
    intro k hcycle
    -- A node on a cycle has a parent, so that it is a row.
    obtain ⟨parentId, -, hp⟩ := TransGen.tail'_iff.1 hcycle
    obtain ⟨_, hnode, rfl⟩ := List.mem_map.1 (mem_of_parentIn hp)
    obtain ⟨row, hmem, rfl⟩ := List.mem_map.1 hnode
    obtain ⟨ancestor, hmem', hid, hR⟩ := exists_ancestor htrans hnodup hparent hcycle hmem rfl
    obtain rfl := List.inj_on_of_nodup_map hnodup hmem' hmem hid
    exact hirrefl _ hR
  refine ⟨hacyclic, fun row hmem => ?_⟩
  obtain ⟨root, hroot, hpath⟩ :=
    exists_root hacyclic (fun _ _ => mem_of_parentIn) (key row)
  have hrow : ∃ ancestor ∈ rows, key ancestor = root := by
    rcases reflTransGen_iff_eq_or_transGen.1 hpath with heq | hpath'
    · exact ⟨row, hmem, heq⟩
    · obtain ⟨ancestor, hmem', hid, -⟩ := exists_ancestor htrans hnodup hparent hpath' hmem rfl
      exact ⟨ancestor, hmem', hid⟩
  obtain ⟨ancestor, hmem', rfl⟩ := hrow
  exact ⟨ancestor, hmem', (parentIn_of_mem hnodup hmem').symm.trans hroot, hpath⟩

end Rows

/-- The parents of the versions, as they are audited. -/
def DayResearchLedger.versionParents (ledger : DayResearchLedger) : List (String × Option String) :=
  ledger.versions.map fun version => (version.hypothesisVersionId, version.parentVersionId)

/-- The parents of the families, as they are audited. -/
def DayResearchLedger.familyParents (ledger : DayResearchLedger) : List (String × Option String) :=
  ledger.families.map fun family => (family.familyId, family.parentFamilyId)

/-- What an ancestor of a version is: on the same market, of the same family, and eligible before the
    version was made. -/
structure IsAncestor (ancestor version : HypothesisVersion) : Prop where
  market : ancestor.marketId = version.marketId
  family : ancestor.familyId = version.familyId
  eligible : ancestor.firstShadowEligibleAt ≤ version.createdAt
  created : version.createdAt < version.firstShadowEligibleAt

theorem Precedes.isAncestor {parent child : HypothesisVersion} (h : Precedes parent child) :
    IsAncestor parent child :=
  ⟨h.market, h.family, h.created, h.child_created.trans h.child_completed⟩

theorem IsAncestor.trans {a b c : HypothesisVersion} (h : IsAncestor a b) (h' : IsAncestor b c) :
    IsAncestor a c :=
  ⟨h.market.trans h'.market, h.family.trans h'.family,
    (h.eligible.trans h.created.le).trans h'.eligible, h'.created⟩

/-- No version and no family is among its own ancestors, and all that are among them precede it: the
    versions on the same market, each from a root of the same family. -/
theorem lineage_of_reachable (h : (storeSystem ctx).Reachable store) (hshows : store.Shows ledger) :
    IsAcyclic (parentIn ledger.versionParents) ∧
      (∀ version ∈ ledger.versions,
        (∃ family ∈ ledger.families, family.familyId = version.familyId ∧
          family.createdAt ≤ version.createdAt) ∧
        (∃ root ∈ ledger.versions, root.parentVersionId = none ∧
          ReflTransGen (IsParent (parentIn ledger.versionParents)) root.hypothesisVersionId
            version.hypothesisVersionId) ∧
        ∀ id, TransGen (IsParent (parentIn ledger.versionParents)) id version.hypothesisVersionId →
          ∃ ancestor ∈ ledger.versions, ancestor.hypothesisVersionId = id ∧
            IsAncestor ancestor version) ∧
      IsAcyclic (parentIn ledger.familyParents) ∧
      ∀ family ∈ ledger.families,
        (∃ root ∈ ledger.families, root.parentFamilyId = none ∧
          ReflTransGen (IsParent (parentIn ledger.familyParents)) root.familyId family.familyId) ∧
        ∀ id, TransGen (IsParent (parentIn ledger.familyParents)) id family.familyId →
          ∃ ancestor ∈ ledger.families, ancestor.familyId = id ∧
            ancestor.createdAt < family.createdAt := by
  have hledger := isLedger_of_shows h hshows
  have hversions : ∀ version ∈ ledger.versions, ∀ id, version.parentVersionId = some id →
      ∃ parent ∈ ledger.versions, parent.hypothesisVersionId = id ∧ IsAncestor parent version := by
    intro version hmem id hid
    obtain ⟨parent, hparent, hid', hprecedes⟩ := hledger.versions.parent version hmem id hid
    exact ⟨parent, hparent, hid', hprecedes.isAncestor⟩
  have hirrefl : ∀ version, ¬ IsAncestor version version := fun version hself =>
    absurd hself.eligible hself.created.not_ge
  have hfamilies := hledger.families.parent
  obtain ⟨hacyclic, hroot⟩ := exists_root_row (R := IsAncestor) (fun _ _ _ => .trans) hirrefl
    hledger.versions.nodup hversions
  obtain ⟨hacyclic', hroot'⟩ := exists_root_row
    (R := fun a b : HypothesisFamily => a.createdAt < b.createdAt) (fun _ _ _ => lt_trans)
    (fun _ => lt_irrefl _) hledger.families.nodup hfamilies
  refine ⟨hacyclic, fun version hmem => ⟨hledger.versions.family version hmem, hroot version hmem,
    fun id hpath => ?_⟩, hacyclic', fun family hmem => ⟨hroot' family hmem, fun id hpath => ?_⟩⟩
  · exact exists_ancestor (R := IsAncestor) (fun _ _ _ => .trans) hledger.versions.nodup hversions
      hpath hmem rfl
  · exact exists_ancestor (R := fun a b : HypothesisFamily => a.createdAt < b.createdAt)
      (fun _ _ _ => lt_trans) hledger.families.nodup hfamilies hpath hmem rfl

theorem SearchSample.lineage_searched :
    IsAcyclic (parentIn SearchSample.searched.committed.versionParents) :=
  (lineage_of_reachable SearchSample.reachable_searched (.inl rfl)).1

/-! ## Budgets -/

theorem validateBinding_bounds {binding : DayResearchAttemptBinding}
    (h : binding.validateBinding ctx.digests = true) :
    1 ≤ binding.searchBudgetDebit ∧ binding.multipleTestingBudget ≤ 10000 := by
  rw [DayResearchAttemptBinding.validateBinding, decide_eq_true_iff] at h
  obtain ⟨-, -, -, -, -, -, hbudget, hdebit, -⟩ := h
  exact ⟨hdebit, hbudget⟩

/-- Each binding of a search takes at least one from its budget. -/
theorem length_le_debited {bindings : List DayResearchAttemptBinding}
    (h : ∀ binding ∈ bindings, 1 ≤ binding.searchBudgetDebit) (key : Swing.MarketId × String) :
    ((bindings.filter fun binding => binding.budgetKey = key).length : ℤ) ≤ debited bindings key := by
  rw [debited, ← List.length_map (·.searchBudgetDebit)]
  have hle := List.card_nsmul_le_sum ((bindings.filter fun binding =>
    binding.budgetKey = key).map (·.searchBudgetDebit)) 1 ?_
  · simpa using hle
  · intro debit hdebit
    obtain ⟨binding, hmem, rfl⟩ := List.mem_map.1 hdebit
    exact h binding (List.mem_filter.1 hmem).1

/-- What was debited is not given back. -/
theorem debited_le_of_prefix {bindings more : List DayResearchAttemptBinding}
    (hmore : bindings <+: more) (h : ∀ binding ∈ more, 1 ≤ binding.searchBudgetDebit)
    (key : Swing.MarketId × String) : debited bindings key ≤ debited more key := by
  obtain ⟨rest, rfl⟩ := hmore
  have hrest := length_le_debited (fun binding hmem => h binding (List.mem_append_right _ hmem)) key
  rw [debited, debited, List.filter_append, List.map_append, List.sum_append]
  rw [debited] at hrest
  omega

/-- The budget that a binding names is that of its search, from then on, and what the search debits
    from it stays within it: the attempts that are bound to it are no more. -/
theorem searchBudget_of_run (h : (storeSystem ctx).Reachable store)
    (hrun : (storeSystem ctx).Run store events later) {binding : DayResearchAttemptBinding}
    (hmem : binding ∈ store.committed.bindings) :
    (∀ other ∈ later.committed.bindings, other.budgetKey = binding.budgetKey →
        other.multipleTestingBudget = binding.multipleTestingBudget) ∧
      debited store.committed.bindings binding.budgetKey ≤
        debited later.committed.bindings binding.budgetKey ∧
      debited later.committed.bindings binding.budgetKey ≤ binding.multipleTestingBudget ∧
      ((later.committed.bindings.filter fun other =>
          other.budgetKey = binding.budgetKey).length : ℤ) ≤
        debited later.committed.bindings binding.budgetKey ∧
      binding.multipleTestingBudget ≤ 10000 := by
  have hext := (isExtension_of_run h hrun).bindings
  have hlater := (isStore_of_reachable (h.run hrun)).committed.bindings
  have hmem' := hext.subset hmem
  have hdebits : ∀ other ∈ later.committed.bindings, 1 ≤ other.searchBudgetDebit :=
    fun other hother => (validateBinding_bounds (hlater.valid other hother)).1
  exact ⟨fun other hother hkey => hlater.budgeted.one other hother binding hmem' hkey,
    debited_le_of_prefix hext hdebits _, hlater.budgeted.within binding hmem',
    length_le_debited hdebits _, (validateBinding_bounds (hlater.valid binding hmem')).2⟩

theorem SearchSample.budget_searched :
    debited SearchSample.searched.committed.bindings SearchSample.binding.budgetKey ≤ 2 := by
  have hmem : SearchSample.binding ∈ SearchSample.searched.committed.bindings := by
    rw [SearchSample.committed_searched]
    simp [SearchSample.published, SearchSample.bound]
  exact (searchBudget_of_run SearchSample.reachable_searched (SearchSample.run_begin _)
    hmem).2.2.1

/-! ## Capsules -/

/-- Where a capsule comes from, from the registration of a hypothesis to its publication. -/
structure Provenance (ledger : DayResearchLedger) (capsule : StrategyCapsule)
    (binding : DayResearchAttemptBinding) (version : HypothesisVersion)
    (attempt : ResearchAttempt) (manifest : PreregistrationManifest) : Prop where
  binding_mem : binding ∈ ledger.bindings
  binding_id : binding.bindingId = capsule.attemptBindingId
  version_mem : version ∈ ledger.versions
  version_id : version.hypothesisVersionId = binding.hypothesisVersionId
  capsule_version_id : version.hypothesisVersionId = capsule.hypothesisVersionId
  attempt_mem : attempt ∈ ledger.attempts
  attempt_id : attempt.attemptId = binding.attemptId
  manifest_mem : manifest ∈ ledger.preregistrations
  manifest_id : manifest.hypothesis.hypothesisId = attempt.hypothesisId
  sealed : manifest.storedSeal ∈ ledger.holdoutSeals
  market : capsule.marketId = version.marketId ∧ capsule.marketId = binding.marketId
  search : binding.multipleTestingFamily = version.multipleTestingFamily ∧
    binding.multipleTestingFamily = manifest.hypothesis.multipleTestingFamily
  succeeded : attempt.status = .succeeded
  code : capsule.artifactSha256 = version.codeSha256 ∧
    capsule.artifactSha256 = attempt.codeSha256 ∧
    capsule.artifactSha256 = manifest.hypothesis.codeSha256
  data : version.dataManifestSha256 = attempt.dataManifestSha256 ∧
    version.dataManifestSha256 = manifest.hypothesis.dataManifestSha256
  artifact : "artifact://safe/" ++ manifest.hypothesis.codeSha256 ∈ attempt.artifactRefs
  times : ∃ finishedAt, attempt.finishedAt = some finishedAt ∧ attempt.startedAt ≤ finishedAt ∧
    finishedAt.instant < binding.boundAt ∧
    version.registrationCompletedBarAt < binding.boundAt ∧ binding.boundAt < capsule.publishedAt
  authority : capsule.marketId = .krEquities → capsule.authorityCeiling ≠ .usAlpacaPaperCapable

theorem IsPublished.provenance (h : IsLedger ctx ledger) {capsule : StrategyCapsule}
    {binding : DayResearchAttemptBinding} {version : HypothesisVersion}
    {attempt : ResearchAttempt} {manifest : PreregistrationManifest}
    (hvalid : capsule.validateCapsule ctx.digests = true)
    (hpublished : IsPublished ctx ledger capsule binding version attempt manifest) :
    Provenance ledger capsule binding version attempt manifest := by
  have hrests := hpublished.rests
  have hmatches := hrests.matches_binding
  obtain ⟨hattempt, hattemptId⟩ := eq_of_filter_eq_singleton hrests.attempt_row
  obtain ⟨hmanifest, hid, hcode, hdata, row, hrow, hrowId⟩ :=
    (isPreregistered_iff h).1 hrests.preregistered
  have hseal := h.seals.eq_storedSeal h.preregistrations.nodup hrow hmanifest
    (hrowId.trans hid.symm)
  rw [StrategyCapsule.validateCapsule, decide_eq_true_iff] at hvalid
  obtain ⟨hauthority, -, hartifact, -⟩ := hvalid
  have hcapsule : capsule.artifactSha256 = manifest.hypothesis.codeSha256 := by
    rw [← hpublished.code, ← hmatches.code, hcode]
  obtain ⟨finishedAt, hfinished, hbound⟩ := hmatches.finished
  have hattemptValid := h.attempts.valid attempt hattempt
  rw [ResearchAttempt.validateAttempt, decide_eq_true_iff, hfinished] at hattemptValid
  exact {
    binding_mem := hpublished.binding_mem
    binding_id := hpublished.binding_id
    version_mem := hrests.version_mem
    version_id := hrests.version_id
    capsule_version_id := hpublished.version_id
    attempt_mem := hattempt
    attempt_id := hattemptId
    manifest_mem := hmanifest
    manifest_id := hid
    sealed := hseal ▸ hrow
    market := ⟨hpublished.market.symm, hpublished.market.symm.trans hmatches.market⟩
    search := ⟨hmatches.family, hmatches.family.trans hmatches.search⟩
    succeeded := hpublished.succeeded
    code := ⟨hpublished.code.symm, hcapsule.trans hcode.symm, hcapsule⟩
    data := ⟨hmatches.data.symm, hmatches.data.symm.trans hdata⟩
    artifact := by
      rw [← hcapsule, ← hartifact, ← hpublished.artifact]
      exact hmatches.succeeded hpublished.succeeded
    times := ⟨finishedAt, hfinished, by simp_all, hbound, hmatches.completed,
      hpublished.published⟩
    authority := hauthority }

/-- Whatever was called, a capsule that is there publishes the code of one attempt: it has succeeded,
    before it was bound to the version of the capsule, and it was made for a hypothesis that was
    registered with this code and data, and sealed. -/
theorem provenance_of_capsule (h : (storeSystem ctx).Reachable store) (hshows : store.Shows ledger)
    {capsule : StrategyCapsule} (hcapsule : capsule ∈ ledger.capsules) :
    ∃ binding version attempt manifest,
      Provenance ledger capsule binding version attempt manifest := by
  have hledger := isLedger_of_shows h hshows
  obtain ⟨binding, version, attempt, manifest, hpublished⟩ :=
    hledger.capsules.published capsule hcapsule
  exact ⟨binding, version, attempt, manifest,
    hpublished.provenance hledger (hledger.capsules.valid capsule hcapsule)⟩

theorem SearchSample.provenance_searched : ∃ binding version attempt manifest,
    Provenance SearchSample.searched.committed SearchSample.capsule binding version attempt
      manifest :=
  provenance_of_capsule SearchSample.reachable_searched (.inl rfl)
    (by rw [SearchSample.committed_searched]; simp [SearchSample.published])

/-! ## What is committed -/

/-- The tables of a later writer go on from those that are committed. -/
theorem isExtension_of_writer (h : (storeSystem ctx).Reachable store)
    (hrun : (storeSystem ctx).Run store events later) {writer : ExperimentLedgerWriter}
    (hwriter : writer ∈ later.writer) : IsExtension store.committed writer.tables :=
  (isExtension_of_run h hrun).trans
    ((isStore_of_reachable (h.run hrun)).extension writer hwriter)

/-- Once a holdout is revealed, neither it nor another one of the same search can be revealed, in any
    later transaction: of each search, one holdout is revealed, which is the one that was sealed when
    its hypothesis was registered. -/
theorem holdout_of_run (h : (storeSystem ctx).Reachable store)
    (hrun : (storeSystem ctx).Run store events later) {row : StoredReveal}
    (hrow : row ∈ store.committed.holdoutReveals) :
    (∃ manifest, IsRevealed later.committed row manifest) ∧
      (∀ other ∈ later.committed.holdoutReveals,
        other.searchFamilyId = row.searchFamilyId → other = row) ∧
      ∀ writer ∈ later.writer, ∀ manifest ∈ writer.tables.preregistrations, ∀ reveal,
        manifest.hypothesis.searchFamilyId = row.searchFamilyId →
          reveal.hypothesisId = manifest.hypothesis.hypothesisId →
            ∃ e, writer.call ctx (.reveal reveal) = (.error e, writer) := by
  have hlater := (isStore_of_reachable (h.run hrun)).committed
  have hrow' := (isExtension_of_run h hrun).holdoutReveals.subset hrow
  refine ⟨hlater.reveals.revealed row hrow', fun other hother hfamily =>
    List.inj_on_of_nodup_map hlater.reveals.family_nodup hother hrow' hfamily, ?_⟩
  intro writer hwriter manifest hmanifest reveal hfamily hid
  have hledger := (isStore_of_reachable (h.run hrun)).tables writer hwriter
  have hknown := (isExtension_of_writer h hrun hwriter).holdoutReveals.subset hrow
  have hrefused : ∀ b next, revealHoldout ctx writer.tables reveal ≠ .ok (b, next) := by
    intro b next hok
    obtain ⟨-, row', manifest', rfl, hrevealed, hnew, -⟩ := (revealHoldout_eq_ok hledger).1 hok
    -- The hypothesis is that of the manifest, and so is the search.
    have hsame : manifest' = manifest :=
      List.inj_on_of_nodup_map hledger.preregistrations.nodup hrevealed.manifest_mem hmanifest
        (hrevealed.hypothesis.trans hid)
    refine hnew.family row hknown ?_
    rw [← hrevealed.family, hsame, hfamily]
  rcases settle_cases (revealHoldout ctx writer.tables reveal) with ⟨b, next, hok, -⟩ | ⟨e, -, heq⟩
  · exact absurd hok (hrefused b next)
  · refine ⟨e, ?_⟩
    have hcall : writer.call ctx (.reveal reveal) =
        ((settle writer.tables (revealHoldout ctx writer.tables reveal)).1,
          { writer with tables := (settle writer.tables
            (revealHoldout ctx writer.tables reveal)).2 }) := rfl
    rw [hcall, heq]

theorem SearchSample.holdout_concluded :
    ∃ manifest, IsRevealed (SearchSample.concluded.step SearchSample.env .begin).committed
      ⟨SearchSample.reveal, "search"⟩ manifest :=
  (holdout_of_run SearchSample.reachable_concluded (SearchSample.run_begin _)
    (by rw [SearchSample.committed_concluded]; simp [SearchSample.revealed])).1

/-- Two calls that name their records by the same identity. -/
def Call.SameIdentity : Call → Call → Prop
  | .preregistration a, .preregistration b =>
    a.hypothesis.hypothesisId = b.hypothesis.hypothesisId
  | .attempt a, .attempt b => a.attemptId = b.attemptId
  | .reveal a, .reveal b => a.hypothesisId = b.hypothesisId
  | .family a, .family b => a.familyId = b.familyId
  | .version a, .version b => a.hypothesisVersionId = b.hypothesisVersionId
  | .binding a, .binding b => a.bindingId = b.bindingId
  | .capsule a, .capsule b => a.capsuleId = b.capsuleId
  | _, _ => False

/-- A record that is there is found again by a call, which writes nothing. Only a reveal is refused. -/
theorem call_of_isRecorded (h : IsLedger ctx ledger) {c : Call} (hrecorded : IsRecorded ledger c)
    (hreveal : ∀ reveal, c ≠ .reveal reveal) : ledger.call ctx c = (.ok false, ledger) := by
  cases c with
  | preregistration manifest =>
    have hstored := (preregistrationIsStored_eq_ok h.preregistrations).2
      (.inl ⟨h.preregistrations.valid manifest hrecorded, hrecorded, rfl⟩)
    rw [DayResearchLedger.call, registerPreregistration, hstored]
  | attempt attempt =>
    rw [DayResearchLedger.call, (appendAttempt_eq_ok h).2 ⟨h.attempts.valid attempt hrecorded,
      h.attempts.preregistered attempt hrecorded, .inl ⟨hrecorded, rfl, rfl⟩⟩]
    rfl
  | reveal reveal => exact absurd rfl (hreveal reveal)
  | family family =>
    rw [DayResearchLedger.call, (registerDayHypothesisFamily_eq_ok h.families).2
      ⟨h.families.valid family hrecorded, .inl ⟨hrecorded, rfl, rfl⟩⟩]
    rfl
  | version version =>
    rw [DayResearchLedger.call, (registerDayHypothesisVersion_eq_ok h.families h.versions).2
      ⟨h.versions.valid version hrecorded, .inl ⟨hrecorded, rfl, rfl⟩⟩]
    rfl
  | binding binding =>
    rw [DayResearchLedger.call, registerDayResearchAttemptBinding_eq h.isAudited,
      (registerDayResearchAttemptBindingAfterAudit_eq_ok h.isAudited).2
        ⟨h.bindings.valid binding hrecorded, .inl ⟨hrecorded, rfl, rfl⟩⟩]
    rfl
  | capsule capsule =>
    rw [DayResearchLedger.call, (registerDayStrategyCapsule_eq_ok h).2
      ⟨h.capsules.valid capsule hrecorded, .inl ⟨hrecorded, rfl, rfl⟩⟩]
    rfl

/-- Of the records of an identity, only one is there. -/
theorem IsRecorded.eq_of_sameIdentity (h : IsLedger ctx ledger) {c d : Call}
    (hc : IsRecorded ledger c) (hd : IsRecorded ledger d) (hsame : c.SameIdentity d) : c = d := by
  cases c with
  | preregistration manifest =>
    cases d with
    | preregistration _ => exact congrArg Call.preregistration (List.inj_on_of_nodup_map h.preregistrations.nodup hc hd hsame)
    | _ => exact hsame.elim
  | attempt attempt =>
    cases d with
    | attempt _ => exact congrArg Call.attempt (List.inj_on_of_nodup_map h.attempts.nodup hc hd hsame)
    | _ => exact hsame.elim
  | reveal reveal =>
    cases d with
    | reveal _ =>
      obtain ⟨row, hrow, rfl⟩ := hc
      obtain ⟨row', hrow', rfl⟩ := hd
      rw [List.inj_on_of_nodup_map h.reveals.nodup hrow hrow' hsame]
    | _ => exact hsame.elim
  | family family =>
    cases d with
    | family _ => exact congrArg Call.family (List.inj_on_of_nodup_map h.families.nodup hc hd hsame)
    | _ => exact hsame.elim
  | version version =>
    cases d with
    | version _ => exact congrArg Call.version (List.inj_on_of_nodup_map h.versions.nodup hc hd hsame)
    | _ => exact hsame.elim
  | binding binding =>
    cases d with
    | binding _ => exact congrArg Call.binding (List.inj_on_of_nodup_map h.bindings.nodup hc hd hsame)
    | _ => exact hsame.elim
  | capsule capsule =>
    cases d with
    | capsule _ => exact congrArg Call.capsule (List.inj_on_of_nodup_map h.capsules.nodup hc hd hsame)
    | _ => exact hsame.elim

/-- What a call would write is new, so that nothing has its identity. -/
theorem Writes.of_sameIdentity {c d : Call} {result : Except LedgerError Bool}
    {next : DayResearchLedger} (h : Writes ctx ledger d result next)
    (hrecorded : IsRecorded ledger c) (hsame : c.SameIdentity d) :
    next = ledger ∧ result ≠ .ok true ∧ (result = .ok false → IsRecorded ledger d) := by
  cases h with
  | refused => exact ⟨rfl, by simp, by simp⟩
  | known _ hknown => exact ⟨rfl, by simp, fun _ => hknown⟩
  | unsealed e hnew =>
    cases c with
    | preregistration _ => exact absurd hsame (hnew.id _ hrecorded)
    | _ => exact hsame.elim
  | preregistration hnew =>
    cases c with
    | preregistration _ => exact absurd hsame (hnew.id _ hrecorded)
    | _ => exact hsame.elim
  | attempt _ _ hnew =>
    cases c with
    | attempt _ => exact absurd hsame (hnew.id _ hrecorded)
    | _ => exact hsame.elim
  | reveal _ hnew =>
    cases c with
    | reveal _ =>
      obtain ⟨row, hrow, rfl⟩ := hrecorded
      exact absurd hsame (hnew.hypothesis row hrow)
    | _ => exact hsame.elim
  | family _ hnew =>
    cases c with
    | family _ => exact absurd hsame (hnew.id _ hrecorded)
    | _ => exact hsame.elim
  | version _ hnew =>
    cases c with
    | version _ => exact absurd hsame (hnew.id _ hrecorded)
    | _ => exact hsame.elim
  | binding _ hnew =>
    cases c with
    | binding _ => exact absurd hsame (hnew.id _ hrecorded)
    | _ => exact hsame.elim
  | capsule _ hid _ =>
    cases c with
    | capsule _ => exact absurd hsame (hid _ hrecorded)
    | _ => exact hsame.elim

/-- What is committed is found by the same call in any later transaction, and neither this call nor
    one for another record of its identity writes anything: the other one is refused. -/
theorem call_of_committed (h : (storeSystem ctx).Reachable store)
    (hrun : (storeSystem ctx).Run store events later) {c : Call}
    (hrecorded : IsRecorded store.committed c) :
    ∀ writer ∈ later.writer,
      ((∀ reveal, c ≠ .reveal reveal) →
        (writer.call ctx c).1 = .ok false ∧ (writer.call ctx c).2.tables = writer.tables) ∧
      ∀ d, c.SameIdentity d → d ≠ c →
        (∃ e, (writer.call ctx d).1 = .error e) ∧
          (writer.call ctx d).2.tables = writer.tables := by
  intro writer hwriter
  have hstore := isStore_of_reachable (h.run hrun)
  have hledger := hstore.tables writer hwriter
  have hrecorded' := hrecorded.extend (isExtension_of_writer h hrun hwriter)
  refine ⟨fun hreveal => ?_, fun d hsame hne => ?_⟩
  · obtain ⟨hresult, htables, -⟩ :=
      ExperimentLedgerWriter.call_eq hledger (hstore.current writer hwriter) c
    rw [hresult, htables, call_of_isRecorded hledger hrecorded' hreveal]
    exact ⟨rfl, rfl⟩
  · obtain ⟨hresult, htables, -⟩ :=
      ExperimentLedgerWriter.call_eq hledger (hstore.current writer hwriter) d
    obtain ⟨hnext, hnew, hknown⟩ := (writes_call hledger d).of_sameIdentity hrecorded' hsame
    rw [hresult, htables, hnext]
    refine ⟨?_, rfl⟩
    cases hcall : (writer.tables.call ctx d).1 with
    | error e => exact ⟨e, rfl⟩
    | ok written =>
      cases written with
      | true => exact absurd hcall hnew
      | false => exact absurd (hrecorded'.eq_of_sameIdentity hledger (hknown hcall) hsame) hne.symm

theorem SearchSample.recalled_searched :
    ∀ writer ∈ (SearchSample.searched.step SearchSample.env .begin).writer,
      (writer.call SearchSample.env (.binding SearchSample.binding)).1 = .ok false :=
  fun writer hwriter => ((call_of_committed SearchSample.reachable_searched (SearchSample.run_begin _)
    (c := .binding SearchSample.binding)
    (by rw [SearchSample.committed_searched]; simp [IsRecorded, SearchSample.published,
      SearchSample.bound]) writer hwriter).1 (by simp)).1

/-! ## The graph of the writer -/

/-- Along any run, the tables are those of a database whose calls audit the tables each time, and the
    writer returns what these calls return. -/
theorem writer_agrees (h : (storeSystem ctx).Run {} events store) :
    store.database = events.foldl (Transaction.step (DayResearchLedger.after ctx)) ⟨{}, none⟩ ∧
      ∀ writer ∈ store.writer, ∀ c,
        (writer.call ctx c).1 = (writer.tables.call ctx c).1 ∧
          (writer.call ctx c).2.tables = writer.tables.after ctx c := by
  have hstore := isStore_of_reachable ⟨{}, events, rfl, h⟩
  refine ⟨?_, fun writer hwriter c => ?_⟩
  · rw [← run_eq_foldl h]
    exact (isStore_of_reachable (.init rfl)).database_foldl events
  · obtain ⟨hresult, htables, -⟩ := ExperimentLedgerWriter.call_eq
      (hstore.tables writer hwriter) (hstore.current writer hwriter) c
    exact ⟨hresult, htables⟩

theorem SearchSample.writer_searched : SearchSample.searched.database =
    SearchSample.search.foldl (Transaction.step (DayResearchLedger.after SearchSample.env))
      ⟨{}, none⟩ :=
  (writer_agrees (run_foldl {} SearchSample.search)).1

end TradingAgent.DayResearch
