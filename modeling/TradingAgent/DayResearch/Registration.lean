import TradingAgent.DayResearch.Audit

/-!
# What the calls write

* The rows that a ledger has, if it was only written by its calls (`IsLedger`): besides what an audit
  accepts, this is of the hypotheses, their seals and attempts, the reveals and the capsules.
* What a call that returns has done is said once for each, and exactly: when it finds the record that
  it is to write, and when it writes it (`registerRecord_eq_ok` and what follows it). None of them
  breaks what holds of the rows (`isLedger_family` and what follows it), and rows that are written
  stay (`IsExtension`).
-/

namespace TradingAgent.DayResearch

open Except Journal

variable {ctx : DayResearchContext} {ledger next : DayResearchLedger} {b : Bool}

/-! ## Calls -/

inductive Call
  | preregistration (manifest : PreregistrationManifest)
  | attempt (attempt : ResearchAttempt)
  | reveal (reveal : HoldoutReveal)
  | family (family : HypothesisFamily)
  | version (version : HypothesisVersion)
  | binding (binding : DayResearchAttemptBinding)
  | capsule (capsule : StrategyCapsule)
  deriving DecidableEq, Repr

/-- What a call returns, and the tables after it, if it writes last. -/
def settle (ledger : DayResearchLedger) :
    Except LedgerError (Bool × DayResearchLedger) → Except LedgerError Bool × DayResearchLedger
  | .ok (b, next) => (.ok b, next)
  | .error e => (.error e, ledger)

def DayResearchLedger.call (ctx : DayResearchContext) (ledger : DayResearchLedger) :
    Call → Except LedgerError Bool × DayResearchLedger
  | .preregistration manifest => registerPreregistration ctx ledger manifest
  | .attempt attempt => settle ledger (appendAttempt ctx ledger attempt)
  | .reveal reveal => settle ledger (revealHoldout ctx ledger reveal)
  | .family family => settle ledger (registerDayHypothesisFamily ctx ledger family)
  | .version version => settle ledger (registerDayHypothesisVersion ctx ledger version)
  | .binding binding => settle ledger (registerDayResearchAttemptBinding ctx ledger binding)
  | .capsule capsule => settle ledger (registerDayStrategyCapsule ctx ledger capsule)

/-- What a call returns is what it wrote, or it wrote nothing. -/
theorem settle_cases (result : Except LedgerError (Bool × DayResearchLedger)) :
    (∃ b next, result = .ok (b, next) ∧ settle ledger result = (.ok b, next)) ∨
      ∃ e, result = .error e ∧ settle ledger result = (.error e, ledger) := by
  cases result with
  | ok pair => exact .inl ⟨pair.1, pair.2, rfl, rfl⟩
  | error e => exact .inr ⟨e, rfl, rfl⟩

/-! ## The rows -/

/-- What a capsule rests on. -/
structure IsPublished (ctx : DayResearchContext) (ledger : DayResearchLedger)
    (capsule : StrategyCapsule) (binding : DayResearchAttemptBinding) (version : HypothesisVersion)
    (attempt : ResearchAttempt) (manifest : PreregistrationManifest) : Prop where
  binding_mem : binding ∈ ledger.bindings
  binding_id : binding.bindingId = capsule.attemptBindingId
  rests : Rests ctx ledger binding version attempt manifest
  version_id : version.hypothesisVersionId = capsule.hypothesisVersionId
  market : version.marketId = capsule.marketId
  succeeded : attempt.status = .succeeded
  artifact : binding.artifactRef = capsule.artifactRef
  code : version.codeSha256 = capsule.artifactSha256
  cadence : version.evaluationCadence = capsule.evaluationCadence
  entry : version.entryRule = capsule.entryRule
  exit : version.exitRule = capsule.exitRule
  stop : version.stopRule = capsule.stopRule
  cost : version.costModel = capsule.costModel
  protocol : version.protocolSha256 = capsule.protocolSha256
  published : binding.boundAt < capsule.publishedAt

/-- The seal of a hypothesis. -/
def PreregistrationManifest.storedSeal (manifest : PreregistrationManifest) : StoredSeal :=
  ⟨manifest.hypothesis.hypothesisId, manifest.hypothesis.holdoutPeriodSealedRef⟩

/-- What was revealed: the data that was sealed when the hypothesis was registered. -/
structure IsRevealed (ledger : DayResearchLedger) (row : StoredReveal)
    (manifest : PreregistrationManifest) : Prop where
  manifest_mem : manifest ∈ ledger.preregistrations
  sealed : manifest.storedSeal ∈ ledger.holdoutSeals
  hypothesis : manifest.hypothesis.hypothesisId = row.reveal.hypothesisId
  family : manifest.hypothesis.searchFamilyId = row.searchFamilyId
  sealId : manifest.hypothesis.holdoutPeriodSealedRef.sealId = row.reveal.sealId
  commitment : manifest.hypothesis.holdoutPeriodSealedRef.commitmentSha256 =
    row.reveal.commitmentSha256
  owner : manifest.hypothesis.agentId = row.reveal.sanitizedResult.ownerAgentId

/-- The hypotheses that were registered, each in the search of its parent. -/
structure ArePreregistrations (ctx : DayResearchContext)
    (preregistrations : List PreregistrationManifest) : Prop where
  nodup : (preregistrations.map (·.hypothesis.hypothesisId)).Nodup
  valid : ∀ manifest ∈ preregistrations, manifest.validateManifest ctx = true
  parent : ∀ manifest ∈ preregistrations, ∀ id, manifest.hypothesis.parentHypothesisId = some id →
    ∃ parent ∈ preregistrations, parent.hypothesis.hypothesisId = id ∧
      parent.hypothesis.searchFamilyId = manifest.hypothesis.searchFamilyId

structure AreSeals (preregistrations : List PreregistrationManifest) (seals : List StoredSeal) :
    Prop where
  nodup : (seals.map (·.hypothesisId)).Nodup
  id_nodup : (seals.map (·.sealed.sealId)).Nodup
  sealed : ∀ row ∈ seals, ∃ manifest ∈ preregistrations,
    manifest.hypothesis.hypothesisId = row.hypothesisId ∧
      manifest.hypothesis.holdoutPeriodSealedRef = row.sealed

/-- The attempts, one for each branch of the search for a hypothesis. -/
structure AreAttempts (ctx : DayResearchContext) (ledger : DayResearchLedger) : Prop where
  nodup : (ledger.attempts.map (·.attemptId)).Nodup
  branch_nodup : (ledger.attempts.map fun row => (row.hypothesisId, row.branchIndex)).Nodup
  valid : ∀ attempt ∈ ledger.attempts, attempt.validateAttempt = true
  preregistered : ∀ attempt ∈ ledger.attempts, ∃ manifest,
    IsPreregistered ctx ledger attempt manifest

/-- The reveals, one for each search. -/
structure AreReveals (ledger : DayResearchLedger) : Prop where
  nodup : (ledger.holdoutReveals.map (·.reveal.hypothesisId)).Nodup
  family_nodup : (ledger.holdoutReveals.map (·.searchFamilyId)).Nodup
  revealed : ∀ row ∈ ledger.holdoutReveals, ∃ manifest, IsRevealed ledger row manifest

structure AreCapsules (ctx : DayResearchContext) (ledger : DayResearchLedger) : Prop where
  nodup : (ledger.capsules.map (·.capsuleId)).Nodup
  valid : ∀ capsule ∈ ledger.capsules, capsule.validateCapsule ctx.digests = true
  published : ∀ capsule ∈ ledger.capsules, ∃ binding version attempt manifest,
    IsPublished ctx ledger capsule binding version attempt manifest

structure IsLedger (ctx : DayResearchContext) (ledger : DayResearchLedger) : Prop where
  preregistrations : ArePreregistrations ctx ledger.preregistrations
  seals : AreSeals ledger.preregistrations ledger.holdoutSeals
  attempts : AreAttempts ctx ledger
  reveals : AreReveals ledger
  families : AreFamilies ctx ledger.families
  versions : AreVersions ctx ledger.families ledger.versions
  bindings : AreBindings ctx ledger
  capsules : AreCapsules ctx ledger

theorem IsLedger.isAudited (h : IsLedger ctx ledger) : IsAudited ctx ledger :=
  ⟨h.families, h.versions, h.bindings⟩

theorem isLedger_empty : IsLedger ctx {} := by
  refine ⟨⟨?_, ?_, ?_⟩, ⟨?_, ?_, ?_⟩, ⟨?_, ?_, ?_, ?_⟩, ⟨?_, ?_, ?_⟩, ⟨?_, ?_, ?_⟩, ⟨?_, ?_, ?_, ?_⟩,
    ⟨?_, ?_, ?_, ?_, ⟨?_, ?_⟩⟩, ⟨?_, ?_, ?_⟩⟩
  all_goals simp

/-! ## What stays -/

/-- Rows are only appended. -/
structure IsExtension (ledger next : DayResearchLedger) : Prop where
  preregistrations : ledger.preregistrations <+: next.preregistrations
  holdoutSeals : ledger.holdoutSeals <+: next.holdoutSeals
  attempts : ledger.attempts <+: next.attempts
  holdoutReveals : ledger.holdoutReveals <+: next.holdoutReveals
  families : ledger.families <+: next.families
  versions : ledger.versions <+: next.versions
  bindings : ledger.bindings <+: next.bindings
  capsules : ledger.capsules <+: next.capsules

namespace IsExtension

theorem refl (ledger : DayResearchLedger) : IsExtension ledger ledger :=
  ⟨List.prefix_rfl, List.prefix_rfl, List.prefix_rfl, List.prefix_rfl, List.prefix_rfl,
    List.prefix_rfl, List.prefix_rfl, List.prefix_rfl⟩

theorem trans {last : DayResearchLedger} (h : IsExtension ledger next)
    (h' : IsExtension next last) : IsExtension ledger last where
  preregistrations := h.preregistrations.trans h'.preregistrations
  holdoutSeals := h.holdoutSeals.trans h'.holdoutSeals
  attempts := h.attempts.trans h'.attempts
  holdoutReveals := h.holdoutReveals.trans h'.holdoutReveals
  families := h.families.trans h'.families
  versions := h.versions.trans h'.versions
  bindings := h.bindings.trans h'.bindings
  capsules := h.capsules.trans h'.capsules

end IsExtension

/-- If no key occurs twice in the end, what was the only row of a key stays so. -/
theorem filter_eq_singleton_of_append {α : Type} {rows more : List α} {column : α → String}
    {value : String} {row : α} (hnodup : (more.map column).Nodup) (hmore : rows <+: more)
    (h : rows.filter (fun r => column r = value) = [row]) :
    more.filter (fun r => column r = value) = [row] := by
  obtain ⟨hmem, rfl⟩ := eq_of_filter_eq_singleton h
  exact filter_key_eq_singleton hnodup (hmore.subset hmem)

/-- The tables that bindings rest on have each key once. -/
structure IsKeyed (ledger : DayResearchLedger) : Prop where
  preregistrations : (ledger.preregistrations.map (·.hypothesis.hypothesisId)).Nodup
  holdoutSeals : (ledger.holdoutSeals.map (·.hypothesisId)).Nodup
  attempts : (ledger.attempts.map (·.attemptId)).Nodup

theorem IsPreregistered.extend {attempt : ResearchAttempt} {manifest : PreregistrationManifest}
    (h : IsPreregistered ctx ledger attempt manifest) (hext : IsExtension ledger next)
    (hkeys : IsKeyed next) : IsPreregistered ctx next attempt manifest where
  row := filter_eq_singleton_of_append hkeys.preregistrations hext.preregistrations h.row
  valid := h.valid
  code := h.code
  data := h.data
  sealed := filter_eq_singleton_of_append hkeys.holdoutSeals hext.holdoutSeals h.sealed

theorem Rests.extend {binding : DayResearchAttemptBinding} {version : HypothesisVersion}
    {attempt : ResearchAttempt} {manifest : PreregistrationManifest}
    (h : Rests ctx ledger binding version attempt manifest) (hext : IsExtension ledger next)
    (hkeys : IsKeyed next) : Rests ctx next binding version attempt manifest where
  version_mem := hext.versions.subset h.version_mem
  version_id := h.version_id
  attempt_row := filter_eq_singleton_of_append hkeys.attempts hext.attempts h.attempt_row
  attempt_valid := h.attempt_valid
  preregistered := h.preregistered.extend hext hkeys
  matches_binding := h.matches_binding

theorem IsPublished.extend {capsule : StrategyCapsule} {binding : DayResearchAttemptBinding}
    {version : HypothesisVersion} {attempt : ResearchAttempt} {manifest : PreregistrationManifest}
    (h : IsPublished ctx ledger capsule binding version attempt manifest)
    (hext : IsExtension ledger next) (hkeys : IsKeyed next) :
    IsPublished ctx next capsule binding version attempt manifest :=
  { h with
    binding_mem := hext.bindings.subset h.binding_mem
    rests := h.rests.extend hext hkeys }

theorem IsRevealed.extend {row : StoredReveal} {manifest : PreregistrationManifest}
    (h : IsRevealed ledger row manifest) (hext : IsExtension ledger next) :
    IsRevealed next row manifest :=
  { h with
    manifest_mem := hext.preregistrations.subset h.manifest_mem
    sealed := hext.holdoutSeals.subset h.sealed }

/-! What holds of the rows of a table stays so while other tables grow. -/

theorem AreAttempts.extend (h : AreAttempts ctx ledger) (hext : IsExtension ledger next)
    (hkeys : IsKeyed next) (heq : next.attempts = ledger.attempts) : AreAttempts ctx next where
  nodup := heq ▸ h.nodup
  branch_nodup := heq ▸ h.branch_nodup
  valid := heq ▸ h.valid
  preregistered attempt hmem := by
    obtain ⟨manifest, hpre⟩ := h.preregistered attempt (heq ▸ hmem)
    exact ⟨manifest, hpre.extend hext hkeys⟩

theorem AreReveals.extend (h : AreReveals ledger) (hext : IsExtension ledger next)
    (heq : next.holdoutReveals = ledger.holdoutReveals) : AreReveals next where
  nodup := heq ▸ h.nodup
  family_nodup := heq ▸ h.family_nodup
  revealed row hmem := by
    obtain ⟨manifest, hrevealed⟩ := h.revealed row (heq ▸ hmem)
    exact ⟨manifest, hrevealed.extend hext⟩

theorem AreBindings.extend (h : AreBindings ctx ledger) (hext : IsExtension ledger next)
    (hkeys : IsKeyed next) (heq : next.bindings = ledger.bindings) : AreBindings ctx next where
  nodup := heq ▸ h.nodup
  attempt_nodup := heq ▸ h.attempt_nodup
  valid := heq ▸ h.valid
  rests binding hmem := by
    obtain ⟨version, attempt, manifest, hrests⟩ := h.rests binding (heq ▸ hmem)
    exact ⟨version, attempt, manifest, hrests.extend hext hkeys⟩
  budgeted := heq ▸ h.budgeted

theorem AreCapsules.extend (h : AreCapsules ctx ledger) (hext : IsExtension ledger next)
    (hkeys : IsKeyed next) (heq : next.capsules = ledger.capsules) : AreCapsules ctx next where
  nodup := heq ▸ h.nodup
  valid := heq ▸ h.valid
  published capsule hmem := by
    obtain ⟨binding, version, attempt, manifest, hpublished⟩ := h.published capsule (heq ▸ hmem)
    exact ⟨binding, version, attempt, manifest, hpublished.extend hext hkeys⟩

/-! ## Registration -/

theorem registerRecord_eq_ok {α : Type} [DecidableEq α] {identity : α → String}
    {isValid : α → Bool} {reason : String} {storedById : String → Except LedgerError (Option α)}
    {requireKnown requireNew : α → Except LedgerError Unit} {insert : α → DayResearchLedger}
    {record : α} :
    registerRecord identity isValid reason storedById requireKnown requireNew insert ledger record =
        .ok (b, next) ↔
      isHex64 (identity record) = true ∧ isValid record = true ∧
        (storedById (identity record) = .ok (some record) ∧ requireKnown record = .ok () ∧
            b = false ∧ next = ledger ∨
          storedById (identity record) = .ok none ∧ requireNew record = .ok () ∧ b = true ∧
            next = insert record) := by
  simp only [registerRecord, bind_eq_ok, raiseIf_eq_ok, Bool.not_eq_false]
  constructor
  · rintro ⟨_, hid, found, hfound, h⟩
    refine ⟨hid, ?_⟩
    cases found with
    | some existing =>
      obtain ⟨_, hvalid, _, hknown, _, hsame, h⟩ := by
        simpa only [bind_eq_ok, raiseIf_eq_ok, Bool.not_eq_false, not_not] using h
      cases h
      exact ⟨hvalid, .inl ⟨hsame ▸ hfound, hknown, rfl, rfl⟩⟩
    | none =>
      obtain ⟨_, hvalid, _, hnew, h⟩ := by
        simpa only [bind_eq_ok, raiseIf_eq_ok, Bool.not_eq_false] using h
      cases h
      exact ⟨hvalid, .inr ⟨hfound, hnew, rfl, rfl⟩⟩
  · rintro ⟨hid, hvalid, ⟨hfound, hknown, rfl, rfl⟩ | ⟨hfound, hnew, rfl, rfl⟩⟩
    · refine ⟨⟨⟩, hid, _, hfound, ?_⟩
      simp [raiseIf, hvalid, hknown, bind, Except.bind, pure, Except.pure]
    · refine ⟨⟨⟩, hid, _, hfound, ?_⟩
      simp [raiseIf, hvalid, hnew, bind, Except.bind, pure, Except.pure]

section Find

variable {α : Type} {rows : List α} {column : α → String} {row : α}

theorem find?_eq_some_iff_mem (hnodup : (rows.map column).Nodup) :
    rows.find? (fun r => column r = column row) = some row ↔ row ∈ rows :=
  ⟨List.mem_of_find?_eq_some, find?_key_of_mem hnodup⟩

theorem find?_eq_none_iff {value : String} :
    rows.find? (fun r => column r = value) = none ↔ ∀ r ∈ rows, column r ≠ value := by
  simp

end Find

/-! ### Families -/

theorem isHex64_familyId {family : HypothesisFamily}
    (h : family.validateFamily ctx.digests = true) : isHex64 family.familyId = true := by
  rw [HypothesisFamily.validateFamily, decide_eq_true_iff] at h
  exact h.1

theorem familyById_eq (h : AreFamilies ctx ledger.families) (id : String) :
    familyById ctx ledger id = .ok (ledger.families.find? fun row => row.familyId = id) :=
  rowBy_eq_find? h.nodup h.valid

/-- A family that may follow those that there are. -/
structure IsNewFamily (ctx : DayResearchContext) (ledger : DayResearchLedger)
    (family : HypothesisFamily) : Prop where
  id : ∀ row ∈ ledger.families, row.familyId ≠ family.familyId
  key : ∀ row ∈ ledger.families, ctx.familyKey row ≠ ctx.familyKey family
  parent : ∀ id, family.parentFamilyId = some id →
    ∃ parent ∈ ledger.families, parent.familyId = id ∧ parent.createdAt < family.createdAt

theorem requireFamilyParent_eq_ok (h : AreFamilies ctx ledger.families)
    {family : HypothesisFamily} {u : Unit} :
    requireFamilyParent ctx ledger family = .ok u ↔
      ∀ id, family.parentFamilyId = some id →
        ∃ parent ∈ ledger.families, parent.familyId = id ∧ parent.createdAt < family.createdAt := by
  rw [requireFamilyParent]
  cases hid : family.parentFamilyId with
  | none => simp
  | some id =>
    simp only [familyById_eq h, ok_bind, raiseIf_eq_ok]
    cases hfind : ledger.families.find? fun row => row.familyId = id with
    | none => simpa using fun row hrow hrow' => absurd hrow' (find?_eq_none_iff.1 hfind row hrow)
    | some parent =>
      obtain ⟨hmem, rfl⟩ := find?_key_eq_some hfind
      constructor
      · intro hlt _ hid'
        cases hid'
        exact ⟨parent, hmem, rfl, by simpa using hlt⟩
      · intro hparent
        obtain ⟨row, hrow, hid', hlt⟩ := hparent _ rfl
        rw [List.inj_on_of_nodup_map h.nodup hrow hmem hid'] at hlt
        simpa using hlt

theorem registerDayHypothesisFamily_eq_ok (h : AreFamilies ctx ledger.families)
    {family : HypothesisFamily} :
    registerDayHypothesisFamily ctx ledger family = .ok (b, next) ↔
      family.validateFamily ctx.digests = true ∧
        (family ∈ ledger.families ∧ b = false ∧ next = ledger ∨
          IsNewFamily ctx ledger family ∧ b = true ∧
            next = { ledger with families := ledger.families ++ [family] }) := by
  rw [registerDayHypothesisFamily, registerRecord_eq_ok, familyById_eq h]
  simp only [ok.injEq, find?_eq_some_iff_mem h.nodup, find?_eq_none_iff, bind_eq_ok,
    requireFamilyParent_eq_ok h, raiseIf_eq_ok, List.any_eq_true, not_exists, not_and,
    decide_eq_true_eq, true_and]
  constructor
  · rintro ⟨-, hvalid, hknown | ⟨hid, ⟨_, hparent, hkey⟩, hnext⟩⟩
    · exact ⟨hvalid, .inl hknown⟩
    · exact ⟨hvalid, .inr ⟨⟨hid, hkey, hparent⟩, hnext⟩⟩
  · rintro ⟨hvalid, hknown | ⟨hnew, hnext⟩⟩
    · exact ⟨isHex64_familyId hvalid, hvalid, .inl hknown⟩
    · exact ⟨isHex64_familyId hvalid, hvalid, .inr ⟨hnew.id, ⟨⟨⟩, hnew.parent, hnew.key⟩, hnext⟩⟩

theorem AreFamilies.concat (h : AreFamilies ctx ledger.families) {family : HypothesisFamily}
    (hvalid : family.validateFamily ctx.digests = true) (hnew : IsNewFamily ctx ledger family) :
    AreFamilies ctx (ledger.families ++ [family]) where
  nodup := nodup_map_concat h.nodup (find?_eq_none_iff.2 hnew.id)
  valid := List.forall_mem_append.2 ⟨h.valid, by simpa using hvalid⟩
  parent row hrow id hid := by
    have hparent : ∃ parent ∈ ledger.families,
        parent.familyId = id ∧ parent.createdAt < row.createdAt := by
      rcases List.mem_append.1 hrow with hrow | hrow
      · exact h.parent row hrow id hid
      · rw [List.mem_singleton.1 hrow] at hid ⊢
        exact hnew.parent id hid
    obtain ⟨parent, hmem, hparent⟩ := hparent
    exact ⟨parent, List.mem_append_left _ hmem, hparent⟩

/-- More families do no harm to the versions. -/
theorem AreVersions.mono {families more : List HypothesisFamily} {versions : List HypothesisVersion}
    (h : AreVersions ctx families versions) (hmore : families <+: more) :
    AreVersions ctx more versions :=
  { h with
    family := fun version hmem => by
      obtain ⟨family, hfamily, hid⟩ := h.family version hmem
      exact ⟨family, hmore.subset hfamily, hid⟩ }

theorem isLedger_family (h : IsLedger ctx ledger) {family : HypothesisFamily}
    (hvalid : family.validateFamily ctx.digests = true) (hnew : IsNewFamily ctx ledger family) :
    IsLedger ctx { ledger with families := ledger.families ++ [family] } :=
  have hext : IsExtension ledger { ledger with families := ledger.families ++ [family] } :=
    { IsExtension.refl ledger with families := List.prefix_append _ _ }
  have hkeys : IsKeyed { ledger with families := ledger.families ++ [family] } :=
    ⟨h.preregistrations.nodup, h.seals.nodup, h.attempts.nodup⟩
  { preregistrations := h.preregistrations
    seals := h.seals
    attempts := h.attempts.extend hext hkeys rfl
    reveals := h.reveals.extend hext rfl
    families := h.families.concat hvalid hnew
    versions := h.versions.mono hext.families
    bindings := h.bindings.extend hext hkeys rfl
    capsules := h.capsules.extend hext hkeys rfl }

/-! ### Versions -/

theorem isHex64_hypothesisVersionId {version : HypothesisVersion}
    (h : version.validateVersion ctx.digests = true) :
    isHex64 version.hypothesisVersionId = true := by
  rw [HypothesisVersion.validateVersion, decide_eq_true_iff] at h
  exact h.1

theorem versionById_eq (h : AreVersions ctx ledger.families ledger.versions) (id : String) :
    versionById ctx ledger id =
      .ok (ledger.versions.find? fun row => row.hypothesisVersionId = id) :=
  rowBy_eq_find? h.nodup h.valid

/-- A version that may follow those that there are. -/
structure IsNewVersion (ctx : DayResearchContext) (ledger : DayResearchLedger)
    (version : HypothesisVersion) : Prop where
  id : ∀ row ∈ ledger.versions, row.hypothesisVersionId ≠ version.hypothesisVersionId
  key : ∀ row ∈ ledger.versions, ctx.versionKey row ≠ ctx.versionKey version
  family : ∃ family ∈ ledger.families,
    family.familyId = version.familyId ∧ family.createdAt ≤ version.createdAt
  parent : ∀ id, version.parentVersionId = some id →
    ∃ parent ∈ ledger.versions, parent.hypothesisVersionId = id ∧ Precedes parent version

theorem requireVersionLineage_eq_ok (hfamilies : AreFamilies ctx ledger.families)
    (hversions : AreVersions ctx ledger.families ledger.versions) {version : HypothesisVersion}
    {u : Unit} :
    requireVersionLineage ctx ledger version = .ok u ↔
      (∃ family ∈ ledger.families,
        family.familyId = version.familyId ∧ family.createdAt ≤ version.createdAt) ∧
      ∀ id, version.parentVersionId = some id →
        ∃ parent ∈ ledger.versions, parent.hypothesisVersionId = id ∧ Precedes parent version := by
  simp only [requireVersionLineage, familyById_eq hfamilies, ok_bind, bind_eq_ok, raiseIf_eq_ok]
  refine (exists_const Unit).trans (and_congr ?_ ?_)
  · cases hfind : ledger.families.find? fun row => row.familyId = version.familyId with
    | none => simpa using fun row hrow hrow' => absurd hrow' (find?_eq_none_iff.1 hfind row hrow)
    | some family =>
      obtain ⟨hmem, hid⟩ := find?_key_eq_some hfind
      constructor
      · intro hle
        exact ⟨family, hmem, hid, by simpa using hle⟩
      · rintro ⟨row, hrow, hid', hle⟩
        rw [List.inj_on_of_nodup_map hfamilies.nodup hrow hmem (hid'.trans hid.symm)] at hle
        simpa using hle
  · cases hid : version.parentVersionId with
    | none => simp
    | some id =>
      simp only [versionById_eq hversions, ok_bind]
      cases hfind : ledger.versions.find? fun row => row.hypothesisVersionId = id with
      | none => simpa using fun row hrow hrow' => absurd hrow' (find?_eq_none_iff.1 hfind row hrow)
      | some parent =>
        obtain ⟨hmem, rfl⟩ := find?_key_eq_some hfind
        dsimp only
        rw [requireParentVersion_eq_ok]
        constructor
        · intro hprecedes _ hid'
          cases hid'
          exact ⟨parent, hmem, rfl, hprecedes⟩
        · intro hparent
          obtain ⟨row, hrow, hid', hprecedes⟩ := hparent _ rfl
          rwa [List.inj_on_of_nodup_map hversions.nodup hrow hmem hid'] at hprecedes

theorem registerDayHypothesisVersion_eq_ok (hfamilies : AreFamilies ctx ledger.families)
    (hversions : AreVersions ctx ledger.families ledger.versions) {version : HypothesisVersion} :
    registerDayHypothesisVersion ctx ledger version = .ok (b, next) ↔
      version.validateVersion ctx.digests = true ∧
        (version ∈ ledger.versions ∧ b = false ∧ next = ledger ∨
          IsNewVersion ctx ledger version ∧ b = true ∧
            next = { ledger with versions := ledger.versions ++ [version] }) := by
  rw [registerDayHypothesisVersion, registerRecord_eq_ok, versionById_eq hversions]
  simp only [ok.injEq, find?_eq_some_iff_mem hversions.nodup, find?_eq_none_iff, bind_eq_ok,
    requireVersionLineage_eq_ok hfamilies hversions, raiseIf_eq_ok, List.any_eq_true, not_exists,
    not_and, decide_eq_true_eq, true_and]
  constructor
  · rintro ⟨-, hvalid, hknown | ⟨hid, ⟨_, ⟨hfamily, hparent⟩, hkey⟩, hnext⟩⟩
    · exact ⟨hvalid, .inl hknown⟩
    · exact ⟨hvalid, .inr ⟨⟨hid, hkey, hfamily, hparent⟩, hnext⟩⟩
  · rintro ⟨hvalid, hknown | ⟨hnew, hnext⟩⟩
    · exact ⟨isHex64_hypothesisVersionId hvalid, hvalid, .inl hknown⟩
    · exact ⟨isHex64_hypothesisVersionId hvalid, hvalid,
        .inr ⟨hnew.id, ⟨⟨⟩, ⟨hnew.family, hnew.parent⟩, hnew.key⟩, hnext⟩⟩

theorem AreVersions.concat (h : AreVersions ctx ledger.families ledger.versions)
    {version : HypothesisVersion} (hvalid : version.validateVersion ctx.digests = true)
    (hnew : IsNewVersion ctx ledger version) :
    AreVersions ctx ledger.families (ledger.versions ++ [version]) where
  nodup := nodup_map_concat h.nodup (find?_eq_none_iff.2 hnew.id)
  valid := List.forall_mem_append.2 ⟨h.valid, by simpa using hvalid⟩
  family := List.forall_mem_append.2 ⟨h.family, by simpa using hnew.family⟩
  parent row hrow id hid := by
    have hparent : ∃ parent ∈ ledger.versions,
        parent.hypothesisVersionId = id ∧ Precedes parent row := by
      rcases List.mem_append.1 hrow with hrow | hrow
      · exact h.parent row hrow id hid
      · rw [List.mem_singleton.1 hrow] at hid ⊢
        exact hnew.parent id hid
    obtain ⟨parent, hmem, hparent⟩ := hparent
    exact ⟨parent, List.mem_append_left _ hmem, hparent⟩

theorem isLedger_version (h : IsLedger ctx ledger) {version : HypothesisVersion}
    (hvalid : version.validateVersion ctx.digests = true) (hnew : IsNewVersion ctx ledger version) :
    IsLedger ctx { ledger with versions := ledger.versions ++ [version] } :=
  have hext : IsExtension ledger { ledger with versions := ledger.versions ++ [version] } :=
    { IsExtension.refl ledger with versions := List.prefix_append _ _ }
  have hkeys : IsKeyed { ledger with versions := ledger.versions ++ [version] } :=
    ⟨h.preregistrations.nodup, h.seals.nodup, h.attempts.nodup⟩
  { preregistrations := h.preregistrations
    seals := h.seals
    attempts := h.attempts.extend hext hkeys rfl
    reveals := h.reveals.extend hext rfl
    families := h.families
    versions := h.versions.concat hvalid hnew
    bindings := h.bindings.extend hext hkeys rfl
    capsules := h.capsules.extend hext hkeys rfl }

/-! ### Bindings -/

theorem isHex64_bindingId {binding : DayResearchAttemptBinding}
    (h : binding.validateBinding ctx.digests = true) : isHex64 binding.bindingId = true := by
  rw [DayResearchAttemptBinding.validateBinding, decide_eq_true_iff] at h
  exact h.1

theorem bindingById_eq (h : AreBindings ctx ledger) (id : String) :
    bindingById ctx ledger id = .ok (ledger.bindings.find? fun row => row.bindingId = id) :=
  rowBy_eq_find? h.nodup h.valid

theorem bindingByAttemptId_eq (h : AreBindings ctx ledger) (id : String) :
    bindingByAttemptId ctx ledger id = .ok (ledger.bindings.find? fun row => row.attemptId = id) :=
  rowBy_eq_find? h.attempt_nodup h.valid

/-- A binding that may follow those that there are. -/
structure IsNewBinding (ctx : DayResearchContext) (ledger : DayResearchLedger)
    (binding : DayResearchAttemptBinding) : Prop where
  id : ∀ row ∈ ledger.bindings, row.bindingId ≠ binding.bindingId
  attempt : ∀ row ∈ ledger.bindings, row.attemptId ≠ binding.attemptId
  rests : ∃ version attempt manifest, Rests ctx ledger binding version attempt manifest
  one : ∀ row ∈ ledger.bindings, row.budgetKey = binding.budgetKey →
    row.multipleTestingBudget = binding.multipleTestingBudget
  within : debited ledger.bindings binding.budgetKey + binding.searchBudgetDebit ≤
    binding.multipleTestingBudget

/-- The numbers of a list are all the same as a last one, if there is one of them. -/
theorem length_dedup_concat_eq_one {l : List ℤ} {n : ℤ} :
    (l ++ [n]).dedup.length = 1 ↔ ∀ m ∈ l, m = n := by
  constructor
  · intro h m hm
    obtain ⟨k, hk⟩ := List.length_eq_one_iff.1 h
    have hmem : ∀ x ∈ l ++ [n], x = k := fun x hx => by
      rw [← List.mem_singleton, ← hk, List.mem_dedup]
      exact hx
    rw [hmem m (List.mem_append_left _ hm), hmem n (by simp)]
  · intro h
    have hsubset : (l ++ [n]).dedup ⊆ [n] := by
      intro m hm
      rw [List.mem_dedup, List.mem_append] at hm
      exact hm.elim (fun hm => List.mem_singleton.2 (h m hm)) id
    have hle := ((List.nodup_dedup (l ++ [n])).subperm hsubset).length_le
    have hpos : 0 < (l ++ [n]).dedup.length :=
      List.length_pos_of_mem (List.mem_dedup.2 (List.mem_append_right l (List.mem_singleton_self n)))
    exact le_antisymm hle hpos

theorem requireAvailableSearchBudget_eq_ok (h : AreBindings ctx ledger)
    {binding : DayResearchAttemptBinding} {u : Unit} :
    requireAvailableSearchBudget ctx ledger binding = .ok u ↔
      (∀ row ∈ ledger.bindings, row.budgetKey = binding.budgetKey →
        row.multipleTestingBudget = binding.multipleTestingBudget) ∧
      debited ledger.bindings binding.budgetKey + binding.searchBudgetDebit ≤
        binding.multipleTestingBudget := by
  have hrows : (ledger.bindings.filter fun row => row.budgetKey = binding.budgetKey).mapM
      (storedBinding ctx) =
      .ok (ledger.bindings.filter fun row => row.budgetKey = binding.budgetKey) :=
    mapM_validatedRow_eq_ok.2 ⟨fun row hrow => h.valid row (List.mem_filter.1 hrow).1, rfl⟩
  rw [requireAvailableSearchBudget, hrows, ok_bind, raiseIf_eq_ok, not_or, not_not, not_lt,
    length_dedup_concat_eq_one, add_comm]
  refine and_congr ?_ Iff.rfl
  simp only [List.mem_map, List.mem_filter, decide_eq_true_eq]
  constructor
  · exact fun hall row hrow hkey => hall _ ⟨row, ⟨hrow, hkey⟩, rfl⟩
  · rintro hall _ ⟨row, ⟨hrow, hkey⟩, rfl⟩
    exact hall row hrow hkey

/-- The check of the coherence of a binding, without what it returns. -/
theorem requireCoherence_eq_ok (h : AreVersions ctx ledger.families ledger.versions)
    {binding : DayResearchAttemptBinding} {u : Unit} :
    (do let _ ← requireBindingParentCoherence ctx ledger (some ⟨ledger.families, ledger.versions⟩)
          binding) = Except.ok u ↔
      ∃ version attempt manifest, Rests ctx ledger binding version attempt manifest := by
  simp only [bind_eq_ok]
  constructor
  · rintro ⟨⟨version, attempt⟩, hcoherent, -⟩
    exact ⟨version, attempt, (requireBindingParentCoherence_eq_ok h.nodup).1 hcoherent⟩
  · rintro ⟨version, attempt, hrests⟩
    exact ⟨(version, attempt), (requireBindingParentCoherence_eq_ok h.nodup).2 hrests, rfl⟩

/-- A binding is written if no attempt is bound twice by it, it rests on what it names, and the
    budget of its search is not exceeded. -/
theorem registerDayResearchAttemptBindingAfterAudit_eq_ok (h : IsAudited ctx ledger)
    {binding : DayResearchAttemptBinding} :
    registerDayResearchAttemptBindingAfterAudit ctx ledger ⟨ledger.families, ledger.versions⟩
        binding = .ok (b, next) ↔
      binding.validateBinding ctx.digests = true ∧
        (binding ∈ ledger.bindings ∧ b = false ∧ next = ledger ∨
          IsNewBinding ctx ledger binding ∧ b = true ∧
            next = { ledger with bindings := ledger.bindings ++ [binding] }) := by
  rw [registerDayResearchAttemptBindingAfterAudit, registerRecord_eq_ok, bindingById_eq h.bindings,
    bindingByAttemptId_eq h.bindings, ok_bind]
  simp only [ok.injEq, find?_eq_some_iff_mem h.bindings.nodup, find?_eq_none_iff]
  constructor
  · rintro ⟨-, hvalid, ⟨hknown, -, hnext⟩ | ⟨hid, hnew, hnext⟩⟩
    · exact ⟨hvalid, .inl ⟨hknown, hnext⟩⟩
    · cases hfind : ledger.bindings.find? fun row => row.attemptId = binding.attemptId with
      | some row =>
        rw [hfind] at hnew
        obtain ⟨_, -, hconflict⟩ := bind_eq_ok.1 hnew
        cases hconflict
      | none =>
        rw [hfind] at hnew
        obtain ⟨⟨version, attempt⟩, hcoherent, hbudget⟩ := bind_eq_ok.1 hnew
        obtain ⟨hone, hwithin⟩ := (requireAvailableSearchBudget_eq_ok h.bindings).1 hbudget
        exact ⟨hvalid, .inr ⟨⟨hid, find?_eq_none_iff.1 hfind, ⟨version, attempt,
          (requireBindingParentCoherence_eq_ok h.versions.nodup).1 hcoherent⟩, hone, hwithin⟩,
          hnext⟩⟩
  · rintro ⟨hvalid, ⟨hknown, hnext⟩ | ⟨hnew, hnext⟩⟩
    · exact ⟨isHex64_bindingId hvalid, hvalid, .inl ⟨hknown,
        (requireCoherence_eq_ok h.versions).2 (h.bindings.rests binding hknown), hnext⟩⟩
    · obtain ⟨version, attempt, hrests⟩ := hnew.rests
      refine ⟨isHex64_bindingId hvalid, hvalid, .inr ⟨hnew.id, ?_, hnext⟩⟩
      rw [find?_eq_none_iff.2 hnew.attempt]
      exact bind_eq_ok.2 ⟨(version, attempt),
        (requireBindingParentCoherence_eq_ok h.versions.nodup).2 hrests,
        (requireAvailableSearchBudget_eq_ok h.bindings).2 ⟨hnew.one, hnew.within⟩⟩

theorem registerDayResearchAttemptBinding_eq (h : IsAudited ctx ledger)
    (binding : DayResearchAttemptBinding) :
    registerDayResearchAttemptBinding ctx ledger binding =
      registerDayResearchAttemptBindingAfterAudit ctx ledger ⟨ledger.families, ledger.versions⟩
        binding := by
  rw [registerDayResearchAttemptBinding, auditDayResearchAttemptBindings,
    storedBindingAudit_eq_ok.2 ⟨h, rfl⟩]
  rfl

theorem IsBudgeted.concat {bindings : List DayResearchAttemptBinding}
    {binding : DayResearchAttemptBinding} (h : IsBudgeted bindings)
    (hone : ∀ row ∈ bindings, row.budgetKey = binding.budgetKey →
      row.multipleTestingBudget = binding.multipleTestingBudget)
    (hwithin : debited bindings binding.budgetKey + binding.searchBudgetDebit ≤
      binding.multipleTestingBudget) : IsBudgeted (bindings ++ [binding]) where
  one := by
    intro a ha c hc hkey
    rcases List.mem_append.1 ha with ha | ha <;> rcases List.mem_append.1 hc with hc | hc
    · exact h.one a ha c hc hkey
    · rw [List.mem_singleton.1 hc] at hkey ⊢
      exact hone a ha hkey
    · rw [List.mem_singleton.1 ha] at hkey ⊢
      exact (hone c hc hkey.symm).symm
    · rw [List.mem_singleton.1 ha, List.mem_singleton.1 hc]
  within := by
    intro row hrow
    rw [debited_concat]
    split_ifs with hkey
    · -- A binding of the same search has the same budget.
      rw [← hkey]
      rcases List.mem_append.1 hrow with hrow | hrow
      · rw [hone row hrow hkey.symm]
        exact hwithin
      · rw [List.mem_singleton.1 hrow]
        exact hwithin
    · rcases List.mem_append.1 hrow with hrow | hrow
      · rw [add_zero]
        exact h.within row hrow
      · exact absurd (congrArg _ (List.mem_singleton.1 hrow).symm) hkey

theorem isLedger_binding (h : IsLedger ctx ledger) {binding : DayResearchAttemptBinding}
    (hvalid : binding.validateBinding ctx.digests = true) (hnew : IsNewBinding ctx ledger binding) :
    IsLedger ctx { ledger with bindings := ledger.bindings ++ [binding] } :=
  have hext : IsExtension ledger { ledger with bindings := ledger.bindings ++ [binding] } :=
    { IsExtension.refl ledger with bindings := List.prefix_append _ _ }
  have hkeys : IsKeyed { ledger with bindings := ledger.bindings ++ [binding] } :=
    ⟨h.preregistrations.nodup, h.seals.nodup, h.attempts.nodup⟩
  { preregistrations := h.preregistrations
    seals := h.seals
    attempts := h.attempts.extend hext hkeys rfl
    reveals := h.reveals.extend hext rfl
    families := h.families
    versions := h.versions
    bindings := {
      nodup := nodup_map_concat h.bindings.nodup (find?_eq_none_iff.2 hnew.id)
      attempt_nodup := nodup_map_concat h.bindings.attempt_nodup (find?_eq_none_iff.2 hnew.attempt)
      valid := List.forall_mem_append.2 ⟨h.bindings.valid, by simpa using hvalid⟩
      rests := by
        intro row hrow
        have hrests : ∃ version attempt manifest, Rests ctx ledger row version attempt manifest := by
          rcases List.mem_append.1 hrow with hrow | hrow
          · exact h.bindings.rests row hrow
          · rw [List.mem_singleton.1 hrow]
            exact hnew.rests
        obtain ⟨version, attempt, manifest, hrests⟩ := hrests
        exact ⟨version, attempt, manifest, hrests.extend hext hkeys⟩
      budgeted := h.bindings.budgeted.concat hnew.one hnew.within }
    capsules := h.capsules.extend hext hkeys rfl }

/-! ### Capsules -/

theorem isHex64_capsuleId {capsule : StrategyCapsule}
    (h : capsule.validateCapsule ctx.digests = true) : isHex64 capsule.capsuleId = true := by
  simp only [StrategyCapsule.validateCapsule, decide_eq_true_iff, List.all_cons,
    Bool.and_eq_true] at h
  exact h.2.1.1

theorem capsuleById_eq (h : AreCapsules ctx ledger) (id : String) :
    capsuleById ctx ledger id = .ok (ledger.capsules.find? fun row => row.capsuleId = id) :=
  rowBy_eq_find? h.nodup h.valid

theorem requireCapsuleParentCoherence_eq_ok (h : IsAudited ctx ledger) {capsule : StrategyCapsule}
    {u : Unit} :
    requireCapsuleParentCoherence ctx ledger
        (some ⟨ledger.bindings, ⟨ledger.families, ledger.versions⟩⟩) capsule = .ok u ↔
      ∃ binding version attempt manifest,
        IsPublished ctx ledger capsule binding version attempt manifest := by
  simp only [requireCapsuleParentCoherence, ok_bind, Option.map_some]
  constructor
  · intro hcoherent
    cases hversion : StoredDayResearchVersionGraph.version ⟨ledger.families, ledger.versions⟩
      capsule.hypothesisVersionId with
    | none => simp [hversion] at hcoherent
    | some version =>
      cases hbinding : dictGet (·.bindingId) ledger.bindings capsule.attemptBindingId with
      | none => simp [hversion, hbinding] at hcoherent
      | some binding =>
        rw [hversion, hbinding] at hcoherent
        obtain ⟨⟨version', attempt⟩, hrests, hcoherent⟩ := bind_eq_ok.1 hcoherent
        obtain ⟨_, hmarket, hprotocol⟩ := bind_eq_ok.1 hcoherent
        rw [requireSameMarket_eq_ok] at hmarket
        simp only [raiseIf_eq_ok, not_or, not_not, not_le] at hprotocol
        obtain ⟨hsucceeded, hid, -, hartifact, hcode, hcadence, hentry, hexit, hstop, hcost,
          hprotocol, hpublished⟩ := hprotocol
        obtain ⟨hmem, hversionId⟩ := (dictGet_eq_some_iff h.versions.nodup).1 hversion
        obtain ⟨hbindingMem, hbindingId⟩ := (dictGet_eq_some_iff h.bindings.nodup).1 hbinding
        obtain ⟨manifest, hrests⟩ :=
          (requireBindingParentCoherence_eq_ok h.versions.nodup).1 hrests
        -- The version of the capsule is that of the binding.
        have hsame : version' = version :=
          List.inj_on_of_nodup_map h.versions.nodup hrests.version_mem hmem
            (hrests.version_id.trans (hid.trans hversionId.symm))
        rw [hsame] at hrests
        exact ⟨binding, version, attempt, manifest, hbindingMem, hbindingId, hrests, hversionId,
          hmarket, hsucceeded, hartifact, hcode, hcadence, hentry, hexit, hstop, hcost, hprotocol,
          hpublished⟩
  · rintro ⟨binding, version, attempt, manifest, hpublished⟩
    have hversion : StoredDayResearchVersionGraph.version ⟨ledger.families, ledger.versions⟩
        capsule.hypothesisVersionId = some version :=
      (dictGet_eq_some_iff h.versions.nodup).2
        ⟨hpublished.rests.version_mem, hpublished.version_id⟩
    have hbinding : dictGet (·.bindingId) ledger.bindings capsule.attemptBindingId = some binding :=
      (dictGet_eq_some_iff h.bindings.nodup).2 ⟨hpublished.binding_mem, hpublished.binding_id⟩
    rw [hversion, hbinding]
    refine bind_eq_ok.2 ⟨(version, attempt),
      (requireBindingParentCoherence_eq_ok h.versions.nodup).2 ⟨manifest, hpublished.rests⟩, ?_⟩
    refine bind_eq_ok.2 ⟨⟨⟩, requireSameMarket_eq_ok.2 hpublished.market, ?_⟩
    simp only [raiseIf_eq_ok, not_or, not_not, not_le]
    exact ⟨hpublished.succeeded, hpublished.rests.version_id.symm.trans hpublished.version_id,
      hpublished.rests.matches_binding.market.symm.trans hpublished.market, hpublished.artifact,
      hpublished.code, hpublished.cadence, hpublished.entry, hpublished.exit, hpublished.stop,
      hpublished.cost, hpublished.protocol, hpublished.published⟩

/-- A capsule is written if it publishes an attempt that has succeeded. -/
theorem registerDayStrategyCapsule_eq_ok (h : IsLedger ctx ledger) {capsule : StrategyCapsule} :
    registerDayStrategyCapsule ctx ledger capsule = .ok (b, next) ↔
      capsule.validateCapsule ctx.digests = true ∧
        (capsule ∈ ledger.capsules ∧ b = false ∧ next = ledger ∨
          (∀ row ∈ ledger.capsules, row.capsuleId ≠ capsule.capsuleId) ∧
            (∃ binding version attempt manifest,
              IsPublished ctx ledger capsule binding version attempt manifest) ∧
            b = true ∧ next = { ledger with capsules := ledger.capsules ++ [capsule] }) := by
  rw [registerDayStrategyCapsule, bind_eq_ok]
  simp only [storedBindingAudit_eq_ok.2 ⟨h.isAudited, rfl⟩, ok_bind, registerRecord_eq_ok,
    capsuleById_eq h.capsules, requireCapsuleParentCoherence_eq_ok h.isAudited, ok.injEq,
    find?_eq_some_iff_mem h.capsules.nodup, find?_eq_none_iff]
  constructor
  · rintro ⟨_, -, -, hvalid, ⟨hknown, -, hnext⟩ | ⟨hid, hpublished, hnext⟩⟩
    · exact ⟨hvalid, .inl ⟨hknown, hnext⟩⟩
    · exact ⟨hvalid, .inr ⟨hid, hpublished, hnext⟩⟩
  · rintro ⟨hvalid, hcases⟩
    have hid := isHex64_capsuleId hvalid
    refine ⟨⟨⟩, by simpa using hid, hid, hvalid, ?_⟩
    rcases hcases with ⟨hknown, hnext⟩ | ⟨hnew, hpublished, hnext⟩
    · exact .inl ⟨hknown, h.capsules.published capsule hknown, hnext⟩
    · exact .inr ⟨hnew, hpublished, hnext⟩

theorem isLedger_capsule (h : IsLedger ctx ledger) {capsule : StrategyCapsule}
    (hvalid : capsule.validateCapsule ctx.digests = true)
    (hid : ∀ row ∈ ledger.capsules, row.capsuleId ≠ capsule.capsuleId)
    (hpublished : ∃ binding version attempt manifest,
      IsPublished ctx ledger capsule binding version attempt manifest) :
    IsLedger ctx { ledger with capsules := ledger.capsules ++ [capsule] } :=
  have hext : IsExtension ledger { ledger with capsules := ledger.capsules ++ [capsule] } :=
    { IsExtension.refl ledger with capsules := List.prefix_append _ _ }
  have hkeys : IsKeyed { ledger with capsules := ledger.capsules ++ [capsule] } :=
    ⟨h.preregistrations.nodup, h.seals.nodup, h.attempts.nodup⟩
  { preregistrations := h.preregistrations
    seals := h.seals
    attempts := h.attempts.extend hext hkeys rfl
    reveals := h.reveals.extend hext rfl
    families := h.families
    versions := h.versions
    bindings := h.bindings.extend hext hkeys rfl
    capsules := {
      nodup := nodup_map_concat h.capsules.nodup (find?_eq_none_iff.2 hid)
      valid := List.forall_mem_append.2 ⟨h.capsules.valid, by simpa using hvalid⟩
      published := by
        intro row hrow
        have hrow : ∃ binding version attempt manifest,
            IsPublished ctx ledger row binding version attempt manifest := by
          rcases List.mem_append.1 hrow with hrow | hrow
          · exact h.capsules.published row hrow
          · rw [List.mem_singleton.1 hrow]
            exact hpublished
        obtain ⟨binding, version, attempt, manifest, hrow⟩ := hrow
        exact ⟨binding, version, attempt, manifest, hrow.extend hext hkeys⟩ } }

end TradingAgent.DayResearch
