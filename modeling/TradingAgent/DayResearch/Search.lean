import TradingAgent.DayResearch.Registration

/-!
# Hypotheses, attempts and reveals

What the calls write that the day research shares with the other searches: the hypotheses that are
registered, with the seals of their holdout data (`registerPreregistration_cases`), the attempts that
are made for them (`appendAttempt_eq_ok`), and what is revealed of the holdouts
(`revealHoldout_eq_ok`).
-/

namespace TradingAgent.DayResearch

open Except Journal

variable {ctx : DayResearchContext} {ledger next : DayResearchLedger} {b : Bool}

/-! ## Hypotheses -/

/-- A hypothesis that may follow those that there are. -/
structure IsNewPreregistration (ctx : DayResearchContext) (ledger : DayResearchLedger)
    (manifest : PreregistrationManifest) : Prop where
  valid : manifest.validateManifest ctx = true
  id : ∀ row ∈ ledger.preregistrations,
    row.hypothesis.hypothesisId ≠ manifest.hypothesis.hypothesisId
  parent : ∀ id, manifest.hypothesis.parentHypothesisId = some id →
    ∃ parent ∈ ledger.preregistrations, parent.hypothesis.hypothesisId = id ∧
      parent.hypothesis.searchFamilyId = manifest.hypothesis.searchFamilyId

theorem preregistrationIsStored_eq_ok (h : ArePreregistrations ctx ledger.preregistrations)
    {manifest : PreregistrationManifest} :
    preregistrationIsStored ctx ledger manifest = .ok b ↔
      manifest.validateManifest ctx = true ∧ manifest ∈ ledger.preregistrations ∧ b = true ∨
        IsNewPreregistration ctx ledger manifest ∧ b = false := by
  simp only [preregistrationIsStored, bind_eq_ok, raiseIf_eq_ok, Bool.not_eq_false]
  cases hfind : ledger.preregistrations.find? fun row =>
    row.hypothesis.hypothesisId = manifest.hypothesis.hypothesisId with
  | some row =>
    obtain ⟨hmem, hid⟩ := find?_key_eq_some hfind
    simp only [bind_eq_ok, raiseIf_eq_ok, not_not, pure_eq_ok]
    constructor
    · rintro ⟨_, hvalid, _, rfl, rfl⟩
      exact .inl ⟨hvalid, hmem, rfl⟩
    · rintro (⟨hvalid, hmem', rfl⟩ | ⟨hnew, -⟩)
      · exact ⟨⟨⟩, hvalid, ⟨⟩, List.inj_on_of_nodup_map h.nodup hmem hmem' hid, rfl⟩
      · exact absurd hid (hnew.id row hmem)
  | none =>
    have hid := find?_eq_none_iff.1 hfind
    have hknown : manifest ∉ ledger.preregistrations := fun hmem => hid manifest hmem rfl
    cases hparent : manifest.hypothesis.parentHypothesisId with
    | none =>
      simp only [pure_eq_ok]
      constructor
      · rintro ⟨_, hvalid, rfl⟩
        exact .inr ⟨⟨hvalid, hid, by simp [hparent]⟩, rfl⟩
      · rintro (⟨-, hmem, -⟩ | ⟨hnew, rfl⟩)
        · exact absurd hmem hknown
        · exact ⟨⟨⟩, hnew.valid, rfl⟩
    | some parentId =>
      simp only [bind_eq_ok, raiseIf_eq_ok, not_not, pure_eq_ok, Option.map_eq_some_iff]
      constructor
      · rintro ⟨_, hvalid, _, ⟨parent, hfound, hfamily⟩, rfl⟩
        obtain ⟨hmem, hid'⟩ := find?_key_eq_some hfound
        refine .inr ⟨⟨hvalid, hid, fun id heq => ?_⟩, rfl⟩
        cases hparent.symm.trans heq
        exact ⟨parent, hmem, hid', hfamily⟩
      · rintro (⟨-, hmem, -⟩ | ⟨hnew, rfl⟩)
        · exact absurd hmem hknown
        · obtain ⟨parent, hmem, rfl, hfamily⟩ := hnew.parent parentId hparent
          exact ⟨⟨⟩, hnew.valid, ⟨⟩, ⟨parent, find?_key_of_mem h.nodup hmem, hfamily⟩, rfl⟩

/-- A hypothesis that is registered is there, or it is written with its seal, or its seal is refused,
    in which case the hypothesis alone is written. -/
theorem registerPreregistration_cases (h : ArePreregistrations ctx ledger.preregistrations)
    (manifest : PreregistrationManifest) :
    (∃ e, registerPreregistration ctx ledger manifest = (.error e, ledger)) ∨
      (manifest.validateManifest ctx = true ∧ manifest ∈ ledger.preregistrations ∧
        registerPreregistration ctx ledger manifest = (.ok false, ledger)) ∨
      IsNewPreregistration ctx ledger manifest ∧
        ((∃ e, registerPreregistration ctx ledger manifest =
            (.error e, { ledger with
              preregistrations := ledger.preregistrations ++ [manifest] })) ∨
          (∀ row ∈ ledger.holdoutSeals,
            row.hypothesisId ≠ manifest.hypothesis.hypothesisId ∧
              row.sealed.sealId ≠ manifest.hypothesis.holdoutPeriodSealedRef.sealId) ∧
            registerPreregistration ctx ledger manifest =
              (.ok true, { ledger with
                preregistrations := ledger.preregistrations ++ [manifest]
                holdoutSeals := ledger.holdoutSeals ++ [manifest.storedSeal] })) := by
  rw [registerPreregistration]
  cases hstored : preregistrationIsStored ctx ledger manifest with
  | error e => exact .inl ⟨e, rfl⟩
  | ok stored =>
    cases stored with
    | true =>
      rcases (preregistrationIsStored_eq_ok h).1 hstored with ⟨hvalid, hmem, -⟩ | ⟨-, hfalse⟩
      · exact .inr (.inl ⟨hvalid, hmem, rfl⟩)
      · cases hfalse
    | false =>
      rcases (preregistrationIsStored_eq_ok h).1 hstored with ⟨-, -, hfalse⟩ | ⟨hnew, -⟩
      · cases hfalse
      dsimp only
      split_ifs with hkey hseal
      · exact .inl ⟨_, rfl⟩
      · exact .inr (.inr ⟨hnew, .inl ⟨_, rfl⟩⟩)
      · refine .inr (.inr ⟨hnew, .inr ⟨fun row hrow => ?_, rfl⟩⟩)
        rw [List.any_eq_true] at hseal
        constructor
        · exact fun heq => hseal ⟨row, hrow, by simp [heq]⟩
        · exact fun heq => hseal ⟨row, hrow, by simp [heq]⟩

theorem ArePreregistrations.concat (h : ArePreregistrations ctx ledger.preregistrations)
    {manifest : PreregistrationManifest} (hnew : IsNewPreregistration ctx ledger manifest) :
    ArePreregistrations ctx (ledger.preregistrations ++ [manifest]) where
  nodup := nodup_map_concat h.nodup (find?_eq_none_iff.2 hnew.id)
  valid := List.forall_mem_append.2 ⟨h.valid, by simpa using hnew.valid⟩
  parent row hrow id hid := by
    have hparent : ∃ parent ∈ ledger.preregistrations, parent.hypothesis.hypothesisId = id ∧
        parent.hypothesis.searchFamilyId = row.hypothesis.searchFamilyId := by
      rcases List.mem_append.1 hrow with hrow | hrow
      · exact h.parent row hrow id hid
      · rw [List.mem_singleton.1 hrow] at hid ⊢
        exact hnew.parent id hid
    obtain ⟨parent, hmem, hparent⟩ := hparent
    exact ⟨parent, List.mem_append_left _ hmem, hparent⟩

/-- More hypotheses do no harm to the seals. -/
theorem AreSeals.mono {preregistrations more : List PreregistrationManifest}
    {seals : List StoredSeal} (h : AreSeals preregistrations seals)
    (hmore : preregistrations <+: more) : AreSeals more seals :=
  { h with
    sealed := fun row hrow => by
      obtain ⟨manifest, hmem, hsealed⟩ := h.sealed row hrow
      exact ⟨manifest, hmore.subset hmem, hsealed⟩ }

/-- A hypothesis that is written, with the seals as they are after it. -/
theorem isLedger_preregistration (h : IsLedger ctx ledger) {manifest : PreregistrationManifest}
    (hnew : IsNewPreregistration ctx ledger manifest) {seals : List StoredSeal}
    (hseals_mono : ledger.holdoutSeals <+: seals)
    (hseals : AreSeals (ledger.preregistrations ++ [manifest]) seals) :
    IsLedger ctx { ledger with
      preregistrations := ledger.preregistrations ++ [manifest]
      holdoutSeals := seals } :=
  have hext : IsExtension ledger { ledger with
      preregistrations := ledger.preregistrations ++ [manifest]
      holdoutSeals := seals } :=
    { IsExtension.refl ledger with
      preregistrations := List.prefix_append _ _
      holdoutSeals := hseals_mono }
  have hmanifests := h.preregistrations.concat hnew
  have hkeys : IsKeyed { ledger with
      preregistrations := ledger.preregistrations ++ [manifest]
      holdoutSeals := seals } :=
    ⟨hmanifests.nodup, hseals.nodup, h.attempts.nodup⟩
  { preregistrations := hmanifests
    seals := hseals
    attempts := h.attempts.extend hext hkeys rfl
    reveals := h.reveals.extend hext rfl
    families := h.families
    versions := h.versions
    bindings := h.bindings.extend hext hkeys rfl
    capsules := h.capsules.extend hext hkeys rfl }

theorem AreSeals.concat (h : AreSeals ledger.preregistrations ledger.holdoutSeals)
    {manifest : PreregistrationManifest}
    (hnew : ∀ row ∈ ledger.holdoutSeals, row.hypothesisId ≠ manifest.hypothesis.hypothesisId ∧
      row.sealed.sealId ≠ manifest.hypothesis.holdoutPeriodSealedRef.sealId) :
    AreSeals (ledger.preregistrations ++ [manifest])
      (ledger.holdoutSeals ++ [manifest.storedSeal]) where
  nodup := nodup_map_concat h.nodup (find?_eq_none_iff.2 fun row hrow => (hnew row hrow).1)
  id_nodup := nodup_map_concat h.id_nodup (find?_eq_none_iff.2 fun row hrow => (hnew row hrow).2)
  sealed := List.forall_mem_append.2 ⟨(h.mono (List.prefix_append _ _)).sealed,
    by simp [PreregistrationManifest.storedSeal]⟩

/-! ## Attempts -/

/-- An attempt that may follow those that there are. -/
structure IsNewAttempt (ctx : DayResearchContext) (ledger : DayResearchLedger)
    (attempt : ResearchAttempt) : Prop where
  id : ∀ row ∈ ledger.attempts, row.attemptId ≠ attempt.attemptId
  key : ∀ row ∈ ledger.attempts, ctx.attemptSha256 row ≠ ctx.attemptSha256 attempt
  branch : ∀ row ∈ ledger.attempts,
    (row.hypothesisId, row.branchIndex) ≠ (attempt.hypothesisId, attempt.branchIndex)

/-- An attempt has been made for a hypothesis exactly if this is registered and sealed. -/
theorem isPreregistered_iff (h : IsLedger ctx ledger) {attempt : ResearchAttempt}
    {manifest : PreregistrationManifest} :
    IsPreregistered ctx ledger attempt manifest ↔
      manifest ∈ ledger.preregistrations ∧
        manifest.hypothesis.hypothesisId = attempt.hypothesisId ∧
        attempt.codeSha256 = manifest.hypothesis.codeSha256 ∧
        attempt.dataManifestSha256 = manifest.hypothesis.dataManifestSha256 ∧
        ∃ row ∈ ledger.holdoutSeals, row.hypothesisId = attempt.hypothesisId := by
  constructor
  · intro hpre
    obtain ⟨hmem, hid⟩ := eq_of_filter_eq_singleton hpre.row
    obtain ⟨hseal, -⟩ := eq_of_filter_eq_singleton hpre.sealed
    exact ⟨hmem, hid, hpre.code, hpre.data, _, hseal, rfl⟩
  · rintro ⟨hmem, hid, hcode, hdata, row, hrow, hrowId⟩
    refine ⟨?_, h.preregistrations.valid manifest hmem, hcode, hdata, ?_⟩
    · rw [← hid]
      exact filter_key_eq_singleton h.preregistrations.nodup hmem
    · obtain ⟨manifest', hmem', hid', hsealed⟩ := h.seals.sealed row hrow
      have hsame : manifest' = manifest :=
        List.inj_on_of_nodup_map h.preregistrations.nodup hmem' hmem
          (hid'.trans (hrowId.trans hid.symm))
      rw [← hrowId, filter_key_eq_singleton h.seals.nodup hrow, ← hsame, hsealed]

theorem appendAttempt_eq_ok (h : IsLedger ctx ledger) {attempt : ResearchAttempt} :
    appendAttempt ctx ledger attempt = .ok (b, next) ↔
      attempt.validateAttempt = true ∧ (∃ manifest, IsPreregistered ctx ledger attempt manifest) ∧
        (attempt ∈ ledger.attempts ∧ b = false ∧ next = ledger ∨
          IsNewAttempt ctx ledger attempt ∧ b = true ∧
            next = { ledger with attempts := ledger.attempts ++ [attempt] }) := by
  rw [appendAttempt, bind_eq_ok]
  constructor
  · rintro ⟨_, hvalid, h'⟩
    refine ⟨by simpa using hvalid, ?_⟩
    cases hfind : ledger.preregistrations.find? fun row =>
      row.hypothesis.hypothesisId = attempt.hypothesisId with
    | none => simp [hfind] at h'
    | some manifest =>
      rw [hfind] at h'
      obtain ⟨_, hseal, h'⟩ := bind_eq_ok.1 h'
      obtain ⟨_, -, h'⟩ := bind_eq_ok.1 h'
      obtain ⟨_, hcode, h'⟩ := bind_eq_ok.1 h'
      obtain ⟨hmem, hid⟩ := find?_key_eq_some hfind
      rw [raiseIf_eq_ok, not_or, not_not, not_not] at hcode
      have hsealed : ∃ row ∈ ledger.holdoutSeals, row.hypothesisId = attempt.hypothesisId := by
        simpa using hseal
      refine ⟨⟨manifest, (isPreregistered_iff h).2 ⟨hmem, hid, hcode.1, hcode.2, hsealed⟩⟩, ?_⟩
      cases hattempt : ledger.attempts.find? fun row => row.attemptId = attempt.attemptId with
      | some row =>
        rw [hattempt] at h'
        obtain ⟨_, hsame, h'⟩ := bind_eq_ok.1 h'
        cases h'
        rw [raiseIf_eq_ok, not_not] at hsame
        exact .inl ⟨hsame ▸ List.mem_of_find?_eq_some hattempt, rfl, rfl⟩
      | none =>
        rw [hattempt] at h'
        obtain ⟨_, hnew, h'⟩ := bind_eq_ok.1 h'
        cases h'
        rw [raiseIf_eq_ok, List.any_eq_true, not_exists] at hnew
        refine .inr ⟨⟨find?_eq_none_iff.1 hattempt, fun row hrow heq => ?_, fun row hrow heq => ?_⟩,
          rfl, rfl⟩
        · exact hnew row ⟨hrow, by simp [heq]⟩
        · obtain ⟨hhypothesis, hbranch⟩ := Prod.mk.inj heq
          exact hnew row ⟨hrow, by simp [hhypothesis, hbranch]⟩
  · rintro ⟨hvalid, ⟨manifest, hpre⟩, hcases⟩
    obtain ⟨hmem, hid, hcode, hdata, row, hrow, hrowId⟩ := (isPreregistered_iff h).1 hpre
    refine ⟨⟨⟩, by simpa using hvalid, ?_⟩
    have hfind : (ledger.preregistrations.find? fun row =>
        row.hypothesis.hypothesisId = attempt.hypothesisId) = some manifest :=
      hid ▸ find?_key_of_mem h.preregistrations.nodup hmem
    rw [hfind]
    refine bind_eq_ok.2 ⟨⟨⟩, ?_, bind_eq_ok.2 ⟨⟨⟩, by simpa using hpre.valid,
      bind_eq_ok.2 ⟨⟨⟩, by simp [hcode, hdata], ?_⟩⟩⟩
    · simpa using ⟨row, hrow, hrowId⟩
    rcases hcases with ⟨hknown, rfl, rfl⟩ | ⟨hnew, rfl, rfl⟩
    · rw [find?_key_of_mem h.attempts.nodup hknown]
      exact bind_eq_ok.2 ⟨⟨⟩, by simp, rfl⟩
    · rw [find?_eq_none_iff.2 hnew.id]
      refine bind_eq_ok.2 ⟨⟨⟩, ?_, rfl⟩
      rw [raiseIf_eq_ok, List.any_eq_true, not_exists]
      rintro a ⟨ha, heq⟩
      rcases of_decide_eq_true heq with hkey | ⟨hhypothesis, hbranch⟩
      · exact hnew.key a ha hkey
      · exact hnew.branch a ha (Prod.ext hhypothesis hbranch)

theorem isLedger_attempt (h : IsLedger ctx ledger) {attempt : ResearchAttempt}
    (hvalid : attempt.validateAttempt = true)
    (hpre : ∃ manifest, IsPreregistered ctx ledger attempt manifest)
    (hnew : IsNewAttempt ctx ledger attempt) :
    IsLedger ctx { ledger with attempts := ledger.attempts ++ [attempt] } :=
  have hext : IsExtension ledger { ledger with attempts := ledger.attempts ++ [attempt] } :=
    { IsExtension.refl ledger with attempts := List.prefix_append _ _ }
  have hnodup := nodup_map_concat h.attempts.nodup (find?_eq_none_iff.2 hnew.id)
  have hkeys : IsKeyed { ledger with attempts := ledger.attempts ++ [attempt] } :=
    ⟨h.preregistrations.nodup, h.seals.nodup, hnodup⟩
  { preregistrations := h.preregistrations
    seals := h.seals
    attempts := {
      nodup := hnodup
      branch_nodup := nodup_map_concat h.attempts.branch_nodup (by simpa using hnew.branch)
      valid := List.forall_mem_append.2 ⟨h.attempts.valid, by simpa using hvalid⟩
      preregistered := by
        intro row hrow
        have hrow : ∃ manifest, IsPreregistered ctx ledger row manifest := by
          rcases List.mem_append.1 hrow with hrow | hrow
          · exact h.attempts.preregistered row hrow
          · rw [List.mem_singleton.1 hrow]
            exact hpre
        obtain ⟨manifest, hrow⟩ := hrow
        exact ⟨manifest, hrow.extend hext hkeys⟩ }
    reveals := h.reveals.extend hext rfl
    families := h.families
    versions := h.versions
    bindings := h.bindings.extend hext hkeys rfl
    capsules := h.capsules.extend hext hkeys rfl }

/-! ## Reveals -/

/-- A reveal that may follow those that there are. -/
structure IsNewReveal (ctx : DayResearchContext) (ledger : DayResearchLedger)
    (row : StoredReveal) : Prop where
  hypothesis : ∀ r ∈ ledger.holdoutReveals, r.reveal.hypothesisId ≠ row.reveal.hypothesisId
  key : ∀ r ∈ ledger.holdoutReveals, ctx.revealSha256 r.reveal ≠ ctx.revealSha256 row.reveal
  id : ∀ r ∈ ledger.holdoutReveals, r.reveal.revealId ≠ row.reveal.revealId
  family : ∀ r ∈ ledger.holdoutReveals, r.searchFamilyId ≠ row.searchFamilyId
  sealId : ∀ r ∈ ledger.holdoutReveals, r.reveal.sealId ≠ row.reveal.sealId

/-- What is sealed under a hypothesis is the seal of that hypothesis. -/
theorem AreSeals.eq_storedSeal (h : AreSeals ledger.preregistrations ledger.holdoutSeals)
    (hnodup : (ledger.preregistrations.map (·.hypothesis.hypothesisId)).Nodup)
    {row : StoredSeal} {manifest : PreregistrationManifest} (hrow : row ∈ ledger.holdoutSeals)
    (hmem : manifest ∈ ledger.preregistrations)
    (hid : row.hypothesisId = manifest.hypothesis.hypothesisId) : row = manifest.storedSeal := by
  obtain ⟨manifest', hmem', hid', hsealed⟩ := h.sealed row hrow
  obtain rfl : manifest' = manifest := List.inj_on_of_nodup_map hnodup hmem' hmem (hid'.trans hid)
  cases row
  simp_all [PreregistrationManifest.storedSeal]

theorem revealHoldout_eq_ok (h : IsLedger ctx ledger) {reveal : HoldoutReveal} :
    revealHoldout ctx ledger reveal = .ok (b, next) ↔
      reveal.validateReveal = true ∧ ∃ row manifest, row.reveal = reveal ∧
        IsRevealed ledger row manifest ∧ IsNewReveal ctx ledger row ∧ b = true ∧
          next = { ledger with holdoutReveals := ledger.holdoutReveals ++ [row] } := by
  rw [revealHoldout, bind_eq_ok]
  constructor
  · rintro ⟨_, hvalid, h'⟩
    refine ⟨by simpa using hvalid, ?_⟩
    cases hseal : ledger.holdoutSeals.find? fun row => row.hypothesisId = reveal.hypothesisId with
    | none => simp [hseal] at h'
    | some row =>
      cases hfind : ledger.preregistrations.find? fun row =>
        row.hypothesis.hypothesisId = reveal.hypothesisId with
      | none => simp [hseal, hfind] at h'
      | some manifest =>
        rw [hseal, hfind] at h'
        obtain ⟨_, hmatches, h'⟩ := bind_eq_ok.1 h'
        obtain ⟨_, hhypothesis, h'⟩ := bind_eq_ok.1 h'
        obtain ⟨_, hnew, h'⟩ := bind_eq_ok.1 h'
        cases h'
        obtain ⟨hrow, hrowId⟩ := find?_key_eq_some hseal
        obtain ⟨hmem, hid⟩ := find?_key_eq_some hfind
        obtain rfl := h.seals.eq_storedSeal h.preregistrations.nodup hrow hmem
          (hrowId.trans hid.symm)
        simp only [raiseIf_eq_ok, not_or, not_not] at hmatches
        simp only [raiseIf_eq_ok, List.any_eq_true, not_exists, not_and, decide_eq_true_eq,
          not_or] at hhypothesis hnew
        refine ⟨⟨reveal, manifest.hypothesis.searchFamilyId⟩, manifest, rfl,
          ⟨hmem, hrow, hid, rfl, hmatches.1, hmatches.2.1, hmatches.2.2⟩, ⟨hhypothesis, ?_, ?_, ?_, ?_⟩,
          rfl, rfl⟩
        · exact fun r hr => (hnew r hr).1
        · exact fun r hr => (hnew r hr).2.1
        · exact fun r hr => (hnew r hr).2.2.1
        · exact fun r hr => (hnew r hr).2.2.2
  · rintro ⟨hvalid, ⟨reveal, family⟩, manifest, rfl, hrevealed, hnew, rfl, rfl⟩
    obtain rfl := hrevealed.family
    have hseal : (ledger.holdoutSeals.find? fun row => row.hypothesisId = reveal.hypothesisId) =
        some manifest.storedSeal := by
      rw [← hrevealed.hypothesis]
      exact find?_key_of_mem h.seals.nodup hrevealed.sealed
    have hfind : (ledger.preregistrations.find? fun row =>
        row.hypothesis.hypothesisId = reveal.hypothesisId) = some manifest := by
      rw [← hrevealed.hypothesis]
      exact find?_key_of_mem h.preregistrations.nodup hrevealed.manifest_mem
    refine ⟨⟨⟩, by simpa using hvalid, ?_⟩
    rw [hseal, hfind]
    refine bind_eq_ok.2 ⟨⟨⟩, ?_, bind_eq_ok.2 ⟨⟨⟩, ?_, bind_eq_ok.2 ⟨⟨⟩, ?_, rfl⟩⟩⟩
    · simp only [raiseIf_eq_ok, not_or, not_not]
      exact ⟨hrevealed.sealId, hrevealed.commitment, hrevealed.owner⟩
    · simp only [raiseIf_eq_ok, List.any_eq_true, not_exists, not_and, decide_eq_true_eq]
      exact hnew.hypothesis
    · simp only [raiseIf_eq_ok, List.any_eq_true, not_exists, not_and, decide_eq_true_eq, not_or]
      exact fun r hr => ⟨hnew.key r hr, hnew.id r hr, hnew.family r hr, hnew.sealId r hr⟩

theorem isLedger_reveal (h : IsLedger ctx ledger) {row : StoredReveal}
    {manifest : PreregistrationManifest} (hrevealed : IsRevealed ledger row manifest)
    (hnew : IsNewReveal ctx ledger row) :
    IsLedger ctx { ledger with holdoutReveals := ledger.holdoutReveals ++ [row] } :=
  have hext : IsExtension ledger { ledger with
      holdoutReveals := ledger.holdoutReveals ++ [row] } :=
    { IsExtension.refl ledger with holdoutReveals := List.prefix_append _ _ }
  have hkeys : IsKeyed { ledger with holdoutReveals := ledger.holdoutReveals ++ [row] } :=
    ⟨h.preregistrations.nodup, h.seals.nodup, h.attempts.nodup⟩
  { preregistrations := h.preregistrations
    seals := h.seals
    attempts := h.attempts.extend hext hkeys rfl
    reveals := {
      nodup := nodup_map_concat h.reveals.nodup (find?_eq_none_iff.2 hnew.hypothesis)
      family_nodup := nodup_map_concat h.reveals.family_nodup (find?_eq_none_iff.2 hnew.family)
      revealed := by
        intro r hr
        have hr : ∃ manifest, IsRevealed ledger r manifest := by
          rcases List.mem_append.1 hr with hr | hr
          · exact h.reveals.revealed r hr
          · rw [List.mem_singleton.1 hr]
            exact ⟨manifest, hrevealed⟩
        obtain ⟨manifest, hr⟩ := hr
        exact ⟨manifest, hr.extend hext⟩ }
    families := h.families
    versions := h.versions
    bindings := h.bindings.extend hext hkeys rfl
    capsules := h.capsules.extend hext hkeys rfl }

end TradingAgent.DayResearch
