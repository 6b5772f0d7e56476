import TradingAgent.DayResearch.Models
import TradingAgent.Library.Ancestry
import TradingAgent.Library.Fold
import TradingAgent.Library.Journal
import TradingAgent.Library.Table

/-!
# The ledger of the day research

* The tables of the experiment ledger that the day research writes and reads (`DayResearchLedger`).
  They are only appended to, and the keys and the constraints of the tables may refuse a row.
* What is read is checked again: each row, the lineages of the families and of the versions
  (`storedDayResearchVersionGraph`), and of each binding of an attempt to a version that both are
  there, that they match, and that the search budgets were kept (`storedBindingAudit`).
* A record is registered under its identity once (`registerRecord`). Registering it again changes
  nothing, and another record with this identity is a conflict.
-/

namespace TradingAgent.DayResearch

open Except

inductive LedgerError
  | conflict
  | invalidSource (reason : String)
  | strategyResearch (reason : String)
  deriving DecidableEq, Repr

/-- The seal of the holdout data of a hypothesis. -/
structure StoredSeal where
  hypothesisId : String
  sealed : SealedHoldoutRef
  deriving DecidableEq, Repr

/-- A reveal of holdout data, under the family of the search that the hypothesis belongs to. -/
structure StoredReveal where
  reveal : HoldoutReveal
  searchFamilyId : String
  deriving DecidableEq, Repr

/-- The rows of the tables, in the order in which they were written. A row stands for the JSON text
    that it holds: its other columns are copies of fields of the record. -/
structure DayResearchLedger where
  preregistrations : List PreregistrationManifest := []
  holdoutSeals : List StoredSeal := []
  attempts : List ResearchAttempt := []
  holdoutReveals : List StoredReveal := []
  families : List HypothesisFamily := []
  versions : List HypothesisVersion := []
  bindings : List DayResearchAttemptBinding := []
  capsules : List StrategyCapsule := []
  deriving DecidableEq, Repr

/-- What the ledger depends on, apart from its tables: the digests, the keys of the rows, and what
    is validated of a manifest besides the fields that the ledger reads. -/
structure DayResearchContext where
  digests : Digests
  familyKey : HypothesisFamily → String
  versionKey : HypothesisVersion → String
  manifestSha256 : PreregistrationManifest → String
  attemptSha256 : ResearchAttempt → String
  revealSha256 : HoldoutReveal → String
  restIsValid : PreregistrationManifest → Bool

variable (ctx : DayResearchContext)

def PreregistrationManifest.validateManifest (manifest : PreregistrationManifest) : Bool :=
  manifest.hypothesis.hypothesisId ≠ "" ∧ manifest.hypothesis.searchFamilyId ≠ "" ∧
    manifest.hypothesis.multipleTestingFamily ≠ "" ∧
    manifest.hypothesis.holdoutPeriodSealedRef.validateSeal ∧
    isHex64 manifest.hypothesis.codeSha256 ∧ isHex64 manifest.hypothesis.dataManifestSha256 ∧
    isHex64 manifest.hypothesisSha256 ∧ manifest.preregisteredAt.aware ∧ ctx.restIsValid manifest

/-! ## Reading -/

section Reading

variable {α : Type}

/-- A row that is read is validated. -/
def validatedRow (isValid : α → Bool) (reason : String) (row : α) : Except LedgerError α := do
  raiseIf (isValid row = false) (.invalidSource reason)
  return row

/-- The row that a column selects, if there is one. -/
def rowBy (column : α → String) (stored : α → Except LedgerError α) (duplicate : String)
    (rows : List α) (value : String) : Except LedgerError (Option α) :=
  match rows.filter fun row => column row = value with
  | [] => .ok none
  | [row] => do return some (← stored row)
  | _ => .error (.invalidSource duplicate)

end Reading

def storedFamily : HypothesisFamily → Except LedgerError HypothesisFamily :=
  validatedRow (·.validateFamily ctx.digests) "stored_day_family_payload_invalid"

def storedVersion : HypothesisVersion → Except LedgerError HypothesisVersion :=
  validatedRow (·.validateVersion ctx.digests) "stored_day_version_payload_invalid"

def storedBinding : DayResearchAttemptBinding → Except LedgerError DayResearchAttemptBinding :=
  validatedRow (·.validateBinding ctx.digests) "stored_day_attempt_binding_payload_invalid"

def storedCapsule : StrategyCapsule → Except LedgerError StrategyCapsule :=
  validatedRow (·.validateCapsule ctx.digests) "stored_day_capsule_payload_invalid"

def familyById (ledger : DayResearchLedger) :
    String → Except LedgerError (Option HypothesisFamily) :=
  rowBy (·.familyId) (storedFamily ctx) "stored_day_family_identity_duplicate" ledger.families

def versionById (ledger : DayResearchLedger) :
    String → Except LedgerError (Option HypothesisVersion) :=
  rowBy (·.hypothesisVersionId) (storedVersion ctx) "stored_day_version_identity_duplicate"
    ledger.versions

def bindingById (ledger : DayResearchLedger) :
    String → Except LedgerError (Option DayResearchAttemptBinding) :=
  rowBy (·.bindingId) (storedBinding ctx) "stored_day_attempt_binding_identity_duplicate"
    ledger.bindings

def bindingByAttemptId (ledger : DayResearchLedger) :
    String → Except LedgerError (Option DayResearchAttemptBinding) :=
  rowBy (·.attemptId) (storedBinding ctx) "stored_day_attempt_binding_attempt_duplicate"
    ledger.bindings

def capsuleById (ledger : DayResearchLedger) :
    String → Except LedgerError (Option StrategyCapsule) :=
  rowBy (·.capsuleId) (storedCapsule ctx) "stored_day_capsule_identity_duplicate" ledger.capsules

def storedAttempt (ledger : DayResearchLedger) :
    String → Except LedgerError (Option ResearchAttempt) :=
  rowBy (·.attemptId)
    (validatedRow (·.validateAttempt) "stored_research_attempt_payload_invalid")
    "stored_research_attempt_duplicate" ledger.attempts

/-! ## What a binding rests on -/

def requireSameMarket (parentMarket childMarket : Swing.MarketId) : Except LedgerError Unit :=
  raiseIf (parentMarket ≠ childMarket) (.invalidSource "day_research_cross_market_reference")

def requireAttemptHoldoutSeal (ledger : DayResearchLedger) (manifest : PreregistrationManifest) :
    Except LedgerError Unit := do
  match ← rowBy (·.hypothesisId)
      (validatedRow (·.sealed.validateSeal) "stored_research_attempt_holdout_seal_payload_invalid")
      "stored_research_attempt_holdout_seal_duplicate" ledger.holdoutSeals
      manifest.hypothesis.hypothesisId with
  | none => .error (.invalidSource "stored_research_attempt_holdout_seal_missing")
  | some row =>
    raiseIf (row.sealed ≠ manifest.hypothesis.holdoutPeriodSealedRef)
      (.invalidSource "stored_research_attempt_holdout_seal_invalid")

def requireAttemptPreregistration (ledger : DayResearchLedger) (attempt : ResearchAttempt) :
    Except LedgerError PreregistrationManifest := do
  match ← rowBy (·.hypothesis.hypothesisId)
      (validatedRow (·.validateManifest ctx) "stored_preregistration_payload_invalid")
      "stored_research_attempt_preregistration_duplicate" ledger.preregistrations
      attempt.hypothesisId with
  | none => .error (.invalidSource "stored_research_attempt_preregistration_missing")
  | some manifest =>
    raiseIf (attempt.codeSha256 ≠ manifest.hypothesis.codeSha256 ∨
        attempt.dataManifestSha256 ≠ manifest.hypothesis.dataManifestSha256)
      (.invalidSource "stored_research_attempt_preregistration_invalid")
    requireAttemptHoldoutSeal ledger manifest
    return manifest

def requireParentVersion (parent child : HypothesisVersion) : Except LedgerError Unit := do
  requireSameMarket parent.marketId child.marketId
  raiseIf (parent.familyId ≠ child.familyId ∨
      ¬(parent.createdAt < parent.registrationCompletedBarAt ∧
        parent.registrationCompletedBarAt < parent.firstShadowEligibleAt ∧
        parent.firstShadowEligibleAt ≤ child.createdAt ∧
        child.createdAt < child.registrationCompletedBarAt ∧
        child.registrationCompletedBarAt < child.firstShadowEligibleAt))
    (.invalidSource "day_research_version_lineage_invalid")

/-- The ancestors of a version, one after the other. As none of them is `seen` twice, there are no
    more than there are rows. -/
def requireAncestors (ledger : DayResearchLedger) :
    ℕ → List String → HypothesisVersion → Except LedgerError Unit
  | 0, _, _ => .error (.invalidSource "stored_day_version_lineage_invalid")
  | fuel + 1, seen, child =>
    match child.parentVersionId with
    | none => .ok ()
    | some parentId => do
      match ← versionById ctx ledger parentId with
      | none => .error (.invalidSource "stored_day_version_lineage_invalid")
      | some parent =>
        raiseIf (parent.hypothesisVersionId ∈ seen)
          (.invalidSource "stored_day_version_lineage_invalid")
        requireParentVersion parent child
        requireAncestors ledger fuel (parent.hypothesisVersionId :: seen) parent

def requireTargetVersionLineage (ledger : DayResearchLedger) (version : HypothesisVersion) :
    Except LedgerError Unit := do
  let family ← familyById ctx ledger version.familyId
  raiseIf (family.all fun family => version.createdAt < family.createdAt)
    (.invalidSource "stored_day_version_family_invalid")
  requireAncestors ctx ledger (ledger.versions.length + 1) [version.hypothesisVersionId] version

/-- The families and the versions, by their identities. -/
structure StoredDayResearchVersionGraph where
  families : List HypothesisFamily
  versions : List HypothesisVersion
  deriving DecidableEq, Repr

namespace StoredDayResearchVersionGraph

def family (graph : StoredDayResearchVersionGraph) : String → Option HypothesisFamily :=
  dictGet (·.familyId) graph.families

def version (graph : StoredDayResearchVersionGraph) : String → Option HypothesisVersion :=
  dictGet (·.hypothesisVersionId) graph.versions

end StoredDayResearchVersionGraph

/-- What is required of a binding, of the version and of the attempt that it binds, and of the
    hypothesis of the attempt. -/
def requireBindingProtocol (version : HypothesisVersion) (attempt : ResearchAttempt)
    (manifest : PreregistrationManifest) (binding : DayResearchAttemptBinding) :
    Except LedgerError Unit := do
  requireSameMarket version.marketId binding.marketId
  raiseIf (binding.multipleTestingFamily ≠ version.multipleTestingFamily ∨
      version.multipleTestingFamily ≠ manifest.hypothesis.multipleTestingFamily ∨
      attempt.codeSha256 ≠ version.codeSha256 ∨
      attempt.dataManifestSha256 ≠ version.dataManifestSha256 ∨
      (attempt.finishedAt.all fun finishedAt => binding.boundAt ≤ finishedAt.instant) ∨
      binding.boundAt ≤ version.createdAt ∨
      binding.boundAt ≤ version.registrationCompletedBarAt)
    (.invalidSource "day_research_attempt_binding_protocol_invalid")
  match attempt.status with
  | .succeeded =>
    raiseIf (binding.artifactRef ∉ attempt.artifactRefs)
      (.invalidSource "day_research_attempt_binding_artifact_invalid")
  | .failed | .aborted | .timedOut | .cancelled | .censored =>
    raiseIf (binding.artifactRef ≠ preregisteredAttemptedArtifactRef attempt.codeSha256)
      (.invalidSource "day_research_attempt_binding_artifact_invalid")
  | .started => .error (.invalidSource "day_research_attempt_binding_not_terminal")

/-- The version may be looked up in a graph that was audited before, and else is read, and its
    lineage with it. -/
def requireBindingParentCoherence (ledger : DayResearchLedger)
    (graph : Option StoredDayResearchVersionGraph) (binding : DayResearchAttemptBinding) :
    Except LedgerError (HypothesisVersion × ResearchAttempt) := do
  let storedVersion ← match graph with
    | none => versionById ctx ledger binding.hypothesisVersionId
    | some graph => .ok (graph.version binding.hypothesisVersionId)
  let attempt ← storedAttempt ledger binding.attemptId
  match storedVersion, attempt with
  | some version, some attempt => do
    if graph.isNone then requireTargetVersionLineage ctx ledger version
    let manifest ← requireAttemptPreregistration ctx ledger attempt
    requireBindingProtocol version attempt manifest binding
    return (version, attempt)
  | _, _ => .error (.invalidSource "day_research_attempt_binding_parent_missing")

/-! ## Audits -/

def requireAcyclicParentGraph (parentIds : List (String × Option String)) (reason : String) :
    Except LedgerError Unit :=
  raiseIf (Ancestry.checkAll (fun id => (dictGet (·.1) parentIds id).bind (·.2))
    (parentIds.map (·.1)) = false) (.invalidSource reason)

def requireStoredFamilyGraph (families : List HypothesisFamily) : Except LedgerError Unit := do
  families.forM fun family =>
    raiseIf (family.parentFamilyId.any fun parentId =>
        (dictGet (·.familyId) families parentId).all fun parent =>
          family.createdAt ≤ parent.createdAt)
      (.invalidSource "stored_day_family_lineage_invalid")
  requireAcyclicParentGraph (families.map fun family => (family.familyId, family.parentFamilyId))
    "stored_day_family_lineage_invalid"

def requireStoredVersionGraph (families : List HypothesisFamily)
    (versions : List HypothesisVersion) : Except LedgerError Unit := do
  versions.forM fun version => do
    raiseIf ((dictGet (·.familyId) families version.familyId).all fun family =>
        version.createdAt < family.createdAt)
      (.invalidSource "stored_day_version_family_invalid")
    match version.parentVersionId with
    | none => .ok ()
    | some parentId =>
      match dictGet (·.hypothesisVersionId) versions parentId with
      | none => .error (.invalidSource "stored_day_version_lineage_invalid")
      | some parent => requireParentVersion parent version
  requireAcyclicParentGraph
    (versions.map fun version => (version.hypothesisVersionId, version.parentVersionId))
    "stored_day_version_lineage_invalid"

def storedDayResearchVersionGraph (ledger : DayResearchLedger) :
    Except LedgerError StoredDayResearchVersionGraph := do
  let families ← ledger.families.mapM (storedFamily ctx)
  raiseIf (dictLen (·.familyId) families ≠ families.length)
    (.invalidSource "stored_day_family_identity_duplicate")
  requireStoredFamilyGraph families
  let versions ← ledger.versions.mapM (storedVersion ctx)
  raiseIf (dictLen (·.hypothesisVersionId) versions ≠ versions.length)
    (.invalidSource "stored_day_version_identity_duplicate")
  requireStoredVersionGraph families versions
  return ⟨families, versions⟩

/-- The searches that share a budget. -/
def DayResearchAttemptBinding.budgetKey (binding : DayResearchAttemptBinding) :
    Swing.MarketId × String :=
  (binding.marketId, binding.multipleTestingFamily)

/-- The debits and the budgets of the searches. -/
structure Budgets where
  debitByFamily : Table (Swing.MarketId × String) ℤ
  budgetByFamily : Table (Swing.MarketId × String) ℤ

def Budgets.add (budgets : Budgets) (binding : DayResearchAttemptBinding) :
    Except LedgerError Budgets := do
  let existing := (budgets.budgetByFamily.row binding.budgetKey).getD binding.multipleTestingBudget
  raiseIf (existing ≠ binding.multipleTestingBudget)
    (.invalidSource "stored_day_attempt_binding_budget_invalid")
  return {
    debitByFamily := budgets.debitByFamily.set binding.budgetKey
      ((budgets.debitByFamily.row binding.budgetKey).getD 0 + binding.searchBudgetDebit)
    budgetByFamily := budgets.budgetByFamily.set binding.budgetKey existing }

def requireStoredBindingBudgets (bindings : List DayResearchAttemptBinding) :
    Except LedgerError Unit := do
  let budgets ← bindings.foldlM Budgets.add ⟨.empty, .empty⟩
  raiseIf (budgets.debitByFamily.keys.any fun key =>
      (budgets.budgetByFamily.row key).getD 0 < (budgets.debitByFamily.row key).getD 0)
    (.invalidSource "stored_day_attempt_binding_budget_invalid")

structure StoredDayResearchBindingAudit where
  bindings : List DayResearchAttemptBinding
  graph : StoredDayResearchVersionGraph
  deriving DecidableEq, Repr

def storedBindingAudit (ledger : DayResearchLedger) :
    Except LedgerError StoredDayResearchBindingAudit := do
  let bindings ← ledger.bindings.mapM (storedBinding ctx)
  raiseIf (dictLen (·.bindingId) bindings ≠ bindings.length)
    (.invalidSource "stored_day_attempt_binding_identity_duplicate")
  raiseIf (dictLen (·.attemptId) bindings ≠ bindings.length)
    (.invalidSource "stored_day_attempt_binding_attempt_duplicate")
  let graph ← storedDayResearchVersionGraph ctx ledger
  bindings.forM fun binding => do
    let _ ← requireBindingParentCoherence ctx ledger (some graph) binding
  requireStoredBindingBudgets bindings
  return ⟨bindings, graph⟩

def auditDayResearchAttemptBindings (ledger : DayResearchLedger) :
    Except LedgerError StoredDayResearchVersionGraph := do
  return (← storedBindingAudit ctx ledger).graph

/-- The bindings and the graph are those of an audit that was made before, or are read. -/
def requireCapsuleParentCoherence (ledger : DayResearchLedger)
    (audit : Option StoredDayResearchBindingAudit) (capsule : StrategyCapsule) :
    Except LedgerError Unit := do
  let version ← match audit with
    | none => versionById ctx ledger capsule.hypothesisVersionId
    | some audit => .ok (audit.graph.version capsule.hypothesisVersionId)
  let bindings ← match audit with
    | none => (·.bindings) <$> storedBindingAudit ctx ledger
    | some audit => .ok audit.bindings
  match version, dictGet (·.bindingId) bindings capsule.attemptBindingId with
  | some version, some binding => do
    let (_, attempt) ← requireBindingParentCoherence ctx ledger (audit.map (·.graph)) binding
    requireSameMarket version.marketId capsule.marketId
    raiseIf (attempt.status ≠ .succeeded ∨
        binding.hypothesisVersionId ≠ capsule.hypothesisVersionId ∨
        binding.marketId ≠ capsule.marketId ∨ binding.artifactRef ≠ capsule.artifactRef ∨
        version.codeSha256 ≠ capsule.artifactSha256 ∨
        version.evaluationCadence ≠ capsule.evaluationCadence ∨
        version.entryRule ≠ capsule.entryRule ∨ version.exitRule ≠ capsule.exitRule ∨
        version.stopRule ≠ capsule.stopRule ∨ version.costModel ≠ capsule.costModel ∨
        version.protocolSha256 ≠ capsule.protocolSha256 ∨
        capsule.publishedAt ≤ binding.boundAt)
      (.invalidSource "day_strategy_capsule_protocol_invalid")
  | _, _ => .error (.invalidSource "day_strategy_capsule_parent_missing")

/-! ## Registration -/

/-- A record is registered once, under its identity. What is already stored under it has to be the
    same record. -/
def registerRecord {α : Type} [DecidableEq α] (identity : α → String) (isValid : α → Bool)
    (reason : String) (storedById : String → Except LedgerError (Option α))
    (requireKnown requireNew : α → Except LedgerError Unit) (insert : α → DayResearchLedger)
    (ledger : DayResearchLedger) (record : α) : Except LedgerError (Bool × DayResearchLedger) := do
  raiseIf (isHex64 (identity record) = false) (.invalidSource reason)
  match ← storedById (identity record) with
  | some existing =>
    raiseIf (isValid record = false) .conflict
    requireKnown record
    raiseIf (existing ≠ record) .conflict
    return (false, ledger)
  | none =>
    raiseIf (isValid record = false) (.invalidSource reason)
    requireNew record
    return (true, insert record)

def requireFamilyParent (ledger : DayResearchLedger) (family : HypothesisFamily) :
    Except LedgerError Unit :=
  match family.parentFamilyId with
  | none => .ok ()
  | some parentId => do
    let parent ← familyById ctx ledger parentId
    raiseIf (parent.all fun parent => family.createdAt ≤ parent.createdAt)
      (.invalidSource "day_research_family_lineage_invalid")

def registerDayHypothesisFamily (ledger : DayResearchLedger) :
    HypothesisFamily → Except LedgerError (Bool × DayResearchLedger) :=
  registerRecord (·.familyId) (·.validateFamily ctx.digests) "invalid_day_hypothesis_family"
    (familyById ctx ledger) (fun _ => .ok ())
    (fun family => do
      requireFamilyParent ctx ledger family
      raiseIf (ledger.families.any fun row => ctx.familyKey row = ctx.familyKey family) .conflict)
    (fun family => { ledger with families := ledger.families ++ [family] }) ledger

def requireVersionLineage (ledger : DayResearchLedger) (version : HypothesisVersion) :
    Except LedgerError Unit := do
  let family ← familyById ctx ledger version.familyId
  raiseIf (family.all fun family => version.createdAt < family.createdAt)
    (.invalidSource "day_research_version_family_invalid")
  match version.parentVersionId with
  | none => .ok ()
  | some parentId =>
    match ← versionById ctx ledger parentId with
    | none => .error (.invalidSource "day_research_parent_version_missing")
    | some parent => requireParentVersion parent version

def registerDayHypothesisVersion (ledger : DayResearchLedger) :
    HypothesisVersion → Except LedgerError (Bool × DayResearchLedger) :=
  registerRecord (·.hypothesisVersionId) (·.validateVersion ctx.digests)
    "invalid_day_hypothesis_version" (versionById ctx ledger) (fun _ => .ok ())
    (fun version => do
      requireVersionLineage ctx ledger version
      raiseIf (ledger.versions.any fun row => ctx.versionKey row = ctx.versionKey version) .conflict)
    (fun version => { ledger with versions := ledger.versions ++ [version] }) ledger

def requireAvailableSearchBudget (ledger : DayResearchLedger)
    (binding : DayResearchAttemptBinding) : Except LedgerError Unit := do
  let existing ← (ledger.bindings.filter fun row => row.budgetKey = binding.budgetKey).mapM
    (storedBinding ctx)
  raiseIf ((existing.map (·.multipleTestingBudget) ++
        [binding.multipleTestingBudget]).dedup.length ≠ 1 ∨
      binding.multipleTestingBudget <
        binding.searchBudgetDebit + (existing.map (·.searchBudgetDebit)).sum)
    (.invalidSource "day_research_attempt_binding_budget_exhausted")

def registerDayResearchAttemptBindingAfterAudit (ledger : DayResearchLedger)
    (graph : StoredDayResearchVersionGraph) :
    DayResearchAttemptBinding → Except LedgerError (Bool × DayResearchLedger) :=
  registerRecord (·.bindingId) (·.validateBinding ctx.digests)
    "invalid_day_research_attempt_binding" (bindingById ctx ledger)
    (fun binding => do
      let _ ← requireBindingParentCoherence ctx ledger (some graph) binding)
    (fun binding => do
      match ← bindingByAttemptId ctx ledger binding.attemptId with
      | some existing =>
        let _ ← requireBindingParentCoherence ctx ledger (some graph) existing
        .error .conflict
      | none =>
        let _ ← requireBindingParentCoherence ctx ledger (some graph) binding
        requireAvailableSearchBudget ctx ledger binding)
    (fun binding => { ledger with bindings := ledger.bindings ++ [binding] }) ledger

def registerDayResearchAttemptBinding (ledger : DayResearchLedger)
    (binding : DayResearchAttemptBinding) : Except LedgerError (Bool × DayResearchLedger) := do
  let graph ← auditDayResearchAttemptBindings ctx ledger
  registerDayResearchAttemptBindingAfterAudit ctx ledger graph binding

def registerDayStrategyCapsule (ledger : DayResearchLedger) (capsule : StrategyCapsule) :
    Except LedgerError (Bool × DayResearchLedger) := do
  raiseIf (isHex64 capsule.capsuleId = false) (.invalidSource "invalid_day_strategy_capsule")
  let audit ← storedBindingAudit ctx ledger
  registerRecord (·.capsuleId) (·.validateCapsule ctx.digests) "invalid_day_strategy_capsule"
    (capsuleById ctx ledger) (requireCapsuleParentCoherence ctx ledger (some audit))
    (requireCapsuleParentCoherence ctx ledger (some audit))
    (fun capsule => { ledger with capsules := ledger.capsules ++ [capsule] }) ledger capsule

/-! ## Preregistration, attempts and holdouts -/

/-- What is checked before a manifest is written, and whether it is already there. -/
def preregistrationIsStored (ledger : DayResearchLedger) (manifest : PreregistrationManifest) :
    Except LedgerError Bool := do
  raiseIf (manifest.validateManifest ctx = false) (.strategyResearch "preregistration_invalid")
  match ledger.preregistrations.find? fun row =>
      row.hypothesis.hypothesisId = manifest.hypothesis.hypothesisId with
  | some row => do
    raiseIf (row ≠ manifest) (.strategyResearch "preregistration_conflict")
    return true
  | none => do
    match manifest.hypothesis.parentHypothesisId with
    | none => return false
    | some parentId =>
      let parent := ledger.preregistrations.find? fun row => row.hypothesis.hypothesisId = parentId
      raiseIf (parent.map (·.hypothesis.searchFamilyId) ≠ some manifest.hypothesis.searchFamilyId)
        (.strategyResearch "lineage_parent_mismatch")
      return false

/-- The manifest and its seal are two rows. If the second one is refused, the first one stays in the
    transaction, unless the caller lets it be rolled back. -/
def registerPreregistration (ledger : DayResearchLedger) (manifest : PreregistrationManifest) :
    Except LedgerError Bool × DayResearchLedger :=
  let conflict : Except LedgerError Bool := .error (.strategyResearch "preregistration_conflict")
  let sealRow : StoredSeal :=
    ⟨manifest.hypothesis.hypothesisId, manifest.hypothesis.holdoutPeriodSealedRef⟩
  match preregistrationIsStored ctx ledger manifest with
  | .error e => (.error e, ledger)
  | .ok true => (.ok false, ledger)
  | .ok false =>
    if ledger.preregistrations.any fun row =>
        ctx.manifestSha256 row = ctx.manifestSha256 manifest then (conflict, ledger)
    else
      let written := { ledger with preregistrations := ledger.preregistrations ++ [manifest] }
      if ledger.holdoutSeals.any fun row => row.sealed.sealId = sealRow.sealed.sealId ∨
          row.hypothesisId = sealRow.hypothesisId then (conflict, written)
      else (.ok true, { written with holdoutSeals := ledger.holdoutSeals ++ [sealRow] })

def appendAttempt (ledger : DayResearchLedger) (attempt : ResearchAttempt) :
    Except LedgerError (Bool × DayResearchLedger) := do
  raiseIf (attempt.validateAttempt = false) (.strategyResearch "attempt_invalid")
  match ledger.preregistrations.find? fun row =>
      row.hypothesis.hypothesisId = attempt.hypothesisId with
  | none => .error (.strategyResearch "preregistration_missing")
  | some manifest =>
    raiseIf (ledger.holdoutSeals.all fun row => row.hypothesisId ≠ attempt.hypothesisId)
      (.strategyResearch "preregistration_missing")
    raiseIf (manifest.validateManifest ctx = false)
      (.strategyResearch "stored_preregistration_invalid")
    raiseIf (attempt.codeSha256 ≠ manifest.hypothesis.codeSha256 ∨
        attempt.dataManifestSha256 ≠ manifest.hypothesis.dataManifestSha256)
      (.strategyResearch "attempt_protocol_mismatch")
    match ledger.attempts.find? fun row => row.attemptId = attempt.attemptId with
    | some row =>
      raiseIf (row ≠ attempt) (.strategyResearch "attempt_conflict")
      return (false, ledger)
    | none =>
      raiseIf (ledger.attempts.any fun row =>
          ctx.attemptSha256 row = ctx.attemptSha256 attempt ∨
            row.hypothesisId = attempt.hypothesisId ∧ row.branchIndex = attempt.branchIndex)
        (.strategyResearch "attempt_conflict")
      return (true, { ledger with attempts := ledger.attempts ++ [attempt] })

def revealHoldout (ledger : DayResearchLedger) (reveal : HoldoutReveal) :
    Except LedgerError (Bool × DayResearchLedger) := do
  raiseIf (reveal.validateReveal = false) (.strategyResearch "holdout_reveal_invalid")
  match ledger.holdoutSeals.find? fun row => row.hypothesisId = reveal.hypothesisId,
      ledger.preregistrations.find? fun row =>
        row.hypothesis.hypothesisId = reveal.hypothesisId with
  | some row, some manifest =>
    raiseIf (row.sealed.sealId ≠ reveal.sealId ∨
        row.sealed.commitmentSha256 ≠ reveal.commitmentSha256 ∨
        manifest.hypothesis.agentId ≠ reveal.sanitizedResult.ownerAgentId)
      (.strategyResearch "holdout_seal_conflict")
    raiseIf (ledger.holdoutReveals.any fun row => row.reveal.hypothesisId = reveal.hypothesisId)
      (.strategyResearch "holdout_already_revealed")
    raiseIf (ledger.holdoutReveals.any fun row =>
        ctx.revealSha256 row.reveal = ctx.revealSha256 reveal ∨
          row.reveal.revealId = reveal.revealId ∨
          row.searchFamilyId = manifest.hypothesis.searchFamilyId ∨
          row.reveal.sealId = reveal.sealId)
      (.strategyResearch "holdout_already_revealed")
    return (true, { ledger with
      holdoutReveals := ledger.holdoutReveals ++ [⟨reveal, manifest.hypothesis.searchFamilyId⟩] })
  | _, _ => .error (.strategyResearch "holdout_seal_missing")

end TradingAgent.DayResearch
