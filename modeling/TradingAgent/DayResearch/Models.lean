import Mathlib.Algebra.Order.Ring.Rat
import TradingAgent.Library.Except
import TradingAgent.Library.SortedSet
import TradingAgent.Swing.Models

/-!
# The records of the day research

* A hypothesis on the market of a day belongs to a family (`HypothesisFamily`), and is registered in
  versions (`HypothesisVersion`), each on one market. An attempt that a search has made for a version
  is bound to it (`DayResearchAttemptBinding`), at the expense of the search budget of the version,
  and what has succeeded is published as a capsule (`StrategyCapsule`).
* The attempts themselves (`ResearchAttempt`) are those of hypotheses that were registered before
  (`PreregistrationManifest`), and whose holdout data was sealed (`SealedHoldoutRef`) until it is
  revealed (`HoldoutReveal`).
* Each record validates itself. The identity of a record of the day research is the digest of its
  other fields (`Digests`): of the record without its identity.
* The times of the day research are kept in UTC: here, as instants. Those of the attempts and of the
  seals are kept with their offsets.
-/

namespace TradingAgent.DayResearch

def canonicalText (value : String) : Bool := value ≠ "" ∧ isStripped value

def sortedUniqueText (values : List String) : Bool :=
  values ≠ [] ∧ values.all canonicalText ∧ values = sortedSet values

/-- The pattern `artifact://safe/[0-9a-f]{64}`. -/
def isSafeArtifactRef (value : String) : Bool :=
  value.toList.take 16 = "artifact://safe/".toList ∧ isHex64 (String.ofList (value.toList.drop 16))

theorem isSafeArtifactRef_append (sha : String) :
    isSafeArtifactRef ("artifact://safe/" ++ sha) = isHex64 sha := by
  have hlength : "artifact://safe/".toList.length = 16 := by decide
  have htake : ("artifact://safe/" ++ sha).toList.take 16 = "artifact://safe/".toList := by
    rw [String.toList_append, ← hlength, List.take_left]
  have hdrop : ("artifact://safe/" ++ sha).toList.drop 16 = sha.toList := by
    rw [String.toList_append, ← hlength, List.drop_left]
  rw [isSafeArtifactRef, htake, hdrop, String.ofList_toList]
  simp

/-! ## Hypotheses -/

structure CostModelDeclaration where
  modelId : String
  commissionBps : ℚ
  slippageBps : ℚ
  deriving DecidableEq, Repr

def CostModelDeclaration.validateCostModel (model : CostModelDeclaration) : Bool :=
  canonicalText model.modelId ∧ 0 ≤ model.commissionBps ∧ 0 ≤ model.slippageBps

structure FreeParameter where
  name : String
  values : List ℚ
  deriving DecidableEq, Repr

def FreeParameter.validateParameter (parameter : FreeParameter) : Bool :=
  parameter.values.length ≤ 32 ∧ canonicalText parameter.name ∧ parameter.values ≠ [] ∧
    parameter.values = sortedSet parameter.values

structure SearchBudget where
  maxParameterCombinations : ℤ
  maxAttempts : ℤ
  maxCpuSeconds : ℤ
  deriving DecidableEq, Repr

def SearchBudget.isValid (budget : SearchBudget) : Bool :=
  1 ≤ budget.maxParameterCombinations ∧ budget.maxParameterCombinations ≤ 10000 ∧
    1 ≤ budget.maxAttempts ∧ budget.maxAttempts ≤ 10000 ∧
    1 ≤ budget.maxCpuSeconds ∧ budget.maxCpuSeconds ≤ 86400

/-- How long it takes until the target of a hypothesis is known. -/
def isTargetHorizon (duration : TimeDelta) : Bool := 0 < duration ∧ duration ≤ TimeDelta.days 3650

inductive ExpectedDirection
  | positive
  | negative
  | twoSided
  deriving DecidableEq, Repr

structure HypothesisFamily where
  familyId : String
  parentFamilyId : Option String
  canonicalQuestion : String
  economicMechanism : String
  alternativeExplanations : List String
  counterfactualBaseline : String
  createdBy : String
  createdAt : Instant
  sourceLineage : List String
  deriving DecidableEq, Repr

structure HypothesisVersion where
  hypothesisVersionId : String
  familyId : String
  parentVersionId : Option String
  marketId : Swing.MarketId
  universeSnapshotId : String
  universeSnapshotAt : Instant
  sourceRefs : List String
  methodologyTags : List String
  primaryEvaluationOwner : String
  evaluationCadence : String
  predictor : String
  samplingTimestamp : Instant
  target : String
  targetHorizon : TimeDelta
  expectedDirection : ExpectedDirection
  entryRule : String
  exitRule : String
  stopRule : String
  invalidationRule : String
  threshold : ℚ
  costModel : CostModelDeclaration
  freeParameters : List FreeParameter
  searchBudget : SearchBudget
  multipleTestingFamily : String
  modelSha256 : String
  promptSha256 : String
  codeSha256 : String
  dataManifestSha256 : String
  protocolSha256 : String
  createdAt : Instant
  registrationCompletedBarAt : Instant
  firstShadowEligibleAt : Instant
  deriving DecidableEq, Repr

structure DayResearchAttemptBinding where
  bindingId : String
  attemptId : String
  marketId : Swing.MarketId
  hypothesisVersionId : String
  artifactRef : String
  multipleTestingFamily : String
  multipleTestingBudget : ℤ
  searchBudgetDebit : ℤ
  boundAt : Instant
  deriving DecidableEq, Repr

/-! ## Capsules -/

inductive CapsuleArtifactKind
  | builtin
  | generatedPython
  deriving DecidableEq, Repr

inductive CapsuleAuthorityCeiling
  | researchOnly
  | usAlpacaPaperCapable
  deriving DecidableEq, Repr

structure CapsuleResourceLimits where
  wallSeconds : ℚ := 2
  cpuSeconds : ℤ := 2
  rssBytes : ℤ := 1024 * 1024 * 1024
  openFiles : ℤ := 32
  outputBytes : ℤ := 1024 * 1024
  deriving DecidableEq, Repr

/-- The least number of seconds is the float `0.05`. -/
def CapsuleResourceLimits.isValid (limits : CapsuleResourceLimits) : Bool :=
  3602879701896397 / 2 ^ 56 ≤ limits.wallSeconds ∧ limits.wallSeconds ≤ 30 ∧
    1 ≤ limits.cpuSeconds ∧ limits.cpuSeconds ≤ 30 ∧
    128 * 1024 * 1024 ≤ limits.rssBytes ∧ limits.rssBytes ≤ 10 * 1024 * 1024 * 1024 ∧
    16 ≤ limits.openFiles ∧ limits.openFiles ≤ 128 ∧
    64 * 1024 ≤ limits.outputBytes ∧ limits.outputBytes ≤ 8 * 1024 * 1024

structure CapsulePreflightReceipt where
  receiptId : String
  generatedArtifactId : String
  runtimeFingerprint : String
  protocolSha256 : String
  evaluatorSha256 : String
  resourceLimits : CapsuleResourceLimits
  replayInputSha256 : String
  firstRunSha256 : String
  secondRunSha256 : String
  deterministicReplaySha256 : String
  completedAt : Instant
  deriving DecidableEq, Repr

structure StrategyCapsule where
  capsuleId : String
  hypothesisVersionId : String
  attemptBindingId : String
  marketId : Swing.MarketId
  artifactKind : CapsuleArtifactKind
  artifactRef : String
  artifactSha256 : String
  generatedArtifactId : Option String
  evaluationCadence : String
  evidenceSchema : List String
  entryRule : String
  exitRule : String
  stopRule : String
  targetRule : String
  costModel : CostModelDeclaration
  slippageModelId : String
  resourceLimits : CapsuleResourceLimits
  riskPolicyRef : String
  protocolSha256 : String
  evaluatorSha256 : String
  preflightReceipt : Option CapsulePreflightReceipt
  publishedAt : Instant
  authorityCeiling : CapsuleAuthorityCeiling
  deriving DecidableEq, Repr

/-! ## Attempts and holdouts -/

inductive ResearchAgentId
  | intradayMomentum
  | intradayMeanReversion
  | catalystEvent
  | swingTrendRegime
  | crossSectionalQuant
  | derivativesVolatility
  deriving DecidableEq, Repr

inductive AttemptStatus
  | started
  | succeeded
  | failed
  | aborted
  | timedOut
  | cancelled
  | censored
  deriving DecidableEq, Repr

structure ResearchAttempt where
  attemptId : String
  hypothesisId : String
  branchIndex : ℤ
  inputHashes : List String
  codeSha256 : String
  dataManifestSha256 : String
  startedAt : DateTime
  finishedAt : Option DateTime
  status : AttemptStatus
  artifactRefs : List String
  errorClass : Option String
  maxCpuSeconds : ℤ
  deriving DecidableEq, Repr

structure SealedHoldoutRef where
  sealId : String
  commitmentSha256 : String
  sealedAt : DateTime
  owner : String
  accessPolicy : String
  deriving DecidableEq, Repr

/-- A hypothesis, with the JSON text of the fields that the ledger does not read. -/
structure ImmutableHypothesis where
  hypothesisId : String
  parentHypothesisId : Option String
  searchFamilyId : String
  agentId : ResearchAgentId
  multipleTestingFamily : String
  holdoutPeriodSealedRef : SealedHoldoutRef
  codeSha256 : String
  dataManifestSha256 : String
  rest : String
  deriving DecidableEq, Repr

structure PreregistrationManifest where
  hypothesis : ImmutableHypothesis
  hypothesisSha256 : String
  preregisteredAt : DateTime
  deriving DecidableEq, Repr

inductive TerminalOutcome
  | supported
  | refuted
  | inconclusive
  deriving DecidableEq, Repr

inductive SafeTerminalReason
  | ciWidthTooWide
  | dataQualityGateFailed
  | effectDirectionMismatch
  | insufficientObservations
  | preregisteredFalsificationMet
  | preregisteredSupportMet
  deriving DecidableEq, Repr

structure TerminalResearchResult where
  resultId : String
  hypothesisId : String
  ownerAgentId : ResearchAgentId
  outcome : TerminalOutcome
  reasonCodes : List SafeTerminalReason
  artifactRefs : List String
  evaluatedAt : DateTime
  deriving DecidableEq, Repr

structure ExactHoldoutMetric where
  name : String
  value : ℚ
  lower : ℚ
  upper : ℚ
  deriving DecidableEq, Repr

structure HoldoutReveal where
  revealId : String
  hypothesisId : String
  sealId : String
  commitmentSha256 : String
  reviewerId : String
  exactMetrics : List ExactHoldoutMetric
  sanitizedResult : TerminalResearchResult
  revealedAt : DateTime
  deriving DecidableEq, Repr

/-! ## Validation -/

/-- The digests of the texts of the records, and of a text. -/
structure Digests where
  family : HypothesisFamily → String
  version : HypothesisVersion → String
  binding : DayResearchAttemptBinding → String
  receipt : CapsulePreflightReceipt → String
  capsule : StrategyCapsule → String
  text : String → String

variable (digests : Digests)

namespace HypothesisFamily

def canonicalId (family : HypothesisFamily) : String := digests.family { family with familyId := "" }

def validateFamily (family : HypothesisFamily) : Bool :=
  isHex64 family.familyId ∧ (family.parentFamilyId.all isHex64) ∧
    canonicalText family.canonicalQuestion ∧ canonicalText family.economicMechanism ∧
    sortedUniqueText family.alternativeExplanations ∧
    canonicalText family.counterfactualBaseline ∧ canonicalText family.createdBy ∧
    sortedUniqueText family.sourceLineage ∧ family.familyId = family.canonicalId digests

end HypothesisFamily

namespace HypothesisVersion

def canonicalId (version : HypothesisVersion) : String :=
  digests.version { version with hypothesisVersionId := "" }

def validateVersion (version : HypothesisVersion) : Bool :=
  isHex64 version.hypothesisVersionId ∧ isHex64 version.familyId ∧
    (version.parentVersionId.all isHex64) ∧ canonicalText version.universeSnapshotId ∧
    sortedUniqueText version.sourceRefs ∧ sortedUniqueText version.methodologyTags ∧
    canonicalText version.primaryEvaluationOwner ∧ canonicalText version.evaluationCadence ∧
    ([version.predictor, version.target, version.entryRule, version.exitRule, version.stopRule,
      version.invalidationRule, version.multipleTestingFamily].all canonicalText) ∧
    isTargetHorizon version.targetHorizon ∧ version.costModel.validateCostModel ∧
    version.freeParameters.length ≤ 12 ∧
    (version.freeParameters.all FreeParameter.validateParameter) ∧
    version.freeParameters.map (·.name) = sortedSet (version.freeParameters.map (·.name)) ∧
    version.searchBudget.isValid ∧
    ([version.modelSha256, version.promptSha256, version.codeSha256, version.dataManifestSha256,
      version.protocolSha256].all isHex64) ∧
    version.universeSnapshotAt ≤ version.samplingTimestamp ∧
    version.samplingTimestamp ≤ version.createdAt ∧
    version.createdAt ≤ version.registrationCompletedBarAt ∧
    version.registrationCompletedBarAt < version.firstShadowEligibleAt ∧
    version.hypothesisVersionId = version.canonicalId digests

end HypothesisVersion

namespace DayResearchAttemptBinding

def canonicalId (binding : DayResearchAttemptBinding) : String :=
  digests.binding { binding with bindingId := "" }

def validateBinding (binding : DayResearchAttemptBinding) : Bool :=
  isHex64 binding.bindingId ∧ isHex64 binding.hypothesisVersionId ∧
    canonicalText binding.attemptId ∧ isSafeArtifactRef binding.artifactRef ∧
    canonicalText binding.multipleTestingFamily ∧ 1 ≤ binding.multipleTestingBudget ∧
    binding.multipleTestingBudget ≤ 10000 ∧ 1 ≤ binding.searchBudgetDebit ∧
    binding.searchBudgetDebit ≤ binding.multipleTestingBudget ∧
    binding.bindingId = binding.canonicalId digests

end DayResearchAttemptBinding

def preregisteredAttemptedArtifactRef (codeSha256 : String) : String :=
  "artifact://safe/" ++ codeSha256

namespace CapsulePreflightReceipt

def canonicalId (receipt : CapsulePreflightReceipt) : String :=
  digests.receipt { receipt with receiptId := "" }

def validateReceipt (receipt : CapsulePreflightReceipt) : Bool :=
  ([receipt.receiptId, receipt.generatedArtifactId, receipt.runtimeFingerprint,
    receipt.protocolSha256, receipt.evaluatorSha256, receipt.replayInputSha256,
    receipt.firstRunSha256, receipt.secondRunSha256,
    receipt.deterministicReplaySha256].all isHex64) ∧
    receipt.resourceLimits.isValid ∧ receipt.firstRunSha256 = receipt.secondRunSha256 ∧
    receipt.deterministicReplaySha256 =
      digests.text (receipt.firstRunSha256 ++ ":" ++ receipt.secondRunSha256) ∧
    receipt.receiptId = receipt.canonicalId digests

end CapsulePreflightReceipt

namespace StrategyCapsule

def canonicalId (capsule : StrategyCapsule) : String :=
  digests.capsule { capsule with capsuleId := "" }

/-- What a capsule of each kind has of a generated artifact. -/
def artifactIsValid (capsule : StrategyCapsule) : Bool :=
  match capsule.artifactKind with
  | .builtin => capsule.generatedArtifactId = none ∧ capsule.preflightReceipt = none
  | .generatedPython =>
    match capsule.generatedArtifactId, capsule.preflightReceipt with
    | some artifactId, some receipt =>
      isHex64 artifactId ∧ receipt.generatedArtifactId = artifactId ∧
        receipt.protocolSha256 = capsule.protocolSha256 ∧
        receipt.evaluatorSha256 = capsule.evaluatorSha256 ∧
        receipt.resourceLimits = capsule.resourceLimits ∧
        receipt.completedAt ≤ capsule.publishedAt
    | _, _ => false

def validateCapsule (capsule : StrategyCapsule) : Bool :=
  (capsule.marketId = .krEquities → capsule.authorityCeiling ≠ .usAlpacaPaperCapable) ∧
    ([capsule.capsuleId, capsule.hypothesisVersionId, capsule.attemptBindingId,
      capsule.artifactSha256, capsule.protocolSha256, capsule.evaluatorSha256].all isHex64) ∧
    capsule.artifactRef = "artifact://safe/" ++ capsule.artifactSha256 ∧
    isSafeArtifactRef capsule.artifactRef ∧
    ([capsule.evaluationCadence, capsule.entryRule, capsule.exitRule, capsule.stopRule,
      capsule.targetRule, capsule.slippageModelId, capsule.riskPolicyRef].all canonicalText) ∧
    sortedUniqueText capsule.evidenceSchema ∧ capsule.costModel.validateCostModel ∧
    capsule.resourceLimits.isValid ∧
    (capsule.preflightReceipt.all (·.validateReceipt digests)) ∧ capsule.artifactIsValid ∧
    capsule.capsuleId = capsule.canonicalId digests

end StrategyCapsule

namespace ResearchAttempt

/-- What an attempt of each status has. -/
def statusIsValid (attempt : ResearchAttempt) : Bool :=
  match attempt.status with
  | .started =>
    attempt.finishedAt = none ∧ attempt.artifactRefs = [] ∧ attempt.errorClass = none
  | .succeeded =>
    attempt.finishedAt ≠ none ∧ attempt.artifactRefs ≠ [] ∧ attempt.errorClass = none
  | .failed | .aborted | .timedOut | .cancelled | .censored =>
    attempt.finishedAt ≠ none ∧ attempt.errorClass.any (· ≠ "")

def validateAttempt (attempt : ResearchAttempt) : Bool :=
  attempt.attemptId ≠ "" ∧ attempt.hypothesisId ≠ "" ∧ 0 ≤ attempt.branchIndex ∧
    attempt.inputHashes ≠ [] ∧ (attempt.inputHashes.all isHex64) ∧ attempt.inputHashes.Nodup ∧
    isHex64 attempt.codeSha256 ∧ isHex64 attempt.dataManifestSha256 ∧ attempt.startedAt.aware ∧
    (attempt.finishedAt.all fun finishedAt =>
      finishedAt.aware ∧ attempt.startedAt ≤ finishedAt) ∧
    1 ≤ attempt.maxCpuSeconds ∧ attempt.maxCpuSeconds ≤ 86400 ∧ attempt.statusIsValid

end ResearchAttempt

def SealedHoldoutRef.validateSeal (sealed : SealedHoldoutRef) : Bool :=
  sealed.sealId ≠ "" ∧ isHex64 sealed.commitmentSha256 ∧ sealed.sealedAt.aware ∧
    sealed.owner ≠ "" ∧ sealed.accessPolicy ≠ ""

def TerminalResearchResult.validateResult (result : TerminalResearchResult) : Bool :=
  result.resultId ≠ "" ∧ result.hypothesisId ≠ "" ∧ result.reasonCodes ≠ [] ∧
    result.reasonCodes.Nodup ∧ result.artifactRefs ≠ [] ∧ result.artifactRefs.Nodup ∧
    (result.artifactRefs.all isSafeArtifactRef) ∧ result.evaluatedAt.aware

def ExactHoldoutMetric.validateInterval (metric : ExactHoldoutMetric) : Bool :=
  metric.name ≠ "" ∧ metric.lower ≤ metric.value ∧ metric.value ≤ metric.upper

def HoldoutReveal.validateReveal (reveal : HoldoutReveal) : Bool :=
  reveal.revealId ≠ "" ∧ reveal.hypothesisId ≠ "" ∧ reveal.sealId ≠ "" ∧
    isHex64 reveal.commitmentSha256 ∧ reveal.reviewerId ≠ "" ∧ reveal.exactMetrics ≠ [] ∧
    (reveal.exactMetrics.all ExactHoldoutMetric.validateInterval) ∧
    reveal.sanitizedResult.validateResult ∧ reveal.revealedAt.aware ∧
    reveal.sanitizedResult.hypothesisId = reveal.hypothesisId

end TradingAgent.DayResearch
