import Mathlib.Algebra.Order.Ring.Rat
import Mathlib.Data.List.Sort
import Mathlib.Data.Rat.Floor
import TradingAgent.Library.Draws
import TradingAgent.Library.Except

/-!
# Resampled means

The statistics of the strategy research: an interval for the mean of some values, from the means
of samples that are drawn from them again and again. A value belongs to the session or the cluster
that its key names.

* By moving blocks (`movingBlockEstimates`), a sample has as many values of each session as there
  are. The code draws a position for every value, not for every block: `samplePositions` keeps the
  positions that are drawn, so that it can be told which values of a session follow each other.
* By clusters (`clusterEstimates`), a sample is made of whole clusters.
* The ends of the interval are quantiles of the means (`quantile`), which are computed exactly.
-/

namespace TradingAgent.StrategyResearch

inductive ResamplingMethod
  | sessionMovingBlock
  | eventCluster
  | dateCluster
  | underlyingMaturityCluster
  deriving DecidableEq, Repr

structure BootstrapInterval where
  estimate : ℚ
  lower : ℚ
  upper : ℚ
  deriving DecidableEq, Repr

/-- A policy. The generator stands for its seed. -/
structure BootstrapPolicy where
  repetitions : ℕ
  generator : Generator
  familywiseAlpha : ℚ
  adjustmentTests : ℤ

inductive StatisticsError
  | resamplingClusterKeysInvalid
  | zeroDivision
  | indexOutOfRange
  deriving DecidableEq, Repr

/-! ## Sessions and clusters -/

/-- The keys in the order of their first appearance: `dict.fromkeys`. -/
def distinctKeys (keys : List String) : List String :=
  keys.foldl (fun seen key => if key ∈ seen then seen else seen ++ [key]) []

/-- The values of a key. -/
def valuesOf (values : List ℚ) (keys : List String) (key : String) : List ℚ :=
  (values.zip keys).filterMap fun pair => if pair.2 = key then some pair.1 else none

def grouped (values : List ℚ) (keys : List String) : List (List ℚ) :=
  (distinctKeys keys).map (valuesOf values keys)

/-- `_require_cluster_keys` -/
def requireClusterKeys (values : List ℚ) (keys : List String) : Except StatisticsError Unit :=
  Except.raiseIf (keys.length ≠ values.length ∨ "" ∈ keys) .resamplingClusterKeysInvalid

/-! ## Moving blocks -/

def blockSize (length : ℕ) : ℕ := min length (max 2 (Nat.sqrt length))

def blockCount (length : ℕ) : ℕ := (length + blockSize length - 1) / blockSize length

/-- The positions drawn for a block: the draw is inside the loop over the block. -/
def blockPositions (generator : Generator) (length : ℕ) : Draws (List ℕ) :=
  (List.range (blockSize length)).mapM fun offset => do
    let start ← Draws.randrange generator length
    return (start + offset) % length

/-- The positions drawn from a session. -/
def samplePositions (generator : Generator) (length : ℕ) : Draws (List ℕ) := do
  let blocks ← (List.range (blockCount length)).mapM fun _ => blockPositions generator length
  return blocks.flatten.take length

/-- The positions drawn from every session. -/
def replicatePositions (generator : Generator) (lengths : List ℕ) : Draws (List (List ℕ)) :=
  lengths.mapM (samplePositions generator)

/-- The positions drawn in every repetition. -/
def movingBlockPositions (generator : Generator) (lengths : List ℕ) (repetitions : ℕ) :
    Draws (List (List (List ℕ))) :=
  (List.range repetitions).mapM fun _ => replicatePositions generator lengths

/-- The values at some positions of each session. -/
def valuesAt (sessions : List (List ℚ)) (positions : List (List ℕ)) : List ℚ :=
  (sessions.zipWith (fun session => List.map (session.getD · 0)) positions).flatten

def movingBlockSamples (values : List ℚ) (keys : List String) (policy : BootstrapPolicy) :
    List (List ℚ) :=
  let sessions := grouped values keys
  (movingBlockPositions policy.generator (sessions.map List.length) policy.repetitions 0).1.map
    (valuesAt sessions)

/-! ## Clusters -/

def drawKey (generator : Generator) (keys : List String) : Draws String := do
  let drawn ← Draws.randrange generator keys.length
  return keys.getD drawn ""

def clusterSample (generator : Generator) (values : List ℚ) (keys : List String) :
    Draws (List ℚ) := do
  let chosen ← (distinctKeys keys).mapM fun _ => drawKey generator (distinctKeys keys)
  return chosen.flatMap (valuesOf values keys)

def clusterSamples (values : List ℚ) (keys : List String) (policy : BootstrapPolicy) :
    List (List ℚ) :=
  ((List.range policy.repetitions).mapM (fun _ => clusterSample policy.generator values keys) 0).1

/-! ## Intervals -/

def mean (values : List ℚ) : Except StatisticsError ℚ :=
  if values = [] then .error .zeroDivision else .ok (values.sum / values.length)

/-- The means of the samples, in order. -/
def estimatesOf (samples : List (List ℚ)) : Except StatisticsError (List ℚ) :=
  (samples.mapM mean).map (List.insertionSort (· ≤ ·))

def position (values : List ℚ) (probability : ℚ) : ℚ := probability * (values.length - 1)

/-- `int(position)`, of a position that is not negative. -/
def lowerIndex (values : List ℚ) (probability : ℚ) : ℕ := ⌊position values probability⌋₊

def upperIndex (values : List ℚ) (probability : ℚ) : ℕ :=
  min (lowerIndex values probability + 1) (values.length - 1)

/-- `_quantile` -/
def quantile (values : List ℚ) (probability : ℚ) : Except StatisticsError ℚ :=
  match values[lowerIndex values probability]?, values[upperIndex values probability]? with
  | some lower, some upper =>
    .ok (lower + (upper - lower) * (position values probability - lowerIndex values probability))
  | _, _ => .error .indexOutOfRange

def samples (values : List ℚ) (keys : List String) (policy : BootstrapPolicy) :
    ResamplingMethod → List (List ℚ)
  | .sessionMovingBlock => movingBlockSamples values keys policy
  | .eventCluster | .dateCluster | .underlyingMaturityCluster => clusterSamples values keys policy

def fixedSeedResampledMean (values : List ℚ) (policy : BootstrapPolicy)
    (method : ResamplingMethod) (keys : List String) : Except StatisticsError BootstrapInterval := do
  requireClusterKeys values keys
  let estimates ← estimatesOf (samples values keys policy method)
  Except.raiseIf (policy.adjustmentTests = 0) .zeroDivision
  let adjustedAlpha := policy.familywiseAlpha / policy.adjustmentTests
  return {
    estimate := ← mean values
    lower := ← quantile estimates (adjustedAlpha / 2)
    upper := ← quantile estimates (1 - adjustedAlpha / 2) }

end TradingAgent.StrategyResearch
