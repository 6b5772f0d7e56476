import Mathlib.Algebra.Order.Field.Rat
import TradingAgent.Calendar
import TradingAgent.Library.SortedSet
import TradingAgent.Library.Text
import TradingAgent.Subscription.Models

/-!
# Completed minutes and volume profiles

The completed minutes of an instrument (`CompletedMinuteBar`), the volume that it is expected to have
had by then (`IntradayVolumeProfileEvidence`), which is the median of those of the sessions before,
and the features that are calculated from the two (`IntradayFeatureSnapshot`).

The prices of a snapshot are rational numbers: they are calculated from those of valid bars, which
are finite, with exact arithmetic.
-/

namespace TradingAgent.IntradayFeature

/-- What the program takes from its environment. -/
structure FeatureEnvironment where
  newYork : ZoneInfo
  sha : Sha256

/-! ## Volume profiles -/

def INTRADAY_VOLUME_PROFILE_SESSIONS : ℕ := 20
def INTRADAY_VOLUME_PROFILE_VERSION : String := "us_intraday_cumulative_volume_median_20_v1"

structure IntradayVolumeProfileEvidence where
  instrumentId : String
  targetSessionDate : Date
  throughMinute : ℤ
  sourceSessionDates : List Date
  sourceIdentities : List ResearchInputIdentity
  sessionCumulativeVolumes : List ℤ
  expectedCumulativeVolume : Decimal
  semanticVersion : String
  evidenceSha256 : String
  deriving DecidableEq, Repr

def sessionMinutes (bounds : SessionBounds) : ℤ := (bounds.closes - bounds.opens) / TimeDelta.minutes 1

/-- The days of the last sessions before a day that are long enough, in order, if there are enough
    of them within a year. -/
def intradayVolumeProfileSourceDates (target : Date) (throughMinute : ℤ) : Option (List Date) :=
  let result := (((List.range 366).map fun (offset : ℕ) => target - ((offset : ℤ) + 1)).filter
    fun candidate => (regularSessionBounds candidate).any fun bounds =>
      throughMinute ≤ sessionMinutes bounds).take INTRADAY_VOLUME_PROFILE_SESSIONS
  if throughMinute ≤ 0 ∨ result.length ≠ INTRADAY_VOLUME_PROFILE_SESSIONS then none
  else some result.reverse

/-- The median of the volumes of the sessions. -/
def median (values : List ℤ) : Option ℚ :=
  if values.length ≠ INTRADAY_VOLUME_PROFILE_SESSIONS then none
  else
    let ordered := values.insertionSort (· ≤ ·)
    let middle := ordered.length / 2
    match ordered[middle - 1]?, ordered[middle]? with
    | some low, some high => some (((low : ℚ) + high) / 2)
    | _, _ => none

namespace IntradayVolumeProfileEvidence

/-- What the digest of a profile is made of. -/
def material (evidence : IntradayVolumeProfileEvidence) : List JsonAtom :=
  [.decimal evidence.expectedCumulativeVolume, .str evidence.instrumentId,
    .str INTRADAY_VOLUME_PROFILE_VERSION] ++
  evidence.sessionCumulativeVolumes.map .int ++ evidence.sourceSessionDates.map .int ++
  (evidence.sourceIdentities.map fun identity => .str identity.identitySha256) ++
  [.int evidence.targetSessionDate, .int evidence.throughMinute]

/-- Whether `validate_intraday_volume_profile` returns. -/
def isValid (sha : Sha256) (evidence : IntradayVolumeProfileEvidence) : Bool :=
  let dates := evidence.sourceSessionDates
  let identities := evidence.sourceIdentities
  let volumes := evidence.sessionCumulativeVolumes
  evidence.instrumentId ≠ "" ∧ evidence.instrumentId.toList.length ≤ 128 ∧
    (regularSessionBounds evidence.targetSessionDate).any (fun bounds =>
      evidence.throughMinute ≤ sessionMinutes bounds) ∧
    0 < evidence.throughMinute ∧
    dates.length = INTRADAY_VOLUME_PROFILE_SESSIONS ∧
    volumes.length = INTRADAY_VOLUME_PROFILE_SESSIONS ∧
    identities.length = INTRADAY_VOLUME_PROFILE_SESSIONS ∧
    intradayVolumeProfileSourceDates evidence.targetSessionDate evidence.throughMinute =
      some dates ∧
    dates.all (fun day => day < evidence.targetSessionDate) ∧
    (identities.map (·.identitySha256)).Nodup ∧
    dates.all (fun day => (regularSessionBounds day).isSome) ∧
    volumes.all (0 < ·) ∧
    (median volumes).map .finite = some evidence.expectedCumulativeVolume ∧
    evidence.semanticVersion = INTRADAY_VOLUME_PROFILE_VERSION ∧
    evidence.evidenceSha256 = sha.hexdigest evidence.material

end IntradayVolumeProfileEvidence

/-- A median of positive volumes is positive. -/
theorem median_pos {values : List ℤ} {expected : ℚ} (h : median values = some expected)
    (hpos : ∀ value ∈ values, 0 < value) : 0 < expected := by
  rw [median] at h
  split_ifs at h
  dsimp only at h
  split at h
  · next low high hlow hhigh =>
    cases h
    have hmem : ∀ {i : ℕ} {value : ℤ}, (values.insertionSort (· ≤ ·))[i]? = some value →
        (0 : ℚ) < value := fun hvalue => by
      have hvalue := hpos _ ((List.mem_insertionSort _).1 (List.mem_of_getElem? hvalue))
      exact_mod_cast hvalue
    exact div_pos (add_pos (hmem hlow) (hmem hhigh)) (by norm_num)
  · cases h

/-- What is expected by a valid profile. -/
theorem expected_of_isValid {sha : Sha256} {evidence : IntradayVolumeProfileEvidence}
    (h : evidence.isValid sha = true) : ∃ expected : ℚ, 0 < expected ∧
      evidence.expectedCumulativeVolume = .finite expected ∧
      median evidence.sessionCumulativeVolumes = some expected := by
  simp only [IntradayVolumeProfileEvidence.isValid, decide_eq_true_eq] at h
  obtain ⟨-, -, -, -, -, -, -, -, -, -, -, hvolumes, hmedian, -, -⟩ := h
  obtain ⟨expected, hexpected, heq⟩ := Option.map_eq_some_iff.1 hmedian
  refine ⟨expected, median_pos hexpected fun value hvalue => ?_, heq.symm, hexpected⟩
  exact of_decide_eq_true (List.all_eq_true.1 hvolumes value hvalue)

/-! ## Minutes -/

structure CompletedMinuteBar where
  startAt : DateTime
  endAt : DateTime
  open_ : Decimal
  high : Decimal
  low : Decimal
  close : Decimal
  volume : ℤ
  deriving DecidableEq, Repr

def isPositivePrice (price : Decimal) : Bool := price.isFinite ∧ 0 < price

def validOhlcv (bar : CompletedMinuteBar) : Bool :=
  0 ≤ bar.volume ∧ [bar.open_, bar.high, bar.low, bar.close].all isPositivePrice ∧
    bar.low ≤ Decimal.min bar.open_ bar.close ∧ Decimal.max bar.open_ bar.close ≤ bar.high

/-- A bar of one minute, with prices that fit together. -/
def CompletedMinuteBar.isMinute (bar : CompletedMinuteBar) : Bool :=
  bar.startAt.aware ∧ bar.endAt.aware ∧ bar.endAt - bar.startAt = TimeDelta.minutes 1 ∧
    validOhlcv bar

/-- Whether a bar starts where another one ends. -/
def CompletedMinuteBar.continues (previous bar : CompletedMinuteBar) : Bool :=
  bar.startAt.instant = previous.endAt.instant ∧ previous.startAt < bar.startAt

/-- The loop of `_bars_are_valid_contiguous`. -/
def areContiguousFrom : Option CompletedMinuteBar → List CompletedMinuteBar → Bool
  | _, [] => true
  | previous, bar :: bars =>
    bar.isMinute ∧ previous.all (·.continues bar) ∧ areContiguousFrom (some bar) bars

def barsAreValidContiguous (bars : List CompletedMinuteBar) : Bool :=
  bars ≠ [] ∧ areContiguousFrom none bars

theorem areContiguousFrom_iff {previous : Option CompletedMinuteBar}
    {bars : List CompletedMinuteBar} : areContiguousFrom previous bars = true ↔
      (∀ bar ∈ bars, bar.isMinute = true) ∧
      (∀ p ∈ previous, ∀ bar ∈ bars.head?, p.continues bar = true) ∧
      bars.IsChain (·.continues ·) := by
  induction bars generalizing previous with
  | nil => simp [areContiguousFrom]
  | cons bar bars ih =>
    rw [areContiguousFrom, decide_eq_true_eq, ih, List.forall_mem_cons]
    cases previous <;> cases bars <;> simp [List.isChain_cons_cons] <;> tauto

/-! ## Snapshots -/

inductive FeatureSnapshotStatus
  | ready
  | blockedGap
  | blockedStale
  | blockedInsufficientHistory
  deriving DecidableEq, Repr

structure IntradayFeatureSnapshot where
  identity : ResearchInputIdentity
  volumeProfile : IntradayVolumeProfileEvidence
  instrumentId : String
  observedAt : DateTime
  status : FeatureSnapshotStatus
  sourceStartAt : Option DateTime
  sourceEndAt : Option DateTime
  barCount : ℕ
  indicatorSemanticVersion : String
  close : Option ℚ
  vwap : Option ℚ
  atr14 : Option ℚ
  rsi14 : Option ℚ
  macdLine : Option ℚ
  macdSignal : Option ℚ
  macdHistogram : Option ℚ
  rvol : Option ℚ
  breakoutCloseAbovePriorHigh : Option Bool
  deriving DecidableEq, Repr

end TradingAgent.IntradayFeature
