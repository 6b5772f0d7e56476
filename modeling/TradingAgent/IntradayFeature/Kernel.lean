import Mathlib.Data.List.Chain
import Mathlib.Order.Bounds.Basic
import TradingAgent.IntradayFeature.Indicators
import TradingAgent.IntradayFeature.Models

/-!
# The feature kernel

The features of the completed minutes of an instrument (`buildIntradayFeatureSnapshot`), which are
blocked unless the bars are as many as the profile expects, contiguous, fresh and traded.

* For a profile of the instrument and of the day, a snapshot is returned. It is ready exactly if the
  bars are (`AreReady`), and its values are then what their definitions say
  (`buildIntradayFeatureSnapshot_sound`).
* The bars are only counted: they are the first minutes of the session exactly if the first one
  starts at the open (`areFirstMinutes_iff`), which is for the caller to see to.
-/

namespace TradingAgent.IntradayFeature

open Except

def MINIMUM_BARS : ℕ := 35
def MAX_STALENESS : TimeDelta := .minutes 2
def INDICATOR_SEMANTIC_VERSION : String := "intraday_completed_minute_v2"

def safeAwareDatetime (value : DateTime) : Option DateTime :=
  if value.aware then some value else none

def pricePoint (bar : CompletedMinuteBar) : IntradayPricePoint :=
  ⟨bar.high.toRat, bar.low.toRat, bar.close.toRat⟩

def totalVolume (bars : List CompletedMinuteBar) : ℚ := (bars.map fun bar => (bar.volume : ℚ)).sum

def typicalPrice (bar : CompletedMinuteBar) : ℚ :=
  (bar.high.toRat + bar.low.toRat + bar.close.toRat) / 3

def typicalPriceVolume (bars : List CompletedMinuteBar) : ℚ :=
  (bars.map fun bar => typicalPrice bar * bar.volume).sum

/-- The greatest high of some bars: the builtin `max`, which raises a `ValueError` if there are
    none. -/
def greatestHigh : List CompletedMinuteBar → Except IntradayFeatureError ℚ
  | [] => .error .value
  | bar :: bars => .ok (bars.foldl (fun high bar => max high bar.high.toRat) bar.high.toRat)

/-- A snapshot without any features. -/
def blocked (identity : ResearchInputIdentity) (volumeProfile : IntradayVolumeProfileEvidence)
    (instrumentId : String) (observedAt : DateTime) (bars : List CompletedMinuteBar)
    (status : FeatureSnapshotStatus) : IntradayFeatureSnapshot where
  identity
  volumeProfile
  instrumentId
  observedAt
  status
  sourceStartAt := bars.head?.bind fun first => safeAwareDatetime first.startAt
  sourceEndAt := bars.getLast?.bind fun last => safeAwareDatetime last.endAt
  barCount := bars.length
  indicatorSemanticVersion := INDICATOR_SEMANTIC_VERSION
  close := none
  vwap := none
  atr14 := none
  rsi14 := none
  macdLine := none
  macdSignal := none
  macdHistogram := none
  rvol := none
  breakoutCloseAbovePriorHigh := none

/-- The snapshot of bars that are ready. -/
def featureSnapshot (identity : ResearchInputIdentity)
    (volumeProfile : IntradayVolumeProfileEvidence) (instrumentId : String) (observedAt : DateTime)
    (bars : List CompletedMinuteBar) (latest : CompletedMinuteBar) :
    Except IntradayFeatureError IntradayFeatureSnapshot := do
  let vwap ← divide (typicalPriceVolume bars) (totalVolume bars)
  let indicators ← calculateIntradayIndicators (bars.map pricePoint)
  let rvol ← divide (totalVolume bars) volumeProfile.expectedCumulativeVolume.toRat
  let priorHigh ← greatestHigh bars.dropLast
  return {
    blocked identity volumeProfile instrumentId observedAt bars .ready with
    close := some latest.close.toRat
    vwap := some vwap
    atr14 := some indicators.atr14
    rsi14 := some indicators.rsi14
    macdLine := some indicators.macdLine
    macdSignal := some indicators.macdSignal
    macdHistogram := some indicators.macdHistogram
    rvol := some rvol
    breakoutCloseAbovePriorHigh := some (priorHigh < latest.close.toRat) }

def buildIntradayFeatureSnapshot (env : FeatureEnvironment) (identity : ResearchInputIdentity)
    (instrumentId : String) (observedAt : DateTime) (bars : List CompletedMinuteBar)
    (volumeProfile : IntradayVolumeProfileEvidence) :
    Except IntradayFeatureError IntradayFeatureSnapshot := do
  raiseIf (instrumentId = "") .invalidInput
  raiseIf (observedAt.aware = false) .invalidInput
  raiseIf (volumeProfile.isValid env.sha = false) .invalidInput
  raiseIf (volumeProfile.instrumentId ≠ instrumentId ∨
    volumeProfile.targetSessionDate ≠ (observedAt.astimezone env.newYork).date) .invalidInput
  raiseIf (volumeProfile.throughMinute < bars.length) .invalidInput
  let blocked := blocked identity volumeProfile instrumentId observedAt bars
  if barsAreValidContiguous bars = false then
    return blocked .blockedGap
  else if (bars.length : ℤ) < max (MINIMUM_BARS : ℤ) volumeProfile.throughMinute then
    return blocked .blockedInsufficientHistory
  else
    match bars.getLast? with
    | none => .error .index
    | some latest =>
      if observedAt ≤ latest.endAt ∨ MAX_STALENESS < observedAt - latest.endAt then
        return blocked .blockedStale
      else if totalVolume bars ≤ 0 then
        return blocked .blockedInsufficientHistory
      else
        featureSnapshot identity volumeProfile instrumentId observedAt bars latest

/-! ## What is ready -/

/-- As many bars as the profile expects, and enough of them for the indicators, one after another
    up to now, and traded. -/
structure AreReady (profile : IntradayVolumeProfileEvidence) (observedAt : DateTime)
    (bars : List CompletedMinuteBar) : Prop where
  count : (bars.length : ℤ) = profile.throughMinute
  minimum : MINIMUM_BARS ≤ bars.length
  minutes : ∀ bar ∈ bars, bar.isMinute = true
  contiguous : bars.IsChain (·.continues ·)
  fresh : ∀ latest ∈ bars.getLast?,
    latest.endAt < observedAt ∧ observedAt - latest.endAt ≤ MAX_STALENESS
  volume : 0 < totalVolume bars

/-- The bars are the first minutes of the session of a profile, as many as it expects. -/
def AreFirstMinutes (env : FeatureEnvironment) (profile : IntradayVolumeProfileEvidence)
    (bars : List CompletedMinuteBar) : Prop :=
  ∃ bounds opening, regularSessionBounds profile.targetSessionDate = some bounds ∧
    opening + env.newYork.utcoffset opening = bounds.opens ∧
    (bars.length : ℤ) = profile.throughMinute ∧ profile.throughMinute ≤ sessionMinutes bounds ∧
    ∀ i (hi : i < bars.length), bars[i].startAt.instant = opening + TimeDelta.minutes i ∧
      bars[i].endAt.instant = opening + TimeDelta.minutes (i + 1)

/-- A valid profile of the instrument and of the day, and no more bars than it expects. -/
structure IsRequested (env : FeatureEnvironment) (instrumentId : String) (observedAt : DateTime)
    (bars : List CompletedMinuteBar) (profile : IntradayVolumeProfileEvidence) : Prop where
  aware : observedAt.aware = true
  valid : profile.isValid env.sha = true
  instrument : profile.instrumentId = instrumentId
  date : profile.targetSessionDate = (observedAt.astimezone env.newYork).date
  count : (bars.length : ℤ) ≤ profile.throughMinute

/-- Whether the first bar starts at the open of the session of a profile. -/
def startsAtOpen (env : FeatureEnvironment) (profile : IntradayVolumeProfileEvidence)
    (bars : List CompletedMinuteBar) : Bool :=
  (regularSessionBounds profile.targetSessionDate).any fun bounds =>
    bars.head?.any fun first => (first.startAt.astimezone env.newYork).wall = bounds.opens

/-- The values of a snapshot are what their definitions say about the bars. -/
structure HasFeatures (profile : IntradayVolumeProfileEvidence) (bars : List CompletedMinuteBar)
    (snapshot : IntradayFeatureSnapshot) : Prop where
  vwap : ∃ vwap, snapshot.vwap = some vwap ∧
    vwap = typicalPriceVolume bars / totalVolume bars ∧
    (∀ lowest, IsLeast {low | ∃ bar ∈ bars, low = bar.low.toRat} lowest → lowest ≤ vwap) ∧
    ∀ highest, IsGreatest {high | ∃ bar ∈ bars, high = bar.high.toRat} highest → vwap ≤ highest
  atr : ∃ atr, snapshot.atr14 = some atr ∧ 0 ≤ atr ∧
    atr = wilderAverage (bars.map pricePoint) (trueRangeAt (bars.map pricePoint))
  rsi : ∃ rsi, snapshot.rsi14 = some rsi ∧ 0 ≤ rsi ∧ rsi ≤ 100 ∧ rsi = strengthOf
    (wilderAverage (bars.map pricePoint) fun i => gain (changeAt (bars.map pricePoint) i))
    (wilderAverage (bars.map pricePoint) fun i => loss (changeAt (bars.map pricePoint) i))
  macd : ∃ line signal, snapshot.macdLine = some line ∧ snapshot.macdSignal = some signal ∧
    snapshot.macdHistogram = some (line - signal) ∧
    line = macdAt (bars.map pricePoint) (bars.length - 1) ∧
    signal = macdSignalAt (bars.map pricePoint)
  rvol : ∃ expected, median profile.sessionCumulativeVolumes = some expected ∧
    profile.expectedCumulativeVolume = .finite expected ∧
    snapshot.rvol = some (totalVolume bars / expected)

section

variable {env : FeatureEnvironment} {identity : ResearchInputIdentity} {instrumentId : String}
  {observedAt : DateTime} {bars : List CompletedMinuteBar} {profile : IntradayVolumeProfileEvidence}

theorem barsAreValidContiguous_iff : barsAreValidContiguous bars = true ↔
    bars ≠ [] ∧ (∀ bar ∈ bars, bar.isMinute = true) ∧ bars.IsChain (·.continues ·) := by
  rw [barsAreValidContiguous, decide_eq_true_eq, areContiguousFrom_iff]
  simp

/-- The prices of a minute are between its low and its high. -/
theorem prices_of_isMinute {bar : CompletedMinuteBar} (h : bar.isMinute = true) :
    bar.low.toRat ≤ bar.close.toRat ∧ bar.close.toRat ≤ bar.high.toRat ∧ 0 ≤ bar.volume := by
  simp only [CompletedMinuteBar.isMinute, validOhlcv, decide_eq_true_eq, List.all_cons, List.all_nil,
    Bool.and_true, Bool.and_eq_true, isPositivePrice] at h
  obtain ⟨-, -, -, hvolume, ⟨⟨hopen, -⟩, ⟨hhigh, -⟩, ⟨hlow, -⟩, hclose, -⟩, hleast, hgreatest⟩ := h
  obtain ⟨o, ho⟩ := Decimal.isFinite_iff.1 hopen
  obtain ⟨g, hg⟩ := Decimal.isFinite_iff.1 hhigh
  obtain ⟨l, hl⟩ := Decimal.isFinite_iff.1 hlow
  obtain ⟨c, hc⟩ := Decimal.isFinite_iff.1 hclose
  rw [ho, hc, hl, Decimal.min_finite, Decimal.finite_le_finite, le_inf_iff] at hleast
  rw [ho, hc, hg, Decimal.max_finite, Decimal.finite_le_finite, sup_le_iff] at hgreatest
  rw [hl, hc, hg]
  exact ⟨hleast.2, hgreatest.2, hvolume⟩

theorem minute_of_isMinute {bar : CompletedMinuteBar} (h : bar.isMinute = true) :
    bar.endAt.instant = bar.startAt.instant + TimeDelta.minutes 1 := by
  simp only [CompletedMinuteBar.isMinute, decide_eq_true_eq] at h
  have hminute : bar.endAt.instant - bar.startAt.instant = TimeDelta.minutes 1 := h.2.2.1
  omega

/-- Contiguous minutes follow one another by the minute. -/
theorem startAt_getElem (hminutes : ∀ bar ∈ bars, bar.isMinute = true)
    (hchain : bars.IsChain (·.continues ·)) {first : CompletedMinuteBar}
    (hfirst : bars.head? = some first) {i : ℕ} (hi : i < bars.length) :
    bars[i].startAt.instant = first.startAt.instant + TimeDelta.minutes i := by
  induction i with
  | zero =>
    rw [List.head?_eq_getElem?, List.getElem?_eq_getElem hi] at hfirst
    simp [Option.some.inj hfirst, TimeDelta.minutes, TimeDelta.seconds]
  | succ i ih =>
    have hnext := List.isChain_iff_getElem.1 hchain i hi
    simp only [CompletedMinuteBar.continues, decide_eq_true_eq] at hnext
    have hminute := minute_of_isMinute (hminutes _ (List.getElem_mem (Nat.lt_of_succ_lt hi)))
    rw [hnext.1, hminute, ih (Nat.lt_of_succ_lt hi)]
    simp only [TimeDelta.minutes, TimeDelta.seconds]
    push_cast
    ring

/-- Bars that are ready are the first minutes of the session exactly if the first of them starts at
    the open. -/
theorem areFirstMinutes_iff (hvalid : profile.isValid env.sha = true)
    (h : AreReady profile observedAt bars) :
    AreFirstMinutes env profile bars ↔ startsAtOpen env profile bars = true := by
  have hpos : 0 < bars.length := Nat.lt_of_lt_of_le (by decide) h.minimum
  obtain ⟨bounds, hbounds, hthrough⟩ : ∃ bounds,
      regularSessionBounds profile.targetSessionDate = some bounds ∧
        profile.throughMinute ≤ sessionMinutes bounds := by
    simp only [IntradayVolumeProfileEvidence.isValid, decide_eq_true_eq] at hvalid
    simpa [Option.any_eq_true] using hvalid.2.2.1
  have hfirst : bars.head? = some bars[0] := by
    rw [List.head?_eq_getElem?, List.getElem?_eq_getElem hpos]
  have hwall : (bars[0].startAt.astimezone env.newYork).wall =
      bars[0].startAt.instant + env.newYork.utcoffset bars[0].startAt.instant := rfl
  rw [startsAtOpen, hbounds, Option.any_some, hfirst, Option.any_some, decide_eq_true_eq, hwall]
  constructor
  · rintro ⟨bounds', opening, hbounds', hopens, -, -, hminutes⟩
    obtain rfl := Option.some.inj (hbounds.symm.trans hbounds')
    have hzero := (hminutes 0 hpos).1
    simp only [TimeDelta.minutes, TimeDelta.seconds, Nat.cast_zero, zero_mul, add_zero] at hzero
    rw [hzero, hopens]
  · intro hopens
    refine ⟨bounds, bars[0].startAt.instant, hbounds, hopens, h.count, hthrough, fun i hi => ?_⟩
    have hstart := startAt_getElem h.minutes h.contiguous hfirst hi
    refine ⟨hstart, ?_⟩
    rw [minute_of_isMinute (h.minutes _ (List.getElem_mem hi)), hstart]
    simp only [TimeDelta.minutes, TimeDelta.seconds]
    ring

/-- The average price by volume is between the lowest low and the highest high. -/
theorem vwap_mem (hminutes : ∀ bar ∈ bars, bar.isMinute = true) (hvolume : 0 < totalVolume bars) :
    (∀ lowest, IsLeast {low | ∃ bar ∈ bars, low = bar.low.toRat} lowest →
      lowest ≤ typicalPriceVolume bars / totalVolume bars) ∧
    ∀ highest, IsGreatest {high | ∃ bar ∈ bars, high = bar.high.toRat} highest →
      typicalPriceVolume bars / totalVolume bars ≤ highest := by
  have hweight : ∀ bar ∈ bars, 0 ≤ (bar.volume : ℚ) := fun bar hbar => by
    exact_mod_cast (prices_of_isMinute (hminutes bar hbar)).2.2
  constructor
  · intro lowest hlowest
    refine le_weightedAverage hweight hvolume fun bar hbar => ?_
    have hprices := prices_of_isMinute (hminutes bar hbar)
    have hle := hlowest.2 ⟨bar, hbar, rfl⟩
    rw [typicalPrice]
    linarith
  · intro highest hhighest
    refine weightedAverage_le hweight hvolume fun bar hbar => ?_
    have hprices := prices_of_isMinute (hminutes bar hbar)
    have hle := hhighest.2 ⟨bar, hbar, rfl⟩
    rw [typicalPrice]
    linarith

/-- The snapshot of bars that are ready. -/
theorem featureSnapshot_spec (hvalid : profile.isValid env.sha = true)
    (h : AreReady profile observedAt bars) {latest : CompletedMinuteBar} :
    ∃ snapshot, featureSnapshot identity profile instrumentId observedAt bars latest =
        .ok snapshot ∧
      snapshot.status = .ready ∧ HasFeatures profile bars snapshot := by
  obtain ⟨expected, hpos, hexpected, hmedian⟩ := expected_of_isValid hvalid
  have hlength : 35 ≤ (bars.map pricePoint).length := by
    rw [List.length_map]
    exact h.minimum
  have hhigh : ∃ high, greatestHigh bars.dropLast = .ok high := by
    cases hlast : bars.dropLast with
    | nil =>
      have hshort := congrArg List.length hlast
      rw [List.length_dropLast, List.length_nil] at hshort
      rw [List.length_map] at hlength
      omega
    | cons bar rest => exact ⟨_, rfl⟩
  obtain ⟨high, hhigh⟩ := hhigh
  have hranges : ∀ point ∈ bars.map pricePoint, point.low ≤ point.high := by
    intro point hpoint
    obtain ⟨bar, hbar, rfl⟩ := List.mem_map.1 hpoint
    have hprices := prices_of_isMinute (h.minutes bar hbar)
    exact hprices.1.trans hprices.2.1
  have hrsi := @rsi14_mem (bars.map pricePoint) (by omega)
  rw [featureSnapshot, divide, if_neg h.volume.ne', ok_bind, calculateIntradayIndicators_eq hlength,
    ok_bind, hexpected, Decimal.toRat_finite, divide, if_neg hpos.ne', ok_bind, hhigh, ok_bind]
  refine ⟨_, rfl, rfl, ⟨_, rfl, rfl, vwap_mem h.minutes h.volume⟩,
    ⟨_, rfl, zero_le_atr14 (by omega) hranges, rfl⟩, ⟨_, rfl, hrsi.1, hrsi.2, rfl⟩,
    ⟨_, _, rfl, rfl, rfl, by rw [List.length_map], rfl⟩, ⟨expected, hmedian, hexpected, rfl⟩⟩

/-- For what is requested a snapshot is returned, which is ready exactly if the bars are. -/
theorem exists_snapshot (h : IsRequested env instrumentId observedAt bars profile) :
    ∃ snapshot, buildIntradayFeatureSnapshot env identity instrumentId observedAt bars profile =
        .ok snapshot ∧
      (snapshot.status = .ready ↔ AreReady profile observedAt bars) ∧
      (snapshot.status = .ready → HasFeatures profile bars snapshot ∧
        (AreFirstMinutes env profile bars ↔ startsAtOpen env profile bars = true)) := by
  have hname : instrumentId ≠ "" := by
    have hvalid := h.valid
    simp only [IntradayVolumeProfileEvidence.isValid, decide_eq_true_eq] at hvalid
    exact h.instrument ▸ hvalid.1
  have hblocked : ∀ status ≠ FeatureSnapshotStatus.ready, ¬ AreReady profile observedAt bars →
      ∃ snapshot, (Except.ok (blocked identity profile instrumentId observedAt bars status) :
          Except IntradayFeatureError _) = .ok snapshot ∧
        (snapshot.status = .ready ↔ AreReady profile observedAt bars) ∧
        (snapshot.status = .ready → HasFeatures profile bars snapshot ∧
          (AreFirstMinutes env profile bars ↔ startsAtOpen env profile bars = true)) :=
    fun status hstatus hnot => ⟨_, rfl, iff_of_false hstatus hnot, fun heq => absurd heq hstatus⟩
  have hother : ¬ (profile.instrumentId ≠ instrumentId ∨
      profile.targetSessionDate ≠ (observedAt.astimezone env.newYork).date) :=
    not_or.2 ⟨not_not_intro h.instrument, not_not_intro h.date⟩
  rw [buildIntradayFeatureSnapshot, raiseIf_bind, if_neg hname, raiseIf_bind,
    if_neg (by simp [h.aware]), raiseIf_bind, if_neg (by simp [h.valid]), raiseIf_bind,
    if_neg hother, raiseIf_bind, if_neg (not_lt.2 h.count)]
  dsimp only
  by_cases hgap : barsAreValidContiguous bars = false
  · rw [if_pos hgap]
    refine hblocked _ (by simp) fun hready => ?_
    rw [← Bool.not_eq_true, barsAreValidContiguous_iff] at hgap
    refine hgap ⟨?_, hready.minutes, hready.contiguous⟩
    exact List.ne_nil_of_length_pos (Nat.lt_of_lt_of_le (by decide) hready.minimum)
  rw [if_neg hgap]
  by_cases hfew : (bars.length : ℤ) < max (MINIMUM_BARS : ℤ) profile.throughMinute
  · rw [if_pos hfew]
    refine hblocked _ (by simp) fun hready => ?_
    have hmax : max (MINIMUM_BARS : ℤ) profile.throughMinute ≤ bars.length :=
      max_le (by exact_mod_cast hready.minimum) hready.count.ge
    exact absurd hfew (not_lt.2 hmax)
  rw [Bool.not_eq_false, barsAreValidContiguous_iff] at hgap
  obtain ⟨hne, hminutes, hchain⟩ := hgap
  have hlast : bars.getLast? = some (bars.getLast hne) := List.getLast?_eq_getLast_of_ne_nil hne
  rw [if_neg hfew, hlast]
  dsimp only
  split_ifs with hstale hvolume
  · refine hblocked _ (by simp) fun hready => ?_
    obtain ⟨hbefore, hage⟩ := hready.fresh _ hlast
    rcases hstale with hle | hlt
    · exact DateTime.not_le.2 hbefore hle
    · exact absurd hage (not_le.2 hlt)
  · exact hblocked _ (by simp) fun hready => absurd hready.volume (not_lt.2 hvolume)
  · rw [not_lt, max_le_iff] at hfew
    rw [not_or] at hstale
    have hready : AreReady profile observedAt bars := by
      refine ⟨le_antisymm h.count hfew.2, by exact_mod_cast hfew.1, hminutes, hchain, ?_,
        not_le.1 hvolume⟩
      intro latest hlatest
      obtain rfl := Option.some.inj (hlast.symm.trans hlatest)
      exact ⟨DateTime.not_le.1 hstale.1, not_lt.1 hstale.2⟩
    obtain ⟨snapshot, hsnapshot, hstatus, hfeatures⟩ := @featureSnapshot_spec env identity
      instrumentId observedAt bars profile h.valid hready (bars.getLast hne)
    exact ⟨snapshot, hsnapshot, iff_of_true hstatus hready, fun _ =>
      ⟨hfeatures, areFirstMinutes_iff h.valid hready⟩⟩

/-- A snapshot is returned exactly for a valid profile of the instrument and of the day, and no more
    bars than it expects. It is ready exactly if the bars are ready, and its values are then what
    their definitions say. The bars are then the first minutes of the session, those that the
    expected volume is about, exactly if the first of them starts at the open. -/
theorem buildIntradayFeatureSnapshot_sound (env : FeatureEnvironment)
    (identity : ResearchInputIdentity) (instrumentId : String) (observedAt : DateTime)
    (bars : List CompletedMinuteBar) (profile : IntradayVolumeProfileEvidence) :
    (¬ IsRequested env instrumentId observedAt bars profile →
      buildIntradayFeatureSnapshot env identity instrumentId observedAt bars profile =
        .error .invalidInput) ∧
    (IsRequested env instrumentId observedAt bars profile → ∃ snapshot,
      buildIntradayFeatureSnapshot env identity instrumentId observedAt bars profile =
        .ok snapshot ∧
      (snapshot.status = .ready ↔ AreReady profile observedAt bars) ∧
      (snapshot.status = .ready → HasFeatures profile bars snapshot ∧
        (AreFirstMinutes env profile bars ↔ startsAtOpen env profile bars = true))) := by
  refine ⟨fun hnot => ?_, exists_snapshot⟩
  simp only [buildIntradayFeatureSnapshot, raiseIf_bind]
  split_ifs with hname haware hvalid hother hcount
  · rfl
  · rfl
  · rfl
  · rfl
  · rfl
  all_goals
    rw [not_or, not_not, not_not] at hother
    rw [Bool.not_eq_false] at haware hvalid
    exact absurd ⟨haware, hvalid, hother.1, hother.2, not_lt.1 hcount⟩ hnot

end

namespace FeatureSample

def hex (c : Char) : String := String.ofList (List.replicate 64 c)

def env : FeatureEnvironment where
  newYork := ⟨fun _ => .hours (-4)⟩
  sha := ⟨fun _ => hex 'a', fun _ => by decide +kernel⟩

def targetDate : Date := .ofCivil 2026 7 15

def identity (n : ℕ) : ResearchInputIdentity where
  scope := "us_minutes"
  datasetId := hex 'b'
  canonicalEventContentSha256 := hex 'c'
  rawManifestId := hex 'd'
  rawManifestContentSha256 := hex 'e'
  identitySha256 := String.ofList <|
    List.replicate 62 '0' ++ [Nat.digitChar (n / 10), Nat.digitChar (n % 10)]

/-- The volume of the first 35 minutes, 1000 on each of the days before. -/
def profile : IntradayVolumeProfileEvidence where
  instrumentId := "AAPL"
  targetSessionDate := targetDate
  throughMinute := 35
  sourceSessionDates := (intradayVolumeProfileSourceDates targetDate 35).getD []
  sourceIdentities := (List.range 20).map identity
  sessionCumulativeVolumes := List.replicate 20 1000
  expectedCumulativeVolume := .finite 1000
  semanticVersion := INTRADAY_VOLUME_PROFILE_VERSION
  evidenceSha256 := hex 'a'

/-- A minute after 9:30. -/
def minute (n : ℤ) : DateTime := .combine targetDate 9 (30 + n) (.hours (-4))

def bar (n : ℤ) : CompletedMinuteBar where
  startAt := minute n
  endAt := minute (n + 1)
  open_ := .finite 10
  high := .finite 11
  low := .finite 9
  close := .finite 10
  volume := 100

/-- The bars of 35 minutes, from one on. -/
def bars (first : ℤ) : List CompletedMinuteBar :=
  (List.range 35).map fun n => bar (first + (n : ℕ))

/-- A minute after the last of the bars. -/
def observedAt (first : ℤ) : DateTime := minute (first + 36)

theorem isValid_profile : profile.isValid env.sha = true := by decide +kernel

/-- The bars from 9:30 on are ready, and are those that the volume is expected of. -/
theorem first_minutes_are_ready : ∃ snapshot,
    buildIntradayFeatureSnapshot env (identity 0) "AAPL" (observedAt 0) (bars 0) profile =
        .ok snapshot ∧
      snapshot.status = .ready ∧ HasFeatures profile (bars 0) snapshot ∧
      AreFirstMinutes env profile (bars 0) := by
  obtain ⟨snapshot, hsnapshot, hready, hfeatures⟩ := (buildIntradayFeatureSnapshot_sound env
    (identity 0) "AAPL" (observedAt 0) (bars 0) profile).2
    ⟨rfl, isValid_profile, rfl, by decide +kernel, by decide +kernel⟩
  have hbars : AreReady profile (observedAt 0) (bars 0) :=
    ⟨rfl, by decide +kernel, by decide +kernel, by decide +kernel, by decide +kernel,
      by decide +kernel⟩
  have hstatus := hready.2 hbars
  exact ⟨snapshot, hsnapshot, hstatus, (hfeatures hstatus).1,
    (hfeatures hstatus).2.2 (by decide +kernel)⟩

/-- Although the profile is valid and there are no more bars than it expects, no snapshot is
    returned for another instrument. And the bars from 10:00 on are ready too, which are not those
    that the volume is expected of. -/
theorem late_minutes_are_ready : profile.isValid env.sha = true ∧
    ((bars 30).length : ℤ) ≤ profile.throughMinute ∧
    buildIntradayFeatureSnapshot env (identity 0) "MSFT" (observedAt 30) (bars 30) profile =
      .error .invalidInput ∧
    (∃ snapshot,
      buildIntradayFeatureSnapshot env (identity 0) "AAPL" (observedAt 30) (bars 30) profile =
        .ok snapshot ∧ snapshot.status = .ready) ∧
    ¬ AreFirstMinutes env profile (bars 30) := by
  refine ⟨isValid_profile, by decide +kernel, by decide +kernel, ?_, ?_⟩
  · have hstatus : (buildIntradayFeatureSnapshot env (identity 0) "AAPL" (observedAt 30) (bars 30)
        profile).map (·.status) = .ok .ready := by decide +kernel
    cases hsnapshot : buildIntradayFeatureSnapshot env (identity 0) "AAPL" (observedAt 30) (bars 30)
        profile with
    | error error => rw [hsnapshot] at hstatus; cases hstatus
    | ok snapshot =>
      rw [hsnapshot] at hstatus
      exact ⟨snapshot, rfl, Except.ok.inj hstatus⟩
  · -- The first of the bars starts at 10:00, and the session opens at 9:30.
    rintro ⟨bounds, opening, hbounds, hopens, -, -, hminutes⟩
    have hfirst := (hminutes 0 (by decide +kernel)).1
    have hopening : opening = (minute 30).instant := by
      simp only [TimeDelta.minutes, TimeDelta.seconds, Nat.cast_zero, zero_mul, add_zero] at hfirst
      exact hfirst.symm
    have hregular : regularSessionBounds profile.targetSessionDate =
        some ⟨targetDate.start + REGULAR_OPEN, targetDate.start + REGULAR_CLOSE⟩ := by
      decide +kernel
    rw [hregular] at hbounds
    obtain rfl := Option.some.inj hbounds
    rw [hopening] at hopens
    exact absurd hopens (by decide +kernel)

end FeatureSample

end TradingAgent.IntradayFeature
