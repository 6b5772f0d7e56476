import Mathlib.Algebra.Order.Field.Rat
import Mathlib.Data.List.GetD
import Mathlib.Tactic.Ring
import TradingAgent.Library.Except
import TradingAgent.Library.Smoothing

/-!
# Indicators of completed minutes

The average true range, the relative strength index and the MACD of some price points, in order
(`calculateIntradayIndicators`), with exact arithmetic.

* From 35 points on, they are calculated without an error, and each of them is what its recursive
  definition says (`calculateIntradayIndicators_eq`): the loops smooth the series of the points
  (`smoothed`).
* The average true range is not negative, if no high is below its low, and the index is between 0
  and 100 (`zero_le_atr14`, `rsi14_mem`).
-/

namespace TradingAgent.IntradayFeature

open Except

/-- What the calls raise. -/
inductive IntradayFeatureError
  | invalidInput
  | runtime
  | index
  | value
  | zeroDivision
  deriving DecidableEq, Repr

structure IntradayPricePoint where
  high : ℚ
  low : ℚ
  close : ℚ
  deriving DecidableEq, Repr

structure IntradayIndicatorValues where
  atr14 : ℚ
  rsi14 : ℚ
  macdLine : ℚ
  macdSignal : ℚ
  macdHistogram : ℚ
  deriving DecidableEq, Repr

def divide (a b : ℚ) : Except IntradayFeatureError ℚ :=
  if b = 0 then .error .zeroDivision else .ok (a / b)

/-- The true range of a point that follows a close. -/
def trueRangeFrom (previousClose : ℚ) (point : IntradayPricePoint) : ℚ :=
  max (max (point.high - point.low) |point.high - previousClose|) |point.low - previousClose|

def trueRangesFrom : ℚ → List IntradayPricePoint → List ℚ
  | _, [] => []
  | previousClose, point :: points =>
    trueRangeFrom previousClose point :: trueRangesFrom point.close points

def trueRanges : List IntradayPricePoint → Except IntradayFeatureError (List ℚ)
  | [] => .error .index
  | first :: points => .ok ((first.high - first.low) :: trueRangesFrom first.close points)

/-- An average of 14 values, with one more value. -/
def wilder (average value : ℚ) : ℚ := (average * 13 + value) / 14

def wilderAtr14 (points : List IntradayPricePoint) : Except IntradayFeatureError ℚ := do
  let trueRanges ← trueRanges points
  return (trueRanges.drop 15).foldl wilder (((trueRanges.drop 1).take 14).sum / 14)

def changes (points : List IntradayPricePoint) : List ℚ :=
  List.zipWith (fun previous point => point.close - previous.close) points (points.drop 1)

def gain (change : ℚ) : ℚ := if 0 < change then change else 0
def loss (change : ℚ) : ℚ := if change < 0 then -change else 0

/-- The index of an average gain and an average loss. -/
def relativeStrengthIndex (avgGain avgLoss : ℚ) : Except IntradayFeatureError ℚ :=
  if avgLoss = 0 then
    .ok 100
  else do
    let rs ← divide avgGain avgLoss
    let part ← divide 100 (1 + rs)
    return 100 - part

def wilderRsi14 (points : List IntradayPricePoint) : Except IntradayFeatureError ℚ := do
  let gains := (changes points).map gain
  let losses := (changes points).map loss
  raiseIf ((gains.drop 14).length ≠ (losses.drop 14).length) .value
  let averages := ((gains.drop 14).zip (losses.drop 14)).foldl
    (fun average value => (wilder average.1 value.1, wilder average.2 value.2))
    ((gains.take 14).sum / 14, (losses.take 14).sum / 14)
  relativeStrengthIndex averages.1 averages.2

def emaSeries (values : List ℚ) (period : ℕ) : List (Option ℚ) :=
  if values.length < period then
    List.replicate values.length none
  else
    let multiplier := 2 / ((period : ℚ) + 1)
    List.replicate (period - 1) none ++
      ((values.drop period).scanl (fun previous value => (value - previous) * multiplier + previous)
        ((values.take period).sum / period)).map some

/-- The differences of two series, where both have a value. -/
def macdValues (emaFast emaSlow : List (Option ℚ)) : List ℚ :=
  (emaFast.zip emaSlow).filterMap fun (fast, slow) => do return (← fast) - (← slow)

def macd12269 (points : List IntradayPricePoint) : Except IntradayFeatureError (ℚ × ℚ × ℚ) := do
  let closes := points.map (·.close)
  let emaFast := emaSeries closes 12
  let emaSlow := emaSeries closes 26
  raiseIf (emaFast.length ≠ emaSlow.length) .value
  let values := macdValues emaFast emaSlow
  match values.getLast?, (emaSeries values 9).getLast? with
  | some macdLine, some (some macdSignal) => return (macdLine, macdSignal, macdLine - macdSignal)
  | some _, some none => .error .runtime
  | _, _ => .error .index

def calculateIntradayIndicators (points : List IntradayPricePoint) :
    Except IntradayFeatureError IntradayIndicatorValues := do
  let atr14 ← wilderAtr14 points
  let rsi14 ← wilderRsi14 points
  let (macdLine, macdSignal, macdHistogram) ← macd12269 points
  return { atr14, rsi14, macdLine, macdSignal, macdHistogram }

/-! ## The recursive definitions -/

/-- The point with a number. -/
def pointAt (points : List IntradayPricePoint) (i : ℕ) : IntradayPricePoint :=
  points.getD i ⟨0, 0, 0⟩

def closeAt (points : List IntradayPricePoint) (i : ℕ) : ℚ := (pointAt points i).close

/-- The true range of the point after the one with a number. -/
def trueRangeAt (points : List IntradayPricePoint) (i : ℕ) : ℚ :=
  trueRangeFrom (closeAt points i) (pointAt points (i + 1))

/-- The change from the point with a number to the next one. -/
def changeAt (points : List IntradayPricePoint) (i : ℕ) : ℚ :=
  closeAt points (i + 1) - closeAt points i

/-- The average over 14 values, up to the last one of a series with one value for each point but
    the first one. -/
def wilderAverage (points : List IntradayPricePoint) (x : ℕ → ℚ) : ℚ :=
  smoothed (1 / 14) 14 x (points.length - 15)

/-- The exponential average of the closes, up to the point with a number. -/
def emaAt (points : List IntradayPricePoint) (period i : ℕ) : ℚ :=
  smoothed (2 / ((period : ℚ) + 1)) period (closeAt points) (i + 1 - period)

/-- The difference of the fast and the slow average, at the point with a number. -/
def macdAt (points : List IntradayPricePoint) (i : ℕ) : ℚ := emaAt points 12 i - emaAt points 26 i

/-- The average of the differences, up to the last point. -/
def macdSignalAt (points : List IntradayPricePoint) : ℚ :=
  smoothed (2 / ((9 : ℕ) + 1)) 9 (fun k => macdAt points (25 + k)) (points.length - 34)

/-- The index of an average gain and an average loss that are not negative. -/
def strengthOf (avgGain avgLoss : ℚ) : ℚ :=
  if avgLoss = 0 then 100 else 100 - 100 / (1 + avgGain / avgLoss)

/-! ## The calculations -/

section

variable {points : List IntradayPricePoint}

theorem pointAt_eq {i : ℕ} (h : i < points.length) : pointAt points i = points[i] :=
  List.getD_eq_getElem _ _ h

theorem trueRangesFrom_eq (first : IntradayPricePoint) :
    trueRangesFrom first.close points =
      List.zipWith (fun previous => trueRangeFrom previous.close) (first :: points) points := by
  induction points generalizing first with
  | nil => rfl
  | cons point points ih => rw [trueRangesFrom, ih point, List.zipWith_cons_cons]

/-- The true ranges after the first one. -/
theorem trueRanges_eq (h : points ≠ []) : ∃ first, trueRanges points =
    .ok (first :: (List.range (points.length - 1)).map (trueRangeAt points)) := by
  cases points with
  | nil => exact absurd rfl h
  | cons first points =>
    refine ⟨_, congrArg (fun ranges => Except.ok (_ :: ranges)) ?_⟩
    rw [trueRangesFrom_eq]
    refine List.ext_getElem (by simp) fun i hi hi' => ?_
    have hlt : i < points.length := by simpa using hi'
    rw [List.getElem_zipWith, List.getElem_map, List.getElem_range, trueRangeAt, closeAt,
      pointAt_eq (by simp; omega), pointAt_eq (by simpa using hlt), List.getElem_cons_succ]

theorem wilder_eq (s v : ℚ) : wilder s v = s + 1 / 14 * (v - s) := by
  rw [wilder]
  ring

theorem wilderAtr14_eq (h : 15 ≤ points.length) :
    wilderAtr14 points = .ok (wilderAverage points (trueRangeAt points)) := by
  obtain ⟨first, hranges⟩ := @trueRanges_eq points (List.ne_nil_of_length_pos (by omega))
  have hsmooth := @foldl_drop_eq_smoothed ℚ _ (1 / 14) 14 (trueRangeAt points)
    ((List.range (points.length - 1)).map (trueRangeAt points)) wilder wilder_eq
    (fun i hi => by rw [List.getElem_map, List.getElem_range]) (by simp; omega)
  rw [wilderAtr14, hranges, ok_bind, wilderAverage]
  simp only [List.length_map, List.length_range, Nat.cast_ofNat] at hsmooth
  exact congrArg Except.ok hsmooth

theorem changes_eq : changes points = (List.range (points.length - 1)).map (changeAt points) := by
  refine List.ext_getElem (by simp [changes]) fun i hi hi' => ?_
  have hlt : i + 1 < points.length := by
    rw [List.length_map, List.length_range] at hi'
    omega
  simp only [changes, List.getElem_zipWith, List.getElem_drop, List.getElem_map,
    List.getElem_range]
  rw [changeAt, closeAt, closeAt, pointAt_eq hlt, pointAt_eq (by omega)]
  simp only [Nat.add_comm 1 i]

/-- Two averages that are taken side by side. -/
theorem foldl_zip {f g : ℚ → ℚ → ℚ} {l m : List ℚ} (h : l.length = m.length) (a b : ℚ) :
    (l.zip m).foldl (fun average value => (f average.1 value.1, g average.2 value.2)) (a, b) =
      (l.foldl f a, m.foldl g b) := by
  induction l generalizing m a b with
  | nil =>
    obtain rfl := List.length_eq_zero_iff.1 h.symm
    rfl
  | cons x l ih =>
    cases m with
    | nil => cases h
    | cons y m => exact ih (Nat.succ.inj h) _ _

theorem smoothed_changes {f : ℚ → ℚ} (h : 15 ≤ points.length) :
    (((changes points).map f).drop 14).foldl wilder ((((changes points).map f).take 14).sum / 14) =
      wilderAverage points fun i => f (changeAt points i) := by
  have hsmooth := @foldl_drop_eq_smoothed ℚ _ (1 / 14) 14 (fun i => f (changeAt points i))
    ((changes points).map f) wilder wilder_eq (fun i hi => by simp [changes_eq])
    (by simp [changes_eq]; omega)
  rw [List.length_map, changes_eq, List.length_map, List.length_range] at hsmooth
  rw [changes_eq]
  exact_mod_cast hsmooth

theorem relativeStrengthIndex_eq {avgGain avgLoss : ℚ} (hgain : 0 ≤ avgGain) (hloss : 0 ≤ avgLoss) :
    relativeStrengthIndex avgGain avgLoss = .ok (strengthOf avgGain avgLoss) := by
  rw [relativeStrengthIndex, strengthOf]
  split_ifs with hzero
  · rfl
  · have hrs : 0 ≤ avgGain / avgLoss := div_nonneg hgain hloss
    have hpos : 1 + avgGain / avgLoss ≠ 0 := by linarith
    rw [divide, if_neg hzero, ok_bind, divide, if_neg hpos]
    rfl

theorem strengthOf_mem {avgGain avgLoss : ℚ} (hgain : 0 ≤ avgGain) (hloss : 0 ≤ avgLoss) :
    0 ≤ strengthOf avgGain avgLoss ∧ strengthOf avgGain avgLoss ≤ 100 := by
  rw [strengthOf]
  split_ifs
  · exact ⟨by norm_num, le_rfl⟩
  · have hone : 1 ≤ 1 + avgGain / avgLoss := le_add_of_nonneg_right (div_nonneg hgain hloss)
    have hpart : 100 / (1 + avgGain / avgLoss) ≤ 100 := div_le_self (by norm_num) hone
    have hnonneg : 0 ≤ 100 / (1 + avgGain / avgLoss) := by positivity
    constructor <;> linarith

theorem gain_nonneg (change : ℚ) : 0 ≤ gain change := by
  rw [gain]
  split_ifs with h
  · exact h.le
  · exact le_rfl

theorem loss_nonneg (change : ℚ) : 0 ≤ loss change := by
  rw [loss]
  split_ifs with h
  · exact neg_nonneg.2 h.le
  · exact le_rfl

theorem wilderAverage_nonneg {x : ℕ → ℚ} (h : 15 ≤ points.length)
    (hx : ∀ i, i + 1 < points.length → 0 ≤ x i) : 0 ≤ wilderAverage points x :=
  le_smoothed (by norm_num) (by norm_num) (by norm_num) fun i hi => hx i (by omega)

theorem wilderRsi14_eq (h : 15 ≤ points.length) : wilderRsi14 points =
    .ok (strengthOf (wilderAverage points fun i => gain (changeAt points i))
      (wilderAverage points fun i => loss (changeAt points i))) := by
  have hlength : (((changes points).map gain).drop 14).length =
      (((changes points).map loss).drop 14).length := by simp
  rw [wilderRsi14]
  dsimp only
  rw [raiseIf, if_neg (not_not_intro hlength), ok_bind, foldl_zip hlength, smoothed_changes h,
    smoothed_changes h]
  exact relativeStrengthIndex_eq (wilderAverage_nonneg h fun _ _ => gain_nonneg _)
    (wilderAverage_nonneg h fun _ _ => loss_nonneg _)

/-! ## The MACD -/

/-- The exponential average of a list, at each of its values. -/
theorem emaSeries_eq {values : List ℚ} {period : ℕ} {x : ℕ → ℚ} (hpos : 0 < period)
    (hlength : period ≤ values.length) (hx : ∀ i (hi : i < values.length), x i = values[i]) :
    emaSeries values period = (List.range values.length).map fun i =>
      if i + 1 < period then none
      else some (smoothed (2 / ((period : ℚ) + 1)) period x (i + 1 - period)) := by
  rw [emaSeries, if_neg (not_lt.2 hlength)]
  dsimp only
  refine List.ext_getElem? fun i => ?_
  rw [List.getElem?_map, List.getElem?_append, List.length_replicate]
  by_cases hi : i < values.length
  swap
  · have hrange : (List.range values.length)[i]? = none :=
      List.getElem?_eq_none (by rw [List.length_range]; omega)
    rw [hrange, if_neg (by omega)]
    exact List.getElem?_eq_none (by simp; omega)
  rw [List.getElem?_range hi, Option.map_some]
  by_cases hwarm : i < period - 1
  · rw [if_pos hwarm, if_pos (by omega), List.getElem?_replicate, if_pos hwarm]
  · have hstep : ∀ s v : ℚ, (v - s) * (2 / ((period : ℚ) + 1)) + s =
        s + 2 / ((period : ℚ) + 1) * (v - s) := fun s v => by ring
    rw [if_neg hwarm, if_neg (by omega), List.getElem?_map,
      getElem?_scanl_eq_smoothed hstep hx (by omega : period + (i - (period - 1)) ≤ _)]
    rw [show i - (period - 1) = i + 1 - period by omega]
    rfl

theorem closes_eq : ∀ i (hi : i < (points.map (·.close)).length),
    closeAt points i = (points.map (·.close))[i] := by
  intro i hi
  rw [List.getElem_map, closeAt, pointAt_eq (by simpa using hi)]

/-- The differences of the averages, from the 26th point on. -/
theorem macdValues_eq (h : 26 ≤ points.length) :
    macdValues (emaSeries (points.map (·.close)) 12) (emaSeries (points.map (·.close)) 26) =
      (List.range (points.length - 25)).map fun k => macdAt points (25 + k) := by
  rw [emaSeries_eq (by norm_num) (by simp; omega) closes_eq,
    emaSeries_eq (by norm_num) (by simp; omega) closes_eq, List.length_map, macdValues,
    List.zip_map', List.filterMap_map]
  obtain ⟨n, hn⟩ := Nat.exists_eq_add_of_le (by omega : 25 ≤ points.length)
  rw [hn, List.range_add, List.filterMap_append, Nat.add_sub_cancel_left]
  have hwarm : (List.range 25).filterMap ((fun x : Option ℚ × Option ℚ =>
      do return (← x.1) - (← x.2)) ∘ fun i => (
        if i + 1 < 12 then none
        else some (smoothed (2 / (((12 : ℕ) : ℚ) + 1)) 12 (closeAt points) (i + 1 - 12)),
        if i + 1 < 26 then none
        else some (smoothed (2 / (((26 : ℕ) : ℚ) + 1)) 26 (closeAt points) (i + 1 - 26)))) = [] := by
    refine List.filterMap_eq_nil_iff.2 fun i hi => ?_
    have hslow : i + 1 < 26 := by
      have hlt := List.mem_range.1 hi
      omega
    simp only [Function.comp_apply, if_pos hslow]
    split_ifs <;> rfl
  rw [hwarm, List.nil_append, List.filterMap_map, ← List.filterMap_eq_map]
  refine List.filterMap_congr fun k _ => ?_
  rw [Function.comp_apply, Function.comp_apply, if_neg (by omega), if_neg (by omega)]
  rfl

theorem macd12269_eq (h : 34 ≤ points.length) : macd12269 points =
    .ok (macdAt points (points.length - 1), macdSignalAt points,
      macdAt points (points.length - 1) - macdSignalAt points) := by
  have hvalues := @macdValues_eq points (by omega)
  have hlength : (emaSeries (points.map (·.close)) 12).length =
      (emaSeries (points.map (·.close)) 26).length := by
    rw [emaSeries_eq (by norm_num) (by simp; omega) closes_eq,
      emaSeries_eq (by norm_num) (by simp; omega) closes_eq]
    simp only [List.length_map, List.length_range]
  rw [macd12269]
  dsimp only
  rw [raiseIf, if_neg (not_not_intro hlength), ok_bind, hvalues]
  obtain ⟨n, hn⟩ := Nat.exists_eq_add_of_le h
  have hsub : points.length - 25 = n + 8 + 1 := by omega
  have hsignal := @emaSeries_eq ((List.range (points.length - 25)).map fun k =>
    macdAt points (25 + k)) 9 (fun k => macdAt points (25 + k)) (by norm_num) (by simp; omega)
    (fun i hi => by rw [List.getElem_map, List.getElem_range])
  rw [hsignal, List.length_map, List.length_range, hsub, List.range_succ, List.map_append,
    List.map_append, List.getLast?_append, List.getLast?_append]
  simp only [List.map_cons, List.map_nil, List.getLast?_singleton, Option.some_or]
  rw [if_neg (by omega), macdSignalAt]
  have hlast : points.length - 1 = 25 + (n + 8) := by omega
  have hcount : points.length - 34 = n + 8 + 1 - 9 := by omega
  rw [hlast, hcount]
  rfl

/-- From 35 points on, the indicators are calculated, and are what their definitions say. -/
theorem calculateIntradayIndicators_eq (h : 35 ≤ points.length) :
    calculateIntradayIndicators points = .ok {
      atr14 := wilderAverage points (trueRangeAt points)
      rsi14 := strengthOf (wilderAverage points fun i => gain (changeAt points i))
        (wilderAverage points fun i => loss (changeAt points i))
      macdLine := macdAt points (points.length - 1)
      macdSignal := macdSignalAt points
      macdHistogram := macdAt points (points.length - 1) - macdSignalAt points } := by
  rw [calculateIntradayIndicators, wilderAtr14_eq (by omega), ok_bind, wilderRsi14_eq (by omega),
    ok_bind, macd12269_eq (by omega)]
  rfl

/-! ## Bounds -/

theorem zero_le_atr14 (h : 15 ≤ points.length) (hrange : ∀ point ∈ points, point.low ≤ point.high) :
    0 ≤ wilderAverage points (trueRangeAt points) := by
  refine wilderAverage_nonneg h fun i hi => ?_
  have hpoint : (pointAt points (i + 1)).low ≤ (pointAt points (i + 1)).high := by
    rw [pointAt_eq hi]
    exact hrange _ (List.getElem_mem hi)
  exact (sub_nonneg.2 hpoint).trans ((le_max_left _ _).trans (le_max_left _ _))

theorem rsi14_mem (h : 15 ≤ points.length) :
    0 ≤ strengthOf (wilderAverage points fun i => gain (changeAt points i))
        (wilderAverage points fun i => loss (changeAt points i)) ∧
      strengthOf (wilderAverage points fun i => gain (changeAt points i))
        (wilderAverage points fun i => loss (changeAt points i)) ≤ 100 :=
  strengthOf_mem (wilderAverage_nonneg h fun _ _ => gain_nonneg _)
    (wilderAverage_nonneg h fun _ _ => loss_nonneg _)

end

end TradingAgent.IntradayFeature
