import Mathlib.Algebra.BigOperators.Ring.List
import Mathlib.Algebra.Order.BigOperators.Group.List
import Mathlib.Algebra.Order.Field.Basic
import Mathlib.Tactic.Linarith
import Mathlib.Tactic.Ring

/-!
# Smoothed series

* A series is *smoothed* by starting with the average of its first values, the seed, and moving it
  towards each value that follows, by a weight (`smoothed`). With a weight between zero and one, it
  stays between the bounds of the series (`le_smoothed`, `smoothed_le`).
* A loop over a list that starts with the seed and moves it towards each value smooths the list
  (`foldl_eq_smoothed`, `getElem?_scanl_eq_smoothed`).
* The average of values by weights that are not negative is between the bounds of the values
  (`le_weightedAverage`, `weightedAverage_le`).
-/

section Smoothing

variable {K : Type*} [Field K]

/-- The average of the first values of a series, moved towards each of the values that follow, up to
    the one with a number, by a weight. -/
def smoothed (weight : K) (period : ℕ) (x : ℕ → K) : ℕ → K
  | 0 => ((List.range period).map x).sum / period
  | n + 1 =>
    smoothed weight period x n + weight * (x (period + n) - smoothed weight period x n)

variable {weight : K} {period : ℕ} {x : ℕ → K}

/-- What is smoothed depends on its values up to the last one alone. -/
theorem smoothed_congr {y : ℕ → K} {n : ℕ} (h : ∀ i < period + n, x i = y i) :
    smoothed weight period x n = smoothed weight period y n := by
  induction n with
  | zero =>
    have hsame : (List.range period).map x = (List.range period).map y :=
      List.map_congr_left fun i hi => h i (by simpa using hi)
    rw [smoothed, smoothed, hsame]
  | succ n ih => rw [smoothed, smoothed, ih fun i hi => h i (by omega), h (period + n) (by omega)]

/-! ## Loops -/

variable {l : List K} {step : K → K → K}

/-- A loop that starts with the average of the first values of a list and moves it towards those
    that follow smooths the list. -/
theorem foldl_eq_smoothed (hstep : ∀ s v, step s v = s + weight * (v - s))
    (hx : ∀ i (hi : i < l.length), x i = l[i]) {n : ℕ} (hn : period + n ≤ l.length) :
    ((l.drop period).take n).foldl step ((l.take period).sum / period) =
      smoothed weight period x n := by
  induction n with
  | zero =>
    have hseed : l.take period = (List.range period).map x := by
      refine List.ext_getElem (by simpa using hn) fun i hi hi' => ?_
      rw [List.getElem_take, List.getElem_map, List.getElem_range, hx]
    rw [List.take_zero, List.foldl_nil, smoothed, hseed]
  | succ n ih =>
    have hlt : period + n < l.length := by omega
    have htake : (l.drop period).take (n + 1) = (l.drop period).take n ++ [l[period + n]] := by
      rw [List.take_succ_eq_append_getElem (by rw [List.length_drop]; omega), List.getElem_drop]
    rw [htake, List.foldl_append, ih (by omega), List.foldl_cons, List.foldl_nil, hstep, smoothed,
      hx _ hlt]

/-- The loop over all values of a list. -/
theorem foldl_drop_eq_smoothed (hstep : ∀ s v, step s v = s + weight * (v - s))
    (hx : ∀ i (hi : i < l.length), x i = l[i]) (hperiod : period ≤ l.length) :
    (l.drop period).foldl step ((l.take period).sum / period) =
      smoothed weight period x (l.length - period) := by
  rw [← foldl_eq_smoothed hstep hx (by omega : period + (l.length - period) ≤ l.length),
    ← List.length_drop, List.take_length]

/-- All values of the loop. -/
theorem getElem?_scanl_eq_smoothed (hstep : ∀ s v, step s v = s + weight * (v - s))
    (hx : ∀ i (hi : i < l.length), x i = l[i]) {n : ℕ} (hn : period + n ≤ l.length) :
    ((l.drop period).scanl step ((l.take period).sum / period))[n]? =
      some (smoothed weight period x n) := by
  rw [List.getElem?_scanl, if_pos (by rw [List.length_drop]; omega),
    foldl_eq_smoothed hstep hx hn]

/-! ## Bounds -/

variable [LinearOrder K] [IsStrictOrderedRing K] {a : K} {n : ℕ}

theorem le_average (hperiod : 0 < period) (h : ∀ i < period, a ≤ x i) :
    a ≤ ((List.range period).map x).sum / period := by
  have hpos : (0 : K) < period := by exact_mod_cast hperiod
  have hsum := List.card_nsmul_le_sum ((List.range period).map x) a (by simpa using h)
  rw [List.length_map, List.length_range, nsmul_eq_mul] at hsum
  rw [le_div_iff₀ hpos]
  linarith

/-- A smoothed series does not fall below a lower bound of its values. -/
theorem le_smoothed (hzero : 0 ≤ weight) (hone : weight ≤ 1) (hperiod : 0 < period)
    (h : ∀ i < period + n, a ≤ x i) : a ≤ smoothed weight period x n := by
  induction n with
  | zero => exact le_average hperiod h
  | succ n ih =>
    have hprevious := ih fun i hi => h i (by omega)
    have hvalue := h (period + n) (by omega)
    have hmoved := mul_nonneg hzero (sub_nonneg.2 hvalue)
    have hkept := mul_nonneg (sub_nonneg.2 hone) (sub_nonneg.2 hprevious)
    rw [smoothed]
    linarith

/-- The smoothing of the negated series. -/
theorem smoothed_neg : smoothed weight period (fun i => -x i) n = -smoothed weight period x n := by
  induction n with
  | zero =>
    have hsum : ((List.range period).map fun i => -x i).sum = -((List.range period).map x).sum := by
      rw [List.sum_neg, List.map_map]
      rfl
    rw [smoothed, smoothed, hsum, neg_div]
  | succ n ih =>
    rw [smoothed, smoothed, ih]
    ring

/-- A smoothed series does not rise above an upper bound of its values. -/
theorem smoothed_le (hzero : 0 ≤ weight) (hone : weight ≤ 1) (hperiod : 0 < period)
    (h : ∀ i < period + n, x i ≤ a) : smoothed weight period x n ≤ a := by
  have hneg := le_smoothed hzero hone hperiod fun i hi => neg_le_neg (h i hi)
  rw [smoothed_neg] at hneg
  exact neg_le_neg_iff.1 hneg

end Smoothing

section WeightedAverage

variable {K α : Type*} [Field K] [LinearOrder K] [IsStrictOrderedRing K] {value weight : α → K}
  {l : List α} {a : K}

theorem le_weightedAverage (hweight : ∀ x ∈ l, 0 ≤ weight x) (htotal : 0 < (l.map weight).sum)
    (h : ∀ x ∈ l, a ≤ value x) :
    a ≤ (l.map fun x => value x * weight x).sum / (l.map weight).sum := by
  have hle : (l.map fun x => a * weight x).sum ≤ (l.map fun x => value x * weight x).sum :=
    List.sum_le_sum fun x hx => mul_le_mul_of_nonneg_right (h x hx) (hweight x hx)
  rw [List.sum_map_mul_left] at hle
  exact (le_div_iff₀ htotal).2 hle

theorem weightedAverage_le (hweight : ∀ x ∈ l, 0 ≤ weight x) (htotal : 0 < (l.map weight).sum)
    (h : ∀ x ∈ l, value x ≤ a) :
    (l.map fun x => value x * weight x).sum / (l.map weight).sum ≤ a := by
  have hle : (l.map fun x => value x * weight x).sum ≤ (l.map fun x => a * weight x).sum :=
    List.sum_le_sum fun x hx => mul_le_mul_of_nonneg_right (h x hx) (hweight x hx)
  rw [List.sum_map_mul_left] at hle
  exact (div_le_iff₀ htotal).2 hle

end WeightedAverage
