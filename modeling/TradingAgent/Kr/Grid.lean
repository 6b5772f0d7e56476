import Mathlib.Tactic.NormNum
import TradingAgent.Kr.Models
import TradingAgent.Library.Rounding

/-!
# The price grid

The prices of the exchange are the multiples of a step that depends on the price
(`krEquityTickSize`). A price is rounded down or up to the grid by the step of the price itself,
and arrives at a price of the grid, also where the next band begins. On whole prices, rounding up
gives the least price of the grid from there on (`roundKrEquityPriceUp_spec`).
-/

namespace TradingAgent.Kr

/-- `to_integral_value(rounding=ROUND_FLOOR)` -/
def integralFloor (d : Decimal) : Decimal := .finite ⌊d.toRat⌋

/-- `to_integral_value(rounding=ROUND_CEILING)` -/
def integralCeil (d : Decimal) : Decimal := .finite ⌈d.toRat⌉

/-- The price of the grid below a price, if there is a positive one. -/
def roundKrEquityPriceDown (price : Decimal) : Option Decimal :=
  (krEquityTickSize price).bind fun tick =>
    let rounded := (integralFloor (price / tick).rounded * tick).rounded
    if rounded ≤ 0 then none else some rounded

def roundKrEquityPriceUp (price : Decimal) : Option Decimal :=
  (krEquityTickSize price).map fun tick => (integralCeil (price / tick).rounded * tick).rounded

/-! ## Bands -/

/-- The step of a positive price. -/
def tickOf (q : ℚ) : ℤ :=
  if q < 2000 then 1
  else if q < 5000 then 5
  else if q < 20000 then 10
  else if q < 50000 then 50
  else if q < 200000 then 100
  else if q < 500000 then 500
  else 1000

theorem krEquityTickSize_finite {q : ℚ} (hq : 0 < q) :
    krEquityTickSize (.finite q) = some (.finite (tickOf q)) := by
  have hpos : ¬ (¬ (Decimal.finite q).isFinite = true ∨ Decimal.finite q ≤ 0) := by
    simpa using hq
  rw [krEquityTickSize, if_neg hpos, tickOf]
  simp only [Decimal.ofNat_eq, Decimal.finite_lt_finite, Nat.cast_ofNat]
  split_ifs <;> simp

/-- A band of prices that have the same step. -/
structure IsBand (q : ℚ) (low high : ℤ) : Prop where
  nonneg : 0 ≤ low
  low_le : (low : ℚ) ≤ q
  lt_high : q < high
  dvd_low : tickOf q ∣ low
  dvd_high : tickOf q ∣ high
  high_le : (high : ℚ) ≤ q + 500000
  same : ∀ n : ℤ, low ≤ n → n < high → tickOf n = tickOf q
  /-- The price where the next band begins is on the grid. -/
  onGrid : tickOf high ∣ high

theorem tickOf_pos (q : ℚ) : 0 < tickOf q := by
  rw [tickOf]
  split_ifs <;> norm_num

theorem tickOf_dvd (q : ℚ) : tickOf q ∣ 1000 := by
  rw [tickOf]
  split_ifs <;> norm_num

theorem tickOf_intCast (n : ℤ) : tickOf n =
    if n < 2000 then 1
    else if n < 5000 then 5
    else if n < 20000 then 10
    else if n < 50000 then 50
    else if n < 200000 then 100
    else if n < 500000 then 500
    else 1000 := by
  have hcast : ∀ m : ℤ, (n : ℚ) < m ↔ n < m := fun m => Int.cast_lt
  have h2000 := hcast 2000
  have h5000 := hcast 5000
  have h20000 := hcast 20000
  have h50000 := hcast 50000
  have h200000 := hcast 200000
  have h500000 := hcast 500000
  push_cast at h2000 h5000 h20000 h50000 h200000 h500000
  simp only [tickOf, h2000, h5000, h20000, h50000, h200000, h500000]

/-- The band of a price between two of its bounds. -/
theorem isBand_of_between {q : ℚ} {low high : ℤ} (hlow : (low : ℚ) ≤ q) (hhigh : q < high)
    (hnonneg : 0 ≤ low) (hwidth : high ≤ low + 500000) (hsame : ∀ n : ℤ, low ≤ n → n < high →
      tickOf n = tickOf q) (hdvd : tickOf q ∣ low ∧ tickOf q ∣ high) (hgrid : tickOf high ∣ high) :
    IsBand q low high where
  nonneg := hnonneg
  low_le := hlow
  lt_high := hhigh
  dvd_low := hdvd.1
  dvd_high := hdvd.2
  high_le := by
    have hcast : (high : ℚ) ≤ low + 500000 := by exact_mod_cast hwidth
    linarith
  same := hsame
  onGrid := hgrid

theorem exists_isBand {q : ℚ} (hq : 0 < q) : ∃ low high, IsBand q low high := by
  by_cases h1 : q < 2000
  · have htick : tickOf q = 1 := if_pos h1
    refine ⟨0, 2000, isBand_of_between (by simpa using hq.le) (by simpa using h1) le_rfl
      (by norm_num) (fun n _ hn => ?_) (by rw [htick]; norm_num) (by decide +kernel)⟩
    rw [htick, tickOf_intCast, if_pos hn]
  by_cases h2 : q < 5000
  · have htick : tickOf q = 5 := by rw [tickOf, if_neg h1, if_pos h2]
    refine ⟨2000, 5000, isBand_of_between (by simpa using h1) (by simpa using h2) (by norm_num)
      (by norm_num) (fun n hle hlt => ?_) (by rw [htick]; norm_num) (by decide +kernel)⟩
    rw [htick, tickOf_intCast]
    split_ifs <;> omega
  by_cases h3 : q < 20000
  · have htick : tickOf q = 10 := by rw [tickOf, if_neg h1, if_neg h2, if_pos h3]
    refine ⟨5000, 20000, isBand_of_between (by simpa using h2) (by simpa using h3) (by norm_num)
      (by norm_num) (fun n hle hlt => ?_) (by rw [htick]; norm_num) (by decide +kernel)⟩
    rw [htick, tickOf_intCast]
    split_ifs <;> omega
  by_cases h4 : q < 50000
  · have htick : tickOf q = 50 := by rw [tickOf, if_neg h1, if_neg h2, if_neg h3, if_pos h4]
    refine ⟨20000, 50000, isBand_of_between (by simpa using h3) (by simpa using h4) (by norm_num)
      (by norm_num) (fun n hle hlt => ?_) (by rw [htick]; norm_num) (by decide +kernel)⟩
    rw [htick, tickOf_intCast]
    split_ifs <;> omega
  by_cases h5 : q < 200000
  · have htick : tickOf q = 100 := by
      rw [tickOf, if_neg h1, if_neg h2, if_neg h3, if_neg h4, if_pos h5]
    refine ⟨50000, 200000, isBand_of_between (by simpa using h4) (by simpa using h5)
      (by norm_num) (by norm_num) (fun n hle hlt => ?_) (by rw [htick]; norm_num)
      (by decide +kernel)⟩
    rw [htick, tickOf_intCast]
    split_ifs <;> omega
  by_cases h6 : q < 500000
  · have htick : tickOf q = 500 := by
      rw [tickOf, if_neg h1, if_neg h2, if_neg h3, if_neg h4, if_neg h5, if_pos h6]
    refine ⟨200000, 500000, isBand_of_between (by simpa using h5) (by simpa using h6)
      (by norm_num) (by norm_num) (fun n hle hlt => ?_) (by rw [htick]; norm_num)
      (by decide +kernel)⟩
    rw [htick, tickOf_intCast]
    split_ifs <;> omega
  -- The last band has no end: any multiple of its step does.
  have htick : tickOf q = 1000 := by
    rw [tickOf, if_neg h1, if_neg h2, if_neg h3, if_neg h4, if_neg h5, if_neg h6]
  have hlast : ∀ n : ℤ, 500000 ≤ n → tickOf n = 1000 := fun n hn => by
    rw [tickOf_intCast]
    split_ifs <;> omega
  have hfloor := Int.floor_le (q / 1000)
  have hnext := Int.lt_floor_add_one (q / 1000)
  have hbig : (500 : ℤ) ≤ ⌊q / 1000⌋ := by
    refine Int.le_floor.2 ?_
    push_cast
    linarith [not_lt.1 h6]
  refine ⟨⌊q / 1000⌋ * 1000, (⌊q / 1000⌋ + 1) * 1000, isBand_of_between ?_ ?_ (by omega)
    (by omega) (fun n hle _ => ?_) ?_ ?_⟩
  · push_cast
    linarith
  · push_cast
    linarith
  · rw [htick, hlast n (by omega)]
  · rw [htick]
    exact ⟨⟨_, mul_comm _ _⟩, ⟨_, mul_comm _ _⟩⟩
  · rw [hlast _ (by omega)]
    exact ⟨_, mul_comm _ _⟩

/-! ## Prices of the grid -/

/-- A whole price is on the grid. -/
def OnGrid (n : ℤ) : Prop := 0 < n ∧ tickOf n ∣ n

/-- The valid prices of fewer than 28 digits are the whole prices on the grid. -/
theorem isValidKrEquityPrice_intCast {n : ℤ} (hlt : n < 10 ^ 28) (h : OnGrid n) :
    isValidKrEquityPrice (.finite n) = true := by
  obtain ⟨hpos, k, hk⟩ := h
  have htick := tickOf_pos n
  have hcast : (0 : ℚ) < n := by exact_mod_cast hpos
  have hquotient : (n : ℚ) / (tickOf n : ℚ) = k := by
    rw [div_eq_iff (by exact_mod_cast htick.ne')]
    exact_mod_cast hk.trans (mul_comm _ _)
  have hkpos : 0 < k := by
    by_contra hnot
    exact absurd hpos (Int.not_lt.2 (hk ▸ mul_nonpos_of_nonneg_of_nonpos htick.le (not_lt.1 hnot)))
  have hksmall : k ≤ n := by
    conv_rhs => rw [hk]
    exact le_mul_of_one_le_left hkpos.le htick
  rw [isValidKrEquityPrice, krEquityTickSize_finite hcast]
  refine decide_eq_true ?_
  show (if (tickOf n : ℚ) = 0 ∨ _ then Decimal.nan else _) = Decimal.finite 0
  rw [hquotient, if_pos (show (0 : ℚ) ≤ k by exact_mod_cast hkpos.le), Int.floor_intCast, if_neg]
  · congr 1
    rw [← hquotient]
    field_simp
    ring
  · rintro (hzero | hlarge)
    · exact htick.ne' (by exact_mod_cast hzero)
    · rw [abs_of_pos hkpos] at hlarge
      omega

/-- A decimal without a remainder is a multiple. -/
theorem exists_eq_mul_of_mod_eq_zero {a b : ℚ}
    (h : Decimal.finite a % Decimal.finite b = .finite 0) : ∃ k : ℤ, a = b * k := by
  let quotient : ℤ := if 0 ≤ a / b then ⌊a / b⌋ else ⌈a / b⌉
  have hmod : (if b = 0 ∨ 10 ^ 28 ≤ |quotient| then Decimal.nan
      else .finite (a - b * quotient)) = .finite 0 := h
  split_ifs at hmod
  exact ⟨quotient, sub_eq_zero.1 (Decimal.finite.inj hmod)⟩

/-- A valid price is whole, and on the grid. -/
theorem onGrid_of_isValidKrEquityPrice {price : Decimal}
    (h : isValidKrEquityPrice price = true) : ∃ n : ℤ, price = .finite n ∧ OnGrid n := by
  rw [isValidKrEquityPrice, Option.any_eq_true] at h
  obtain ⟨tick, htick, hmod⟩ := h
  have hpos : price.isFinite = true ∧ ¬ price ≤ 0 := by
    rw [krEquityTickSize] at htick
    split_ifs at htick with hbad
    all_goals exact ⟨by simpa using (not_or.1 hbad).1, (not_or.1 hbad).2⟩
  obtain ⟨q, rfl⟩ := Decimal.isFinite_iff.1 hpos.1
  have hq : 0 < q := by simpa using hpos.2
  rw [krEquityTickSize_finite hq, Option.some.injEq] at htick
  subst htick
  obtain ⟨k, hk⟩ := exists_eq_mul_of_mod_eq_zero (of_decide_eq_true hmod)
  have hwhole : q = ((tickOf q * k : ℤ) : ℚ) := by
    push_cast
    exact hk
  refine ⟨tickOf q * k, by rw [← hwhole], ?_, ?_⟩
  · exact_mod_cast hwhole ▸ hq
  · rw [← hwhole]
    exact ⟨k, rfl⟩

/-! ## Rounding -/

/-- The quotient of a whole price by its step is a decimal of 28 digits. -/
theorem digits28_round_div {n : ℤ} {q : ℚ} (hpos : 0 < n) (hlt : n < 10 ^ 24) :
    Decimal.digits28.round ((n : ℚ) / tickOf q) = n / tickOf q := by
  obtain ⟨m, hm⟩ := tickOf_dvd q
  have htick := tickOf_pos q
  have hmpos : 0 < m := by
    by_contra hnot
    exact absurd hm (by nlinarith)
  have hmle : m ≤ 1000 := hm ▸ le_mul_of_one_le_left hmpos.le htick
  have hmcast : (tickOf q : ℚ) * m = 1000 := by exact_mod_cast hm.symm
  have hquotient : (n : ℚ) / tickOf q = ((n * m : ℤ) : ℚ) * 10 ^ (-3 : ℤ) := by
    have hthousand : (10 : ℚ) ^ (-3 : ℤ) = 1 / 1000 := by norm_num
    rw [div_eq_iff (by exact_mod_cast htick.ne'), hthousand, ← hmcast]
    push_cast
    have hmne : (m : ℚ) ≠ 0 := by exact_mod_cast hmpos.ne'
    have htickne : (tickOf q : ℚ) ≠ 0 := by exact_mod_cast htick.ne'
    field_simp
  rw [hquotient]
  exact Decimal.digits28_round_mul_zpow (-3) (mul_pos hpos hmpos) (by nlinarith)

theorem digits28_round_pos {q : ℚ} (hq : 0 < q) : 0 < Decimal.digits28.round q := by
  have hdigit : Decimal.digits28.lastDigit q ≤ Int.log 10 q := by
    rw [Decimal.Precision.lastDigit, Decimal.digits28]
    show Int.log 10 q - 27 ≤ Int.log 10 q
    omega
  obtain ⟨n, hn⟩ := Decimal.digits28.exists_mul_eq_zpow hdigit
  have hbelow : (Decimal.digits28.base : ℚ) ^ Int.log 10 q ≤ q :=
    Int.zpow_log_le_self (by decide) hq
  have hround := Decimal.digits28.le_round_of_le (hn.trans_le hbelow)
  exact (Decimal.digits28.base_zpow_pos _).trans_le (hn ▸ hround)

section Rounding

variable {q : ℚ} {low high : ℤ}

/-- The quotient by the step, in 28 digits. -/
def quotient28 (q : ℚ) : ℚ := Decimal.digits28.round (q / tickOf q)

theorem rounded_div_tick (hq : 0 < q) :
    (Decimal.finite q / Decimal.finite (tickOf q)).rounded = .finite (quotient28 q) := by
  have htick : (0 : ℚ) < tickOf q := by exact_mod_cast tickOf_pos q
  rw [Decimal.finite_div_finite htick.ne', Decimal.rounded_of_pos (div_pos hq htick), quotient28]

/-- The quotient stays between those of the bounds of the band. -/
theorem quotient28_between (hq : 0 < q) (hlt : q < 10 ^ 24) (hband : IsBand q low high) :
    ∃ l h : ℤ, low = tickOf q * l ∧ high = tickOf q * h ∧ 0 ≤ l ∧ h < 10 ^ 28 ∧
      (l : ℚ) ≤ quotient28 q ∧ quotient28 q ≤ h := by
  obtain ⟨l, hl⟩ := hband.dvd_low
  obtain ⟨h, hh⟩ := hband.dvd_high
  have htick := tickOf_pos q
  have hcast : (0 : ℚ) < tickOf q := by exact_mod_cast htick
  have hpos : 0 < q / tickOf q := div_pos hq hcast
  have hlnonneg : 0 ≤ l := by
    by_contra hneg
    have hlow := hband.nonneg
    rw [hl] at hlow
    exact absurd hlow (Int.not_le.2 (mul_neg_of_pos_of_neg htick (not_le.1 hneg)))
  have hlow : (l : ℚ) ≤ q / tickOf q := by
    rw [le_div_iff₀ hcast, mul_comm]
    exact_mod_cast hl ▸ hband.low_le
  have hhigh : q / tickOf q ≤ h := by
    rw [div_le_iff₀ hcast, mul_comm]
    exact_mod_cast hh ▸ hband.lt_high.le
  have hhpos : 0 < h := by exact_mod_cast hpos.trans_le hhigh
  have hhsmall : h < 10 ^ 28 := by
    have hle : h ≤ high := hh ▸ le_mul_of_one_le_left hhpos.le htick
    have hwidth : (high : ℚ) < 10 ^ 28 := by linarith [hband.high_le]
    exact lt_of_le_of_lt hle (by exact_mod_cast hwidth)
  refine ⟨l, h, hl, hh, hlnonneg, hhsmall, ?_, ?_⟩
  · rcases hlnonneg.eq_or_lt with hzero | hlpos
    · rw [← hzero, Int.cast_zero]
      exact (digits28_round_pos hpos).le
    · rw [← Decimal.digits28_round_intCast hlpos (by
        have hlh : (l : ℚ) ≤ h := hlow.trans hhigh
        exact lt_of_le_of_lt (by exact_mod_cast hlh) hhsmall)]
      exact Decimal.digits28.round_mono (by exact_mod_cast hlpos) hlow
  · rw [← Decimal.digits28_round_intCast hhpos hhsmall]
    exact Decimal.digits28.round_mono hpos hhigh

/-- The multiples of the step within a band, up to its end, are on the grid. -/
theorem IsBand.onGrid_mul (hband : IsBand q low high) {k : ℤ} (hpos : 0 < k)
    (hlow : low ≤ tickOf q * k) (hhigh : tickOf q * k ≤ high) : OnGrid (tickOf q * k) := by
  refine ⟨mul_pos (tickOf_pos q) hpos, ?_⟩
  rcases hhigh.eq_or_lt with heq | hlt
  · rw [heq]
    exact hband.onGrid
  · rw [hband.same _ hlow hlt]
    exact ⟨k, rfl⟩

theorem rounded_mul_tick {k : ℤ} (hpos : 0 < k) (hlt : tickOf q * k < 10 ^ 28) :
    (Decimal.finite k * Decimal.finite (tickOf q)).rounded = .finite (tickOf q * k : ℤ) := by
  have hmul : 0 < tickOf q * k := mul_pos (tickOf_pos q) hpos
  have hcast : (k : ℚ) * tickOf q = (tickOf q * k : ℤ) := by
    push_cast
    ring
  rw [Decimal.finite_mul_finite, hcast, Decimal.rounded_of_pos (by exact_mod_cast hmul),
    Decimal.digits28_round_intCast hmul hlt]

/-- A price of less than 24 digits is rounded up to a price of the grid. -/
theorem roundKrEquityPriceUp_onGrid (hq : 0 < q) (hlt : q < 10 ^ 24) :
    ∃ n : ℤ, roundKrEquityPriceUp (.finite q) = some (.finite n) ∧ OnGrid n ∧ n < 10 ^ 25 := by
  obtain ⟨low, high, hband⟩ := exists_isBand hq
  obtain ⟨l, h, hl, hh, hlnonneg, -, hlow, hhigh⟩ := quotient28_between hq hlt hband
  let k := ⌈quotient28 q⌉
  have hkpos : 0 < k := Int.ceil_pos.2 (digits28_round_pos
    (div_pos hq (by exact_mod_cast tickOf_pos q)))
  have hlk : l ≤ k := by exact_mod_cast hlow.trans (Int.le_ceil _)
  have hkh : k ≤ h := Int.ceil_le.2 hhigh
  have hupper : tickOf q * k ≤ high := hh ▸ mul_le_mul_of_nonneg_left hkh (tickOf_pos q).le
  have hsmall : high < 10 ^ 25 := by
    have hwidth : (high : ℚ) < 10 ^ 25 := by linarith [hband.high_le]
    exact_mod_cast hwidth
  refine ⟨tickOf q * k, ?_, hband.onGrid_mul hkpos
    (hl ▸ mul_le_mul_of_nonneg_left hlk (tickOf_pos q).le) hupper, hupper.trans_lt hsmall⟩
  rw [roundKrEquityPriceUp, krEquityTickSize_finite hq, Option.map_some, rounded_div_tick hq,
    integralCeil, Decimal.toRat_finite]
  rw [rounded_mul_tick hkpos (by omega)]

/-- A price of less than 24 digits is rounded down to a price of the grid, if it is at least one
    in 28 digits. -/
theorem roundKrEquityPriceDown_onGrid (hq : 0 < q) (hlt : q < 10 ^ 24)
    (hone : 1 ≤ Decimal.digits28.round q) :
    ∃ n : ℤ, roundKrEquityPriceDown (.finite q) = some (.finite n) ∧ OnGrid n ∧ n < 10 ^ 25 := by
  obtain ⟨low, high, hband⟩ := exists_isBand hq
  obtain ⟨l, h, hl, hh, hlnonneg, -, hlow, hhigh⟩ := quotient28_between hq hlt hband
  have htick := tickOf_pos q
  have hcast : (0 : ℚ) < tickOf q := by exact_mod_cast htick
  let k := ⌊quotient28 q⌋
  have hkpos : 0 < k := by
    refine Int.floor_pos.2 ?_
    by_cases hfirst : q < 2000
    · rw [quotient28, show tickOf q = 1 from if_pos hfirst, Int.cast_one, div_one]
      exact hone
    · -- In the other bands, a price is at least its step.
      have hle : (tickOf q : ℚ) ≤ q := by
        have hstep : tickOf q ≤ 1000 := Int.le_of_dvd (by norm_num) (tickOf_dvd q)
        have hstep' : (tickOf q : ℚ) ≤ 1000 := by exact_mod_cast hstep
        linarith [not_lt.1 hfirst]
      have hmono := Decimal.digits28.round_mono one_pos ((one_le_div₀ hcast).2 hle)
      have hround := Decimal.digits28_round_intCast one_pos (by norm_num : (1 : ℤ) < 10 ^ 28)
      rw [Int.cast_one] at hround
      rwa [hround] at hmono
  have hlk : l ≤ k := Int.le_floor.2 hlow
  have hkh : k ≤ h := by exact_mod_cast (Int.floor_le _).trans hhigh
  have hupper : tickOf q * k ≤ high := hh ▸ mul_le_mul_of_nonneg_left hkh htick.le
  have hsmall : high < 10 ^ 25 := by
    have hwidth : (high : ℚ) < 10 ^ 25 := by linarith [hband.high_le]
    exact_mod_cast hwidth
  have hgrid := hband.onGrid_mul hkpos (hl ▸ mul_le_mul_of_nonneg_left hlk htick.le) hupper
  refine ⟨tickOf q * k, ?_, hgrid, hupper.trans_lt hsmall⟩
  rw [roundKrEquityPriceDown, krEquityTickSize_finite hq, Option.bind_some, rounded_div_tick hq,
    integralFloor, Decimal.toRat_finite]
  dsimp only
  rw [rounded_mul_tick hkpos (by omega), if_neg]
  rw [Decimal.ofNat_eq, Decimal.finite_le_finite, Nat.cast_zero, not_le]
  exact_mod_cast hgrid.1

/-- A price of less than one, in 28 digits, is not rounded down. -/
theorem roundKrEquityPriceDown_eq_none (hq : 0 < q) (hone : Decimal.digits28.round q < 1) :
    roundKrEquityPriceDown (.finite q) = none := by
  have hfirst : q < 2000 := by
    by_contra hnot
    have hmono := Decimal.digits28.round_mono (by norm_num : (0 : ℚ) < 2000) (not_lt.1 hnot)
    have hround := Decimal.digits28_round_intCast (n := 2000) (by norm_num) (by norm_num)
    push_cast at hround
    linarith
  have htick : tickOf q = 1 := if_pos hfirst
  have hzero : ⌊quotient28 q⌋ = 0 := by
    rw [Int.floor_eq_zero_iff, quotient28, htick, Int.cast_one, div_one]
    exact ⟨Decimal.digits28.round_nonneg hq.le, hone⟩
  rw [roundKrEquityPriceDown, krEquityTickSize_finite hq, Option.bind_some, rounded_div_tick hq,
    integralFloor, Decimal.toRat_finite, hzero, htick]
  simp [Decimal.rounded]

/-- What is rounded from a price of 24 digits on has as many. -/
theorem quotient28_large (hlarge : 10 ^ 24 ≤ q) : ((10 ^ 21 : ℤ) : ℚ) ≤ quotient28 q := by
  have hq : 0 < q := lt_of_lt_of_le (by norm_num) hlarge
  have hstep : (tickOf q : ℚ) ≤ 1000 := by
    exact_mod_cast Int.le_of_dvd (by norm_num) (tickOf_dvd q)
  have hcast : (0 : ℚ) < tickOf q := by exact_mod_cast tickOf_pos q
  rw [← Decimal.digits28_round_intCast (n := 10 ^ 21) (by norm_num) (by norm_num)]
  refine Decimal.digits28.round_mono (by norm_num) ?_
  rw [le_div_iff₀ hcast]
  push_cast
  calc (10 : ℚ) ^ 21 * tickOf q ≤ 10 ^ 21 * 1000 := by
        exact mul_le_mul_of_nonneg_left hstep (by norm_num)
    _ ≤ q := by linarith

theorem tickOf_large (hlarge : 10 ^ 24 ≤ q) : tickOf q = 1000 := by
  have hge : ∀ a : ℚ, a ≤ 500000 → ¬ q < a := fun a ha => by
    rw [not_lt]
    linarith
  rw [tickOf, if_neg (hge _ (by norm_num)), if_neg (hge _ (by norm_num)),
    if_neg (hge _ (by norm_num)), if_neg (hge _ (by norm_num)), if_neg (hge _ (by norm_num)),
    if_neg (hge _ (by norm_num))]

theorem rounded_mul_large {k : ℤ} (hk : 10 ^ 21 ≤ k) :
    ∃ x : ℚ, (Decimal.finite k * Decimal.finite 1000).rounded = .finite x ∧ 10 ^ 24 ≤ x := by
  have hcast : ((10 ^ 21 : ℤ) : ℚ) ≤ k := by exact_mod_cast hk
  push_cast at hcast
  have hprod : ((10 ^ 24 : ℤ) : ℚ) ≤ k * 1000 := by
    push_cast
    linarith
  have hpos : (0 : ℚ) < ((10 ^ 24 : ℤ) : ℚ) := by norm_num
  refine ⟨Decimal.digits28.round (k * 1000), ?_, ?_⟩
  · rw [Decimal.finite_mul_finite, Decimal.rounded_of_pos (hpos.trans_le hprod)]
  · have hmono := Decimal.digits28.round_mono hpos hprod
    rw [Decimal.digits28_round_intCast (by norm_num) (by norm_num)] at hmono
    exact_mod_cast hmono

theorem roundKrEquityPriceUp_large (hlarge : 10 ^ 24 ≤ q) :
    ∃ x : ℚ, roundKrEquityPriceUp (.finite q) = some (.finite x) ∧ 10 ^ 24 ≤ x := by
  have hq : 0 < q := lt_of_lt_of_le (by norm_num) hlarge
  have hk : 10 ^ 21 ≤ ⌈quotient28 q⌉ := by
    exact_mod_cast (quotient28_large hlarge).trans (Int.le_ceil _)
  obtain ⟨x, hx, hxlarge⟩ := rounded_mul_large hk
  refine ⟨x, ?_, hxlarge⟩
  rw [roundKrEquityPriceUp, krEquityTickSize_finite hq, Option.map_some, rounded_div_tick hq,
    integralCeil, Decimal.toRat_finite, tickOf_large hlarge]
  exact congrArg some hx

theorem roundKrEquityPriceDown_large (hlarge : 10 ^ 24 ≤ q) :
    ∃ x : ℚ, roundKrEquityPriceDown (.finite q) = some (.finite x) ∧ 10 ^ 24 ≤ x := by
  have hq : 0 < q := lt_of_lt_of_le (by norm_num) hlarge
  have hk : 10 ^ 21 ≤ ⌊quotient28 q⌋ := Int.le_floor.2 (quotient28_large hlarge)
  obtain ⟨x, hx, hxlarge⟩ := rounded_mul_large hk
  refine ⟨x, ?_, hxlarge⟩
  rw [roundKrEquityPriceDown, krEquityTickSize_finite hq, Option.bind_some, rounded_div_tick hq,
    integralFloor, Decimal.toRat_finite, tickOf_large hlarge]
  dsimp only
  rw [show (((1000 : ℤ) : ℚ)) = 1000 by norm_num, hx, if_neg]
  rw [Decimal.ofNat_eq, Decimal.finite_le_finite, Nat.cast_zero, not_le]
  linarith

end Rounding

/-! ## Whole prices -/

/-- A whole price is rounded up to the least price of the grid from there on. -/
theorem roundKrEquityPriceUp_spec {n : ℤ} (hpos : 0 < n) (hlt : n < 10 ^ 24) :
    ∃ m : ℤ, roundKrEquityPriceUp (.finite n) = some (.finite m) ∧ n ≤ m ∧ OnGrid m ∧
      m < 10 ^ 25 ∧ ∀ p, OnGrid p → n ≤ p → m ≤ p := by
  have hcast : (0 : ℚ) < n := by exact_mod_cast hpos
  have hltcast : (n : ℚ) < 10 ^ 24 := by exact_mod_cast hlt
  obtain ⟨low, high, hband⟩ := exists_isBand hcast
  obtain ⟨l, h, hl, hh, -, -, hlow, hhigh⟩ := quotient28_between hcast hltcast hband
  have htick := tickOf_pos n
  have htickcast : (0 : ℚ) < tickOf n := by exact_mod_cast htick
  have hexact : quotient28 n = n / tickOf n := digits28_round_div hpos hlt
  rw [hexact] at hlow hhigh
  let k := ⌈(n : ℚ) / tickOf n⌉
  have hkpos : 0 < k := Int.ceil_pos.2 (div_pos hcast htickcast)
  have hupper : tickOf n * k ≤ high :=
    hh ▸ mul_le_mul_of_nonneg_left (Int.ceil_le.2 hhigh) htick.le
  have hsmall : high < 10 ^ 25 := by
    have hwidth : (high : ℚ) < 10 ^ 25 := by linarith [hband.high_le]
    exact_mod_cast hwidth
  have hge : n ≤ tickOf n * k := by
    have hceil := Int.le_ceil ((n : ℚ) / tickOf n)
    rw [div_le_iff₀ htickcast, mul_comm, ← Int.cast_mul] at hceil
    exact Int.cast_le.1 hceil
  refine ⟨tickOf n * k, ?_, hge, hband.onGrid_mul hkpos ?_ hupper, hupper.trans_lt hsmall, ?_⟩
  · rw [roundKrEquityPriceUp, krEquityTickSize_finite hcast, Option.map_some,
      rounded_div_tick hcast, integralCeil, Decimal.toRat_finite, hexact,
      rounded_mul_tick hkpos (by omega)]
  · exact le_trans (by exact_mod_cast hband.low_le) hge
  · intro p hp hle
    rcases lt_or_ge p high with hinside | hbeyond
    · -- Within the band, the prices of the grid are the multiples of the same step.
      have hsame : tickOf p = tickOf n :=
        hband.same p (le_trans (by exact_mod_cast hband.low_le) hle) hinside
      obtain ⟨j, hj⟩ := hp.2
      rw [hsame] at hj
      rw [hj]
      refine mul_le_mul_of_nonneg_left (Int.ceil_le.2 ?_) htick.le
      rw [div_le_iff₀ htickcast, mul_comm]
      exact_mod_cast hj ▸ hle
    · exact hupper.trans hbeyond

end TradingAgent.Kr
