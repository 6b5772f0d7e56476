import TradingAgent.Library.Decimal
import Mathlib.Tactic.Linarith
import Mathlib.Tactic.Ring

/-!
# Rounding to a precision

Numbers of a precision (`Precision`) are the multiples of a power of its base, whose exponent grows
with the logarithm of the number: the decimals of 28 digits, or the doubles. Rounding to the next
of them (`Precision.round`) is monotone, keeps those that are multiples already, and moves a number
by half a unit of its last digit at most.
-/

namespace Decimal

/-! ## Rounding to integers -/

/-- The integer next to a number is at most a half away. -/
theorem roundHalfEven_spec (a : ℚ) :
    (roundHalfEven a : ℚ) - 1 / 2 ≤ a ∧ a ≤ roundHalfEven a + 1 / 2 := by
  rw [roundHalfEven]
  have hfloor := Int.floor_le a
  have hceil := Int.le_ceil a
  split_ifs with htie heven
  · exact ⟨by linarith, by linarith⟩
  · have hle : (⌈a⌉ : ℚ) ≤ ⌊a⌋ + 1 := by exact_mod_cast Int.ceil_le_floor_add_one a
    exact ⟨by linarith, by linarith⟩
  · have habs := abs_le.1 (abs_sub_round a)
    exact ⟨by linarith [habs.1], by linarith [habs.2]⟩

theorem roundHalfEven_intCast (n : ℤ) : roundHalfEven n = n := by
  simp [roundHalfEven]

theorem roundHalfEven_mono {a b : ℚ} (h : a ≤ b) : roundHalfEven a ≤ roundHalfEven b := by
  by_contra hlt
  -- Numbers that are rounded away from each other lie on the same half.
  have hstep : (roundHalfEven b : ℚ) + 1 ≤ roundHalfEven a := by exact_mod_cast Int.not_le.1 hlt
  have ha := (roundHalfEven_spec a).1
  have hb := (roundHalfEven_spec b).2
  have hab : a = b := by linarith
  rw [hab] at hlt
  exact hlt le_rfl

/-! ## Precisions -/

/-- A precision: the exponent of the last digit of a number, by the logarithm of the number. -/
structure Precision where
  base : ℕ
  one_lt_base : 1 < base
  exponent : ℤ → ℤ
  mono : ∀ ⦃j k : ℤ⦄, j ≤ k → exponent j ≤ exponent k
  /-- Where the exponent grows, the last digit is at most the first one. -/
  le_of_lt : ∀ j k, exponent j < exponent k → exponent k ≤ k

namespace Precision

variable (p : Precision) {a b : ℚ} {n : ℤ}

/-- The exponent of the last digit of a positive number. -/
def lastDigit (a : ℚ) : ℤ := p.exponent (Int.log p.base a)

/-- The number of the precision next to a number that is not negative. -/
def round (a : ℚ) : ℚ := roundHalfEven (a / p.base ^ p.lastDigit a) * p.base ^ p.lastDigit a

theorem base_zpow_pos (k : ℤ) : (0 : ℚ) < p.base ^ k :=
  zpow_pos (by exact_mod_cast (Nat.zero_lt_one.trans p.one_lt_base)) k

theorem one_le_base : (1 : ℚ) ≤ p.base := by exact_mod_cast p.one_lt_base.le

theorem round_zero : p.round 0 = 0 := by
  simp [round, roundHalfEven]

/-- What is at most a multiple of the last digit stays so. -/
theorem round_le_of_le (h : a ≤ n * p.base ^ p.lastDigit a) :
    p.round a ≤ n * p.base ^ p.lastDigit a := by
  have hpos := p.base_zpow_pos (p.lastDigit a)
  have hround := roundHalfEven_mono ((div_le_iff₀ hpos).2 h)
  rw [roundHalfEven_intCast] at hround
  exact mul_le_mul_of_nonneg_right (by exact_mod_cast hround) hpos.le

theorem le_round_of_le (h : n * p.base ^ p.lastDigit a ≤ a) :
    n * p.base ^ p.lastDigit a ≤ p.round a := by
  have hpos := p.base_zpow_pos (p.lastDigit a)
  have hround := roundHalfEven_mono ((le_div_iff₀ hpos).2 h)
  rw [roundHalfEven_intCast] at hround
  exact mul_le_mul_of_nonneg_right (by exact_mod_cast hround) hpos.le

theorem round_nonneg (ha : 0 ≤ a) : 0 ≤ p.round a := by
  have hle := p.le_round_of_le (a := a) (n := 0) (by simpa using ha)
  simpa using hle

theorem round_eq_self (h : n * p.base ^ p.lastDigit a = a) : p.round a = a :=
  le_antisymm ((p.round_le_of_le h.ge).trans h.le) (h.ge.trans (p.le_round_of_le h.le))

/-- A power of the base from the last digit on is a multiple of the last digit. -/
theorem exists_mul_eq_zpow {k : ℤ} (h : p.lastDigit a ≤ k) :
    ∃ n : ℤ, (n : ℚ) * p.base ^ p.lastDigit a = p.base ^ k := by
  obtain ⟨m, hm⟩ := Int.le.dest h
  have hbase : (p.base : ℚ) ≠ 0 := by exact_mod_cast (Nat.zero_lt_one.trans p.one_lt_base).ne'
  refine ⟨p.base ^ m, ?_⟩
  rw [← hm, zpow_add₀ hbase, zpow_natCast]
  push_cast
  ring

theorem round_mono (ha : 0 < a) (h : a ≤ b) : p.round a ≤ p.round b := by
  have hb : 0 < b := ha.trans_le h
  have hlog : Int.log p.base a ≤ Int.log p.base b := Int.log_mono_right ha h
  rcases (p.mono hlog).eq_or_lt with heq | hlt
  · have hpos := p.base_zpow_pos (p.lastDigit b)
    rw [round, round, show p.lastDigit a = p.lastDigit b from heq]
    exact mul_le_mul_of_nonneg_right
      (by exact_mod_cast roundHalfEven_mono (div_le_div_of_nonneg_right h hpos.le)) hpos.le
  -- Otherwise a power of the base separates them, which is a multiple of the last digit of both.
  have hsep : Int.log p.base a + 1 ≤ Int.log p.base b := by
    by_contra hnot
    have hsame : Int.log p.base a = Int.log p.base b := by omega
    rw [hsame] at hlt
    exact lt_irrefl _ hlt
  have hhigh : p.lastDigit b ≤ Int.log p.base b := p.le_of_lt _ _ hlt
  have hle : a ≤ (p.base : ℚ) ^ Int.log p.base b :=
    (Int.lt_zpow_succ_log_self p.one_lt_base a).le.trans
      (zpow_le_zpow_right₀ p.one_le_base hsep)
  have hge : (p.base : ℚ) ^ Int.log p.base b ≤ b := Int.zpow_log_le_self p.one_lt_base hb
  obtain ⟨m, hm⟩ := p.exists_mul_eq_zpow (a := a) (hlt.le.trans hhigh)
  obtain ⟨n, hn⟩ := p.exists_mul_eq_zpow hhigh
  calc p.round a ≤ m * p.base ^ p.lastDigit a := p.round_le_of_le (by rw [hm]; exact hle)
    _ = n * p.base ^ p.lastDigit b := by rw [hm, hn]
    _ ≤ p.round b := p.le_round_of_le (by rw [hn]; exact hge)

/-- The number next to one of the precision is this number. -/
theorem round_round (ha : 0 < a) : p.round (p.round a) = p.round a := by
  rcases (p.round_nonneg ha.le).eq_or_lt with hzero | hpos
  · rw [← hzero, round_zero]
  have hmul : (roundHalfEven (a / p.base ^ p.lastDigit a) : ℚ) * p.base ^ p.lastDigit a
      = p.round a := rfl
  rcases le_or_gt (p.lastDigit (p.round a)) (p.lastDigit a) with hle | hlt
  · -- A multiple of the larger power is one of the smaller one.
    obtain ⟨n, hn⟩ := p.exists_mul_eq_zpow hle
    refine p.round_eq_self (n := roundHalfEven (a / p.base ^ p.lastDigit a) * n) ?_
    rw [Int.cast_mul, mul_assoc, hn, hmul]
  · -- The number was rounded up to the next power of the base.
    have hdigits : p.lastDigit (p.round a) ≤ Int.log p.base (p.round a) := p.le_of_lt _ _ hlt
    let k := Max.max (Int.log p.base a + 1) (p.lastDigit a)
    have hexp : p.lastDigit a ≤ k := le_sup_right
    have hnext : Int.log p.base a + 1 ≤ k := le_sup_left
    have hlog : k ≤ Int.log p.base (p.round a) := by
      refine max_le ?_ (hlt.le.trans hdigits)
      by_contra hnot
      exact absurd (p.mono (show Int.log p.base (p.round a) ≤ Int.log p.base a by omega))
        (Int.not_le.2 hlt)
    obtain ⟨m, hm⟩ := p.exists_mul_eq_zpow hexp
    have hbelow : a ≤ (p.base : ℚ) ^ k := (Int.lt_zpow_succ_log_self p.one_lt_base a).le.trans
      (zpow_le_zpow_right₀ p.one_le_base hnext)
    have hupper : p.round a ≤ (p.base : ℚ) ^ k := hm ▸ p.round_le_of_le (hm ▸ hbelow)
    have hlower : (p.base : ℚ) ^ Int.log p.base (p.round a) ≤ p.round a :=
      Int.zpow_log_le_self p.one_lt_base hpos
    have hpower : p.round a = (p.base : ℚ) ^ Int.log p.base (p.round a) :=
      le_antisymm (hupper.trans (zpow_le_zpow_right₀ p.one_le_base hlog)) hlower
    obtain ⟨n, hn⟩ := p.exists_mul_eq_zpow hdigits
    exact p.round_eq_self (hn.trans hpower.symm)

/-- Rounding moves a number by half a unit of its last digit at most. -/
theorem abs_round_sub_le (a : ℚ) : |p.round a - a| ≤ p.base ^ p.lastDigit a / 2 := by
  have hpos := p.base_zpow_pos (p.lastDigit a)
  obtain ⟨hlow, hhigh⟩ := roundHalfEven_spec (a / p.base ^ p.lastDigit a)
  have hself : a / p.base ^ p.lastDigit a * p.base ^ p.lastDigit a = a :=
    div_mul_cancel₀ a hpos.ne'
  have hlow := mul_le_mul_of_nonneg_right hlow hpos.le
  have hhigh := mul_le_mul_of_nonneg_right hhigh hpos.le
  rw [hself, sub_mul] at hlow
  rw [hself, add_mul] at hhigh
  rw [abs_le, round]
  exact ⟨by linarith, by linarith⟩

end Precision

/-! ## Decimals of 28 digits -/

/-- The precision of the default context. -/
def digits28 : Precision where
  base := 10
  one_lt_base := by decide
  exponent k := k - 27
  mono _ _ h := Int.sub_le_sub_right h 27
  le_of_lt _ _ _ := by omega

theorem rounded_of_pos {a : ℚ} (ha : 0 < a) : rounded (finite a) = finite (digits28.round a) := by
  simp [rounded, ha.ne', abs_of_pos ha, Precision.round, Precision.lastDigit, digits28]

/-- Rounding keeps a number positive: it is no less than its last digit. -/
theorem digits28_round_pos {a : ℚ} (ha : 0 < a) : 0 < digits28.round a := by
  have hlog : ((10 : ℕ) : ℚ) ^ Int.log 10 a ≤ a := Int.zpow_log_le_self (by norm_num) ha
  have hlast : digits28.lastDigit a ≤ Int.log 10 a := by
    have heq : digits28.lastDigit a = Int.log 10 a - 27 := rfl
    omega
  have hdigit : (digits28.base : ℚ) ^ digits28.lastDigit a ≤ a :=
    (zpow_le_zpow_right₀ digits28.one_le_base hlast).trans hlog
  have hle := digits28.le_round_of_le (n := 1) (by simpa using hdigit)
  rw [Int.cast_one, one_mul] at hle
  exact (digits28.base_zpow_pos _).trans_le hle

/-- Integers of 28 digits at most, scaled by a power of ten, are decimals of 28 digits. -/
theorem digits28_round_mul_zpow {n : ℤ} (k : ℤ) (hpos : 0 < n) (hlt : n < 10 ^ 28) :
    digits28.round (n * 10 ^ k) = n * 10 ^ k := by
  have hscale : (0 : ℚ) < 10 ^ k := zpow_pos (by norm_num) k
  have hcast : (0 : ℚ) < n * 10 ^ k := mul_pos (by exact_mod_cast hpos) hscale
  have hlog : Int.log 10 ((n : ℚ) * 10 ^ k) < 28 + k := by
    refine (Int.lt_zpow_iff_log_lt (by decide) hcast).1 ?_
    have hlt' : (n : ℚ) < 10 ^ 28 := by exact_mod_cast hlt
    have hprod := mul_lt_mul_of_pos_right hlt' hscale
    rw [Nat.cast_ofNat, zpow_add₀ (by norm_num)]
    exact_mod_cast hprod
  have hdigit : digits28.lastDigit (n * 10 ^ k) ≤ k := by
    rw [Precision.lastDigit, digits28]
    show Int.log 10 ((n : ℚ) * 10 ^ k) - 27 ≤ k
    omega
  obtain ⟨m, hm⟩ := digits28.exists_mul_eq_zpow hdigit
  refine Precision.round_eq_self (n := n * m) digits28 ?_
  rw [Int.cast_mul, mul_assoc, hm]
  rfl

/-- Integers of 28 digits at most are decimals of 28 digits. -/
theorem digits28_round_intCast {n : ℤ} (hpos : 0 < n) (hlt : n < 10 ^ 28) :
    digits28.round n = n := by
  simpa using digits28_round_mul_zpow 0 hpos hlt

end Decimal
