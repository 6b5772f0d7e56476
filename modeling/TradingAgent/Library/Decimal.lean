import Mathlib.Algebra.Order.Ring.Rat
import Mathlib.Algebra.Order.Round
import Mathlib.Data.Int.Log
import Mathlib.Data.Rat.Floor
import Mathlib.Tactic.Common

/-!
# Decimal numbers

The decimal numbers of the `decimal` module of Python, with exact arithmetic: a finite decimal
is a rational number, and the two infinities and the NaN are kept apart from those, as code
checks for them with `is_finite`.

* The finite decimals are embedded by `Decimal.finite`, and on them the arithmetic and the order
  are those of `ℚ` (the `@[simp]` lemmas of this file). Calculations are thus carried out in `ℚ`
  once the operands are known to be finite (`Decimal.isFinite_iff`).
* No order comparison with the NaN holds. An operation which Python signals as invalid, such as
  the difference of two infinities, gives the NaN.
-/

/-- A decimal number. -/
inductive Decimal
  | finite (value : ℚ)
  | infinite (negative : Bool)
  | nan
  deriving DecidableEq, Repr

namespace Decimal

instance : Inhabited Decimal := ⟨finite 0⟩

instance (n : ℕ) : OfNat Decimal n := ⟨finite n⟩
instance : NatCast Decimal := ⟨fun n => finite n⟩
instance : IntCast Decimal := ⟨fun n => finite n⟩

@[simp] theorem ofNat_eq (n : ℕ) : (OfNat.ofNat n : Decimal) = finite (n : ℚ) := rfl
theorem natCast_eq (n : ℕ) : (n : Decimal) = finite n := rfl
theorem intCast_eq (n : ℤ) : (n : Decimal) = finite n := rfl

/-- The method `is_finite`. -/
def isFinite : Decimal → Bool
  | finite _ => true
  | _ => false

@[simp] theorem isFinite_finite (q : ℚ) : (finite q).isFinite = true := rfl
@[simp] theorem isFinite_natCast (n : ℕ) : (n : Decimal).isFinite = true := rfl
@[simp] theorem isFinite_intCast (n : ℤ) : (n : Decimal).isFinite = true := rfl

theorem isFinite_iff {d : Decimal} : d.isFinite = true ↔ ∃ q, d = finite q := by
  cases d <;> simp [isFinite]

/-- The value of a finite decimal. -/
def toRat : Decimal → ℚ
  | finite q => q
  | _ => 0

@[simp] theorem toRat_finite (q : ℚ) : (finite q).toRat = q := rfl

theorem finite_toRat {d : Decimal} (h : d.isFinite = true) : finite d.toRat = d := by
  obtain ⟨q, rfl⟩ := isFinite_iff.1 h
  rfl

/-! ## Order -/

/-- The operator `<`. -/
protected def lt : Decimal → Decimal → Prop
  | finite a, finite b => a < b
  | finite _, infinite n => n = false
  | infinite n, finite _ => n = true
  | infinite m, infinite n => m = true ∧ n = false
  | _, _ => False

/-- The operator `<=`. -/
protected def le : Decimal → Decimal → Prop
  | finite a, finite b => a ≤ b
  | finite _, infinite n => n = false
  | infinite n, finite _ => n = true
  | infinite m, infinite n => m = true ∨ n = false
  | _, _ => False

instance : LT Decimal := ⟨Decimal.lt⟩
instance : LE Decimal := ⟨Decimal.le⟩

instance (a b : Decimal) : Decidable (a < b) :=
  match a, b with
  | finite a, finite b => inferInstanceAs (Decidable (a < b))
  | finite _, infinite n => inferInstanceAs (Decidable (n = false))
  | infinite n, finite _ => inferInstanceAs (Decidable (n = true))
  | infinite m, infinite n => inferInstanceAs (Decidable (m = true ∧ n = false))
  | finite _, nan | infinite _, nan | nan, finite _ | nan, infinite _ | nan, nan =>
    inferInstanceAs (Decidable False)

instance (a b : Decimal) : Decidable (a ≤ b) :=
  match a, b with
  | finite a, finite b => inferInstanceAs (Decidable (a ≤ b))
  | finite _, infinite n => inferInstanceAs (Decidable (n = false))
  | infinite n, finite _ => inferInstanceAs (Decidable (n = true))
  | infinite m, infinite n => inferInstanceAs (Decidable (m = true ∨ n = false))
  | finite _, nan | infinite _, nan | nan, finite _ | nan, infinite _ | nan, nan =>
    inferInstanceAs (Decidable False)

@[simp] theorem finite_lt_finite {a b : ℚ} : finite a < finite b ↔ a < b := Iff.rfl
@[simp] theorem finite_le_finite {a b : ℚ} : finite a ≤ finite b ↔ a ≤ b := Iff.rfl

theorem le_of_le_of_lt {a b c : Decimal} (hab : a ≤ b) (hbc : b < c) : a ≤ c := by
  match a, b, c with
  | finite a, finite b, finite c => exact le_trans (α := ℚ) hab (le_of_lt (α := ℚ) hbc)
  | finite _, finite _, infinite _ => exact hbc
  | finite _, infinite true, _ => cases hab
  | infinite true, _, finite _ => exact rfl
  | infinite true, _, infinite _ => exact .inl rfl
  | infinite false, infinite false, infinite _ => exact .inr hbc.2
  | infinite true, finite _, nan | infinite true, infinite _, nan => cases hbc

theorem le_of_lt_of_le {a b c : Decimal} (hab : a < b) (hbc : b ≤ c) : a ≤ c := by
  match a, b, c with
  | finite a, finite b, finite c => exact le_trans (α := ℚ) (le_of_lt (α := ℚ) hab) hbc
  | finite _, finite _, infinite _ => exact hbc
  | finite _, infinite false, infinite _ => exact (or_iff_right nofun).1 hbc
  | infinite true, _, finite _ => exact rfl
  | infinite true, _, infinite _ => exact .inl rfl
  | infinite true, finite _, nan | infinite true, infinite _, nan => cases hbc

/-- The greater of two decimals, the first one if they are equal: the builtin `max`. -/
def max (a b : Decimal) : Decimal := if a < b then b else a

/-- The smaller of two decimals, the first one if they are equal: the builtin `min`. -/
def min (a b : Decimal) : Decimal := if b < a then b else a

/-- The greatest of some decimals, the first one of those that are equal: the builtin `max` with
    a default. -/
def maximum (default : Decimal) : List Decimal → Decimal
  | [] => default
  | d :: l => l.foldl max d

@[simp] theorem max_finite (a b : ℚ) : max (finite a) (finite b) = finite (a ⊔ b) := by
  by_cases h : a < b
  · simp [max, h, h.le]
  · simp [max, h, not_lt.1 h]

@[simp] theorem min_finite (a b : ℚ) : min (finite a) (finite b) = finite (a ⊓ b) := by
  by_cases h : b < a
  · simp [min, h, h.le]
  · simp [min, h, not_lt.1 h]

theorem foldl_max_finite (l : List ℚ) (a : ℚ) :
    ∃ m ∈ a :: l, (l.map finite).foldl max (finite a) = finite m ∧ ∀ b ∈ a :: l, b ≤ m := by
  induction l generalizing a with
  | nil => exact ⟨a, List.mem_singleton_self a, rfl, by simp⟩
  | cons b l ih =>
    obtain ⟨m, hm, hfold, hle⟩ := ih (a ⊔ b)
    have hsup := hle (a ⊔ b) List.mem_cons_self
    refine ⟨m, ?_, by rw [List.map_cons, List.foldl_cons, max_finite, hfold], ?_⟩
    · rcases List.mem_cons.1 hm with rfl | hm
      · rcases max_choice a b with h | h <;> simp [h]
      · exact List.mem_cons_of_mem a (List.mem_cons_of_mem b hm)
    · intro c hc
      rcases List.mem_cons.1 hc with rfl | hc
      · exact le_sup_left.trans hsup
      rcases List.mem_cons.1 hc with rfl | hc
      · exact le_sup_right.trans hsup
      · exact hle c (List.mem_cons_of_mem _ hc)

/-- The greatest of finite decimals is one of them, unless there is none. -/
theorem maximum_map_finite (l : List ℚ) :
    ∃ m, maximum 0 (l.map finite) = finite m ∧ (m ∈ l ∨ l = [] ∧ m = 0) ∧ ∀ a ∈ l, a ≤ m := by
  cases l with
  | nil => exact ⟨0, rfl, .inr ⟨rfl, rfl⟩, by simp⟩
  | cons a l =>
    obtain ⟨m, hm, hfold, hle⟩ := foldl_max_finite l a
    exact ⟨m, hfold, .inl hm, hle⟩

/-! ## Arithmetic -/

protected def neg : Decimal → Decimal
  | finite a => finite (-a)
  | infinite n => infinite !n
  | nan => nan

protected def add : Decimal → Decimal → Decimal
  | finite a, finite b => finite (a + b)
  | finite _, infinite n | infinite n, finite _ => infinite n
  | infinite m, infinite n => if m = n then infinite m else nan
  | _, _ => nan

/-- Whether a number which is not zero is negative. -/
private def negative (a : ℚ) : Bool := a < 0

protected def mul : Decimal → Decimal → Decimal
  | finite a, finite b => finite (a * b)
  | finite a, infinite n | infinite n, finite a =>
    if a = 0 then nan else infinite (negative a != n)
  | infinite m, infinite n => infinite (m != n)
  | _, _ => nan

/-- Python raises an exception for a division by zero. -/
protected def div : Decimal → Decimal → Decimal
  | finite a, finite b => if b = 0 then nan else finite (a / b)
  | finite _, infinite _ => finite 0
  | infinite n, finite b => infinite (negative b != n)
  | _, _ => nan

/-- The integer next to a number, the even one of two: the rounding `ROUND_HALF_EVEN`. -/
def roundHalfEven (a : ℚ) : ℤ :=
  if a - ⌊a⌋ = 1 / 2 then (if ⌊a⌋ % 2 = 0 then ⌊a⌋ else ⌈a⌉) else round a

/-- The decimal of 28 digits next to a decimal: what the default context makes of a result. -/
def rounded : Decimal → Decimal
  | finite a =>
    if a = 0 then finite 0
    else
      let exponent := Int.log 10 |a| - 27
      finite (roundHalfEven (a / 10 ^ exponent) * 10 ^ exponent)
  | d => d

/-- The operator `%`, whose quotient is truncated and has at most 28 digits. -/
protected def mod : Decimal → Decimal → Decimal
  | finite a, finite b =>
    let quotient : ℤ := if 0 ≤ a / b then ⌊a / b⌋ else ⌈a / b⌉
    if b = 0 ∨ 10 ^ 28 ≤ |quotient| then nan else finite (a - b * quotient)
  | finite a, infinite _ => finite a
  | _, _ => nan

/-- The builtin `abs`. -/
def abs : Decimal → Decimal
  | finite a => finite |a|
  | infinite _ => infinite false
  | nan => nan

instance : Neg Decimal := ⟨Decimal.neg⟩
instance : Add Decimal := ⟨Decimal.add⟩
instance : Sub Decimal := ⟨fun a b => a + -b⟩
instance : Mul Decimal := ⟨Decimal.mul⟩
instance : Div Decimal := ⟨Decimal.div⟩
instance : Mod Decimal := ⟨Decimal.mod⟩

@[simp] theorem neg_finite (a : ℚ) : -finite a = finite (-a) := rfl
@[simp] theorem finite_add_finite (a b : ℚ) : finite a + finite b = finite (a + b) := rfl
@[simp] theorem finite_mul_finite (a b : ℚ) : finite a * finite b = finite (a * b) := rfl
@[simp] theorem abs_finite (a : ℚ) : abs (finite a) = finite |a| := rfl

theorem isFinite_abs_iff {d : Decimal} : d.abs.isFinite = true ↔ d.isFinite = true := by
  cases d <;> rfl

@[simp] theorem finite_sub_finite (a b : ℚ) : finite a - finite b = finite (a - b) :=
  congrArg finite (sub_eq_add_neg a b).symm

theorem finite_div_finite {a b : ℚ} (h : b ≠ 0) : finite a / finite b = finite (a / b) :=
  if_neg h

protected theorem mul_comm (a b : Decimal) : a * b = b * a := by
  cases a <;> cases b
  case finite.finite a b => exact congrArg finite (Rat.mul_comm a b)
  case infinite.infinite m n => exact congrArg infinite (Bool.xor_comm m n)
  all_goals rfl

/-- The sum of a list of decimals, from zero: the builtin `sum` with the start `Decimal(0)`. -/
def sum (l : List Decimal) : Decimal := l.foldl (· + ·) 0

theorem foldl_add_finite (l : List ℚ) (a : ℚ) :
    (l.map finite).foldl (· + ·) (finite a) = finite (a + l.sum) := by
  induction l generalizing a with
  | nil => simp
  | cons b l ih => simp [ih, add_assoc]

@[simp] theorem sum_nil : sum [] = 0 := rfl

theorem sum_singleton (d : Decimal) : sum [d] = 0 + d := rfl

/-- The sum of finite decimals is that of their values. -/
theorem sum_map_finite (l : List ℚ) : sum (l.map finite) = finite l.sum := by
  rw [sum, ofNat_eq, foldl_add_finite]
  simp

/-! ## Finite decimals -/

section Finite

variable {a b : Decimal} (ha : a.isFinite = true) (hb : b.isFinite = true)
include ha

theorem isFinite_abs : a.abs.isFinite = true := by
  obtain ⟨p, rfl⟩ := isFinite_iff.1 ha
  rfl

theorem le_refl : a ≤ a := by
  obtain ⟨p, rfl⟩ := isFinite_iff.1 ha
  exact finite_le_finite.2 le_rfl

theorem zero_add : 0 + a = a := by
  obtain ⟨p, rfl⟩ := isFinite_iff.1 ha
  simp

theorem add_zero : a + 0 = a := by
  obtain ⟨p, rfl⟩ := isFinite_iff.1 ha
  simp

theorem isFinite_div {b : ℚ} (hb : b ≠ 0) : (a / finite b).isFinite = true := by
  obtain ⟨p, rfl⟩ := isFinite_iff.1 ha
  rw [finite_div_finite hb]
  rfl

include hb

theorem isFinite_add : (a + b).isFinite = true := by
  obtain ⟨p, rfl⟩ := isFinite_iff.1 ha
  obtain ⟨q, rfl⟩ := isFinite_iff.1 hb
  rfl

theorem isFinite_sub : (a - b).isFinite = true := by
  obtain ⟨p, rfl⟩ := isFinite_iff.1 ha
  obtain ⟨q, rfl⟩ := isFinite_iff.1 hb
  rfl

theorem isFinite_mul : (a * b).isFinite = true := by
  obtain ⟨p, rfl⟩ := isFinite_iff.1 ha
  obtain ⟨q, rfl⟩ := isFinite_iff.1 hb
  rfl

theorem not_lt : ¬ b < a ↔ a ≤ b := by
  obtain ⟨p, rfl⟩ := isFinite_iff.1 ha
  obtain ⟨q, rfl⟩ := isFinite_iff.1 hb
  rw [finite_lt_finite, finite_le_finite, Rat.not_lt]

theorem not_le : ¬ a ≤ b ↔ b < a := by
  obtain ⟨p, rfl⟩ := isFinite_iff.1 ha
  obtain ⟨q, rfl⟩ := isFinite_iff.1 hb
  rw [finite_lt_finite, finite_le_finite, Rat.not_le]

theorem isFinite_max : (max a b).isFinite = true := by
  rw [max]
  split_ifs <;> assumption

theorem isFinite_min : (min a b).isFinite = true := by
  rw [min]
  split_ifs <;> assumption

theorem le_max_left : a ≤ max a b := by
  obtain ⟨p, rfl⟩ := isFinite_iff.1 ha
  obtain ⟨q, rfl⟩ := isFinite_iff.1 hb
  rw [max_finite]
  exact finite_le_finite.2 le_sup_left

theorem le_max_right : b ≤ max a b := by
  obtain ⟨p, rfl⟩ := isFinite_iff.1 ha
  obtain ⟨q, rfl⟩ := isFinite_iff.1 hb
  rw [max_finite]
  exact finite_le_finite.2 le_sup_right

end Finite

theorem isFinite_sum {l : List Decimal} (h : ∀ d ∈ l, d.isFinite = true) :
    (sum l).isFinite = true := by
  have hl : l = (l.map toRat).map finite := by
    rw [List.map_map]
    exact (List.map_id l).symm.trans (List.map_congr_left fun d hd => (finite_toRat (h d hd)).symm)
  rw [hl, sum_map_finite]
  rfl

theorem isFinite_add_iff {a b : Decimal} :
    (a + b).isFinite = true ↔ a.isFinite = true ∧ b.isFinite = true := by
  cases a <;> cases b <;> simp [HAdd.hAdd, Add.add, Decimal.add, isFinite]
  split_ifs <;> simp

theorem isFinite_neg_iff {a : Decimal} : (-a).isFinite = true ↔ a.isFinite = true := by
  cases a <;> rfl

theorem isFinite_sub_iff {a b : Decimal} :
    (a - b).isFinite = true ↔ a.isFinite = true ∧ b.isFinite = true := by
  rw [← isFinite_neg_iff (a := b)]
  exact isFinite_add_iff

/-- A sum is finite only if all its terms are. -/
theorem isFinite_sum_iff {l : List Decimal} :
    (sum l).isFinite = true ↔ ∀ d ∈ l, d.isFinite = true := by
  have hfold : ∀ a : Decimal, (l.foldl (· + ·) a).isFinite = true ↔
      a.isFinite = true ∧ ∀ d ∈ l, d.isFinite = true := by
    induction l with
    | nil => simp
    | cons d l ih =>
      intro a
      rw [List.foldl_cons, ih, isFinite_add_iff, List.forall_mem_cons, and_assoc]
  rw [sum, hfold]
  exact and_iff_right rfl

/-- The test `d == d.to_integral_value()`. -/
def isIntegral : Decimal → Bool
  | finite a => a.den = 1
  | infinite _ => true
  | nan => false

/-- The builtin `int` of a finite decimal: its value, rounded towards zero. -/
def toInt : Decimal → ℤ
  | finite a => if 0 ≤ a then ⌊a⌋ else ⌈a⌉
  | _ => 0

/-- The errors of `int`. -/
inductive ConversionError
  | overflow
  | invalidValue
  deriving DecidableEq, Repr

/-- The builtin `int`. -/
def int : Decimal → Except ConversionError ℤ
  | finite a => .ok (finite a).toInt
  | infinite _ => .error .overflow
  | nan => .error .invalidValue

theorem int_eq_ok {d : Decimal} {n : ℤ} : d.int = .ok n ↔ d.isFinite = true ∧ d.toInt = n := by
  cases d <;> simp [int, isFinite]

/-- The greatest integer up to a finite decimal: `math.floor`. -/
def floor (d : Decimal) : ℤ := ⌊d.toRat⌋

/-- An integral decimal is the integer it is truncated to. -/
theorem intCast_toInt {d : Decimal} (hf : d.isFinite = true) (h : d.isIntegral = true) :
    (d.toInt : Decimal) = d := by
  obtain ⟨q, rfl⟩ := isFinite_iff.1 hf
  have hq : ((q.num : ℤ) : ℚ) = q := Rat.coe_int_num_of_den_eq_one (by simpa [isIntegral] using h)
  rw [toInt, intCast_eq, ← hq]
  split <;> simp

end Decimal
