import Mathlib.Algebra.Order.Floor.Semiring
import Mathlib.Algebra.Order.Field.Basic
import Mathlib.Tactic.Linarith

/-!
# Linear interpolation

The values of a sequence between its elements, on a line from each one to the next
(`interpolate`). If the sequence is monotone, so is its interpolation (`interpolate_mono`).
-/

section Interpolation

variable {K : Type*} [Field K] [LinearOrder K] [IsStrictOrderedRing K] [FloorSemiring K]

/-- The value at `x` on the line from the element before `x` to the next one. -/
def interpolate (v : ℕ → K) (x : K) : K :=
  v ⌊x⌋₊ + (v (⌊x⌋₊ + 1) - v ⌊x⌋₊) * (x - ⌊x⌋₊)

variable {v : ℕ → K} (hv : Monotone v) {x y : K}
include hv

theorem le_interpolate (hx : 0 ≤ x) : v ⌊x⌋₊ ≤ interpolate v x := by
  have hstep : 0 ≤ v (⌊x⌋₊ + 1) - v ⌊x⌋₊ := sub_nonneg.2 (hv (Nat.le_succ _))
  have hpart : 0 ≤ x - ⌊x⌋₊ := sub_nonneg.2 (Nat.floor_le hx)
  exact le_add_of_nonneg_right (mul_nonneg hstep hpart)

theorem interpolate_le : interpolate v x ≤ v (⌊x⌋₊ + 1) := by
  have hstep : 0 ≤ v (⌊x⌋₊ + 1) - v ⌊x⌋₊ := sub_nonneg.2 (hv (Nat.le_succ _))
  have hpart : x - ⌊x⌋₊ ≤ 1 := by linarith [Nat.lt_floor_add_one x]
  have hle := mul_le_mul_of_nonneg_left hpart hstep
  rw [interpolate]
  linarith

theorem interpolate_mono (hx : 0 ≤ x) (h : x ≤ y) : interpolate v x ≤ interpolate v y := by
  rcases (Nat.floor_mono h).eq_or_lt with hsame | hlt
  · -- On one line, which does not fall.
    have hstep : 0 ≤ v (⌊y⌋₊ + 1) - v ⌊y⌋₊ := sub_nonneg.2 (hv (Nat.le_succ _))
    rw [interpolate, interpolate, hsame]
    have hle := mul_le_mul_of_nonneg_left (sub_le_sub_right h (⌊y⌋₊ : K)) hstep
    linarith
  · calc interpolate v x ≤ v (⌊x⌋₊ + 1) := interpolate_le hv
      _ ≤ v ⌊y⌋₊ := hv hlt
      _ ≤ interpolate v y := le_interpolate hv (hx.trans h)

end Interpolation
