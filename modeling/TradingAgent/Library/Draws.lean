import Mathlib.Algebra.BigOperators.Group.List.Basic
import Mathlib.Tactic.Ring

/-!
# Random draws

A generator gives a number below a bound at each call (`Generator.randrange`), which may be any
number: results hold for every stream of draws. A computation that draws (`Draws`) counts its
calls.

* `Draws.run_mapM`: if the number of calls for an element of a list is known beforehand, so is the
  call that each element starts at (`callsAt`).
-/

/-- The numbers that a generator draws, by the number of the call and the bound. -/
structure Generator where
  randrange : ℕ → ℕ → ℕ
  randrange_lt : ∀ call {n}, 0 < n → randrange call n < n

/-- A computation that draws, with the number of the next call. -/
abbrev Draws (α : Type) := StateM ℕ α

namespace Draws

variable {α β : Type}

/-- The next draw below a bound. -/
def randrange (generator : Generator) (n : ℕ) : Draws ℕ :=
  fun call => (generator.randrange call n, call + 1)

/-- The calls that the elements of a list start at. -/
def callsAt (cost : α → ℕ) : ℕ → List α → List ℕ
  | _, [] => []
  | call, a :: l => call :: callsAt cost (call + cost a) l

theorem length_callsAt (cost : α → ℕ) (call : ℕ) (l : List α) :
    (callsAt cost call l).length = l.length := by
  induction l generalizing call with
  | nil => rfl
  | cons a l ih => simp [callsAt, ih]

/-- Elements that all cost the same start at multiples of it. -/
theorem callsAt_range (cost call : ℕ) (n : ℕ) :
    callsAt (fun _ => cost) call (List.range n) =
      (List.range n).map fun i => call + i * cost := by
  have hgen : ∀ (l : List ℕ) (call : ℕ), callsAt (fun _ => cost) call l =
      (List.range l.length).map fun i => call + i * cost := by
    intro l
    induction l with
    | nil => simp [callsAt]
    | cons a l ih =>
      intro call
      rw [callsAt, ih, List.length_cons, List.range_succ_eq_map]
      simp only [List.map_cons, List.map_map, Nat.zero_mul, Nat.add_zero]
      congr 1
      refine List.map_congr_left fun i _ => ?_
      simp only [Function.comp_apply, Nat.succ_eq_add_one]
      ring
  simpa using hgen (List.range n) call

/-- A loop whose iterations draw a known number of times. -/
theorem run_mapM {f : α → Draws β} {out : α → ℕ → β} {cost : α → ℕ}
    (h : ∀ a call, f a call = (out a call, call + cost a)) (l : List α) (call : ℕ) :
    l.mapM f call = (List.zipWith out l (callsAt cost call l), call + (l.map cost).sum) := by
  induction l generalizing call with
  | nil => rfl
  | cons a l ih =>
    have hstep : (a :: l).mapM f call =
        (let (b, call') := f a call; let (bs, call'') := l.mapM f call'; (b :: bs, call'')) := by
      rw [List.mapM_cons]
      rfl
    rw [hstep, h]
    dsimp only
    rw [ih]
    simp [callsAt, Nat.add_assoc]

/-- A loop whose iterations draw equally often. -/
theorem run_mapM_range {f : ℕ → Draws β} {out : ℕ → ℕ → β} {cost : ℕ}
    (h : ∀ i call, f i call = (out i call, call + cost)) (n call : ℕ) :
    (List.range n).mapM f call =
      ((List.range n).map fun i => out i (call + i * cost), call + n * cost) := by
  rw [run_mapM h, callsAt_range, List.zipWith_map_right, List.zipWith_self]
  simp

end Draws
