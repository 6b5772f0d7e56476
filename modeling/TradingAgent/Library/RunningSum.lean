import Mathlib.Algebra.Order.Monoid.Defs
import Mathlib.Data.List.Induction
import Mathlib.Data.List.Sort
import Mathlib.Tactic.Common

/-!
# Running sums

A list of entries, each with an amount and a total, where the totals are the running sums of the
amounts (`IsRunningSum`).

If the amounts are positive, the totals increase. The entries then have one order only in which
the totals are the running sums (`IsRunningSum.eq_of_perm`): the totals tell the order.
-/

section RunningSum

variable {α M : Type*} [AddCommMonoid M] {amount total : α → M}

/-- The totals of the entries are the sums of the amounts so far, from a start. -/
def IsRunningSum (amount total : α → M) : M → List α → Prop
  | _, [] => True
  | start, a :: l => total a = start + amount a ∧ IsRunningSum amount total (total a) l

namespace IsRunningSum

/-- The last total, or the start if there is no entry, is the start and all amounts. -/
theorem append_iff {start : M} {l m : List α} :
    IsRunningSum amount total start (l ++ m) ↔
      IsRunningSum amount total start l
        ∧ IsRunningSum amount total (start + (l.map amount).sum) m := by
  induction l generalizing start with
  | nil => simp [IsRunningSum]
  | cons a l ih =>
    rw [List.cons_append, IsRunningSum, IsRunningSum, ih, List.map_cons, List.sum_cons, and_assoc]
    refine and_congr_right fun h => ?_
    rw [h, add_assoc]

theorem concat_iff {start : M} {l : List α} {a : α} :
    IsRunningSum amount total start (l ++ [a]) ↔
      IsRunningSum amount total start l ∧ total a = start + (l.map amount).sum + amount a := by
  rw [append_iff, IsRunningSum]
  exact and_congr_right fun _ => and_iff_left trivial

/-- The last entry has the total of all amounts. -/
theorem exists_total {start : M} {l : List α} (hne : l ≠ [])
    (h : IsRunningSum amount total start l) : ∃ a ∈ l, total a = start + (l.map amount).sum := by
  cases l using List.reverseRecOn with
  | nil => exact absurd rfl hne
  | append_singleton l a =>
    refine ⟨a, List.mem_append_right l (List.mem_singleton_self a), ?_⟩
    rw [(concat_iff.1 h).2, List.map_append, List.sum_append, List.map_singleton,
      List.sum_singleton, add_assoc]

variable [PartialOrder M] [IsOrderedCancelAddMonoid M]

/-- Positive amounts make all totals exceed the start. -/
theorem start_lt {start : M} {l : List α} (hpos : ∀ a ∈ l, 0 < amount a)
    (h : IsRunningSum amount total start l) : ∀ a ∈ l, start < total a := by
  induction l generalizing start with
  | nil => simp
  | cons a l ih =>
    obtain ⟨ha, h⟩ := h
    have hlt : start < total a := by
      rw [ha]
      exact lt_add_of_pos_right start (hpos a List.mem_cons_self)
    refine List.forall_mem_cons.2 ⟨hlt, fun b hb => hlt.trans ?_⟩
    exact ih (fun c hc => hpos c (List.mem_cons_of_mem a hc)) h b hb

/-- Positive amounts make the totals increase. -/
theorem pairwise_lt {start : M} {l : List α} (hpos : ∀ a ∈ l, 0 < amount a)
    (h : IsRunningSum amount total start l) : l.Pairwise (total · < total ·) := by
  induction l generalizing start with
  | nil => exact .nil
  | cons a l ih =>
    have hpos' : ∀ b ∈ l, 0 < amount b := fun b hb => hpos b (List.mem_cons_of_mem a hb)
    exact .cons (start_lt hpos' h.2) (ih hpos' h.2)

/-- Positive amounts have their running sums in one order only. -/
theorem eq_of_perm {start : M} {l m : List α} (hpos : ∀ a ∈ l, 0 < amount a)
    (hl : IsRunningSum amount total start l) (hm : IsRunningSum amount total start m)
    (hperm : l.Perm m) : l = m := by
  have hpos' : ∀ a ∈ m, 0 < amount a := fun a ha => hpos a (hperm.mem_iff.2 ha)
  exact hperm.eq_of_pairwise (fun _ _ _ _ hlt hgt => absurd hlt hgt.asymm)
    (hl.pairwise_lt hpos) (hm.pairwise_lt hpos')

end IsRunningSum

end RunningSum
