import Mathlib.Data.List.Sort
import Mathlib.Data.List.Dedup
import Mathlib.Data.List.Perm.Subperm

/-!
# Sorted lists without duplicates

The elements of a list, sorted and without duplicates (`sortedSet`): the tuple of a sorted set. A
list is such a tuple exactly if it is strictly increasing (`sortedSet_eq_self_iff`).
-/

variable {α : Type*} [LinearOrder α]

omit [LinearOrder α] in
theorem insertionSort_eq_nil {r : α → α → Prop} [DecidableRel r] {l : List α} :
    l.insertionSort r = [] ↔ l = [] := by
  rw [← List.length_eq_zero_iff, List.length_insertionSort, List.length_eq_zero_iff]

/-- The elements of a list, sorted and without duplicates: `tuple(sorted(set(xs)))`. -/
def sortedSet (xs : List α) : List α := xs.dedup.insertionSort (· ≤ ·)

theorem perm_sortedSet (xs : List α) : (sortedSet xs).Perm xs.dedup := List.perm_insertionSort _ _

@[simp] theorem mem_sortedSet {xs : List α} {x : α} : x ∈ sortedSet xs ↔ x ∈ xs := by
  rw [(perm_sortedSet xs).mem_iff, List.mem_dedup]

theorem nodup_sortedSet (xs : List α) : (sortedSet xs).Nodup :=
  (perm_sortedSet xs).nodup_iff.2 (List.nodup_dedup xs)

theorem length_sortedSet_le {xs ys : List α} (h : xs ⊆ ys) :
    (sortedSet xs).length ≤ (sortedSet ys).length :=
  (List.Nodup.subperm (nodup_sortedSet xs) fun _ hx =>
    mem_sortedSet.2 (h (mem_sortedSet.1 hx))).length_le

theorem pairwise_sortedSet (xs : List α) : (sortedSet xs).Pairwise (· < ·) := by
  have hle : (sortedSet xs).Pairwise (· ≤ ·) := List.pairwise_insertionSort _ _
  exact (hle.and (nodup_sortedSet xs)).imp fun h => lt_of_le_of_ne h.1 h.2

theorem sortedSet_eq_self_iff {xs : List α} : sortedSet xs = xs ↔ xs.Pairwise (· < ·) := by
  refine ⟨fun h => h ▸ pairwise_sortedSet xs, fun h => ?_⟩
  have hnodup : xs.Nodup := h.imp fun hlt => hlt.ne
  have hperm : (sortedSet xs).Perm xs := by
    rw [← hnodup.dedup]
    simpa using perm_sortedSet xs.dedup
  exact hperm.eq_of_pairwise (fun a b _ _ hab hba => absurd hab hba.not_gt)
    (pairwise_sortedSet xs) h

@[simp] theorem sortedSet_sortedSet (xs : List α) : sortedSet (sortedSet xs) = sortedSet xs :=
  sortedSet_eq_self_iff.2 (pairwise_sortedSet xs)

/-- The sorted set is that of the elements, however often and in what order they occur. -/
theorem sortedSet_congr {xs ys : List α} (h : ∀ x, x ∈ xs ↔ x ∈ ys) :
    sortedSet xs = sortedSet ys := by
  have hperm : (sortedSet xs).Perm (sortedSet ys) :=
    (List.perm_ext_iff_of_nodup (nodup_sortedSet xs) (nodup_sortedSet ys)).2 fun x => by
      rw [mem_sortedSet, mem_sortedSet, h]
  exact hperm.eq_of_pairwise (fun a b _ _ hab hba => absurd hab hba.not_gt)
    (pairwise_sortedSet xs) (pairwise_sortedSet ys)

/-- Sorting by a key that no two elements share makes the keys strictly increase. -/
theorem pairwise_insertionSort_of_key {β : Type*} {key : β → α} {xs : List β}
    (h : (xs.map key).Nodup) :
    (xs.insertionSort fun x y => key x ≤ key y).Pairwise fun x y => key x < key y := by
  have htotal : Std.Total fun x y : β => key x ≤ key y := ⟨fun x y => le_total (key x) (key y)⟩
  have htrans : IsTrans β fun x y => key x ≤ key y := ⟨fun _ _ _ => le_trans⟩
  have hperm := List.perm_insertionSort (fun x y => key x ≤ key y) xs
  have hnodup : ((xs.insertionSort fun x y => key x ≤ key y).map key).Nodup :=
    (hperm.map key).nodup_iff.2 h
  have hle := List.pairwise_insertionSort (fun x y => key x ≤ key y) xs
  exact (hle.and (List.pairwise_map.1 hnodup)).imp fun h => lt_of_le_of_ne h.1 h.2

/-- Lists whose keys strictly increase are the same if they have the same elements. -/
theorem eq_of_pairwise_key {β : Type*} {key : β → α} {xs ys : List β}
    (hx : xs.Pairwise fun x y => key x < key y) (hy : ys.Pairwise fun x y => key x < key y)
    (h : ∀ x, x ∈ xs ↔ x ∈ ys) : xs = ys := by
  have hnodup : ∀ {zs : List β}, zs.Pairwise (fun x y => key x < key y) → zs.Nodup :=
    fun hz => hz.imp fun hlt heq => hlt.ne (congrArg key heq)
  have hperm : xs.Perm ys := (List.perm_ext_iff_of_nodup (hnodup hx) (hnodup hy)).2 h
  exact hperm.eq_of_pairwise (fun a b _ _ hab hba => absurd hab hba.not_gt) hx hy
