import Mathlib.Data.List.Perm.Subperm
import Mathlib.Logic.Relation
import Mathlib.Order.WellFounded

/-!
# Parents and ancestors

Nodes, each of which has at most one parent.

* From a node, one walks to its parent, and on from there, until a root is reached, or a node that
  is known to be fine (`walk`). A walk that comes back to a node on its path has found a cycle.
* Walks from each of the nodes (`checkAll`) find one exactly if some node is among its own ancestors
  (`checkAll_eq_true`): none is if something increases from each parent to its children
  (`isAcyclic_of_lt`).
-/

namespace Ancestry

open Relation

variable {κ : Type*}

/-- Whether a node is the parent of another one. -/
def IsParent (parent : κ → Option κ) (p k : κ) : Prop := parent k = some p

/-- No node is among its own ancestors. -/
def IsAcyclic (parent : κ → Option κ) : Prop := ∀ k, ¬ TransGen (IsParent parent) k k

variable {parent : κ → Option κ}

theorem isAcyclic_of_lt {α : Type*} [Preorder α] {f : κ → α}
    (h : ∀ p k, parent k = some p → f p < f k) : IsAcyclic parent := by
  have hlt : ∀ p k, TransGen (IsParent parent) p k → f p < f k := by
    intro p k hpath
    induction hpath with
    | single hp => exact h _ _ hp
    | tail _ hp ih => exact ih.trans (h _ _ hp)
  exact fun k hk => lt_irrefl _ (hlt k k hk)

theorem isAcyclic_of_acc (h : ∀ k, Acc (IsParent parent) k) : IsAcyclic parent :=
  fun k hk => (WellFounded.intro h).transGen.irrefl.irrefl k hk

variable [DecidableEq κ] {completed path nodes : List κ} {current : κ} {fuel : ℕ}

/-- The nodes on the way from `current`, up to the first completed one, or to a root. -/
def walk (parent : κ → Option κ) (completed : List κ) : ℕ → List κ → κ → Option (List κ)
  | 0, _, _ => none
  | fuel + 1, path, current =>
    if current ∈ completed then some path
    else if current ∈ path then none
    else match parent current with
      | none => some (current :: path)
      | some p => walk parent completed fuel (current :: path) p

/-- A walk from each of the nodes that is not completed by then. -/
def checkFrom (parent : κ → Option κ) (fuel : ℕ) : List κ → List κ → Bool
  | _, [] => true
  | completed, start :: starts =>
    if start ∈ completed then checkFrom parent fuel completed starts
    else match walk parent completed fuel [] start with
      | none => false
      | some path => checkFrom parent fuel (path ++ completed) starts

/-- Walks from each of the nodes. A path has no more steps than there are nodes. -/
def checkAll (parent : κ → Option κ) (nodes : List κ) : Bool :=
  checkFrom parent (nodes.length + 1) [] nodes

/-- A walk fails only if there is a cycle. -/
theorem walk_ne_none (hacyclic : IsAcyclic parent)
    (hnodes : ∀ k p, parent k = some p → k ∈ nodes) (hpath : path ⊆ nodes) (hnodup : path.Nodup)
    (hfuel : nodes.length < fuel + path.length)
    (hcurrent : ∀ k ∈ path, TransGen (IsParent parent) current k) :
    walk parent completed fuel path current ≠ none := by
  induction fuel generalizing path current with
  | zero =>
    have hle := (hnodup.subperm hpath).length_le
    omega
  | succ fuel ih =>
    intro hwalk
    rw [walk] at hwalk
    split_ifs at hwalk with hcompleted hmem
    · exact hacyclic current (hcurrent current hmem)
    · split at hwalk
      · cases hwalk
      · rename_i p hp
        -- The path grows by a node that has a parent, so that the fuel is not used up.
        refine ih ?_ (List.nodup_cons.2 ⟨hmem, hnodup⟩) ?_ ?_ hwalk
        · exact List.cons_subset.2 ⟨hnodes _ _ hp, hpath⟩
        · rw [List.length_cons]
          omega
        · intro k hk
          rcases List.mem_cons.1 hk with rfl | hk
          · exact .single hp
          · exact .head hp (hcurrent k hk)

/-- The walk goes on from its path, and from the node where it is. -/
theorem subset_of_walk {result : List κ}
    (hwalk : walk parent completed fuel path current = some result) :
    path ⊆ result ∧ (current ∉ completed → current ∈ result) := by
  induction fuel generalizing path current with
  | zero => cases hwalk
  | succ fuel ih =>
    rw [walk] at hwalk
    split_ifs at hwalk with hcompleted
    · cases hwalk
      exact ⟨List.Subset.refl _, fun h => absurd hcompleted h⟩
    · split at hwalk
      · cases hwalk
        exact ⟨List.subset_cons_self _ _, fun _ => List.mem_cons_self⟩
      · obtain ⟨hsubset, -⟩ := ih hwalk
        exact ⟨fun k hk => hsubset (List.mem_cons_of_mem _ hk), fun _ => hsubset List.mem_cons_self⟩

/-- The nodes of a walk have no infinite ancestry, as the last of them has none. -/
theorem acc_of_walk (hcompleted : ∀ k ∈ completed, Acc (IsParent parent) k)
    (hcurrent : Acc (IsParent parent) current → ∀ k ∈ path, Acc (IsParent parent) k)
    {result : List κ} (hwalk : walk parent completed fuel path current = some result) :
    ∀ k ∈ result, Acc (IsParent parent) k := by
  induction fuel generalizing path current with
  | zero => cases hwalk
  | succ fuel ih =>
    rw [walk] at hwalk
    split_ifs at hwalk with hmem
    · cases hwalk
      exact hcurrent (hcompleted current hmem)
    · split at hwalk
      · rename_i hroot
        cases hwalk
        have hacc : Acc (IsParent parent) current := .intro _ fun p hp => by
          cases hroot.symm.trans hp
        exact List.forall_mem_cons.2 ⟨hacc, hcurrent hacc⟩
      · rename_i p hp
        refine ih (fun hacc => ?_) hwalk
        have hchild : Acc (IsParent parent) current := .intro _ fun q hq => by
          cases hp.symm.trans hq
          exact hacc
        exact List.forall_mem_cons.2 ⟨hchild, hcurrent hchild⟩

theorem checkFrom_of_isAcyclic (hacyclic : IsAcyclic parent)
    (hnodes : ∀ k p, parent k = some p → k ∈ nodes) (starts : List κ) :
    checkFrom parent (nodes.length + 1) completed starts = true := by
  induction starts generalizing completed with
  | nil => rfl
  | cons start starts ih =>
    rw [checkFrom]
    split_ifs
    · exact ih
    · split
      · rename_i hwalk
        refine absurd hwalk (walk_ne_none hacyclic hnodes (List.nil_subset _) .nil ?_ ?_)
        · simp
        · simp
      · exact ih

theorem acc_of_checkFrom {starts : List κ}
    (hcompleted : ∀ k ∈ completed, Acc (IsParent parent) k)
    (hcheck : checkFrom parent fuel completed starts = true) :
    ∀ k ∈ starts, Acc (IsParent parent) k := by
  induction starts generalizing completed with
  | nil => simp
  | cons start starts ih =>
    rw [checkFrom] at hcheck
    split_ifs at hcheck with hmem
    · exact List.forall_mem_cons.2 ⟨hcompleted start hmem, ih hcompleted hcheck⟩
    · split at hcheck
      · cases hcheck
      · rename_i path hwalk
        have hpath := acc_of_walk hcompleted (fun _ => by simp) hwalk
        refine List.forall_mem_cons.2 ⟨hpath start ((subset_of_walk hwalk).2 hmem), ih ?_ hcheck⟩
        intro k hk
        rcases List.mem_append.1 hk with hk | hk
        · exact hpath k hk
        · exact hcompleted k hk

/-- The walks succeed exactly if no node is among its own ancestors. -/
theorem checkAll_eq_true (hnodes : ∀ k p, parent k = some p → k ∈ nodes) :
    checkAll parent nodes = true ↔ IsAcyclic parent := by
  refine ⟨fun hcheck => isAcyclic_of_acc fun k => ?_, fun h => checkFrom_of_isAcyclic h hnodes nodes⟩
  by_cases hk : k ∈ nodes
  · exact acc_of_checkFrom (by simp) hcheck k hk
  · exact .intro _ fun p hp => absurd (hnodes k p hp) hk

/-- If no node is among its own ancestors, each node has a root among them, or is one. -/
theorem exists_root (h : IsAcyclic parent) (hnodes : ∀ k p, parent k = some p → k ∈ nodes) (k : κ) :
    ∃ root, parent root = none ∧ ReflTransGen (IsParent parent) root k := by
  have hacc : Acc (IsParent parent) k := by
    have hcheck : checkFrom parent (nodes.length + 1) [] nodes = true :=
      checkFrom_of_isAcyclic h hnodes nodes
    by_cases hk : k ∈ nodes
    · exact acc_of_checkFrom (by simp) hcheck k hk
    · exact .intro _ fun p hp => absurd (hnodes k p hp) hk
  induction hacc with
  | intro k _ ih =>
    cases hp : parent k with
    | none => exact ⟨k, hp, .refl⟩
    | some p =>
      obtain ⟨root, hroot, hpath⟩ := ih p hp
      exact ⟨root, hroot, hpath.tail hp⟩

end Ancestry
