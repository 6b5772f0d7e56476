import Mathlib.Data.List.Basic
import Mathlib.Tactic.Common

/-!
# Records derived from earlier ones

An append-only list of records under different keys, each of which is derived from nothing, or
from the record of a key that is already in the list (`Lineage`).

* A record is never derived from one that was appended after it. So none of the records up to the
  last one that satisfies some test is derived from that last one (`Lineage.source_ne_last`), and
  what is derived from it next is new.
-/

variable {α κ : Type*} {key : α → κ} {derived : α → Option κ → Prop}

/-- The lists of records whose keys are different, each derived from none or an earlier one. -/
inductive Lineage (key : α → κ) (derived : α → Option κ → Prop) : List α → Prop
  | nil : Lineage key derived []
  | concat {rows : List α} {row : α} {source : Option κ} : Lineage key derived rows →
      key row ∉ rows.map key → (∀ k ∈ source, k ∈ rows.map key) → derived row source →
      Lineage key derived (rows ++ [row])

namespace Lineage

variable {rows : List α}

/-- Each record is derived from none, or from one of the list. -/
theorem exists_source (h : Lineage key derived rows) {row : α} (hrow : row ∈ rows) :
    ∃ source, derived row source ∧ ∀ k ∈ source, k ∈ rows.map key := by
  induction h with
  | nil => exact absurd hrow List.not_mem_nil
  | @concat rows last source _ _ hsource hderived ih =>
    have hmono : ∀ k ∈ rows.map key, k ∈ (rows ++ [last]).map key := fun k hk =>
      List.map_append ▸ List.mem_append_left _ hk
    rcases List.mem_append.1 hrow with hrow | hrow
    · obtain ⟨source, hderived, hsource⟩ := ih hrow
      exact ⟨source, hderived, fun k hk => hmono k (hsource k hk)⟩
    · rw [List.mem_singleton.1 hrow]
      exact ⟨source, hderived, fun k hk => hmono k (hsource k hk)⟩

/-- None of the records that satisfy a test is derived from the last one of them. -/
theorem source_ne_last (h : Lineage key derived rows) {p : α → Bool} {last row : α}
    (hlast : rows.reverse.find? p = some last) (hrow : row ∈ rows) (hp : p row = true) :
    ∃ source, derived row source ∧ (∀ k ∈ source, k ∈ rows.map key)
      ∧ source ≠ some (key last) := by
  induction h with
  | nil => exact absurd hrow List.not_mem_nil
  | @concat rows new source hrows hnew hsource hderived ih =>
    have hmono : ∀ k ∈ rows.map key, k ∈ (rows ++ [new]).map key := fun k hk =>
      List.map_append ▸ List.mem_append_left _ hk
    rw [List.reverse_concat, List.find?_cons] at hlast
    split at hlast
    · -- The last record is the newest one: no source can be its key.
      cases hlast
      rcases List.mem_append.1 hrow with hrow | hrow
      · obtain ⟨source, hderived, hsource⟩ := hrows.exists_source hrow
        refine ⟨source, hderived, fun k hk => hmono k (hsource k hk), fun heq => ?_⟩
        exact hnew (hsource _ heq)
      · rw [List.mem_singleton.1 hrow]
        refine ⟨source, hderived, fun k hk => hmono k (hsource k hk), fun heq => ?_⟩
        exact hnew (hsource _ heq)
    · rename_i hpnew
      have hrow : row ∈ rows := by
        rcases List.mem_append.1 hrow with hrow | hrow
        · exact hrow
        · rw [List.mem_singleton.1 hrow] at hp
          exact absurd hp (by simp [hpnew])
      obtain ⟨source, hderived, hsource, hne⟩ := ih hlast hrow
      exact ⟨source, hderived, fun k hk => hmono k (hsource k hk), hne⟩

end Lineage
