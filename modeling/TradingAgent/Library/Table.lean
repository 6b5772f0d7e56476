import Mathlib.Data.List.Nodup
import Mathlib.Logic.Function.Basic
import Mathlib.Tactic.Common

/-!
# Tables

The rows of a table have keys, and are kept in the order in which they were inserted (`Table`). A row
is inserted or replaced by its key (`Table.set`), or all of them are updated at once (`Table.map`).
-/

/-- Rows by their keys. -/
structure Table (κ α : Type*) where
  /-- The keys that have a row, in the order in which they were inserted. -/
  keys : List κ
  row : κ → Option α
  nodup : keys.Nodup
  mem_keys : ∀ k, k ∈ keys ↔ row k ≠ none

namespace Table

variable {κ α : Type*}

def empty : Table κ α := ⟨[], fun _ => none, List.nodup_nil, fun _ => by simp⟩

instance : Inhabited (Table κ α) := ⟨empty⟩

@[simp] theorem row_empty (k : κ) : (empty : Table κ α).row k = none := rfl

def rows (t : Table κ α) : List α := t.keys.filterMap t.row

theorem mem_rows {t : Table κ α} {a : α} : a ∈ t.rows ↔ ∃ k, t.row k = some a := by
  rw [rows, List.mem_filterMap]
  refine ⟨fun ⟨k, _, hk⟩ => ⟨k, hk⟩, fun ⟨k, hk⟩ => ⟨k, (t.mem_keys k).2 ?_, hk⟩⟩
  rw [hk]
  nofun

/-- The rows have their keys in a field. -/
theorem map_rows {t : Table κ α} {f : α → κ} (h : ∀ k a, t.row k = some a → f a = k) :
    t.rows.map f = t.keys := by
  rw [rows, List.map_filterMap]
  have hkeys : ∀ k ∈ t.keys, (t.row k).map f = some k := by
    intro k hk
    obtain ⟨a, ha⟩ := Option.ne_none_iff_exists'.1 ((t.mem_keys k).1 hk)
    rw [ha, Option.map_some, h k a ha]
  rw [List.filterMap_congr hkeys, List.filterMap_some]

/-- All rows, updated. -/
def map (t : Table κ α) (f : α → α) : Table κ α where
  keys := t.keys
  row k := (t.row k).map f
  nodup := t.nodup
  mem_keys k := by simp [t.mem_keys]

@[simp] theorem row_map (t : Table κ α) (f : α → α) (k : κ) : (t.map f).row k = (t.row k).map f := rfl

variable [DecidableEq κ]

/-- The row of a key, inserted or replaced. -/
def set (t : Table κ α) (k : κ) (a : α) : Table κ α where
  keys := if (t.row k).isNone then t.keys ++ [k] else t.keys
  row := Function.update t.row k (some a)
  nodup := by
    split
    · rename_i hnone
      refine List.nodup_append.2 ⟨t.nodup, List.nodup_singleton k, fun a ha b hb hab => ?_⟩
      rw [List.mem_singleton.1 hb] at hab
      subst hab
      exact (t.mem_keys a).1 ha (Option.isNone_iff_eq_none.1 hnone)
    · exact t.nodup
  mem_keys j := by
    by_cases hj : j = k
    · subst hj
      rw [Function.update_self]
      refine iff_of_true ?_ nofun
      split
      · exact List.mem_append_right _ (List.mem_singleton_self j)
      · rename_i hsome
        exact (t.mem_keys j).2 fun hnone => hsome (Option.isNone_iff_eq_none.2 hnone)
    · rw [Function.update_of_ne hj, ← t.mem_keys j]
      split
      · rw [List.mem_append, List.mem_singleton, or_iff_left hj]
      · rfl

variable {t : Table κ α} {j k : κ} {a : α}

@[simp] theorem row_set_self : (t.set k a).row k = some a := Function.update_self k _ _

theorem row_set_of_ne (h : j ≠ k) : (t.set k a).row j = t.row j := Function.update_of_ne h _ _

theorem row_set : (t.set k a).row j = if j = k then some a else t.row j := by
  by_cases h : j = k
  · rw [if_pos h, h, row_set_self]
  · rw [if_neg h, row_set_of_ne h]

end Table
