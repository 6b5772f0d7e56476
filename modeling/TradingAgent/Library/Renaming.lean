import Mathlib.Logic.Relation
import Mathlib.Tactic.Common

/-!
# Names given by renaming

A list of renamings, each of an old name to a new one. What had a name first also has the names
it was renamed to, and the names that these were renamed to (`Renamed`).

* If a name is new, what is renamed to it gets this name and no other (`renamed_concat_iff`).
* A name that was never renamed is only its own (`eq_of_renamed`), and one that nothing was
  renamed to had no other before (`eq_of_renamed_right`).
-/

variable {κ : Type*} {renamings : List (κ × κ)} {a b o n : κ}

/-- What has the name `a` also has the name `b`, by the renamings of a list. -/
def Renamed (renamings : List (κ × κ)) : κ → κ → Prop :=
  Relation.ReflTransGen fun old new => (old, new) ∈ renamings

namespace Renamed

@[refl] theorem refl (a : κ) : Renamed renamings a a := Relation.ReflTransGen.refl

theorem trans {c : κ} (hab : Renamed renamings a b) (hbc : Renamed renamings b c) :
    Renamed renamings a c :=
  Relation.ReflTransGen.trans hab hbc

theorem mono {more : List (κ × κ)} (h : Renamed renamings a b) :
    Renamed (renamings ++ more) a b :=
  Relation.ReflTransGen.mono (fun _ _ => List.mem_append_left more) a b h

end Renamed

theorem eq_of_renamed (ha : ∀ r ∈ renamings, r.1 ≠ a) (h : Renamed renamings a b) : b = a := by
  rcases Relation.ReflTransGen.cases_head h with rfl | ⟨c, hac, -⟩
  · rfl
  · exact absurd rfl (ha _ hac)

theorem eq_of_renamed_right (hb : ∀ r ∈ renamings, r.2 ≠ b) (h : Renamed renamings a b) :
    a = b := by
  rcases Relation.ReflTransGen.cases_tail h with rfl | ⟨c, -, hcb⟩
  · rfl
  · exact absurd rfl (hb _ hcb)

/-- Renaming `o` to a name `n` that was never renamed. -/
theorem renamed_concat_iff (hn : ∀ r ∈ renamings, r.1 ≠ n) :
    Renamed (renamings ++ [(o, n)]) a b ↔
      Renamed renamings a b ∨ (Renamed renamings a o ∧ b = n) := by
  constructor
  · intro h
    induction h with
    | refl => exact .inl (.refl a)
    | @tail c d _ hcd ih =>
      rcases List.mem_append.1 hcd with hold | hnew
      · -- An old renaming cannot start from the new name.
        rcases ih with hac | ⟨-, hcn⟩
        · exact .inl (hac.tail hold)
        · exact absurd hcn (hn _ hold)
      · obtain ⟨rfl, rfl⟩ := Prod.mk.inj (List.mem_singleton.1 hnew)
        rcases ih with hac | ⟨hao, -⟩
        · exact .inr ⟨hac, rfl⟩
        · exact .inr ⟨hao, rfl⟩
  · rintro (h | ⟨h, rfl⟩)
    · exact h.mono
    · exact h.mono.tail (List.mem_append_right _ (List.mem_singleton.2 rfl))
