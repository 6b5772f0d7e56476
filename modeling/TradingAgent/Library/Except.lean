import Mathlib.Tactic.Common
import TradingAgent.Library.Fold

/-!
# Computations that may raise an error

The steps of a computation that may raise an error, taken apart: a sequence of steps succeeds
exactly if each of them does (`Except.bind_eq_ok`), and a check of the form `if bad: raise e`
(`raiseIf`) succeeds exactly if what it checks for is not the case.
-/

namespace Except

universe u

variable {ε : Type*} {α β : Type u}

theorem ok_bind (a : α) (f : α → Except ε β) : Except.ok a >>= f = f a := rfl

@[simp] theorem bind_eq_ok {x : Except ε α} {f : α → Except ε β} {b : β} :
    x >>= f = .ok b ↔ ∃ a, x = .ok a ∧ f a = .ok b := by
  cases x <;> simp [bind, Except.bind]

theorem bind_eq_error {x : Except ε α} {f : α → Except ε β} {e : ε} :
    x >>= f = .error e ↔ x = .error e ∨ ∃ a, x = .ok a ∧ f a = .error e := by
  cases x <;> simp [bind, Except.bind]

@[simp] theorem pure_eq_ok {a b : α} : (pure a : Except ε α) = .ok b ↔ a = b := by
  simp [pure, Except.pure]

@[simp] theorem pure_ne_error {a : α} {e : ε} : (pure a : Except ε α) ≠ .error e := nofun

/-- If each element is mapped without an error, so is the list. -/
theorem mapM_eq_map {f : α → Except ε β} {g : α → β} {l : List α} (h : ∀ a ∈ l, f a = .ok (g a)) :
    l.mapM f = .ok (l.map g) := by
  induction l with
  | nil => rfl
  | cons a l ih =>
    rw [List.mapM_cons, h a List.mem_cons_self, ih fun b hb => h b (List.mem_cons_of_mem a hb)]
    rfl

/-- If each element is kept without an error, so is the list. -/
theorem mapM_self {f : α → Except ε α} {l : List α} (h : ∀ a ∈ l, f a = .ok a) :
    l.mapM f = .ok l := by
  simpa using mapM_eq_map h

/-- The elements of the result are those of the list, mapped. -/
theorem forall₂_of_mapM_eq_ok {f : α → Except ε β} {l : List α} {m : List β}
    (h : l.mapM f = .ok m) : List.Forall₂ (fun a b => f a = .ok b) l m := by
  induction l generalizing m with
  | nil =>
    cases h
    exact .nil
  | cons a l ih =>
    rw [List.mapM_cons, bind_eq_ok] at h
    obtain ⟨b, hb, h⟩ := h
    obtain ⟨rest, hrest, h⟩ := bind_eq_ok.1 h
    cases h
    exact .cons hb (ih hrest)

/-- What only keeps its argument, or raises an error, keeps a list. -/
theorem mapM_eq_self {f : α → Except ε α} (hf : ∀ a b, f a = .ok b → b = a) {l m : List α}
    (h : l.mapM f = .ok m) : m = l := by
  simpa using (map_eq_of_forall₂ (forall₂_of_mapM_eq_ok h) fun a b hb => (hf a b hb).symm :
    l.map id = m.map id).symm

theorem exists_mapM_eq_ok {f : α → Except ε β} {l : List α} :
    (∃ m, l.mapM f = .ok m) ↔ ∀ a ∈ l, ∃ b, f a = .ok b := by
  refine ⟨?_, fun h => ?_⟩
  · rintro ⟨m, hm⟩ a ha
    obtain ⟨b, -, hb⟩ := exists_right_of_forall₂ (forall₂_of_mapM_eq_ok hm) ha
    exact ⟨b, hb⟩
  · induction l with
    | nil => exact ⟨[], rfl⟩
    | cons a l ih =>
      obtain ⟨b, hb⟩ := h a List.mem_cons_self
      obtain ⟨m, hm⟩ := ih fun c hc => h c (List.mem_cons_of_mem a hc)
      exact ⟨b :: m, by rw [List.mapM_cons, hb, hm]; rfl⟩

/-- What is done for each element succeeds exactly if it does for all of them. -/
theorem forM_eq_ok {f : α → Except ε PUnit} {l : List α} :
    l.forM f = .ok ⟨⟩ ↔ ∀ a ∈ l, f a = .ok ⟨⟩ := by
  rw [List.forM_eq_forM]
  induction l with
  | nil => simp
  | cons a l ih =>
    rw [List.forM_cons, bind_eq_ok, List.forall_mem_cons, ← ih]
    exact ⟨fun ⟨_, ha, hl⟩ => ⟨ha, hl⟩, fun ⟨ha, hl⟩ => ⟨_, ha, hl⟩⟩

theorem mapM_congr {f g : α → Except ε β} {l : List α} (h : ∀ a ∈ l, f a = g a) :
    l.mapM f = l.mapM g := by
  induction l with
  | nil => rfl
  | cons a l ih =>
    rw [List.mapM_cons, List.mapM_cons, h a List.mem_cons_self,
      ih fun b hb => h b (List.mem_cons_of_mem a hb)]

/-- What is mapped first stands first. -/
theorem isPrefix_of_mapM_append {f : α → Except ε β} {l m : List α} {xs ys : List β}
    (hl : l.mapM f = .ok xs) (h : (l ++ m).mapM f = .ok ys) : xs <+: ys := by
  rw [List.mapM_append, hl, ok_bind] at h
  obtain ⟨zs, -, h⟩ := bind_eq_ok.1 h
  exact ⟨zs, pure_eq_ok.1 h⟩

/-- An error of the list is that of one of the elements. -/
theorem exists_of_mapM_eq_error {f : α → Except ε β} {l : List α} {e : ε}
    (h : l.mapM f = .error e) : ∃ a ∈ l, f a = .error e := by
  induction l with
  | nil => cases h
  | cons a l ih =>
    rw [List.mapM_cons] at h
    rcases bind_eq_error.1 h with ha | ⟨b, -, h⟩
    · exact ⟨a, List.mem_cons_self, ha⟩
    · rcases bind_eq_error.1 h with hl | ⟨_, -, h⟩
      · obtain ⟨c, hc, hfc⟩ := ih hl
        exact ⟨c, List.mem_cons_of_mem a hc, hfc⟩
      · cases h

/-- The error `e`, if `bad` is the case. -/
def raiseIf (bad : Prop) [Decidable bad] (e : ε) : Except ε Unit :=
  if bad then .error e else .ok ()

@[simp] theorem raiseIf_eq_ok {bad : Prop} [Decidable bad] {e : ε} {u : Unit} :
    raiseIf bad e = .ok u ↔ ¬ bad := by
  unfold raiseIf
  split_ifs <;> simp_all

/-- A check, and what follows if it passes. -/
theorem raiseIf_bind {α : Type} {bad : Prop} [Decidable bad] {e : ε} {f : Unit → Except ε α} :
    (raiseIf bad e >>= f) = if bad then .error e else f () := by
  unfold raiseIf
  split_ifs <;> rfl

theorem raiseIf_eq_error {bad : Prop} [Decidable bad] {e e' : ε} :
    raiseIf bad e = .error e' ↔ bad ∧ e = e' := by
  unfold raiseIf
  split_ifs <;> simp_all

end Except
