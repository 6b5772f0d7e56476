import Mathlib.Data.List.Infix
import Mathlib.Data.List.Pairwise
import Mathlib.Tactic.NthRewrite

/-!
# Windows of a list

* The element of a list at an integer index, and the window between two of them (`getAt`,
  `window`). Unlike in Python, an index that is negative, or past the end, is refused: where none is
  refused, they are the element and the slice of Python.
* What they depend on is the initial part of the list that they end with (`getAt_take`,
  `window_take`).
* In a list in an order, the elements with a property that those before them have too are an initial
  part of it (`filter_isPrefix`). So two such lists with the same elements of the property have the
  same initial part up to each of them (`take_eq_of_filter_eq`).
-/

section

variable {α : Type*} {l m : List α}

/-- The element at an index: `l[i]`. -/
def getAt (l : List α) (i : ℤ) : Option α := if 0 ≤ i then l[i.toNat]? else none

/-- The elements from an index on, and before another one: `l[i:j]`. -/
def window (l : List α) (i j : ℤ) : Option (List α) :=
  if 0 ≤ i ∧ i ≤ j ∧ j ≤ l.length then some ((l.take j.toNat).drop i.toNat) else none

theorem getAt_natCast (l : List α) (i : ℕ) : getAt l i = l[i]? := if_pos (Int.natCast_nonneg i)

theorem exists_getAt {i : ℤ} (hi : 0 ≤ i) (h : i < l.length) : ∃ a ∈ l, getAt l i = some a := by
  obtain ⟨n, rfl⟩ := Int.eq_ofNat_of_zero_le hi
  have hn : n < l.length := by exact_mod_cast h
  refine ⟨l[n], List.getElem_mem hn, ?_⟩
  rw [getAt_natCast, List.getElem?_eq_getElem hn]

theorem exists_window {i j : ℤ} (hi : 0 ≤ i) (hj : i ≤ j) (h : j ≤ l.length) :
    ∃ w, window l i j = some w ∧ (w.length : ℤ) = j - i ∧ w ⊆ l := by
  refine ⟨_, if_pos ⟨hi, hj, h⟩, ?_, fun a ha => List.mem_of_mem_take (List.mem_of_mem_drop ha)⟩
  rw [List.length_drop, List.length_take]
  omega

theorem getAt_take {i : ℤ} {n : ℕ} (h : i < n) : getAt (l.take n) i = getAt l i := by
  rw [getAt, getAt, List.getElem?_take]
  split_ifs with hi hlt
  · rfl
  · omega
  · rfl

theorem window_take {i j : ℤ} {n : ℕ} (h : j ≤ n) : window (l.take n) i j = window l i j := by
  have htake : (l.take n).take j.toNat = l.take j.toNat := by
    rw [List.take_take, min_eq_left (by omega)]
  have hlength : j ≤ (l.take n).length ↔ j ≤ l.length := by
    rw [List.length_take]
    omega
  rw [window, window, htake]
  simp only [hlength]

end

section

variable {α : Type*} {r : α → α → Prop} {p : α → Bool} {l m : List α}

theorem filter_isPrefix (h : l.Pairwise r) (hp : ∀ a b, r a b → p b = true → p a = true) :
    l.filter p <+: l := by
  induction l with
  | nil => exact List.nil_prefix
  | cons a l ih =>
    obtain ⟨hfirst, hrest⟩ := List.pairwise_cons.1 h
    by_cases ha : p a = true
    · rw [List.filter_cons_of_pos ha]
      exact (List.prefix_cons_inj a).2 (ih hrest)
    · -- What follows an element without the property does not have it either.
      have hnone : (a :: l).filter p = [] := by
        rw [List.filter_eq_nil_iff]
        intro b hb
        rcases List.mem_cons.1 hb with rfl | hb
        · exact ha
        · exact fun hpb => ha (hp a b (hfirst b hb) hpb)
      rw [hnone]
      exact List.nil_prefix

/-- Up to an element with the property, all have it. -/
theorem take_isPrefix_filter (h : l.Pairwise r) (hp : ∀ a b, r a b → p b = true → p a = true)
    {i : ℕ} (hi : i < l.length) (hpi : p l[i] = true) : l.take (i + 1) <+: l.filter p := by
  have hall : ∀ a ∈ l.take (i + 1), p a = true := by
    intro a ha
    obtain ⟨j, hj, rfl⟩ := List.mem_iff_getElem.1 ha
    rw [List.length_take] at hj
    rw [List.getElem_take]
    rcases Nat.lt_or_eq_of_le (by omega : j ≤ i) with hlt | rfl
    · exact hp _ _ (List.pairwise_iff_getElem.1 h j i (by omega) hi hlt) hpi
    · exact hpi
  have htake : (l.take (i + 1)).filter p = l.take (i + 1) := List.filter_eq_self.2 hall
  refine ⟨(l.drop (i + 1)).filter p, ?_⟩
  nth_rewrite 1 [← htake]
  rw [← List.filter_append, List.take_append_drop]

theorem take_eq_of_filter_eq (hl : l.Pairwise r) (hm : m.Pairwise r)
    (hp : ∀ a b, r a b → p b = true → p a = true) (h : l.filter p = m.filter p) {i : ℕ}
    (hi : i < l.length) (hpi : p l[i] = true) : l.take (i + 1) = m.take (i + 1) := by
  have hinitial : l.take (i + 1) <+: m :=
    (h ▸ take_isPrefix_filter hl hp hi hpi).trans (filter_isPrefix hm hp)
  have hlength : (l.take (i + 1)).length = i + 1 := by
    rw [List.length_take]
    omega
  rw [List.prefix_iff_eq_take.1 hinitial, hlength]

end
