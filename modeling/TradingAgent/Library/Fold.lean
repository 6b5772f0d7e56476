import Mathlib.Data.List.Dedup
import Mathlib.Data.List.Forall2
import Mathlib.Data.List.Induction
import Mathlib.Data.List.MinMax
import Mathlib.Tactic.Common

/-!
# Passes over a list

* A pass that keeps a log (`LoggedPass`): a loop over a list whose state carries a log, to which
  a step may add, but from which it takes nothing. If the log is empty at the end, then it was so
  all along: to prove an invariant of such a pass, only the steps that add nothing to the log
  matter (`LoggedPass.run_induction`).
* Checks of which the first one that fails gives its reason (`firstReason`), and checks of which
  each one that fails does (`allReasons`).
* Lists whose elements correspond to each other, one by one (`List.Forall₂`).
* The dictionary of the rows of a list by a key (`dictGet`), where a later row replaces an
  earlier one of the same key.
* The rows of a list without those that repeat the key of an earlier one (`firstsBy`).
-/

/-- The reason of the first check that fails, if one does: the checks of the form
    `if bad: return (reason,)`, one after the other. -/
def firstReason : List (Bool × String) → List String
  | [] => []
  | (bad, reason) :: checks => if bad then [reason] else firstReason checks

/-- There is no reason exactly if no check fails. -/
theorem firstReason_eq_nil {checks : List (Bool × String)} :
    firstReason checks = [] ↔ ∀ check ∈ checks, check.1 = false := by
  induction checks with
  | nil => simp [firstReason]
  | cons check checks ih =>
    rw [firstReason, List.forall_mem_cons, ← ih]
    cases check.1 <;> simp

/-- A reason that is given is that of a check that fails. -/
theorem exists_of_firstReason_eq {checks : List (Bool × String)} {reason : String}
    (h : firstReason checks = [reason]) : ∃ check ∈ checks, check.1 = true ∧ check.2 = reason := by
  induction checks with
  | nil => cases h
  | cons check checks ih =>
    rw [firstReason] at h
    split_ifs at h with hbad
    · exact ⟨check, List.mem_cons_self, hbad, List.singleton_inj.1 h⟩
    · obtain ⟨failed, hmem, hfailed⟩ := ih h
      exact ⟨failed, List.mem_cons_of_mem check hmem, hfailed⟩

/-- The reasons of the checks that fail: the checks of the form `if bad: reasons.append(reason)`,
    one after the other. -/
def allReasons (checks : List (Bool × String)) : List String :=
  (checks.filter (·.1)).map (·.2)

/-- There is no reason exactly if no check fails. -/
theorem allReasons_eq_nil {checks : List (Bool × String)} :
    allReasons checks = [] ↔ ∀ check ∈ checks, check.1 = false := by
  simp [allReasons, List.filter_eq_nil_iff]

theorem eraseDups_eq_nil {α : Type*} [BEq α] {l : List α} : l.eraseDups = [] ↔ l = [] := by
  cases l with
  | nil => simp
  | cons a l => simp [List.eraseDups_cons]

/-- A loop whose state `σ` carries a log, over a list of elements `α`. -/
structure LoggedPass (σ α ε : Type*) where
  step : σ → α → σ
  log : σ → List ε
  log_step : ∀ s a, log s ⊆ log (step s a)

namespace LoggedPass

variable {σ α ε : Type*} (pass : LoggedPass σ α ε)

/-- The pass over a list, from a state. -/
def run (s : σ) (l : List α) : σ := l.foldl pass.step s

@[simp] theorem run_nil (s : σ) : pass.run s [] = s := rfl

theorem run_concat (s : σ) (l : List α) (a : α) :
    pass.run s (l ++ [a]) = pass.step (pass.run s l) a := by
  rw [run, List.foldl_concat, run]

theorem log_eq_nil_of_step {s : σ} {a : α} (h : pass.log (pass.step s a) = []) :
    pass.log s = [] :=
  List.subset_nil.1 (h ▸ pass.log_step s a)

/-- The log at the end of a pass contains the one at its start. -/
theorem log_eq_nil_of_run {s : σ} {l : List α} (h : pass.log (pass.run s l) = []) :
    pass.log s = [] := by
  induction l using List.reverseRecOn with
  | nil => exact h
  | append_singleton l a ih =>
    rw [run_concat] at h
    exact ih (pass.log_eq_nil_of_step h)

/-- An invariant of a pass at whose end the log is empty, by induction on the elements the pass
    went over. -/
theorem run_induction {I : List α → σ → Prop} {s : σ} (hnil : I [] s)
    (hstep : ∀ l t a, pass.log (pass.step t a) = [] → I l t → I (l ++ [a]) (pass.step t a))
    {l : List α} (h : pass.log (pass.run s l) = []) : I l (pass.run s l) := by
  induction l using List.reverseRecOn with
  | nil => exact hnil
  | append_singleton l a ih =>
    rw [run_concat] at h ⊢
    exact hstep l _ a h (ih (pass.log_eq_nil_of_step h))

end LoggedPass

section Forall₂

variable {α β γ : Type*} {R : α → β → Prop} {l : List α} {m : List β}

theorem exists_right_of_forall₂ (h : l.Forall₂ R m) {a : α} (ha : a ∈ l) :
    ∃ b ∈ m, R a b := by
  induction h with
  | nil => exact absurd ha List.not_mem_nil
  | cons hab _ ih =>
    rcases List.mem_cons.1 ha with rfl | ha
    · exact ⟨_, List.mem_cons_self, hab⟩
    · obtain ⟨b, hb, hR⟩ := ih ha
      exact ⟨b, List.mem_cons_of_mem _ hb, hR⟩

theorem exists_left_of_forall₂ (h : l.Forall₂ R m) {b : β} (hb : b ∈ m) : ∃ a ∈ l, R a b :=
  exists_right_of_forall₂ h.flip hb

theorem map_eq_of_forall₂ {f : α → γ} {g : β → γ} (h : l.Forall₂ R m)
    (hR : ∀ a b, R a b → f a = g b) : l.map f = m.map g := by
  rw [← List.forall₂_eq_eq_eq, List.forall₂_map_left_iff, List.forall₂_map_right_iff]
  exact h.imp hR

end Forall₂

section Dict

variable {α κ : Type*} [DecidableEq κ] {key : α → κ} {rows : List α} {k : κ} {row : α}

/-- The row of a key, in the dictionary of the rows by their keys. -/
def dictGet (key : α → κ) (rows : List α) (k : κ) : Option α :=
  rows.reverse.find? fun row => key row = k

/-- The number of rows in the dictionary of the rows by their keys. -/
def dictLen (key : α → κ) (rows : List α) : ℕ := (rows.map key).dedup.length

/-- The rows in the dictionary of the rows by their keys, in the order in which their keys were
    first inserted. -/
def dictValues (key : α → κ) (rows : List α) : List α :=
  (rows.map key).eraseDups.filterMap (dictGet key rows)

theorem dictGet_eq_some (h : dictGet key rows k = some row) : row ∈ rows ∧ key row = k :=
  ⟨List.mem_reverse.1 (List.mem_of_find?_eq_some h), by simpa using List.find?_some h⟩

theorem dictGet_eq_none : dictGet key rows k = none ↔ ∀ row ∈ rows, key row ≠ k := by
  simp [dictGet]

/-- There are as many keys as rows exactly if no key occurs twice. -/
theorem dictLen_eq_iff : dictLen key rows = rows.length ↔ (rows.map key).Nodup := by
  rw [dictLen, ← List.dedup_eq_self]
  refine ⟨fun h => ?_, fun h => by rw [h, List.length_map]⟩
  exact (List.dedup_sublist _).eq_of_length (by rw [h, List.length_map])

/-- If no key occurs twice, every row is the one of its key. -/
theorem dictGet_of_mem (hnodup : (rows.map key).Nodup) (h : row ∈ rows) :
    dictGet key rows (key row) = some row := by
  cases hget : dictGet key rows (key row) with
  | none => exact absurd rfl (dictGet_eq_none.1 hget row h)
  | some row' =>
    obtain ⟨hmem, hkey⟩ := dictGet_eq_some hget
    rw [List.inj_on_of_nodup_map hnodup hmem h hkey]

/-- If no key occurs twice, the rows of the key of a row are that row. -/
theorem filter_key_eq_singleton (hnodup : (rows.map key).Nodup) (h : row ∈ rows) :
    rows.filter (fun r => key r = key row) = [row] := by
  induction rows with
  | nil => exact absurd h List.not_mem_nil
  | cons r rows ih =>
    obtain ⟨hr, hnodup⟩ := List.nodup_cons.1 hnodup
    rcases List.mem_cons.1 h with rfl | h
    · rw [List.filter_cons_of_pos (by simp), List.filter_eq_nil_iff.2]
      intro r' hr' hkey
      exact hr (List.mem_map.2 ⟨r', hr', of_decide_eq_true hkey⟩)
    · rw [List.filter_cons_of_neg, ih hnodup h]
      intro hkey
      exact hr (List.mem_map.2 ⟨row, h, (of_decide_eq_true hkey).symm⟩)

/-- If no key occurs twice, then of what all rows give, that with the key of a row is what the row
    gives. -/
theorem filter_flatMap_key {β : Type*} {key' : β → κ} {f : α → List β}
    (hnodup : (rows.map key).Nodup) (hkey : ∀ r ∈ rows, ∀ b ∈ f r, key' b = key r)
    (h : row ∈ rows) : (rows.flatMap f).filter (fun b => key' b = key row) = f row := by
  have hrows : ∀ l ⊆ rows, (l.flatMap f).filter (fun b => key' b = key row) =
      (l.filter fun r => key r = key row).flatMap f := by
    intro l
    induction l with
    | nil => exact fun _ => rfl
    | cons r l ih =>
      intro hsub
      obtain ⟨hr, hl⟩ := List.cons_subset.1 hsub
      rw [List.flatMap_cons, List.filter_append, ih hl]
      by_cases heq : key r = key row
      · rw [List.filter_cons_of_pos (by simpa using heq), List.flatMap_cons]
        congr 1
        exact List.filter_eq_self.2 fun b hb => by simpa using (hkey r hr b hb).trans heq
      · rw [List.filter_cons_of_neg (by simpa using heq), List.filter_eq_nil_iff.2, List.nil_append]
        exact fun b hb hbad => heq ((hkey r hr b hb).symm.trans (of_decide_eq_true hbad))
  rw [hrows rows (List.Subset.refl rows), filter_key_eq_singleton hnodup h, List.flatMap_singleton]

theorem find?_key_eq_some (h : rows.find? (fun r => key r = k) = some row) :
    row ∈ rows ∧ key row = k :=
  ⟨List.mem_of_find?_eq_some h, by simpa using List.find?_some h⟩

/-- If no key occurs twice, every row is found by its key. -/
theorem find?_key_of_mem (hnodup : (rows.map key).Nodup) (h : row ∈ rows) :
    rows.find? (fun r => key r = key row) = some row := by
  cases hfind : rows.find? fun r => key r = key row with
  | none => exact absurd (decide_eq_true rfl) (List.find?_eq_none.1 hfind row h)
  | some row' =>
    obtain ⟨hmem, hkey⟩ := find?_key_eq_some hfind
    rw [List.inj_on_of_nodup_map hnodup hmem h hkey]

theorem length_filter_key_le_one (hnodup : (rows.map key).Nodup) (k : κ) :
    (rows.filter fun r => key r = k).length ≤ 1 := by
  by_cases h : ∃ row ∈ rows, key row = k
  · obtain ⟨row, hrow, rfl⟩ := h
    rw [filter_key_eq_singleton hnodup hrow, List.length_singleton]
  · have hnil : rows.filter (fun r => key r = k) = [] :=
      List.filter_eq_nil_iff.2 fun row hrow hkey => h ⟨row, hrow, of_decide_eq_true hkey⟩
    rw [hnil]
    exact Nat.zero_le 1

omit [DecidableEq κ] in
/-- If no key occurs twice, there is one row for a key that occurs. -/
theorem existsUnique_of_nodup_keys (hnodup : (rows.map key).Nodup) (h : k ∈ rows.map key) :
    ∃! row, row ∈ rows ∧ key row = k := by
  obtain ⟨row, hrow, rfl⟩ := List.mem_map.1 h
  exact ⟨row, ⟨hrow, rfl⟩, fun r hr => List.inj_on_of_nodup_map hnodup hr.1 hrow hr.2⟩

end Dict

/-- If what satisfies a test comes first, a list is what satisfies it and then the rest. -/
theorem filter_append_filter_not {α : Type*} {p : α → Bool} {l : List α}
    (h : l.Pairwise fun a b => p b = true → p a = true) :
    l.filter p ++ l.filter (fun a => !p a) = l := by
  induction l with
  | nil => rfl
  | cons a l ih =>
    obtain ⟨ha, hl⟩ := List.pairwise_cons.1 h
    by_cases hpa : p a = true
    · rw [List.filter_cons_of_pos hpa, List.filter_cons_of_neg (by simp [hpa]), List.cons_append,
        ih hl]
    · -- No test succeeds after the first one that failed.
      have hnone : l.filter p = [] := List.filter_eq_nil_iff.2 fun b hb hpb => hpa (ha b hb hpb)
      rw [List.filter_cons_of_neg hpa, hnone, List.nil_append]
      refine List.filter_eq_self.2 fun b hb => ?_
      rcases List.mem_cons.1 hb with rfl | hb
      · simp [hpa]
      · simpa using fun hpb => hpa (ha b hb hpb)

/-- A pass that may fail gives the images of the elements, if it fails for none of them. -/
theorem mapM_eq_some {α β : Type*} {f : α → Option β} {g : α → β} {l : List α}
    (h : ∀ a ∈ l, f a = some (g a)) : l.mapM f = some (l.map g) := by
  induction l with
  | nil => rfl
  | cons a l ih =>
    rw [List.mapM_cons, h a List.mem_cons_self, ih fun b hb => h b (List.mem_cons_of_mem a hb)]
    rfl

/-- The elements of the result are those of the list, mapped. -/
theorem forall₂_of_mapM_eq_some {α β : Type*} {f : α → Option β} {l : List α} {m : List β}
    (h : l.mapM f = some m) : List.Forall₂ (fun a b => f a = some b) l m := by
  induction l generalizing m with
  | nil =>
    cases h
    exact .nil
  | cons a l ih =>
    rw [List.mapM_cons] at h
    obtain ⟨b, hb, h⟩ := Option.bind_eq_some_iff.1 h
    obtain ⟨rest, hrest, h⟩ := Option.bind_eq_some_iff.1 h
    cases h
    exact .cons hb (ih hrest)

/-- What is written element by element is read again. -/
theorem mapM_map_eq_some {α β : Type*} {f : β → Option α} {g : α → β} {l : List α}
    (h : ∀ a ∈ l, f (g a) = some a) : (l.map g).mapM f = some l := by
  induction l with
  | nil => rfl
  | cons a l ih =>
    obtain ⟨ha, h⟩ := List.forall_mem_cons.1 h
    rw [List.map_cons, List.mapM_cons, ha, ih h]
    rfl

theorem exists_mapM_eq_some {α β : Type*} {f : α → Option β} {l : List α}
    (h : ∀ a ∈ l, ∃ b, f a = some b) : ∃ m, l.mapM f = some m := by
  induction l with
  | nil => exact ⟨[], rfl⟩
  | cons a l ih =>
    obtain ⟨⟨b, hb⟩, h⟩ := List.forall_mem_cons.1 h
    obtain ⟨m, hm⟩ := ih h
    exact ⟨b :: m, by rw [List.mapM_cons, hb, hm]; rfl⟩

theorem exists_mem_concat {α : Type*} {l : List α} {a : α} {p : α → Prop} :
    (∃ x ∈ l ++ [a], p x) ↔ (∃ x ∈ l, p x) ∨ p a := by
  simp only [List.mem_append, List.mem_singleton, or_and_right, exists_or, exists_eq_left]

section FirstsBy

variable {α κ : Type*} [DecidableEq κ] (key : α → κ)

/-- The rows of a list whose key no row before them has. -/
def firstsBy (rows : List α) : List α :=
  rows.foldl (fun kept row => if key row ∈ kept.map key then kept else kept ++ [row]) []

@[simp] theorem firstsBy_nil : firstsBy key [] = [] := rfl

theorem firstsBy_concat (rows : List α) (row : α) : firstsBy key (rows ++ [row]) =
    if key row ∈ (firstsBy key rows).map key then firstsBy key rows
    else firstsBy key rows ++ [row] := by
  rw [firstsBy, List.foldl_concat]
  rfl

/-- The keys of the first rows are the keys of all. -/
theorem mem_map_firstsBy (rows : List α) (k : κ) :
    k ∈ (firstsBy key rows).map key ↔ k ∈ rows.map key := by
  induction rows using List.reverseRecOn with
  | nil => rfl
  | append_singleton rows row ih =>
    rw [firstsBy_concat, List.map_append, List.mem_append, ← ih]
    split_ifs with h
    · refine ⟨.inl, fun hk => hk.elim id fun hk => ?_⟩
      rw [List.map_singleton, List.mem_singleton] at hk
      exact hk ▸ h
    · rw [List.map_append, List.mem_append]

/-- Two keys that agree on which rows have the same keep the same rows. -/
theorem firstsBy_congr {κ' : Type*} [DecidableEq κ'] {key' : α → κ'} {rows : List α}
    (h : ∀ a ∈ rows, ∀ b ∈ rows, key a = key b ↔ key' a = key' b) :
    firstsBy key rows = firstsBy key' rows := by
  induction rows using List.reverseRecOn with
  | nil => rfl
  | append_singleton rows row ih =>
    have hrow : row ∈ rows ++ [row] := List.mem_append_right rows (List.mem_singleton.2 rfl)
    have ih := ih fun a ha b hb =>
      h a (List.mem_append_left _ ha) b (List.mem_append_left _ hb)
    have hmem : key row ∈ (firstsBy key rows).map key ↔ key' row ∈ (firstsBy key' rows).map key' := by
      rw [mem_map_firstsBy, mem_map_firstsBy, List.mem_map, List.mem_map]
      exact exists_congr fun a => and_congr_right fun ha =>
        h a (List.mem_append_left _ ha) row hrow
    rw [firstsBy_concat, firstsBy_concat, ih]
    exact if_congr (ih ▸ hmem) rfl rfl

theorem firstsBy_sublist (rows : List α) : (firstsBy key rows).Sublist rows := by
  induction rows using List.reverseRecOn with
  | nil => exact List.Sublist.refl []
  | append_singleton rows row ih =>
    rw [firstsBy_concat]
    split_ifs
    · exact ih.trans (List.sublist_append_left rows [row])
    · exact ih.append_right [row]

end FirstsBy

/-! ## Parts of a list -/

/-- What comes after one place in a list, split at a later place. -/
theorem drop_eq_append {α : Type*} {l : List α} {m n : ℕ} (h : m ≤ n) :
    l.drop m = (l.take n).drop m ++ l.drop n := by
  conv_lhs => rw [← (l.drop m).take_append_drop (n - m)]
  rw [List.drop_take, List.drop_drop, Nat.add_sub_cancel' h]

/-- The part from one place in a list to another one is followed by the rest. -/
theorem drop_take_max {α : Type*} {l : List α} {m n k : ℕ} (h : n ≤ k) :
    (l.take k).drop m = (l.take n).drop m ++ (l.take k).drop (max m n) := by
  rcases Nat.le_total m n with hmn | hnm
  · rw [drop_eq_append hmn, List.take_take, Nat.min_eq_left h, Nat.max_eq_right hmn]
  · have hnil : (l.take n).drop m = [] :=
      List.drop_eq_nil_of_le (Nat.le_trans (l.length_take_le n) hnm)
    rw [hnil, Nat.max_eq_left hnm, List.nil_append]

theorem take_max {α : Type*} {l : List α} (m n : ℕ) :
    l.take (max m n) = l.take m ++ (l.take n).drop m := by
  rcases Nat.le_total m n with hmn | hnm
  · rw [Nat.max_eq_right hmn]
    conv_lhs => rw [← (l.take n).take_append_drop m]
    rw [List.take_take, Nat.min_eq_left hmn]
  · have hnil : (l.take n).drop m = [] :=
      List.drop_eq_nil_of_le (Nat.le_trans (l.length_take_le n) hnm)
    rw [hnil, Nat.max_eq_left hnm, List.append_nil]

/-- The last element has the greatest key, if it is greater than all others. -/
theorem argmax_concat_of_lt {α β : Type*} [LinearOrder β] {f : α → β} {l : List α} {a : α}
    (h : ∀ b ∈ l, f b < f a) : (l ++ [a]).argmax f = some a := by
  rw [List.argmax_concat]
  cases hmax : l.argmax f with
  | none => rfl
  | some b => exact if_pos (h b (List.argmax_mem hmax))
