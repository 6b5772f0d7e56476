import Mathlib.Data.List.Chain
import Mathlib.Data.List.Infix
import TradingAgent.Library.Except

/-!
# Append-only journals

A journal is a list of entries in the order in which they were written. Whether an entry is written
depends on those before it.

* `Admitted admits l`: each entry of `l` was admitted by the ones before it. What holds of an entry
  whenever it is admitted holds of all of them (`Admitted.forall_mem`), what relates an admitted
  entry to the last one before it chains the journal (`Admitted.isChain`), and what was written
  before an entry is a journal that admitted it (`Admitted.of_append_cons`).
* A journal that is read again is checked entry by entry, each against the ones before it
  (`checkEach`): this succeeds exactly for the admitted journals (`checkEach_eq_ok`).
* The entries of a journal about one subject are its `history`. An entry is added to the history of
  its subject, and to no other one (`history_concat`), so that each history stays admitted if the
  one that it is added to admits it (`forall_admitted_history_concat`).
* Rows that are found by their keys stay so when others are appended (`find?_append_of_eq_some`), and
  a key that is not found may be added (`nodup_map_concat`).
* What is in effect is the last of the entries that a test selects (`inEffect`): entries that it does
  not select do not change it (`inEffect_append`).
-/

namespace Journal

open Except

variable {α κ ε : Type*}

/-- Each entry was admitted by the ones before it. -/
inductive Admitted (admits : List α → α → Prop) : List α → Prop
  | nil : Admitted admits []
  | concat {l : List α} {a : α} : Admitted admits l → admits l a → Admitted admits (l ++ [a])

section Admitted

variable {admits : List α → α → Prop} {l m : List α} {a : α}

theorem admitted_concat : Admitted admits (l ++ [a]) ↔ Admitted admits l ∧ admits l a := by
  refine ⟨fun h => ?_, fun h => h.1.concat h.2⟩
  generalize hl : l ++ [a] = k at h
  cases h with
  | nil => exact absurd hl (by simp)
  | concat h ha =>
    obtain ⟨rfl, hsingle⟩ := List.append_inj' hl rfl
    cases hsingle
    exact ⟨h, ha⟩

namespace Admitted

/-- What a journal was before is a journal. -/
theorem of_append (h : Admitted admits (l ++ m)) : Admitted admits l := by
  induction m using List.reverseRecOn with
  | nil => simpa using h
  | append_singleton m a ih =>
    rw [← List.append_assoc, admitted_concat] at h
    exact ih h.1

/-- What was written before an entry is a journal, and admitted it. -/
theorem of_append_cons (h : Admitted admits (l ++ a :: m)) : Admitted admits l ∧ admits l a := by
  rw [List.append_cons] at h
  exact admitted_concat.1 h.of_append

theorem mono {admits' : List α → α → Prop} (h : Admitted admits l)
    (himp : ∀ m a, Admitted admits m → admits m a → admits' m a) : Admitted admits' l := by
  induction h with
  | nil => exact .nil
  | concat h ha ih => exact ih.concat (himp _ _ h ha)

theorem and {admits' : List α → α → Prop} (h : Admitted admits l) (h' : Admitted admits' l) :
    Admitted (fun m a => admits m a ∧ admits' m a) l := by
  induction h with
  | nil => exact .nil
  | concat _ ha ih =>
    obtain ⟨hl, ha'⟩ := admitted_concat.1 h'
    exact (ih hl).concat ⟨ha, ha'⟩

/-- What admits an entry admits what it stands for, if that depends on what the entries stand for. -/
theorem map {β : Type*} {f : α → β} {admits' : List β → β → Prop} (h : Admitted admits l)
    (himp : ∀ m a, admits m a → admits' (m.map f) (f a)) : Admitted admits' (l.map f) := by
  induction h with
  | nil => exact .nil
  | concat h ha ih =>
    rw [List.map_append]
    exact ih.concat (himp _ _ ha)

/-- What holds of an entry that is admitted, if it holds of the ones before, holds of all of them. -/
theorem forall_mem {P : α → Prop} (h : Admitted admits l)
    (hP : ∀ m a, Admitted admits m → (∀ b ∈ m, P b) → admits m a → P a) : ∀ a ∈ l, P a := by
  induction h with
  | nil => simp
  | concat h ha ih =>
    intro b hb
    rcases List.mem_append.1 hb with hb | hb
    · exact ih b hb
    · obtain rfl := List.mem_singleton.1 hb
      exact hP _ _ h ih ha

/-- What relates an admitted entry to the last one before it chains the journal. -/
theorem isChain {r : α → α → Prop} (h : Admitted admits l)
    (hr : ∀ m b a, Admitted admits (m ++ [b]) → admits (m ++ [b]) a → r b a) : l.IsChain r := by
  induction h with
  | nil => exact .nil
  | @concat l a h ha ih =>
    rcases List.eq_nil_or_concat' l with rfl | ⟨m, b, rfl⟩
    · exact .singleton a
    · refine List.IsChain.append ih (.singleton a) ?_
      intro c hc d hd
      obtain rfl : b = c := by simpa using hc
      obtain rfl : a = d := by simpa using hd
      exact hr m b a h ha

end Admitted

/-! ## Reading -/

/-- Each entry is checked against the ones before it. -/
def checkEach (check : List α → α → Except ε Unit) (before : List α) : List α → Except ε Unit
  | [] => .ok ()
  | a :: l => do
    check before a
    checkEach check (before ++ [a]) l

variable {check : List α → α → Except ε Unit} {before : List α}

theorem checkEach_append :
    checkEach check before (l ++ m) = .ok () ↔
      checkEach check before l = .ok () ∧ checkEach check (before ++ l) m = .ok () := by
  induction l generalizing before with
  | nil => simp [checkEach]
  | cons a l ih => simp [checkEach, ih, and_assoc]

theorem checkEach_eq_ok :
    checkEach check [] l = .ok () ↔ Admitted (fun m a => check m a = .ok ()) l := by
  induction l using List.reverseRecOn with
  | nil => exact iff_of_true rfl .nil
  | append_singleton l a ih =>
    rw [checkEach_append, ih, admitted_concat, List.nil_append, checkEach, bind_eq_ok]
    exact and_congr_right fun _ => ⟨fun ⟨⟨⟩, ha, _⟩ => ha, fun ha => ⟨(), ha, rfl⟩⟩

end Admitted

/-! ## Histories -/

section History

variable [DecidableEq κ] {subject : α → κ} {l m : List α} {a : α} {k : κ}

/-- The entries about a subject. -/
def history (subject : α → κ) (l : List α) (k : κ) : List α := l.filter fun a => subject a = k

theorem mem_history : a ∈ history subject l k ↔ a ∈ l ∧ subject a = k := by
  simp [history]

@[simp] theorem history_nil : history subject [] k = [] := rfl

theorem history_append : history subject (l ++ m) k = history subject l k ++ history subject m k :=
  List.filter_append _ _

theorem history_concat : history subject (l ++ [a]) k =
    if subject a = k then history subject l k ++ [a] else history subject l k := by
  rw [history_append]
  by_cases h : subject a = k <;> simp [history, h]

/-- If every history is admitted, and that of the subject of a new entry admits it, then every
    history is admitted after it. -/
theorem forall_admitted_history_concat {admits : κ → List α → α → Prop}
    (h : ∀ k, Admitted (admits k) (history subject l k))
    (ha : admits (subject a) (history subject l (subject a)) a) (k : κ) :
    Admitted (admits k) (history subject (l ++ [a]) k) := by
  rw [history_concat]
  split_ifs with hk
  · subst hk
    exact (h _).concat ha
  · exact h k

end History

/-! ## Rows by their keys -/

section Rows

variable {rows : List α} {row : α}

/-- The first row that is selected stays so. -/
theorem find?_append_of_eq_some {p : α → Bool} (h : rows.find? p = some row) (more : List α) :
    (rows ++ more).find? p = some row := by
  rw [List.find?_append, h, Option.some_or]

variable [DecidableEq κ] {key : α → κ}

theorem nodup_map_concat (hnodup : (rows.map key).Nodup)
    (hnew : rows.find? (fun r => key r = key row) = none) : ((rows ++ [row]).map key).Nodup := by
  rw [List.map_append, List.nodup_append]
  refine ⟨hnodup, List.nodup_singleton _, ?_⟩
  intro k hk l hl heq
  obtain ⟨r, hr, rfl⟩ := List.mem_map.1 hk
  rw [List.map_singleton, List.mem_singleton] at hl
  exact List.find?_eq_none.1 hnew r hr (decide_eq_true (heq.trans hl))

/-- If no key occurs twice, the rows of a key are the one that is found. -/
theorem filter_key_eq_toList (hnodup : (rows.map key).Nodup) (k : κ) :
    rows.filter (fun r => key r = k) = (rows.find? fun r => key r = k).toList := by
  cases hfind : rows.find? fun r => key r = k with
  | none => exact List.filter_eq_nil_iff.2 (List.find?_eq_none.1 hfind)
  | some row =>
    obtain ⟨hmem, rfl⟩ := find?_key_eq_some hfind
    exact filter_key_eq_singleton hnodup hmem

end Rows

/-! ## What is in effect -/

/-- The last of the selected entries. -/
def inEffect (selects : α → Bool) (l : List α) : Option α := (l.filter selects).getLast?

theorem inEffect_append {selects : α → Bool} {l m : List α} (h : ∀ a ∈ m, selects a = false) :
    inEffect selects (l ++ m) = inEffect selects l := by
  have hnone : m.filter selects = [] := List.filter_eq_nil_iff.2 fun a ha => by simp [h a ha]
  rw [inEffect, List.filter_append, hnone, List.append_nil, inEffect]

end Journal
