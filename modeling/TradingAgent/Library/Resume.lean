import Mathlib.Tactic.Common

/-!
# Interrupted work that is done again

Some tasks are done one after the other. Each makes a sequence of writes, which depend on what is
stored when it starts (`writesOf`). The work may be interrupted after any write, and is then done
again from its start, on what was stored by then.

* The tasks are *resumable* (`Resumable`) if a task that was interrupted makes just the rest of
  its writes when it is done again, and a task that has nothing left to write stays so whatever
  the others write.
* Resumable work that was interrupted makes just the rest of its writes when it is done again
  (`Resumable.writesOf_rest`): no write is lost, and none is made twice.
-/

variable {σ ε : Type*}

/-- The writes of some tasks, one after the other. -/
def writesOf (write : σ → ε → σ) : List (σ → List ε) → σ → List ε
  | [], _ => []
  | task :: tasks, s => task s ++ writesOf write tasks ((task s).foldl write s)

/-- What is stored after the work, task by task. -/
theorem foldl_writesOf (write : σ → ε → σ) (tasks : List (σ → List ε)) (s : σ) :
    (writesOf write tasks s).foldl write s =
      tasks.foldl (fun s task => (task s).foldl write s) s := by
  induction tasks generalizing s with
  | nil => rfl
  | cons task tasks ih => rw [writesOf, List.foldl_append, ih, List.foldl_cons]

theorem writesOf_eq_nil_iff {write : σ → ε → σ} {tasks : List (σ → List ε)} {s : σ} :
    writesOf write tasks s = [] ↔ ∀ task ∈ tasks, task s = [] := by
  induction tasks with
  | nil => exact ⟨fun _ _ h => absurd h List.not_mem_nil, fun _ => rfl⟩
  | cons task tasks ih =>
    rw [writesOf, List.append_eq_nil_iff, List.forall_mem_cons]
    refine and_congr_right fun htask => ?_
    rw [htask, List.foldl_nil]
    exact ih

/-- A write is one of some task, in some state. -/
theorem mem_writesOf {write : σ → ε → σ} {tasks : List (σ → List ε)} {s : σ} {e : ε}
    (h : e ∈ writesOf write tasks s) : ∃ task ∈ tasks, ∃ t, e ∈ task t := by
  induction tasks generalizing s with
  | nil => cases h
  | cons task tasks ih =>
    rcases List.mem_append.1 h with h | h
    · exact ⟨task, List.mem_cons_self, s, h⟩
    · obtain ⟨other, hother, t, h⟩ := ih h
      exact ⟨other, List.mem_cons_of_mem task hother, t, h⟩

/-- The first of the writes for the elements of a list is the first one for some element. -/
theorem flatMap_eq_cons {α : Type*} {f : α → List ε} {l : List α} {e : ε} {es : List ε}
    (h : l.flatMap f = e :: es) :
    ∃ before a after rest, l = before ++ a :: after ∧ (∀ b ∈ before, f b = []) ∧ f a = e :: rest
      ∧ es = rest ++ after.flatMap f := by
  induction l with
  | nil => cases h
  | cons a l ih =>
    rw [List.flatMap_cons] at h
    cases ha : f a with
    | nil =>
      rw [ha] at h
      obtain ⟨before, b, after, rest, rfl, hbefore, hb, rfl⟩ := ih h
      exact ⟨a :: before, b, after, rest, rfl, List.forall_mem_cons.2 ⟨ha, hbefore⟩, hb, rfl⟩
    | cons e' rest =>
      rw [ha] at h
      cases h
      exact ⟨[], a, l, rest, rfl, List.forall_mem_nil _, ha, rfl⟩

/-- Interrupted tasks can be done again, from every state where the invariant holds. -/
structure Resumable (write : σ → ε → σ) (Inv : σ → Prop) (tasks : List (σ → List ε)) : Prop where
  inv : ∀ task ∈ tasks, ∀ s e es, Inv s → task s = e :: es → Inv (write s e)
  resume : ∀ task ∈ tasks, ∀ s e es, Inv s → task s = e :: es → task (write s e) = es
  stable : ∀ task ∈ tasks, ∀ other ∈ tasks, ∀ s e es, Inv s → task s = [] → other s = e :: es →
    task (write s e) = []

namespace Resumable

variable {write : σ → ε → σ} {Inv : σ → Prop} {tasks : List (σ → List ε)}

theorem tail {task : σ → List ε} (h : Resumable write Inv (task :: tasks)) :
    Resumable write Inv tasks where
  inv t ht := h.inv t (List.mem_cons_of_mem task ht)
  resume t ht := h.resume t (List.mem_cons_of_mem task ht)
  stable t ht other hother :=
    h.stable t (List.mem_cons_of_mem task ht) other (List.mem_cons_of_mem task hother)

/-- The first write of all is the first one of some task, from the same state. -/
theorem exists_task {s : σ} {e : ε} {es : List ε} (h : writesOf write tasks s = e :: es) :
    ∃ task ∈ tasks, ∃ rest, task s = e :: rest := by
  induction tasks generalizing s with
  | nil => cases h
  | cons task tasks ih =>
    rw [writesOf] at h
    cases htask : task s with
    | nil =>
      rw [htask] at h
      obtain ⟨other, hother, rest⟩ := ih h
      exact ⟨other, List.mem_cons_of_mem task hother, rest⟩
    | cons e' rest =>
      rw [htask] at h
      cases h
      exact ⟨task, List.mem_cons_self, rest, htask⟩

/-- After its first write, the work makes the other ones when it is done again. -/
theorem writesOf_tail (hres : Resumable write Inv tasks) {s : σ} {e : ε} {es : List ε}
    (hs : Inv s) (h : writesOf write tasks s = e :: es) :
    writesOf write tasks (write s e) = es := by
  induction tasks generalizing es with
  | nil => cases h
  | cons task tasks ih =>
    rw [writesOf] at h ⊢
    cases htask : task s with
    | nil =>
      -- The write is that of a later task: this one still has nothing to write.
      rw [htask, List.nil_append] at h
      obtain ⟨other, hother, rest, hwrites⟩ := exists_task h
      rw [hres.stable task List.mem_cons_self other (List.mem_cons_of_mem task hother) s e rest hs
        htask hwrites]
      exact ih hres.tail h
    | cons e' rest =>
      rw [htask] at h
      cases h
      rw [hres.resume task List.mem_cons_self s e rest hs htask]
      rfl

theorem inv_of_writesOf (hres : Resumable write Inv tasks) {s : σ} {e : ε} {es : List ε}
    (hs : Inv s) (h : writesOf write tasks s = e :: es) : Inv (write s e) := by
  obtain ⟨task, htask, rest, hwrites⟩ := exists_task h
  exact hres.inv task htask s e rest hs hwrites

/-- Work that was interrupted makes just the rest of its writes when it is done again. -/
theorem writesOf_rest (hres : Resumable write Inv tasks) {s : σ} {done rest : List ε}
    (hs : Inv s) (h : writesOf write tasks s = done ++ rest) :
    writesOf write tasks (done.foldl write s) = rest := by
  induction done generalizing s with
  | nil => exact h
  | cons e done ih => exact ih (hres.inv_of_writesOf hs h) (hres.writesOf_tail hs h)

theorem inv_of_prefix (hres : Resumable write Inv tasks) {s : σ} {done rest : List ε}
    (hs : Inv s) (h : writesOf write tasks s = done ++ rest) : Inv (done.foldl write s) := by
  induction done generalizing s with
  | nil => exact hs
  | cons e done ih => exact ih (hres.inv_of_writesOf hs h) (hres.writesOf_tail hs h)

/-- Work that is done has nothing left to write. -/
theorem writesOf_done (hres : Resumable write Inv tasks) {s : σ} (hs : Inv s) :
    writesOf write tasks ((writesOf write tasks s).foldl write s) = [] :=
  hres.writesOf_rest hs (List.append_nil _).symm

end Resumable
