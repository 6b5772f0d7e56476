import Mathlib.Data.List.Basic
import Mathlib.Tactic.Common

/-!
# Work that is written down

Work on a store makes writes, one after the other, each of them committed on its own. It may
raise an error, and then what was written before stays written (`Writing`).

* Work may be *confined* to a part of the store (`Confined`): it depends on that part only, and
  writes to no other. Work on one part does not change what is confined to another one.
* Work *preserves* an invariant in a state (`PreservesAt`) if whatever it has written when it is
  interrupted does.
* Work *resumes* in a state (`ResumesAt`) if, when it was interrupted after any of its writes
  and is done again, it makes just the rest of them. A loop resumes if the work for each element
  does, and has nothing left to write once it is done, whatever is written for the other ones
  (`ResumesAt.forEach`).
-/

/-- Work on a store `σ`, by writes `ω`, that may raise an error `ε`: what it writes, and what it
    returns. -/
def Writing {σ ω : Type} (_write : σ → ω → σ) (ε α : Type) := σ → List ω × Except ε α

namespace Writing

variable {σ ω ε α β : Type} {write : σ → ω → σ}

/-- The store after the work. -/
def after (x : Writing write ε α) (s : σ) : σ := (x s).1.foldl write s

/-- Whether the work raises no error. -/
def isOk (x : Writing write ε α) (s : σ) : Bool := (x s).2.isOk

instance : Monad (Writing write ε) where
  pure a _ := ([], .ok a)
  bind x f s :=
    match (x s).2 with
    | .ok a => ((x s).1 ++ (f a (x.after s)).1, (f a (x.after s)).2)
    | .error e => ((x s).1, .error e)

/-- Reads the store. -/
def read (f : σ → α) : Writing write ε α := fun s => ([], .ok (f s))

/-- Raises an error. -/
def raise (e : ε) : Writing write ε α := fun _ => ([], .error e)

/-- Commits a write. -/
def commit (w : ω) : Writing write ε Unit := fun _ => ([w], .ok ())

/-- The work, with other errors in place of those that it raises. -/
def mapError (g : ε → ε) (x : Writing write ε α) : Writing write ε α :=
  fun s => ((x s).1, (x s).2.mapError g)

/-- The work for each of some elements, one after the other. -/
def forEach (f : α → Writing write ε β) : List α → Writing write ε (List β)
  | [] => pure []
  | a :: l => do
    let b ← f a
    let bs ← forEach f l
    return b :: bs

variable {x : Writing write ε α} {f : α → Writing write ε β} {s t : σ} {a : α} {e : ε}

@[simp] theorem pure_apply (a : α) (s : σ) : (pure a : Writing write ε α) s = ([], .ok a) := rfl
@[simp] theorem read_apply (f : σ → α) (s : σ) :
    (read f : Writing write ε α) s = ([], .ok (f s)) := rfl
@[simp] theorem raise_apply (e : ε) (s : σ) :
    (raise e : Writing write ε α) s = ([], .error e) := rfl
@[simp] theorem commit_apply (w : ω) (s : σ) :
    (commit w : Writing write ε Unit) s = ([w], .ok ()) := rfl

theorem bind_of_ok (h : (x s).2 = .ok a) :
    (x >>= f) s = ((x s).1 ++ (f a (x.after s)).1, (f a (x.after s)).2) := by
  show (match (x s).2 with | .ok a => _ | .error e => _) = _
  rw [h]

theorem bind_of_error (h : (x s).2 = .error e) : (x >>= f) s = ((x s).1, .error e) := by
  show (match (x s).2 with | .ok a => _ | .error e => _) = _
  rw [h]

/-- Work in three parts, put together either way. -/
theorem bind_assoc {γ : Type} (g : β → Writing write ε γ) :
    ((x >>= f) >>= g) s = (x >>= fun a => f a >>= g) s := by
  cases hx : (x s).2 with
  | error e => rw [bind_of_error hx, bind_of_error ((congrArg Prod.snd (bind_of_error hx)).trans rfl),
      bind_of_error hx]
  | ok a =>
    have hafter : (x >>= f).after s = (f a).after (x.after s) := by
      rw [after, bind_of_ok hx, List.foldl_append]
      rfl
    have hsame : ((x >>= f) s).2 = (f a (x.after s)).2 := by rw [bind_of_ok hx]
    rw [bind_of_ok hx]
    cases hf : (f a (x.after s)).2 with
    | error e => rw [bind_of_error (hsame.trans hf), bind_of_error hf, bind_of_ok hx]
    | ok b =>
      rw [bind_of_ok (hsame.trans hf), bind_of_ok hf, bind_of_ok hx, hafter, List.append_assoc]

theorem bind_pure_self : (x >>= pure) s = x s := by
  cases hx : (x s).2 with
  | error e =>
    rw [bind_of_error hx, ← hx]
  | ok a =>
    rw [bind_of_ok hx, pure_apply, List.append_nil, ← hx]

/-- Reading the store first. -/
@[simp] theorem read_bind (g : σ → α) (f : α → Writing write ε β) (s : σ) :
    (read g >>= f) s = f (g s) s := rfl

@[simp] theorem pure_bind (a : α) (f : α → Writing write ε β) (s : σ) :
    ((pure a : Writing write ε α) >>= f) s = f a s := rfl

@[simp] theorem raise_bind (e : ε) (f : α → Writing write ε β) (s : σ) :
    ((raise e : Writing write ε α) >>= f) s = ([], .error e) := rfl

@[simp] theorem commit_bind (w : ω) (f : Unit → Writing write ε β) (s : σ) :
    (commit w >>= f) s = (w :: (f () (write s w)).1, (f () (write s w)).2) := rfl

theorem isOk_iff : x.isOk s = true ↔ ∃ a, (x s).2 = .ok a := by
  rw [isOk]
  cases h : (x s).2 with
  | ok a => exact iff_of_true rfl ⟨a, rfl⟩
  | error e => exact iff_of_false Bool.false_ne_true nofun

theorem isOk_eq_false_iff : x.isOk s = false ↔ ∃ e, (x s).2 = .error e := by
  rw [isOk]
  cases h : (x s).2 with
  | ok a => exact iff_of_false (Bool.false_ne_true ∘ Eq.symm) nofun
  | error e => exact iff_of_true rfl ⟨e, rfl⟩

theorem isOk_congr {y : Writing write ε α} (h : x s = y t) : x.isOk s = y.isOk t := by
  rw [isOk, h, isOk]

@[simp] theorem isOk_mapError (g : ε → ε) : (x.mapError g).isOk s = x.isOk s := by
  rw [isOk, mapError, isOk]
  cases (x s).2 <;> rfl

theorem isOk_bind_of_ok (h : (x s).2 = .ok a) : (x >>= f).isOk s = (f a).isOk (x.after s) := by
  rw [isOk, bind_of_ok h, isOk]

theorem isOk_bind_of_error (h : (x s).2 = .error e) : (x >>= f).isOk s = false := by
  rw [isOk, bind_of_error h]
  rfl

/-- What is done with the result does not change what is written. -/
theorem bind_pure_writes (x : Writing write ε α) (g : α → β) (s : σ) :
    ((x >>= fun a => pure (g a)) s).1 = (x s).1
      ∧ (x >>= fun a => pure (g a)).isOk s = x.isOk s := by
  cases h : (x s).2 with
  | ok a =>
    rw [bind_of_ok h, isOk_bind_of_ok h, isOk_iff.2 ⟨a, h⟩]
    exact ⟨List.append_nil _, rfl⟩
  | error e =>
    rw [bind_of_error h, isOk_bind_of_error h, isOk_eq_false_iff.2 ⟨e, h⟩]
    exact ⟨rfl, rfl⟩

/-- What work returns comes from what it is made of. -/
theorem exists_of_bind_pure {g : α → β} {b : β} (h : ((x >>= fun a => pure (g a)) s).2 = .ok b) :
    ∃ a, (x s).2 = .ok a ∧ b = g a ∧ (x >>= fun a => pure (g a)).after s = x.after s := by
  cases hx : (x s).2 with
  | error e =>
    rw [bind_of_error hx] at h
    cases h
  | ok a =>
    rw [bind_of_ok hx] at h
    cases h
    refine ⟨a, rfl, rfl, ?_⟩
    rw [after, bind_of_ok hx, pure_apply, List.append_nil]
    rfl

theorem error_of_bind_pure {g : α → β} (h : ((x >>= fun a => pure (g a)) s).2 = .error e) :
    (x s).2 = .error e ∧ (x >>= fun a => pure (g a)).after s = x.after s := by
  cases hx : (x s).2 with
  | error e' =>
    rw [bind_of_error hx] at h
    cases h
    refine ⟨rfl, ?_⟩
    rw [after, bind_of_error hx]
    rfl
  | ok a =>
    rw [bind_of_ok hx] at h
    cases h

/-! ## Loops -/

section Loop

variable {l : List α}

@[simp] theorem forEach_nil (s : σ) : forEach f [] s = ([], .ok []) := rfl

/-- What a loop does after the work for its first element. -/
theorem forEach_cons_of_ok (h : (f a).isOk s = true) :
    (forEach f (a :: l) s).1 = (f a s).1 ++ (forEach f l ((f a).after s)).1
      ∧ (forEach f (a :: l)).isOk s = (forEach f l).isOk ((f a).after s) := by
  obtain ⟨b, hb⟩ := isOk_iff.1 h
  rw [isOk, forEach, bind_of_ok hb, isOk]
  cases hl : (forEach f l ((f a).after s)).2 with
  | ok bs =>
    rw [bind_of_ok hl]
    exact ⟨congrArg _ (List.append_nil _), rfl⟩
  | error e =>
    rw [bind_of_error hl]
    exact ⟨rfl, rfl⟩

theorem forEach_cons_of_error (h : (f a).isOk s = false) :
    (forEach f (a :: l) s).1 = (f a s).1 ∧ (forEach f (a :: l)).isOk s = false := by
  obtain ⟨e, he⟩ := isOk_eq_false_iff.1 h
  rw [isOk, forEach, bind_of_error he]
  exact ⟨rfl, rfl⟩

/-- A loop over the elements of a list, and then over those of another one. -/
theorem forEach_append_of_ok {m : List α} (h : (forEach f l).isOk s = true) :
    (forEach f (l ++ m) s).1 = (forEach f l s).1 ++ (forEach f m ((forEach f l).after s)).1 := by
  induction l generalizing s with
  | nil => rfl
  | cons a l ih =>
    cases hok : (f a).isOk s with
    | false =>
      rw [(forEach_cons_of_error hok).2] at h
      exact absurd h Bool.false_ne_true
    | true =>
      rw [(forEach_cons_of_ok hok).2] at h
      have hstate : (forEach f (a :: l)).after s = (forEach f l).after ((f a).after s) := by
        rw [after, (forEach_cons_of_ok hok).1, List.foldl_append]
        rfl
      rw [List.cons_append, (forEach_cons_of_ok hok).1, (forEach_cons_of_ok hok).1, ih h, hstate,
        List.append_assoc]

theorem forEach_append_of_error {m : List α} (h : (forEach f l).isOk s = false) :
    (forEach f (l ++ m) s).1 = (forEach f l s).1 := by
  induction l generalizing s with
  | nil => exact absurd h.symm Bool.false_ne_true
  | cons a l ih =>
    cases hok : (f a).isOk s with
    | false =>
      rw [List.cons_append, (forEach_cons_of_error hok).1, (forEach_cons_of_error hok).1]
    | true =>
      rw [(forEach_cons_of_ok hok).2] at h
      rw [List.cons_append, (forEach_cons_of_ok hok).1, (forEach_cons_of_ok hok).1, ih h]

/-- If a loop raises no error, then the work for each element raised none when it was done. -/
theorem exists_isOk_of_forEach (h : (forEach f l).isOk s = true) :
    ∀ a ∈ l, ∃ t, (f a).isOk t = true := by
  induction l generalizing s with
  | nil => exact List.forall_mem_nil _
  | cons a l ih =>
    cases hok : (f a).isOk s with
    | false =>
      rw [(forEach_cons_of_error hok).2] at h
      exact absurd h Bool.false_ne_true
    | true =>
      rw [(forEach_cons_of_ok hok).2] at h
      exact List.forall_mem_cons.2 ⟨⟨s, hok⟩, ih h⟩

/-- A loop raises no error if the work for each element raises none, and keeps it so. -/
theorem isOk_forEach (Inv : σ → Prop)
    (hf : ∀ a ∈ l, ∀ s, Inv s → (f a).isOk s = true ∧ Inv ((f a).after s)) (hs : Inv s) :
    (forEach f l).isOk s = true := by
  induction l generalizing s with
  | nil => rfl
  | cons a l ih =>
    rw [List.forall_mem_cons] at hf
    rw [(forEach_cons_of_ok (hf.1 s hs).1).2]
    exact ih hf.2 (hf.1 s hs).2

/-- A loop has nothing to write if the work for each element has nothing to. -/
theorem forEach_of_silent (hf : ∀ a ∈ l, (f a s).1 = [] ∧ (f a).isOk s = true) :
    (forEach f l s).1 = [] ∧ (forEach f l).isOk s = true := by
  induction l with
  | nil => exact ⟨rfl, rfl⟩
  | cons a l ih =>
    rw [List.forall_mem_cons] at hf
    have hstate : (f a).after s = s := by
      rw [after, hf.1.1]
      rfl
    rw [(forEach_cons_of_ok hf.1.2).1, (forEach_cons_of_ok hf.1.2).2, hf.1.1, hstate]
    exact ih hf.2

/-- A write of a loop is made for one of the elements. -/
theorem mem_forEach {w : ω} (h : w ∈ (forEach f l s).1) : ∃ a ∈ l, ∃ t, w ∈ (f a t).1 := by
  induction l generalizing s with
  | nil => exact absurd h List.not_mem_nil
  | cons a l ih =>
    cases hok : (f a).isOk s with
    | true =>
      rw [(forEach_cons_of_ok hok).1, List.mem_append] at h
      rcases h with h | h
      · exact ⟨a, List.mem_cons_self, s, h⟩
      · obtain ⟨b, hb, t, h⟩ := ih h
        exact ⟨b, List.mem_cons_of_mem a hb, t, h⟩
    | false =>
      rw [(forEach_cons_of_error hok).1] at h
      exact ⟨a, List.mem_cons_self, s, h⟩

end Loop

/-! ## Work on a part of the store -/

/-- Work that depends on a part of the store only, and writes to no other part. -/
structure Confined (view : σ → σ) (mine : ω → Prop) (x : Writing write ε α) : Prop where
  reads : ∀ s, x s = x (view s)
  writes : ∀ s, ∀ w ∈ (x s).1, mine w

/-- Writes to a part of the store are writes to the view of it, and others do not change it. -/
structure IsView (write : σ → ω → σ) (view : σ → σ) (mine : ω → Prop) : Prop where
  write_mine : ∀ s w, mine w → view (write s w) = write (view s) w
  write_other : ∀ s w, ¬ mine w → view (write s w) = view s

section Confined

variable {view : σ → σ} {mine : ω → Prop}

theorem IsView.foldl_mine (hview : IsView write view mine) {ws : List ω} (h : ∀ w ∈ ws, mine w) :
    view (ws.foldl write s) = ws.foldl write (view s) := by
  induction ws generalizing s with
  | nil => rfl
  | cons w ws ih =>
    rw [List.forall_mem_cons] at h
    rw [List.foldl_cons, ih h.2, hview.write_mine s w h.1, List.foldl_cons]

theorem IsView.foldl_other (hview : IsView write view mine) {ws : List ω}
    (h : ∀ w ∈ ws, ¬ mine w) : view (ws.foldl write s) = view s := by
  induction ws generalizing s with
  | nil => rfl
  | cons w ws ih =>
    rw [List.forall_mem_cons] at h
    rw [List.foldl_cons, ih h.2, hview.write_other s w h.1]

/-- The view of the store after some writes, of which only those to the part matter. -/
theorem IsView.foldl (hview : IsView write view mine) [DecidablePred mine] (ws : List ω) (s : σ) :
    view (ws.foldl write s) = (ws.filter (mine ·)).foldl write (view s) := by
  induction ws generalizing s with
  | nil => rfl
  | cons w ws ih =>
    rw [List.foldl_cons, ih (write s w)]
    by_cases hw : mine w
    · rw [List.filter_cons_of_pos (by exact decide_eq_true hw), List.foldl_cons,
        hview.write_mine s w hw]
    · rw [List.filter_cons_of_neg (by simpa using hw), hview.write_other s w hw]

namespace Confined

theorem pure (a : α) : Confined view mine (pure a : Writing write ε α) :=
  ⟨fun _ => rfl, fun _ _ h => absurd h List.not_mem_nil⟩

theorem raise (e : ε) : Confined view mine (raise e : Writing write ε α) :=
  ⟨fun _ => rfl, fun _ _ h => absurd h List.not_mem_nil⟩

theorem read {g : σ → α} (hg : ∀ s, g (view s) = g s) :
    Confined view mine (read g : Writing write ε α) :=
  ⟨fun s => by rw [read_apply, read_apply, hg], fun _ _ h => absurd h List.not_mem_nil⟩

theorem commit {w : ω} (hw : mine w) : Confined view mine (commit w : Writing write ε Unit) :=
  ⟨fun _ => rfl, fun _ _ h => List.mem_singleton.1 h ▸ hw⟩

theorem bind (hview : IsView write view mine) (hx : Confined view mine x)
    (hf : ∀ a, Confined view mine (f a)) : Confined view mine (x >>= f) where
  reads s := by
    have hafter : view (x.after s) = x.after (view s) := by
      rw [after, hview.foldl_mine (hx.writes s), hx.reads s]
      rfl
    cases h : (x s).2 with
    | ok a =>
      have h' : (x (view s)).2 = .ok a := by rw [← hx.reads s, h]
      rw [bind_of_ok h, bind_of_ok h', (hf a).reads (x.after s), hafter, ← hx.reads s]
    | error e =>
      have h' : (x (view s)).2 = .error e := by rw [← hx.reads s, h]
      rw [bind_of_error h, bind_of_error h', ← hx.reads s]
  writes s w hw := by
    cases h : (x s).2 with
    | ok a =>
      rw [bind_of_ok h, List.mem_append] at hw
      exact hw.elim (hx.writes s w) ((hf a).writes _ w)
    | error e =>
      rw [bind_of_error h] at hw
      exact hx.writes s w hw

/-- What is confined to a part does the same in two stores that agree on it. -/
theorem congr (hx : Confined view mine x) (h : view s = view t) : x s = x t := by
  rw [hx.reads s, h, ← hx.reads t]

end Confined

/-! ### Loops over parts -/

section Parts

variable {κ : Type} {view : κ → σ → σ} {owner : ω → κ} {key : α → κ} {l : List α}
  {k : κ}

variable (view owner) in
/-- Every write is to one part of the store, which has an owner. -/
def ArePartsOf (write : σ → ω → σ) : Prop := ∀ k, IsView write (view k) (owner · = k)

variable (hf : ∀ a, Confined (view (key a)) (owner · = key a) (f a))
include hf

/-- The work for an element of another part does not show. -/
theorem view_after_of_ne (hparts : ArePartsOf view owner write) {a : α} (h : key a ≠ k) (s : σ) : view k ((f a).after s) = view k s :=
  (hparts k).foldl_other fun w hw hk => h (((hf a).writes s w hw).symm.trans hk)

theorem view_after_of_eq (hparts : ArePartsOf view owner write) {a : α} (h : key a = k) (s : σ) :
    view k ((f a).after s) = (f a).after (view k s) := by
  subst h
  rw [after, (hparts (key a)).foldl_mine ((hf a).writes s), (hf a).reads s, after]

variable [DecidableEq κ]

theorem filter_of_ne {a : α} (h : key a ≠ k) (s : σ) : (f a s).1.filter (owner · = k) = [] :=
  List.filter_eq_nil_iff.2 fun w hw hk =>
    h (((hf a).writes s w hw).symm.trans (of_decide_eq_true hk))

theorem filter_of_eq {a : α} (h : key a = k) (s : σ) :
    (f a s).1.filter (owner · = k) = (f a (view k s)).1 := by
  subst h
  rw [← (hf a).reads s]
  exact List.filter_eq_self.2 fun w hw => decide_eq_true ((hf a).writes s w hw)

variable (hparts : ArePartsOf view owner write)
include hparts

/-- What a loop writes to a part of the store are the first ones of the writes that the loop over
    the elements of that part makes on its own, and all of them if no error is raised. -/
theorem filter_forEach (s : σ) :
    (forEach f l s).1.filter (owner · = k) <+:
        (forEach f (l.filter (key · = k)) (view k s)).1
      ∧ ((forEach f l).isOk s = true →
        (forEach f l s).1.filter (owner · = k) =
            (forEach f (l.filter (key · = k)) (view k s)).1
          ∧ (forEach f (l.filter (key · = k))).isOk (view k s) = true) := by
  induction l generalizing s with
  | nil => exact ⟨List.prefix_rfl, fun _ => ⟨rfl, rfl⟩⟩
  | cons a l ih =>
    cases hok : (f a).isOk s with
    | true =>
      obtain ⟨hfirsts, hall⟩ := ih ((f a).after s)
      rw [(forEach_cons_of_ok hok).1, (forEach_cons_of_ok hok).2, List.filter_append]
      by_cases hk : key a = k
      · -- The first element is one of the part: it does the same on its own.
        have hown : (f a).isOk (view k s) = true := by
          rw [← hok]
          subst hk
          exact isOk_congr ((hf a).reads s).symm
        rw [List.filter_cons_of_pos (by exact decide_eq_true hk), (forEach_cons_of_ok hown).1,
          (forEach_cons_of_ok hown).2, filter_of_eq hf hk,
          ← view_after_of_eq hf hparts hk]
        refine ⟨(List.prefix_append_right_inj _).2 hfirsts, fun h => ?_⟩
        rw [(hall h).1]
        exact ⟨rfl, (hall h).2⟩
      · rw [List.filter_cons_of_neg (by simpa using hk), filter_of_ne hf hk,
          List.nil_append, ← view_after_of_ne hf hparts hk s]
        exact ⟨hfirsts, hall⟩
    | false =>
      rw [(forEach_cons_of_error hok).1, (forEach_cons_of_error hok).2]
      refine ⟨?_, fun h => absurd h Bool.false_ne_true⟩
      by_cases hk : key a = k
      · have hown : (f a).isOk (view k s) = false := by
          rw [← hok]
          subst hk
          exact isOk_congr ((hf a).reads s).symm
        rw [List.filter_cons_of_pos (by exact decide_eq_true hk), (forEach_cons_of_error hown).1]
        exact (filter_of_eq hf hk s).symm ▸ List.prefix_rfl
      · rw [filter_of_ne hf hk]
        exact List.nil_prefix

/-- A loop writes nothing to a part that none of its elements is of. -/
theorem filter_forEach_eq_nil (h : ∀ a ∈ l, key a ≠ k) (s : σ) :
    (forEach f l s).1.filter (owner · = k) = [] := by
  have hnone : l.filter (key · = k) = [] :=
    List.filter_eq_nil_iff.2 fun a ha hk => h a ha (of_decide_eq_true hk)
  have hfirsts := (filter_forEach (l := l) (k := k) hf hparts s).1
  rw [hnone] at hfirsts
  exact List.prefix_nil.1 hfirsts

/-- What a loop writes to the part of an element, if it has one element of this part only. -/
theorem filter_forEach_of_ok {before later : List α} {a : α} (hbefore : ∀ b ∈ before, key b ≠ key a)
    (hlater : ∀ b ∈ later, key b ≠ key a) {s : σ} (hok : (forEach f before).isOk s = true) :
    (forEach f (before ++ a :: later) s).1.filter (owner · = key a) = (f a (view (key a) s)).1 := by
  have hstate : view (key a) ((forEach f before).after s) = view (key a) s := by
    rw [after, (hparts (key a)).foldl, filter_forEach_eq_nil hf hparts hbefore]
    rfl
  rw [forEach_append_of_ok hok, List.filter_append, filter_forEach_eq_nil hf hparts hbefore,
    List.nil_append]
  cases hfirst : (f a).isOk ((forEach f before).after s) with
  | true =>
    rw [(forEach_cons_of_ok hfirst).1, List.filter_append, filter_forEach_eq_nil hf hparts hlater,
      List.append_nil, filter_of_eq hf rfl, hstate]
  | false =>
    rw [(forEach_cons_of_error hfirst).1, filter_of_eq hf rfl, hstate]

/-- A loop raises no error exactly if the loop over the elements of each part raises none. -/
theorem isOk_forEach_iff (s : σ) :
    (forEach f l).isOk s = true ↔
      ∀ a ∈ l, (forEach f (l.filter (key · = key a))).isOk (view (key a) s) = true := by
  refine ⟨fun h a _ => ((filter_forEach hf hparts s).2 h).2, ?_⟩
  induction l generalizing s with
  | nil => exact fun _ => rfl
  | cons a l ih =>
    intro h
    have hfirst := h a List.mem_cons_self
    rw [List.filter_cons_of_pos (by simp)] at hfirst
    cases hown : (f a).isOk (view (key a) s) with
    | false =>
      rw [(forEach_cons_of_error hown).2] at hfirst
      exact absurd hfirst Bool.false_ne_true
    | true =>
      have hok : (f a).isOk s = true := by rw [← hown, isOk_congr ((hf a).reads s)]
      rw [(forEach_cons_of_ok hok).2]
      refine ih _ fun b hb => ?_
      have hb := h b (List.mem_cons_of_mem a hb)
      by_cases hk : key a = key b
      · rw [List.filter_cons_of_pos (by exact decide_eq_true hk)] at hb
        rw [hk] at hown
        rwa [(forEach_cons_of_ok hown).2, ← view_after_of_eq hf hparts hk] at hb
      · rw [List.filter_cons_of_neg (by simpa using hk)] at hb
        rwa [view_after_of_ne hf hparts hk]

end Parts

end Confined

/-! ## Invariants -/

/-- Whatever is written before the work is interrupted, or done, keeps an invariant. -/
def PreservesAt (Inv : σ → Prop) (x : Writing write ε α) (s : σ) : Prop :=
  ∀ done rest, (x s).1 = done ++ rest → Inv (done.foldl write s)

namespace PreservesAt

variable {Inv : σ → Prop}

theorem after (h : PreservesAt Inv x s) : Inv (x.after s) := h _ _ (List.append_nil _).symm

theorem and {Inv' : σ → Prop} (h : PreservesAt Inv x s) (h' : PreservesAt Inv' x s) :
    PreservesAt (fun s => Inv s ∧ Inv' s) x s :=
  fun done rest hsplit => ⟨h done rest hsplit, h' done rest hsplit⟩

theorem imp {Inv' : σ → Prop} (h : PreservesAt Inv x s) (himp : ∀ s, Inv s → Inv' s) :
    PreservesAt Inv' x s :=
  fun done rest hsplit => himp _ (h done rest hsplit)

theorem of_nil (hs : Inv s) (h : (x s).1 = []) : PreservesAt Inv x s := by
  intro done rest hsplit
  obtain ⟨rfl, -⟩ := List.append_eq_nil_iff.1 (hsplit.symm.trans h)
  exact hs

theorem of_single {w : ω} (hs : Inv s) (hw : Inv (write s w)) (h : (x s).1 = [w]) :
    PreservesAt Inv x s := by
  intro done rest hsplit
  rw [h] at hsplit
  rcases List.singleton_eq_append_iff.1 hsplit with ⟨rfl, -⟩ | ⟨rfl, -⟩
  · exact hs
  · exact hw

theorem of_pair {w w' : ω} (hs : Inv s) (hw : Inv (write s w)) (hw' : Inv (write (write s w) w'))
    (h : (x s).1 = [w, w']) : PreservesAt Inv x s := by
  intro done rest hsplit
  rw [h] at hsplit
  rcases done with _ | ⟨v, _ | ⟨v', done⟩⟩
  · exact hs
  · cases hsplit
    exact hw
  · simp only [List.cons_append, List.cons.injEq, List.nil_eq, List.append_eq_nil_iff] at hsplit
    obtain ⟨rfl, rfl, rfl, -⟩ := hsplit
    exact hw'

theorem bind (hx : PreservesAt Inv x s)
    (hf : ∀ a, (x s).2 = .ok a → PreservesAt Inv (f a) (x.after s)) :
    PreservesAt Inv (x >>= f) s := by
  intro done rest hsplit
  cases h : (x s).2 with
  | error e =>
    rw [bind_of_error h] at hsplit
    exact hx done rest hsplit
  | ok a =>
    rw [bind_of_ok h] at hsplit
    rcases List.append_eq_append_iff.1 hsplit with ⟨more, rfl, hmore⟩ | ⟨left, hleft, -⟩
    · rw [List.foldl_append]
      exact hf a h more rest hmore
    · exact hx done left hleft

/-- A loop keeps what the work for each element keeps. -/
theorem forEach {l : List α} (hf : ∀ a ∈ l, ∀ s, Inv s → PreservesAt Inv (f a) s) (hs : Inv s) :
    PreservesAt Inv (forEach f l) s := by
  induction l generalizing s with
  | nil => exact of_nil hs rfl
  | cons a l ih =>
    rw [List.forall_mem_cons] at hf
    have hfirst := hf.1 s hs
    refine hfirst.bind fun b _ => ?_
    refine (ih hf.2 hfirst.after).bind fun bs _ => ?_
    exact of_nil (ih hf.2 hfirst.after).after rfl

end PreservesAt

/-! ## Work that is done again -/

/-- If the work is interrupted, and done again, then it makes the rest of its writes, and raises
    an error if it would have raised one. -/
def ResumesAt (x : Writing write ε α) (s : σ) : Prop :=
  ∀ done rest, (x s).1 = done ++ rest →
    (x (done.foldl write s)).1 = rest ∧ x.isOk (done.foldl write s) = x.isOk s

namespace ResumesAt

theorem congr {γ : Type} {y : Writing write ε γ} (h : ResumesAt x s)
    (hsame : ∀ s, (y s).1 = (x s).1 ∧ y.isOk s = x.isOk s) : ResumesAt y s := by
  intro done rest hsplit
  rw [(hsame s).1] at hsplit
  rw [(hsame _).1, (hsame _).2, (hsame s).2]
  exact h done rest hsplit

/-- Work that writes at most once resumes if it has nothing left to write after that. -/
theorem of_single (h : (x s).1 = [] ∨ ∃ w, (x s).1 = [w] ∧ (x (write s w)).1 = []
    ∧ x.isOk (write s w) = x.isOk s) : ResumesAt x s := by
  intro done rest hsplit
  rcases h with h | ⟨w, h, hwritten, hok⟩
  · obtain ⟨rfl, rfl⟩ := List.append_eq_nil_iff.1 (hsplit.symm.trans h)
    exact ⟨h, rfl⟩
  · rw [h] at hsplit
    cases done with
    | nil => exact ⟨h.trans hsplit, rfl⟩
    | cons w' done =>
      obtain ⟨rfl, hnil⟩ := List.cons.inj hsplit
      obtain ⟨rfl, rfl⟩ := List.append_eq_nil_iff.1 hnil.symm
      exact ⟨hwritten, hok⟩

/-- Work that is done again after it is done. -/
theorem done (h : ResumesAt x s) : (x (x.after s)).1 = [] ∧ x.isOk (x.after s) = x.isOk s :=
  h _ _ (List.append_nil _).symm

/-- Work in two parts resumes, if each part does, and the first one has nothing left to write once
    it is done, whatever the second one writes. What the first part returns does not matter. -/
theorem bind (hx : ResumesAt x s)
    (hf : (x.isOk s = true) → ∀ a, ResumesAt (f a) (x.after s))
    (hsame : ∀ a b t, (f a t).1 = (f b t).1 ∧ (f a).isOk t = (f b).isOk t)
    (hstable : x.isOk s = true → ∀ a done rest, (f a (x.after s)).1 = done ++ rest →
      (x (done.foldl write (x.after s))).1 = [] ∧ x.isOk (done.foldl write (x.after s)) = true) :
    ResumesAt (x >>= f) s := by
  intro done rest hsplit
  cases h : (x s).2 with
  | error e =>
    rw [bind_of_error h] at hsplit
    obtain ⟨hrest, hagain⟩ := hx done rest hsplit
    rw [isOk_eq_false_iff.2 ⟨e, h⟩] at hagain
    obtain ⟨e', he'⟩ := isOk_eq_false_iff.1 hagain
    rw [bind_of_error he', isOk_bind_of_error he', isOk_bind_of_error h]
    exact ⟨hrest, rfl⟩
  | ok a =>
    have hok := isOk_iff.2 ⟨a, h⟩
    rw [bind_of_ok h] at hsplit
    rw [isOk_bind_of_ok h]
    rcases List.append_eq_append_iff.1 hsplit with ⟨more, rfl, hmore⟩ | ⟨left, hleft, rfl⟩
    · -- Interrupted in the second part.
      obtain ⟨hnil, hagain⟩ := hstable hok a more rest hmore
      obtain ⟨b, hb⟩ := isOk_iff.1 hagain
      have hstate : x.after (more.foldl write (x.after s)) = more.foldl write (x.after s) := by
        rw [after, hnil]
        rfl
      obtain ⟨hrest, hsecond⟩ := hf hok a more rest hmore
      rw [List.foldl_append]
      change ((x >>= f) (more.foldl write (x.after s))).1 = rest
        ∧ (x >>= f).isOk (more.foldl write (x.after s)) = _
      rw [bind_of_ok hb, isOk_bind_of_ok hb, hnil, hstate, (hsame b a _).1, (hsame b a _).2]
      exact ⟨hrest, hsecond⟩
    · -- Interrupted in the first part, which is resumed.
      obtain ⟨hrest, hagain⟩ := hx done left hleft
      rw [hok] at hagain
      obtain ⟨b, hb⟩ := isOk_iff.1 hagain
      have hstate : x.after (done.foldl write s) = x.after s := by
        rw [after, hrest, after, hleft, List.foldl_append]
      rw [bind_of_ok hb, isOk_bind_of_ok hb, hstate, hrest, (hsame b a _).1, (hsame b a _).2]
      exact ⟨rfl, rfl⟩

/-- Work that is done again after it was interrupted leads to where it would have led. -/
theorem after_foldl (h : ResumesAt x s) {done rest : List ω} (hsplit : (x s).1 = done ++ rest) :
    x.after (done.foldl write s) = x.after s := by
  rw [after, (h done rest hsplit).1, after, hsplit, List.foldl_append]

/-- Work that was interrupted resumes. -/
theorem foldl (h : ResumesAt x s) {done rest : List ω} (hsplit : (x s).1 = done ++ rest) :
    ResumesAt x (done.foldl write s) := by
  intro more left hmore
  rw [(h done rest hsplit).1] at hmore
  rw [← List.foldl_append, (h done rest hsplit).2]
  exact h (done ++ more) left (by rw [hsplit, hmore, List.append_assoc])

variable {l : List α}

/-- A loop resumes, if the work for each element does in the state in which it is started, and
    has nothing left to write after that, whatever is written for the elements that follow. -/
theorem forEach (Inv : List α → σ → Prop)
    (hinv : ∀ a l s, Inv (a :: l) s → (f a).isOk s = true → Inv l ((f a).after s))
    (hresume : ∀ a l s, Inv (a :: l) s → ResumesAt (f a) s)
    (hstable : ∀ a l s, Inv (a :: l) s → (f a).isOk s = true → ∀ ws : List ω,
      (∀ w ∈ ws, ∃ b ∈ l, ∃ t, w ∈ (f b t).1) →
      f a (ws.foldl write ((f a).after s)) = f a ((f a).after s) ∨
        ((f a (ws.foldl write ((f a).after s))).1 = []
          ∧ (f a).isOk (ws.foldl write ((f a).after s)) = true))
    (h : Inv l s) : ResumesAt (forEach f l) s := by
  induction l generalizing s with
  | nil =>
    intro done rest hsplit
    obtain ⟨rfl, rfl⟩ := List.append_eq_nil_iff.1 hsplit.symm
    exact ⟨rfl, rfl⟩
  | cons a l ih =>
    intro done rest hsplit
    have hone := hresume a l s h
    cases hok : (f a).isOk s with
    | false =>
      rw [(forEach_cons_of_error hok).1] at hsplit
      obtain ⟨hrest, hagain⟩ := hone done rest hsplit
      rw [hok] at hagain
      rw [(forEach_cons_of_error hok).2, (forEach_cons_of_error hagain).1,
        (forEach_cons_of_error hagain).2]
      exact ⟨hrest, rfl⟩
    | true =>
      rw [(forEach_cons_of_ok hok).1] at hsplit
      rw [(forEach_cons_of_ok hok).2]
      rcases List.append_eq_append_iff.1 hsplit with ⟨more, rfl, hmore⟩ | ⟨left, hleft, rfl⟩
      · -- Interrupted later: the work for the first element has nothing left to write.
        have hfirst : (f a (more.foldl write ((f a).after s))).1 = []
            ∧ (f a).isOk (more.foldl write ((f a).after s)) = true := by
          obtain ⟨hnil, hagain⟩ := hone.done
          have hmem : ∀ w ∈ more, ∃ b ∈ l, ∃ t, w ∈ (f b t).1 := fun w hw =>
            mem_forEach (hmore ▸ List.mem_append_left rest hw)
          rcases hstable a l s h hok more hmem with heq | hdone
          · rw [heq]
            exact ⟨hnil, (isOk_congr heq).trans (hagain.trans hok)⟩
          · exact hdone
        have hstate : (f a).after (more.foldl write ((f a).after s))
            = more.foldl write ((f a).after s) := by
          rw [after, hfirst.1]
          rfl
        obtain ⟨hrest, hagain⟩ := ih (hinv a l s h hok) more rest hmore
        rw [List.foldl_append]
        change (Writing.forEach f (a :: l) (more.foldl write ((f a).after s))).1 = rest ∧ _
        rw [(forEach_cons_of_ok hfirst.2).1, hfirst.1, hstate]
        exact ⟨hrest, (forEach_cons_of_ok hfirst.2).2.trans (by rw [hstate, hagain])⟩
      · -- Interrupted in the work for the first element, which is resumed.
        obtain ⟨hrest, hagain⟩ := hone done left hleft
        rw [hok] at hagain
        have hstate : (f a).after (done.foldl write s) = (f a).after s := by
          rw [after, hrest, after, hleft, List.foldl_append]
        rw [(forEach_cons_of_ok hagain).1, (forEach_cons_of_ok hagain).2, hstate, hrest]
        exact ⟨rfl, rfl⟩

end ResumesAt

/-- The store after some interruptions of the work, each after a number of its writes. -/
def interrupted (x : Writing write ε α) (cuts : List ℕ) (s : σ) : σ :=
  cuts.foldl (fun s n => ((x s).1.take n).foldl write s) s

theorem ResumesAt.after_interrupted (h : ResumesAt x s) (cuts : List ℕ) :
    x.after (x.interrupted cuts s) = x.after s := by
  induction cuts generalizing s with
  | nil => rfl
  | cons n cuts ih =>
    have hsplit := (List.take_append_drop n (x s).1).symm
    exact (ih (h.foldl hsplit)).trans (h.after_foldl hsplit)

end Writing
