import TradingAgent.Library.Writing

/-!
# Work that is done at once

Work is atomic in a state (`Atomic`) if it makes at most one write, and none if it raises an error. So
when it is interrupted nothing of it is done, or all of it (`Atomic.prefix_cases`).
-/

namespace Writing

variable {σ ω ε α β : Type} {write : σ → ω → σ}

theorem if_apply {c : Prop} [Decidable c] (x y : Writing write ε α) (s : σ) :
    (if c then x else y : Writing write ε α) s = if c then x s else y s := by
  split <;> rfl

/-- Work that raises an error before it writes, or makes at most one write, and then what it returns
    and the state satisfy a relation. -/
structure Atomic (x : Writing write ε α) (s : σ) (post : α → σ → Prop) : Prop where
  refused : ∀ e, (x s).2 = .error e → (x s).1 = []
  once : (x s).1.length ≤ 1
  returns : ∀ a, (x s).2 = .ok a → post a (x.after s)

namespace Atomic

variable {x : Writing write ε α} {f : α → Writing write ε β} {s : σ} {post post' : α → σ → Prop}

theorem of_raise (e : ε) : Atomic (raise e : Writing write ε α) s post :=
  ⟨fun _ _ => rfl, Nat.zero_le 1, fun _ => nofun⟩

theorem of_pure {a : α} (h : post a s) : Atomic (pure a : Writing write ε α) s post := by
  refine ⟨fun _ _ => rfl, Nat.zero_le 1, fun b hb => ?_⟩
  cases hb
  exact h

theorem of_eq {y : Writing write ε α} (h : Atomic y s post) (heq : x s = y s) : Atomic x s post := by
  refine ⟨fun e he => ?_, ?_, fun a ha => ?_⟩
  · rw [heq] at he ⊢
    exact h.refused e he
  · rw [heq]
    exact h.once
  · rw [heq] at ha
    rw [after, heq]
    exact h.returns a ha

theorem of_read {γ : Type} {g : σ → γ} {f : γ → Writing write ε α} (h : Atomic (f (g s)) s post) :
    Atomic (read g >>= f) s post :=
  h.of_eq (read_bind g f s)

/-- Work that is done one way or the other. -/
theorem ite {y : Writing write ε α} {c : Prop} [Decidable c] (hx : c → Atomic x s post)
    (hy : ¬ c → Atomic y s post) : Atomic (if c then x else y) s post := by
  split
  · exact hx ‹c›
  · exact hy ‹¬ c›

theorem mono (h : Atomic x s post) (himp : ∀ a t, post a t → post' a t) : Atomic x s post' :=
  ⟨h.refused, h.once, fun a ha => himp a _ (h.returns a ha)⟩

theorem bind_pure {g : α → β} (h : Atomic x s post) :
    Atomic (x >>= fun a => pure (g a)) s fun b t => ∃ a, b = g a ∧ post a t := by
  have hwrites := (bind_pure_writes x g s).1
  refine ⟨fun e he => ?_, ?_, fun b hb => ?_⟩
  · rw [hwrites]
    exact h.refused e (error_of_bind_pure he).1
  · rw [hwrites]
    exact h.once
  · obtain ⟨a, ha, heq, hafter⟩ := exists_of_bind_pure hb
    rw [hafter]
    exact ⟨a, heq, h.returns a ha⟩

/-- An error leaves the state as it was. -/
theorem after_of_error (h : Atomic x s post) {e : ε} (he : (x s).2 = .error e) : x.after s = s := by
  rw [after, h.refused e he]
  rfl

/-- When it is interrupted, nothing is done or all of it. -/
theorem prefix_cases (h : Atomic x s post) {done rest : List ω} (hsplit : (x s).1 = done ++ rest) :
    done = [] ∨ done = (x s).1 := by
  have honce := h.once
  rw [hsplit, List.length_append] at honce
  cases done with
  | nil => exact .inl rfl
  | cons w done =>
    have hrest : rest = [] := List.length_eq_zero_iff.1 (by rw [List.length_cons] at honce; omega)
    rw [hsplit, hrest, List.append_nil]
    exact .inr rfl

end Atomic

end Writing
