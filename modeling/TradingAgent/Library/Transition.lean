import Mathlib.Data.List.Basic
import Mathlib.Tactic.Common

/-!
# Labelled transition systems

A system has initial states and steps, each step labelled by the event that it is.

* A *run* is a finite sequence of steps (`System.Run`), and a state is *reachable* if some run
  leads to it from an initial state (`System.Reachable`).
* A property which holds initially, and which every step preserves, is an *invariant*:
  it holds of every reachable state (`System.Reachable.invariant`). One preserved by the steps
  from a reachable state is *stable*: once it holds, it holds along every run
  (`System.Run.stable`).
* A *refinement* (`System.Refinement`) maps the states of a concrete system to those of an
  abstract one, so that every concrete step is either an abstract step, or leaves the abstract
  state as it is. Runs and reachability go along
  (`System.Refinement.run`, `System.Refinement.reachable`), so that what holds of every
  abstract run holds of every concrete one.
-/

namespace Transition

/-- A system of states `σ` whose steps are labelled by the events `ε`. -/
structure System (σ ε : Type*) where
  /-- The initial states. -/
  init : σ → Prop
  /-- The steps. -/
  step : σ → ε → σ → Prop

namespace System

variable {σ ε α δ : Type*}

/-- The system with one initial state, whose steps are those of a partial function. -/
def ofStep (s₀ : σ) (step : σ → ε → Option σ) : System σ ε where
  init s := s = s₀
  step s e t := step s e = some t

/-- The effect of a sequence of events, where each is possible. -/
def replay (step : σ → ε → Option σ) : σ → List ε → Option σ
  | s, [] => some s
  | s, e :: es => (step s e).bind (replay step · es)

variable {S : System σ ε}

/-- The run `S.Run s es t` goes from `s` to `t` by steps of the events `es`, in order. -/
inductive Run (S : System σ ε) : σ → List ε → σ → Prop
  | nil (s : σ) : Run S s [] s
  | cons {s t u : σ} {e : ε} {es : List ε} : S.step s e t → Run S t es u → Run S s (e :: es) u

/-- A state is reachable if a run leads to it from an initial state. -/
def Reachable (S : System σ ε) (s : σ) : Prop := ∃ s₀ es, S.init s₀ ∧ S.Run s₀ es s

namespace Run

theorem append {s t u : σ} {es fs : List ε} (h : S.Run s es t) (h' : S.Run t fs u) :
    S.Run s (es ++ fs) u := by
  induction h with
  | nil => exact h'
  | cons hstep _ ih => exact cons hstep (ih h')

theorem single {s t : σ} {e : ε} (h : S.step s e t) : S.Run s [e] t := cons h (nil t)

/-- Events that are possible one after the other are a run. -/
theorem of_replay {s₀ s t : σ} {step : σ → ε → Option σ} {es : List ε}
    (h : replay step s es = some t) : (ofStep s₀ step).Run s es t := by
  induction es generalizing s with
  | nil =>
    cases h
    exact nil _
  | cons e es ih =>
    rw [replay, Option.bind_eq_some_iff] at h
    obtain ⟨u, hstep, h⟩ := h
    exact cons hstep (ih h)

end Run

namespace Reachable

theorem init {s : σ} (h : S.init s) : S.Reachable s := ⟨s, [], h, .nil s⟩

theorem run {s t : σ} {es : List ε} (hs : S.Reachable s) (h : S.Run s es t) : S.Reachable t := by
  obtain ⟨s₀, fs, h₀, hrun⟩ := hs
  exact ⟨s₀, fs ++ es, h₀, hrun.append h⟩

theorem step {s t : σ} {e : ε} (hs : S.Reachable s) (h : S.step s e t) : S.Reachable t :=
  hs.run (.single h)

theorem of_replay {s₀ t : σ} {step : σ → ε → Option σ} (es : List ε)
    (h : replay step s₀ es = some t) : (ofStep s₀ step).Reachable t :=
  ⟨s₀, es, rfl, .of_replay h⟩

end Reachable

/-- A property preserved by the steps from reachable states is preserved by the runs from
    reachable states. -/
theorem Run.stable {P : σ → Prop}
    (hstep : ∀ s e t, S.Reachable s → P s → S.step s e t → P t) {s t : σ} {es : List ε}
    (hs : S.Reachable s) (hP : P s) (h : S.Run s es t) : P t := by
  induction h with
  | nil => exact hP
  | cons h _ ih => exact ih (hs.step h) (hstep _ _ _ hs hP h)

/-- A property which holds initially and which every step preserves holds of every reachable
    state. -/
theorem Reachable.invariant {P : σ → Prop} (hinit : ∀ s, S.init s → P s)
    (hstep : ∀ s e t, S.Reachable s → P s → S.step s e t → P t) {s : σ} (h : S.Reachable s) :
    P s := by
  obtain ⟨s₀, es, h₀, hrun⟩ := h
  exact hrun.stable hstep (.init h₀) (hinit s₀ h₀)

/-- A refinement of the abstract system `A` by the concrete system `S`. -/
structure Refinement (S : System σ ε) (A : System α δ) where
  /-- The abstract state that a concrete one stands for. -/
  abs : σ → α
  init_abs : ∀ s, S.init s → A.init (abs s)
  step_abs : ∀ s e t, S.Reachable s → S.step s e t →
    abs t = abs s ∨ ∃ d, A.step (abs s) d (abs t)

namespace Refinement

variable {A : System α δ} (R : Refinement S A)

/-- A concrete run is an abstract one. -/
theorem run {s t : σ} {es : List ε} (hs : S.Reachable s) (h : S.Run s es t) :
    ∃ ds, A.Run (R.abs s) ds (R.abs t) := by
  induction h with
  | nil s => exact ⟨[], .nil _⟩
  | cons hstep _ ih =>
    obtain ⟨ds, hds⟩ := ih (hs.step hstep)
    rcases R.step_abs _ _ _ hs hstep with heq | ⟨d, hd⟩
    · exact ⟨ds, heq ▸ hds⟩
    · exact ⟨d :: ds, .cons hd hds⟩

/-- A reachable concrete state stands for a reachable abstract one. -/
theorem reachable {s : σ} (h : S.Reachable s) : A.Reachable (R.abs s) := by
  obtain ⟨s₀, es, h₀, hrun⟩ := h
  obtain ⟨ds, hds⟩ := R.run (.init h₀) hrun
  exact ⟨R.abs s₀, ds, R.init_abs s₀ h₀, hds⟩

end Refinement

end System

end Transition
