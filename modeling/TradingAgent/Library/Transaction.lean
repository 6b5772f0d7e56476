import TradingAgent.Library.Transition

/-!
# Databases with transactions

A database that is written by the calls of a transaction, one transaction at a time, and read as
the last one that was committed left it.

* What a call does to the tables is a function `after`. A transaction begins with the committed
  tables, and a call that is made outside of a transaction does nothing (`step`).
* A transaction may be rolled back after any of its calls: because one of them raised an error, or
  because the process that makes them has died.
* What the calls keep holds of the tables at any time, committed or not (`invariant`), and what
  relates the tables before a call to those after it relates the committed ones along every run
  (`related`).
-/

namespace Transaction

open Transition

/-- The tables, as committed, and as the open transaction sees them. -/
structure Database (σ : Type*) where
  committed : σ
  working : Option σ := none
  deriving DecidableEq, Repr

/-- What may happen to a database. -/
inductive Event (ε : Type*)
  | begin
  | call (c : ε)
  | commit
  | rollback
  deriving DecidableEq, Repr

variable {σ ε : Type*}

/-- The database after an event. Another transaction cannot begin before the open one ends. -/
def step (after : σ → ε → σ) (db : Database σ) : Event ε → Database σ
  | .begin => { db with working := some (db.working.getD db.committed) }
  | .call c => { db with working := db.working.map (after · c) }
  | .commit => ⟨db.working.getD db.committed, none⟩
  | .rollback => ⟨db.committed, none⟩

/-- The database, from its first tables on, under any events in any order. -/
def system (init : σ) (after : σ → ε → σ) : System (Database σ) (Event ε) where
  init db := db = ⟨init, none⟩
  step db event next := next = step after db event

/-- The events that happen one after the other are a run. -/
theorem run_foldl (init : σ) (after : σ → ε → σ) (db : Database σ) (events : List (Event ε)) :
    (system init after).Run db events (events.foldl (step after) db) := by
  induction events generalizing db with
  | nil => exact .nil db
  | cons event events ih => exact .cons rfl (ih _)

theorem reachable_foldl (init : σ) (after : σ → ε → σ) (events : List (Event ε)) :
    (system init after).Reachable (events.foldl (step after) ⟨init, none⟩) :=
  ⟨_, events, rfl, run_foldl init after _ events⟩

/-- A property of the tables, of those that are committed and of those that may be. -/
def Database.All (P : σ → Prop) (db : Database σ) : Prop :=
  P db.committed ∧ ∀ s ∈ db.working, P s

variable {init : σ} {after : σ → ε → σ} {P : σ → Prop} {R : σ → σ → Prop} {db later : Database σ}

theorem Database.All.getD (h : db.All P) : P (db.working.getD db.committed) := by
  obtain ⟨hcommitted, hworking⟩ := h
  cases hdb : db.working with
  | none => exact hcommitted
  | some s => exact hworking s hdb

/-- What each call keeps is kept by each event. -/
theorem Database.All.step (hafter : ∀ s c, P s → P (after s c)) (h : db.All P)
    (event : Event ε) : (step after db event).All P := by
  cases event with
  | begin =>
    refine ⟨h.1, ?_⟩
    rintro s ⟨⟩
    exact h.getD
  | call c =>
    refine ⟨h.1, ?_⟩
    intro s hs
    obtain ⟨t, ht, rfl⟩ := Option.map_eq_some_iff.1 hs
    exact hafter t c (h.2 t ht)
  | commit => exact ⟨h.getD, by rintro s ⟨⟩⟩
  | rollback => exact ⟨h.1, by rintro s ⟨⟩⟩

/-- What holds of the first tables, and is kept by each call, holds of the tables at any time. -/
theorem invariant (hinit : P init) (hafter : ∀ s c, P s → P (after s c))
    (h : (system init after).Reachable db) : db.All P := by
  refine h.invariant ?_ ?_
  · rintro _ rfl
    exact ⟨hinit, by rintro s ⟨⟩⟩
  · rintro db event _ - hdb rfl
    exact hdb.step hafter event

/-- What relates the tables before each call to those after it relates the committed tables before
    a run to those after it. -/
theorem related (hrefl : ∀ s, R s s) (htrans : ∀ s t u, R s t → R t u → R s u)
    (hinit : P init) (hafter : ∀ s c, P s → P (after s c)) (hR : ∀ s c, P s → R s (after s c))
    {events : List (Event ε)} (hreach : (system init after).Reachable db)
    (hrun : (system init after).Run db events later) : R db.committed later.committed := by
  -- The open transaction is related to the committed tables, so that a commit is.
  have hopen : ∀ s ∈ db.working, R db.committed s := by
    refine hreach.invariant (P := fun db => ∀ s ∈ db.working, R db.committed s) ?_ ?_
    · rintro _ rfl s ⟨⟩
    · rintro db event _ hdb ih rfl s hs
      cases event with
      | begin =>
        cases hs
        cases hw : db.working with
        | none => exact hrefl _
        | some t => exact ih t hw
      | call c =>
        obtain ⟨t, ht, rfl⟩ := Option.map_eq_some_iff.1 hs
        exact htrans _ _ _ (ih t ht) (hR t c ((invariant hinit hafter hdb).2 t ht))
      | commit => cases hs
      | rollback => cases hs
  have hall : later.All (R db.committed) := by
    refine hrun.stable (P := Database.All (R db.committed)) ?_ hreach ⟨hrefl _, hopen⟩
    rintro s event _ hs ⟨hcommitted, hworking⟩ rfl
    cases event with
    | begin =>
      refine ⟨hcommitted, ?_⟩
      rintro t ⟨⟩
      exact Database.All.getD ⟨hcommitted, hworking⟩
    | call c =>
      refine ⟨hcommitted, ?_⟩
      intro t ht
      obtain ⟨u, hu, rfl⟩ := Option.map_eq_some_iff.1 ht
      exact htrans _ _ _ (hworking u hu) (hR u c ((invariant hinit hafter hs).2 u hu))
    | commit => exact ⟨Database.All.getD ⟨hcommitted, hworking⟩, by rintro t ⟨⟩⟩
    | rollback => exact ⟨hcommitted, by rintro t ⟨⟩⟩
  exact hall.1

end Transaction
