import Mathlib.Tactic.Common

/-!
# Connections to a database

A connection sees what is committed, or what the transaction that is open on it has made of it
(`Connection`). The work on a connection may raise an error, and leaves the connection as it is
then (`Session`): nothing is rolled back.

* A transaction cannot be begun within another one.
* The execution of a statement opens a transaction if none is open, also if the statement fails,
  which then changes nothing.
-/

/-- What is committed, and what the open transaction has made of it, if one is open. -/
structure Connection (σ : Type) where
  committed : σ
  transaction : Option σ := none
  deriving DecidableEq, Repr

/-- What the connection sees. -/
def Connection.current {σ : Type} (c : Connection σ) : σ := c.transaction.getD c.committed

@[simp] theorem Connection.current_none {σ : Type} (s : σ) :
    (⟨s, none⟩ : Connection σ).current = s := rfl

@[simp] theorem Connection.current_some {σ : Type} (s t : σ) :
    (⟨s, some t⟩ : Connection σ).current = t := rfl

inductive SessionError (ε : Type)
  | raised (error : ε)
  | transactionWithinTransaction
  deriving DecidableEq, Repr

/-- Work on a connection. -/
def Session (σ ε α : Type) := Connection σ → Except (SessionError ε) α × Connection σ

namespace Session

variable {σ ε α β : Type}

/-- The work `x`, and then that for its result. -/
protected def bind (x : Session σ ε α) (f : α → Session σ ε β) : Session σ ε β := fun c =>
  match x c with
  | (.ok a, c) => f a c
  | (.error e, c) => (.error e, c)

instance : Monad (Session σ ε) where
  pure a c := (.ok a, c)
  bind := Session.bind

/-- Reads what the connection sees. -/
def read (f : σ → α) : Session σ ε α := fun c => (.ok (f c.current), c)

/-- Raises the error of a computation, if it has one. -/
def check (x : Except ε α) : Session σ ε α := fun c => (x.mapError .raised, c)

/-- `BEGIN IMMEDIATE` -/
def beginImmediate : Session σ ε Unit := fun c =>
  match c.transaction with
  | none => (.ok (), { c with transaction := some c.committed })
  | some _ => (.error .transactionWithinTransaction, c)

/-- Executes a statement. -/
def execute (statement : σ → Except ε σ) : Session σ ε Unit := fun c =>
  match statement c.current with
  | .ok s => (.ok (), { c with transaction := some s })
  | .error e => (.error (.raised e), { c with transaction := some c.current })

def commit : Session σ ε Unit := fun c => (.ok (), ⟨c.current, none⟩)

variable {f : α → Session σ ε β} {s : σ} {a : α} {e : ε} {c : Connection σ}

@[simp] theorem pure_apply (a : α) (c : Connection σ) :
    (pure a : Session σ ε α) c = (.ok a, c) := rfl

theorem map_apply (g : α → β) (x : Session σ ε α) (c : Connection σ) :
    (g <$> x) c = ((x c).1.map g, (x c).2) := by
  show Session.bind x (fun a => pure (g a)) c = _
  rw [Session.bind]
  split
  · next hx => rw [hx]; rfl
  · next hx => rw [hx]; rfl

@[simp] theorem read_bind (g : σ → α) (c : Connection σ) :
    (read g >>= f) c = f (g c.current) c := rfl

@[simp] theorem check_ok_bind (a : α) (c : Connection σ) : (check (.ok a) >>= f) c = f a c := rfl

@[simp] theorem check_error_bind (e : ε) (c : Connection σ) :
    (check (.error e) >>= f) c = (.error (.raised e), c) := rfl

@[simp] theorem beginImmediate_bind {f : Unit → Session σ ε β} (s : σ) :
    (beginImmediate >>= f) ⟨s, none⟩ = f () ⟨s, some s⟩ := rfl

@[simp] theorem commit_bind {f : Unit → Session σ ε β} (c : Connection σ) :
    (commit >>= f) c = f () ⟨c.current, none⟩ := rfl

theorem execute_ok_bind {f : Unit → Session σ ε β} {statement : σ → Except ε σ}
    (h : statement c.current = .ok s) :
    (execute statement >>= f) c = f () { c with transaction := some s } := by
  have hexecute : execute statement c = (.ok (), { c with transaction := some s }) := by
    rw [execute, h]
  show Session.bind _ f c = _
  rw [Session.bind, hexecute]

theorem execute_error_bind {f : Unit → Session σ ε β} {statement : σ → Except ε σ}
    (h : statement c.current = .error e) :
    (execute statement >>= f) c = (.error (.raised e), { c with transaction := some c.current }) := by
  have hexecute : execute statement c
      = (.error (.raised e), { c with transaction := some c.current }) := by
    rw [execute, h]
  show Session.bind _ f c = _
  rw [Session.bind, hexecute]

end Session
