import TradingAgent.Library.Transition
import Mathlib.Order.Basic
import Mathlib.Tactic.Common

/-!
# A register of attempts

What a write-ahead ledger is for, when the effect that it announces can neither be undone nor
be observed at once: a request is sent in numbered attempts, each of them recorded before it
is sent, and another one is made only after the last one is known to have had no effect.

* The register (`Attempt.Register`) is in a `Phase`: no attempt is under way, one was recorded
  and may be sent, one may have been sent and its effect is unknown, or the request is settled.
* Its acts are those of `Attempt.Act`; `Attempt.step` says in which phase each is allowed.
* In every reachable state the attempts sent are distinct and decreasing, and every attempt
  before the current one was closed (`Register.WellFormed`). So an attempt is sent only once,
  after the closing of all those before it (`Register.WellFormed.send`), and nothing is sent
  once the request is settled (`run_settled`).
-/

namespace Attempt

open Transition

/-- The phase of a request. -/
inductive Phase
  /-- The first `n` attempts had no effect, and no other was made. -/
  | idle (n : ℕ)
  /-- Attempt `n` is recorded, and may be sent. -/
  | armed (n : ℕ)
  /-- Attempt `n` may have been sent. -/
  | pending (n : ℕ)
  /-- The fate of the request is known from attempt `n`. -/
  | settled (n : ℕ)
  deriving DecidableEq, Repr

/-- The number of attempts recorded. -/
def Phase.count : Phase → ℕ
  | idle n | armed n | pending n | settled n => n

/-- A request, with the attempts sent and those that had no effect, the last one first. -/
structure Register where
  phase : Phase
  sent : List ℕ
  closed : List ℕ
  deriving DecidableEq, Repr

/-- What may happen to a request. -/
inductive Act
  /-- Another attempt is recorded. -/
  | arm
  /-- The attempt recorded is sent. -/
  | send
  /-- The sender of the attempt recorded is lost. -/
  | drop
  /-- The fate of the request becomes known. -/
  | settle
  /-- The last attempt is established to have had no effect. -/
  | close
  deriving DecidableEq, Repr

/-- The effect of an act, where it is allowed. -/
def step (r : Register) : Act → Option Register
  | .arm => match r.phase with
    | .idle n => some { r with phase := .armed (n + 1) }
    | _ => none
  | .send => match r.phase with
    | .armed n => some { r with phase := .pending n, sent := n :: r.sent }
    | _ => none
  | .drop => match r.phase with
    | .armed n => some { r with phase := .pending n }
    | _ => none
  | .settle => match r.phase with
    | .pending n => some { r with phase := .settled n }
    | _ => none
  | .close => match r.phase with
    | .pending n => some { r with phase := .idle n, closed := n :: r.closed }
    | _ => none

/-- The request no attempt was made of. -/
def fresh : Register := ⟨.idle 0, [], []⟩

/-- The requests from the fresh one. -/
def system : System Register Act := .ofStep fresh step

/-- What an act requires and does. -/
theorem step_cases {r r' : Register} {a : Act} (h : step r a = some r') :
    (∃ n, a = .arm ∧ r.phase = .idle n ∧ r' = { r with phase := .armed (n + 1) }) ∨
    (∃ n, a = .send ∧ r.phase = .armed n ∧
      r' = { r with phase := .pending n, sent := n :: r.sent }) ∨
    (∃ n, a = .drop ∧ r.phase = .armed n ∧ r' = { r with phase := .pending n }) ∨
    (∃ n, a = .settle ∧ r.phase = .pending n ∧ r' = { r with phase := .settled n }) ∨
    (∃ n, a = .close ∧ r.phase = .pending n ∧
      r' = { r with phase := .idle n, closed := n :: r.closed }) := by
  cases a <;> simp only [step] at h <;> split at h <;> simp_all

namespace Register

/-- The attempts closed are all those before the current one, and those sent are distinct. -/
structure WellFormed (r : Register) : Prop where
  /-- Each attempt was sent after those before it. -/
  decreasing : r.sent.Pairwise (· > ·)
  sent_le : ∀ n ∈ r.sent, n ≤ r.phase.count
  sent_pos : ∀ n ∈ r.sent, 0 < n
  armed_pos : ∀ n, r.phase = .armed n → 0 < n
  /-- An attempt that may be sent was not sent yet. -/
  armed_fresh : ∀ n, r.phase = .armed n → n ∉ r.sent
  closed_of_lt : ∀ n, 0 < n → n < r.phase.count → n ∈ r.closed
  closed_of_idle : ∀ n, r.phase = .idle n → 0 < n → n ∈ r.closed

theorem wellFormed_fresh : fresh.WellFormed where
  decreasing := .nil
  sent_le := by simp [fresh]
  sent_pos := by simp [fresh]
  armed_pos := by simp [fresh]
  armed_fresh := by simp [fresh]
  closed_of_lt := by simp [fresh, Phase.count]
  closed_of_idle := by simp +contextual [fresh]

/-- Every act keeps the register well formed. -/
theorem WellFormed.step {r r' : Register} {a : Act} (h : r.WellFormed)
    (hstep : Attempt.step r a = some r') : r'.WellFormed := by
  obtain ⟨hdec, hle, hpos, hapos, hfresh, hlt, hidle⟩ := h
  rcases step_cases hstep with ⟨n, -, hr, rfl⟩ | ⟨n, -, hr, rfl⟩ | ⟨n, -, hr, rfl⟩ |
    ⟨n, -, hr, rfl⟩ | ⟨n, -, hr, rfl⟩ <;> rw [hr] at hle hlt hfresh hidle hapos <;>
    simp only [Phase.count] at hle hlt
  · -- The new attempt is larger than all those sent, and the last one was closed.
    refine ⟨hdec, fun k hk => Nat.le_succ_of_le (hle k hk), hpos, ?_, ?_, ?_, by simp⟩
    · rintro _ ⟨⟩
      exact Nat.succ_pos n
    · rintro _ ⟨⟩ hmem
      exact absurd (hle _ hmem) (by omega)
    · intro k hk hkn
      rcases Nat.lt_succ_iff_lt_or_eq.1 hkn with hkn | rfl
      · exact hlt k hk hkn
      · exact hidle k rfl hk
  · refine ⟨List.pairwise_cons.2 ⟨fun k hk => ?_, hdec⟩, ?_, ?_, by simp, by simp, hlt, by simp⟩
    · exact Nat.lt_of_le_of_ne (hle k hk) fun hkn => hfresh n rfl (hkn ▸ hk)
    · simpa [Phase.count] using hle
    · simpa using ⟨hapos n rfl, hpos⟩
  · exact ⟨hdec, hle, hpos, by simp, by simp, hlt, by simp⟩
  · exact ⟨hdec, hle, hpos, by simp, by simp, hlt, by simp⟩
  · refine ⟨hdec, hle, hpos, by simp, by simp, fun k hk hkn => List.mem_cons_of_mem _ (hlt k hk hkn), ?_⟩
    rintro _ ⟨⟩ -
    exact List.mem_cons_self

/-- Every request that can be reached is well formed. -/
theorem wellFormed_of_reachable {r : Register} (h : system.Reachable r) : r.WellFormed :=
  h.invariant (fun _ h => h ▸ wellFormed_fresh) fun _ _ _ _ h hstep => h.step hstep

/-- No attempt is sent twice. -/
theorem WellFormed.nodup {r : Register} (h : r.WellFormed) : r.sent.Nodup :=
  h.decreasing.imp Nat.ne_of_gt

/-- An attempt is sent for the first time, and after all those before it were closed. -/
theorem WellFormed.send {r r' : Register} (h : r.WellFormed)
    (hstep : Attempt.step r .send = some r') :
    ∃ n, r.phase = .armed n ∧ n ∉ r.sent ∧ ∀ k, 0 < k → k < n → k ∈ r.closed := by
  rcases step_cases hstep with ⟨_, ⟨⟩, -⟩ | ⟨n, -, hr, -⟩ | ⟨_, ⟨⟩, -⟩ | ⟨_, ⟨⟩, -⟩ | ⟨_, ⟨⟩, -⟩
  exact ⟨n, hr, h.armed_fresh n hr, fun k hk hkn => h.closed_of_lt k hk (by simpa [hr, Phase.count])⟩

end Register

/-- Nothing happens to a settled request. -/
theorem step_settled {r : Register} {n : ℕ} (h : r.phase = .settled n) (a : Act) :
    step r a = none := by
  cases a <;> simp [step, h]

/-- Along every run from a settled request, the request stays as it is. -/
theorem run_settled {r r' : Register} {n : ℕ} {as : List Act} (h : r.phase = .settled n)
    (hrun : system.Run r as r') : r' = r := by
  cases hrun with
  | nil => rfl
  | cons hstep _ => exact absurd hstep (by simp [system, System.ofStep, step_settled h])

end Attempt
