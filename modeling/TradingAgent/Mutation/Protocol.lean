import TradingAgent.Library.Attempt
import TradingAgent.Mutation.Executor
import TradingAgent.Mutation.Recovery

/-!
# Runs, crashes and recoveries, interleaved

The ledger is shared by processes that run mutations and recover them. A process has a writer, and
can do any of this, only while it holds the exclusive lease on the ledger. It loses the lease when
it leaves its session, and also when it crashes, which it may do at any time.

* A run and a recovery pass are sequences of sections (`Task.advance`), between which a crash may
  occur: every section reads the ledger, or commits to it once, or calls the broker. Uninterrupted,
  they are the functions `run` and `recover` (`run_completes`, `recover_completes`).
* The system of the ledger, its processes and the calls of the broker (`world`) refines, for
  every mutation, a register of attempts (`refinement`): its phase is that of the recorded events,
  except that an attempt is armed as long as its process lives and has not called the broker.
* So the broker is called for an attempt at most once, after that attempt is recorded and
  those before it were found to have had no effect, and never again once it is known what became
  of the mutation.
-/

namespace TradingAgent

open Except Transition

/-! ## Sections -/

/-- What a process has still to do. -/
inductive Task
  | idle
  /-- Before the intent is saved. -/
  | saving (intent : PaperMutationIntent)
  /-- Before the events are read. -/
  | reading (intent : PaperMutationIntent)
  /-- Before the attempt is recorded. -/
  | attempting (intent : PaperMutationIntent) (attemptNumber : ℕ)
  /-- Before the broker is called. -/
  | invoking (intent : PaperMutationIntent) (attemptNumber : ℕ)
  /-- Before the reply is recorded. -/
  | recording (intent : PaperMutationIntent) (attemptNumber : ℕ) (reply : BrokerReply)
  /-- Before the visits of the mutations `pending`. -/
  | recovering (snapshot : PaperMutationRecoverySnapshot)
    (storedEvents : List StoredPaperMutationEvent)
    (protectivePlans : List StoredProtectiveOcoPlan) (pending : List StoredPaperMutationIntent)
  deriving DecidableEq, Repr

/-- The start of a run. -/
def Task.ofRun (intent : PaperMutationIntent) (persistIntent : Bool) : Task :=
  if persistIntent then .saving intent else .reading intent

/-- The start of a recovery pass. -/
def Task.ofRecover (sha : Sha256) (ledger : ExecutionLedger)
    (snapshot : PaperMutationRecoverySnapshot) : Task :=
  match requireCurrentEpochSnapshot snapshot, readPaperMutationEvents sha ledger,
    readPaperMutationIntents sha ledger with
  | .ok (), .ok storedEvents, .ok intents =>
    .recovering snapshot storedEvents ledger.protectiveOcoPlans intents
  | _, _, _ => .idle

/-- The next section of a task, at the time `clock`, where the broker replies with `reply` if it
    is called. A task that raises an error is over. -/
def Task.advance (sha : Sha256) (clock : DateTime) (reply : BrokerReply)
    (ledger : ExecutionLedger) : Task → ExecutionLedger × Task
  | .idle => (ledger, .idle)
  | .saving intent =>
    match ExecutionWriter.savePaperMutationIntent sha ledger intent with
    | .ok (ledger, _) => (ledger, .reading intent)
    | .error _ => (ledger, .idle)
  | .reading intent =>
    let mutationKey := paperMutationKey sha intent
    match readPaperMutationEvents sha ledger with
    | .ok stored =>
      let events := (stored.filter (·.mutationKey = mutationKey)).map (·.event)
      match existingResult mutationKey events with
      | some _ => (ledger, .idle)
      | none => (ledger, .attempting intent (latestAttempt events + 1))
    | .error _ => (ledger, .idle)
  | .attempting intent n =>
    match appendPaperMutationEvent sha ledger (paperMutationKey sha intent)
      (attemptedEvent intent n clock) with
    | .ok (ledger, _) => (ledger, .invoking intent n)
    | .error _ => (ledger, .idle)
  | .invoking intent n => (ledger, .recording intent n reply)
  | .recording intent n reply =>
    match outcomeEvent sha n clock reply with
    | some (event, _) =>
      match appendPaperMutationEvent sha ledger (paperMutationKey sha intent) event with
      | .ok (ledger, _) => (ledger, .idle)
      | .error _ => (ledger, .idle)
    | none => (ledger, .idle)
  | .recovering _ _ _ [] => (ledger, .idle)
  | .recovering snapshot storedEvents protectivePlans (storedIntent :: pending) =>
    match recoverVisit sha snapshot storedEvents protectivePlans ledger storedIntent with
    | .ok (ledger, _) => (ledger, .recovering snapshot storedEvents protectivePlans pending)
    | .error _ => (ledger, .idle)

/-- The attempt that a task is about to call the broker for. -/
def Task.invokes (sha : Sha256) : Task → Option (PaperMutationKey × ℕ)
  | .invoking intent n => some (paperMutationKey sha intent, n)
  | _ => none

/-! ## The system -/

abbrev Pid := ℕ

/-- A process that holds the writer lease. -/
structure Session where
  pid : Pid
  task : Task
  deriving DecidableEq, Repr

structure World where
  ledger : ExecutionLedger
  /-- The holder of the lease. -/
  session : Option Session
  /-- The attempts that the broker was called for, the last one first. -/
  calls : List (PaperMutationKey × ℕ)
  deriving DecidableEq, Repr

namespace World

/-- A new database, no process, and a broker that was not called. -/
def initial : World := ⟨.empty, none, []⟩

/-- The attempts of a mutation that the broker was called for. -/
def callsOf (w : World) (key : PaperMutationKey) : List ℕ :=
  (w.calls.filter (·.1 = key)).map (·.2)

theorem mem_callsOf {w : World} {key : PaperMutationKey} {n : ℕ} :
    n ∈ w.callsOf key ↔ (key, n) ∈ w.calls := by
  simp [callsOf]

end World

inductive Action
  | acquire (pid : Pid)
  | release (pid : Pid)
  | crash (pid : Pid)
  | bindAccount (pid : Pid) (account : AccountFingerprint)
  /-- Any operation on the tables other than those of the mutations. -/
  | write (pid : Pid) (orderIntents : List StoredIntent)
    (protectiveOcoPlans : List StoredProtectiveOcoPlan)
    (recoveryProtectiveOcoLegs : List RecoveryProtectiveOcoLeg)
    (paperSafetyPlans : List StoredPaperSafetyPlan)
  | saveEntry (pid : Pid) (order : SizedPaperOrder) (mutation : PaperMutationIntent)
  | run (pid : Pid) (intent : PaperMutationIntent) (persistIntent : Bool)
  | recover (pid : Pid) (snapshot : PaperMutationRecoverySnapshot)
  | advance (pid : Pid) (clock : DateTime) (reply : BrokerReply)
  deriving DecidableEq, Repr

namespace World

/-- The ledger after an operation, or as it was if the operation raises an error. -/
def committed {ε : Type} (ledger : ExecutionLedger) :
    Except ε (ExecutionLedger × Bool) → ExecutionLedger
  | .ok (ledger, _) => ledger
  | .error _ => ledger

/-- The effect of an action, where it is possible. -/
def step (sha : Sha256) (w : World) : Action → Option World
  | .acquire pid =>
    if w.session = none then some { w with session := some ⟨pid, .idle⟩ } else none
  | .release pid =>
    if w.session = some ⟨pid, .idle⟩ then some { w with session := none } else none
  | .crash pid =>
    if w.session.any (·.pid = pid) then some { w with session := none } else none
  | .bindAccount pid account =>
    if w.session = some ⟨pid, .idle⟩ then
      some { w with
        ledger := committed w.ledger (ExecutionWriter.bindAccount w.ledger account) }
    else none
  | .write pid orderIntents protectiveOcoPlans recoveryProtectiveOcoLegs paperSafetyPlans =>
    if w.session = some ⟨pid, .idle⟩ then
      some { w with
        ledger := { w.ledger with
          orderIntents := orderIntents
          protectiveOcoPlans := protectiveOcoPlans
          recoveryProtectiveOcoLegs := recoveryProtectiveOcoLegs
          paperSafetyPlans := paperSafetyPlans } }
    else none
  | .saveEntry pid order mutation =>
    if w.session = some ⟨pid, .idle⟩ then
      some { w with
        ledger := committed w.ledger
          (ExecutionWriter.saveEntryMutationIntent sha w.ledger order mutation) }
    else none
  | .run pid intent persistIntent =>
    if w.session = some ⟨pid, .idle⟩ then
      some { w with session := some ⟨pid, .ofRun intent persistIntent⟩ }
    else none
  | .recover pid snapshot =>
    if w.session = some ⟨pid, .idle⟩ then
      some { w with session := some ⟨pid, .ofRecover sha w.ledger snapshot⟩ }
    else none
  | .advance pid clock reply =>
    match w.session with
    | some session =>
      if session.pid = pid then
        let (ledger, task) := session.task.advance sha clock reply w.ledger
        some ⟨ledger, some ⟨pid, task⟩, (session.task.invokes sha).toList ++ w.calls⟩
      else none
    | none => none

/-- The attempt that an action calls the broker for. -/
def brokerCall (sha : Sha256) (w : World) : Action → Option (PaperMutationKey × ℕ)
  | .advance _ _ _ => w.session.bind fun session => session.task.invokes sha
  | _ => none

end World

/-- The processes and their ledger, from a new database. -/
def world (sha : Sha256) : System World Action := .ofStep .initial (World.step sha)

/-! ## Uninterrupted tasks -/

/-- Undisturbed, the process `pid` completes its task, and leaves the ledger `ledger'`. -/
def Completes (sha : Sha256) (pid : Pid) (ledger : ExecutionLedger) (task : Task)
    (ledger' : ExecutionLedger) : Prop :=
  ∀ w : World, w.ledger = ledger → w.session = some ⟨pid, task⟩ →
    ∃ as w', (world sha).Run w as w' ∧ w'.ledger = ledger' ∧ w'.session = some ⟨pid, .idle⟩

namespace Completes

variable {sha : Sha256} {pid : Pid} {ledger ledger₁ ledger₂ : ExecutionLedger} {task task' : Task}

theorem idle (sha : Sha256) (pid : Pid) (ledger : ExecutionLedger) :
    Completes sha pid ledger .idle ledger :=
  fun w hledger hsession => ⟨[], w, .nil w, hledger, hsession⟩

theorem advance (clock : DateTime) (reply : BrokerReply)
    (h : task.advance sha clock reply ledger = (ledger₁, task'))
    (h' : Completes sha pid ledger₁ task' ledger₂) : Completes sha pid ledger task ledger₂ := by
  intro w hledger hsession
  let next : World := ⟨ledger₁, some ⟨pid, task'⟩, (task.invokes sha).toList ++ w.calls⟩
  have hstep : (world sha).step w (.advance pid clock reply) next := by
    simp [world, System.ofStep, World.step, hsession, hledger, h, next]
  obtain ⟨as, w', hrun, hw'⟩ := h' next rfl rfl
  exact ⟨_, w', .cons hstep hrun, hw'⟩

end Completes

section Uninterrupted

variable {sha : Sha256} {pid : Pid} (ledger : ExecutionLedger) (intent : PaperMutationIntent)
  (attemptedAt repliedAt : DateTime) (reply : BrokerReply)

/-- The sections of a run, one after the other, are the function `run`. -/
theorem run_completes (persistIntent : Bool) :
    Completes sha pid ledger (.ofRun intent persistIntent)
      (run sha ledger intent persistIntent attemptedAt repliedAt reply).1 := by
  -- The sections after the saving of the intent, which is skipped if the caller did it.
  suffices hreading : ∀ ledger, Completes sha pid ledger (.reading intent)
      (run sha ledger intent false attemptedAt repliedAt reply).1 by
    cases persistIntent with
    | false => exact hreading ledger
    | true =>
      cases hsave : ExecutionWriter.savePaperMutationIntent sha ledger intent with
      | error e =>
        refine .advance attemptedAt reply (?_ : _ = (ledger, Task.idle)) ?_
        · simp [Task.ofRun, Task.advance, hsave]
        · rw [run]
          simpa [hsave, Except.map] using Completes.idle sha pid ledger
      | ok saved =>
        refine .advance attemptedAt reply (?_ : _ = (saved.1, Task.reading intent)) ?_
        · simp [Task.ofRun, Task.advance, hsave]
        · simpa [run, hsave, Except.map] using hreading saved.1
  intro ledger
  rw [run]
  simp only [Bool.false_eq_true, if_false]
  cases hread : readPaperMutationEvents sha ledger with
  | error e =>
    exact .advance attemptedAt reply (by simp [Task.advance, hread]) (.idle sha pid ledger)
  | ok stored =>
    dsimp only
    generalize hevents : (stored.filter (·.mutationKey = paperMutationKey sha intent)).map
      (·.event) = events
    cases hexisting : existingResult (paperMutationKey sha intent) events with
    | some existing =>
      exact .advance attemptedAt reply (by simp [Task.advance, hread, hevents, hexisting])
        (.idle sha pid ledger)
    | none =>
      have hattempting : (Task.reading intent).advance sha attemptedAt reply ledger =
          (ledger, .attempting intent (latestAttempt events + 1)) := by
        simp [Task.advance, hread, hevents, hexisting]
      refine .advance attemptedAt reply hattempting ?_
      dsimp only
      cases happend : appendPaperMutationEvent sha ledger (paperMutationKey sha intent)
        (attemptedEvent intent (latestAttempt events + 1) attemptedAt) with
      | error e =>
        exact .advance attemptedAt reply (by simp [Task.advance, happend]) (.idle sha pid ledger)
      | ok attempted =>
        refine .advance attemptedAt reply (by simp [Task.advance, happend]; exact ⟨rfl, rfl⟩) ?_
        refine .advance repliedAt reply (by simp [Task.advance]; exact ⟨rfl, rfl⟩) ?_
        dsimp only
        cases houtcome : outcomeEvent sha (latestAttempt events + 1) repliedAt reply with
        | none =>
          exact .advance repliedAt reply (by simp [Task.advance, houtcome]) (.idle sha pid _)
        | some outcome =>
          dsimp only
          cases hrecord : appendPaperMutationEvent sha attempted.1 (paperMutationKey sha intent)
            outcome.1 with
          | error e =>
            exact .advance repliedAt reply (by simp [Task.advance, houtcome, hrecord])
              (.idle sha pid _)
          | ok recorded =>
            exact .advance repliedAt reply (by simp [Task.advance, houtcome, hrecord])
              (.idle sha pid _)

/-- The visits of a recovery pass, one after the other, are the function `recover`. -/
theorem recover_completes (snapshot : PaperMutationRecoverySnapshot) :
    Completes sha pid ledger (.ofRecover sha ledger snapshot) (recover sha ledger snapshot).1 := by
  -- No section of the pass looks at the clock, or calls the broker.
  let clock := snapshot.completedAt
  have hvisits (storedEvents protectivePlans pending) : ∀ ledger,
      Completes sha pid ledger (.recovering snapshot storedEvents protectivePlans pending)
        (recoverVisits sha snapshot storedEvents protectivePlans pending ledger).1 := by
    induction pending with
    | nil =>
      intro ledger
      exact .advance clock .otherError rfl (.idle sha pid ledger)
    | cons storedIntent pending ih =>
      intro ledger
      rw [recoverVisits]
      cases hvisit : recoverVisit sha snapshot storedEvents protectivePlans ledger storedIntent with
      | error e =>
        exact .advance clock .otherError (by simp [Task.advance, hvisit]) (.idle sha pid ledger)
      | ok visited =>
        exact .advance clock .otherError (by simp [Task.advance, hvisit])
          (ih visited.1)
  rw [Task.ofRecover, recover]
  cases requireCurrentEpochSnapshot snapshot with
  | error e => exact .idle sha pid ledger
  | ok u =>
    cases readPaperMutationEvents sha ledger with
    | error e => exact .idle sha pid ledger
    | ok storedEvents =>
      cases readPaperMutationIntents sha ledger with
      | error e => exact .idle sha pid ledger
      | ok intents => exact hvisits storedEvents ledger.protectiveOcoPlans intents ledger

end Uninterrupted

/-! ## Invariant -/

/-- What a task may rely on, as nobody else writes while it holds the lease. -/
def Task.IsCurrent (sha : Sha256) (ledger : ExecutionLedger) : Task → Prop
  | .attempting intent n => mutationPhase (ledger.mutationEvents (paperMutationKey sha intent)) =
      some ⟨n - 1, .none⟩ ∧ 0 < n
  | .invoking intent n => mutationPhase (ledger.mutationEvents (paperMutationKey sha intent)) =
      some ⟨n - 1, .attempted⟩ ∧ 0 < n
  | _ => True

namespace World

/-- What holds in every reachable state. -/
structure Inv (sha : Sha256) (w : World) : Prop where
  wellFormed : w.ledger.WellFormed sha
  isCurrent : ∀ session, w.session = some session → session.task.IsCurrent sha w.ledger

end World

section Advance

variable {sha : Sha256} {clock : DateTime} {reply : BrokerReply} {ledger ledger' : ExecutionLedger}

/-- The attempt that is recorded next is not recorded yet. -/
theorem attempted_notMem {key : PaperMutationKey} {n : ℕ}
    (hphase : mutationPhase (ledger.mutationEvents key) = some ⟨n - 1, .none⟩) (hn : 0 < n)
    {event : PaperMutationEvent} (hattempt : event.attemptNumber = n) :
    event ∉ ledger.mutationEvents key := by
  intro hmem
  have hsame : event ∈ sameAttempt (ledger.mutationEvents key) n :=
    List.mem_filter.2 ⟨hmem, by simp [hattempt]⟩
  have htypes := map_eventType_sameAttempt hphase n
  have hnil : (⟨n - 1, .none⟩ : MutationPhase).types n = [] := by
    simp only [MutationPhase.types, LastAttempt.types]
    split_ifs <;> first | rfl | omega
  rw [hnil, List.map_eq_nil_iff] at htypes
  simp [htypes] at hsame

/-- The reading of the events finds out which attempt comes next. -/
theorem Task.isCurrent_attempting (hledger : ledger.WellFormed sha) {intent : PaperMutationIntent}
    (h : existingResult (paperMutationKey sha intent)
      (ledger.mutationEvents (paperMutationKey sha intent)) = none) :
    (Task.attempting intent
      (latestAttempt (ledger.mutationEvents (paperMutationKey sha intent)) + 1)).IsCurrent
        sha ledger := by
  obtain ⟨phase, hphase⟩ := hledger.exists_phase (paperMutationKey sha intent)
  have hlast := existingResult_eq_none hphase h
  rw [latestAttempt_eq hphase, MutationPhase.current, if_pos hlast]
  refine ⟨hphase.trans ?_, Nat.succ_pos _⟩
  rw [← hlast]
  rfl

/-- What a section does to the ledger: nothing, or it adds an intent, or it records an attempt, or
    the outcome of one, under the rule. -/
theorem Task.advance_cases (hledger : ledger.WellFormed sha) {task task' : Task}
    (hcurrent : task.IsCurrent sha ledger)
    (h : task.advance sha clock reply ledger = (ledger', task')) :
    (ledger'.paperMutationEvents = ledger.paperMutationEvents ∧ ledger'.WellFormed sha ∧
      task'.invokes sha = none ∧ task'.IsCurrent sha ledger') ∨
    (∃ intent n, task = .attempting intent n ∧ task' = .invoking intent n ∧
      requireMutationEvent (attemptedEvent intent n clock) = .ok () ∧
      requireMutationTransition (ledger.mutationEvents (paperMutationKey sha intent))
        (attemptedEvent intent n clock) = .ok () ∧
      ledger' = ledger.addMutationEvent
        (paperMutationEventKey sha (paperMutationKey sha intent) (attemptedEvent intent n clock))
        (paperMutationKey sha intent) (attemptedEvent intent n clock)) ∨
    (∃ key event, task.invokes sha = none ∧ task'.invokes sha = none ∧
      event.eventType ≠ .attempted ∧ requireMutationEvent event = .ok () ∧
      requireMutationTransition (ledger.mutationEvents key) event = .ok () ∧
      ledger' = ledger.addMutationEvent (paperMutationEventKey sha key event) key event ∧
      task'.IsCurrent sha ledger') := by
  cases task with
  | idle =>
    cases h
    exact .inl ⟨rfl, hledger, rfl, trivial⟩
  | saving intent =>
    rw [Task.advance] at h
    split at h <;> cases h
    · rename_i inserted hsave
      refine .inl ⟨?_, hledger.saveIntent hsave, rfl, trivial⟩
      simp only [ExecutionWriter.savePaperMutationIntent, bind_eq_ok] at hsave
      obtain ⟨_, -, hsave⟩ := hsave
      obtain ⟨-, ⟨-, rfl, -⟩ | ⟨-, -, rfl⟩⟩ := savePaperMutationIntent_cases hsave <;> rfl
    · exact .inl ⟨rfl, hledger, rfl, trivial⟩
  | reading intent =>
    rw [Task.advance, hledger.readPaperMutationEvents] at h
    dsimp only at h
    split at h <;> cases h
    · exact .inl ⟨rfl, hledger, rfl, trivial⟩
    · rename_i hnone
      exact .inl ⟨rfl, hledger, rfl, Task.isCurrent_attempting hledger hnone⟩
  | attempting intent n =>
    rw [Task.advance] at h
    split at h <;> cases h
    · rename_i inserted happend
      obtain ⟨hevent, ⟨-, -, hmem⟩ | ⟨-, hrule, hledger'⟩⟩ := appendPaperMutationEvent_cases happend
      · exact absurd hmem (attempted_notMem hcurrent.1 hcurrent.2 rfl)
      · exact .inr (.inl ⟨intent, n, rfl, rfl, hevent, hrule, hledger'⟩)
    · exact .inl ⟨rfl, hledger, rfl, trivial⟩
  | invoking intent n =>
    cases h
    exact .inl ⟨rfl, hledger, rfl, trivial⟩
  | recording intent n reply' =>
    rw [Task.advance] at h
    split at h
    · rename_i event state houtcome
      split at h <;> cases h
      · rename_i inserted happend
        obtain ⟨hevent, ⟨-, rfl, -⟩ | ⟨-, hrule, hledger'⟩⟩ :=
          appendPaperMutationEvent_cases happend
        · exact .inl ⟨rfl, hledger, rfl, trivial⟩
        · refine .inr (.inr ⟨_, event, rfl, rfl, ?_, hevent, hrule, hledger', trivial⟩)
          rcases (outcomeEvent_cases houtcome).2 with h | h | h <;> rw [h] <;> nofun
      · exact .inl ⟨rfl, hledger, rfl, trivial⟩
    · cases h
      exact .inl ⟨rfl, hledger, rfl, trivial⟩
  | recovering snapshot storedEvents protectivePlans pending =>
    cases pending with
    | nil =>
      cases h
      exact .inl ⟨rfl, hledger, rfl, trivial⟩
    | cons storedIntent pending =>
      rw [Task.advance] at h
      split at h <;> cases h
      · rename_i result hvisit
        rcases recoverVisit_cases hvisit with rfl | ⟨event, inserted, htype, happend⟩
        · exact .inl ⟨rfl, hledger, rfl, trivial⟩
        · obtain ⟨hevent, ⟨-, rfl, -⟩ | ⟨-, hrule, hledger'⟩⟩ :=
            appendPaperMutationEvent_cases happend
          · exact .inl ⟨rfl, hledger, rfl, trivial⟩
          · refine .inr (.inr ⟨_, event, rfl, rfl, ?_, hevent, hrule, hledger', trivial⟩)
            rcases htype with h | h <;> rw [h] <;> nofun
      · exact .inl ⟨rfl, hledger, rfl, trivial⟩

end Advance

namespace World

variable {sha : Sha256} {w w' : World} {a : Action}

/-- A process that neither is about to call the broker nor relies on the events it read. -/
def IsQuiet (sha : Sha256) (session : Option Session) : Prop :=
  ∀ s, session = some s → s.task.invokes sha = none ∧ ∀ ledger, s.task.IsCurrent sha ledger

theorem isQuiet_none : IsQuiet sha none := by
  intro s h
  cases h

theorem isQuiet_idle (pid : Pid) : IsQuiet sha (some ⟨pid, .idle⟩) := by
  rintro _ ⟨⟩
  exact ⟨rfl, fun _ => trivial⟩

theorem isQuiet_ofRun (pid : Pid) (intent : PaperMutationIntent) (persistIntent : Bool) :
    IsQuiet sha (some ⟨pid, .ofRun intent persistIntent⟩) := by
  rintro _ ⟨⟩
  cases persistIntent <;> exact ⟨rfl, fun _ => trivial⟩

theorem isQuiet_ofRecover (pid : Pid) (ledger : ExecutionLedger)
    (snapshot : PaperMutationRecoverySnapshot) :
    IsQuiet sha (some ⟨pid, .ofRecover sha ledger snapshot⟩) := by
  rintro _ ⟨⟩
  dsimp only
  rw [Task.ofRecover]
  split <;> exact ⟨rfl, fun _ => trivial⟩

/-- The operations of an idle process on the tables change no events. -/
theorem committed_spec (sha : Sha256) (ledger : ExecutionLedger)
    (result : Except PaperMutationError (ExecutionLedger × Bool))
    (h : ∀ ledger' inserted, result = .ok (ledger', inserted) →
      ledger'.paperMutationEvents = ledger.paperMutationEvents ∧
        (ledger.WellFormed sha → ledger'.WellFormed sha)) :
    (committed ledger result).paperMutationEvents = ledger.paperMutationEvents ∧
      (ledger.WellFormed sha → (committed ledger result).WellFormed sha) := by
  rcases result with e | ⟨ledger', inserted⟩
  · exact ⟨rfl, id⟩
  · exact h ledger' inserted rfl

theorem bindAccount_events {ledger ledger' : ExecutionLedger} {account : AccountFingerprint}
    {inserted : Bool} (h : ExecutionWriter.bindAccount ledger account = .ok (ledger', inserted)) :
    ledger'.paperMutationEvents = ledger.paperMutationEvents := by
  rw [ExecutionWriter.bindAccount] at h
  split at h
  · simp only [bind_eq_ok, pure_eq_ok, Prod.mk.injEq] at h
    obtain ⟨-, -, rfl, -⟩ := h
    rfl
  · simp only [pure_eq_ok, Prod.mk.injEq] at h
    obtain ⟨rfl, -⟩ := h
    rfl

theorem saveEntry_events {ledger ledger' : ExecutionLedger} {order : SizedPaperOrder}
    {mutation : PaperMutationIntent} {inserted : Bool}
    (h : ExecutionWriter.saveEntryMutationIntent sha ledger order mutation =
      .ok (ledger', inserted)) : ledger'.paperMutationEvents = ledger.paperMutationEvents := by
  simp only [ExecutionWriter.saveEntryMutationIntent, bind_eq_ok] at h
  obtain ⟨⟨⟩, -, h⟩ := h
  split at h
  · obtain ⟨⟨⟩, -, h⟩ := bind_eq_ok.1 h
    obtain ⟨-, ⟨-, rfl, -⟩ | ⟨-, -, rfl⟩⟩ := savePaperMutationIntent_cases h <;> rfl
  · simp only [bind_eq_ok, pure_eq_ok, Prod.mk.injEq] at h
    obtain ⟨⟨saved, inserted'⟩, h, rfl, -⟩ := h
    obtain ⟨-, ⟨-, rfl, -⟩ | ⟨-, -, rfl⟩⟩ := savePaperMutationIntent_cases h <;> rfl

/-- What an action does: it is a section of a task, or a crash, or else it changes neither the
    events nor the calls, and the process is quiet before and after it. -/
theorem step_cases (hstep : w.step sha a = some w') :
    (∃ pid clock reply task, a = .advance pid clock reply ∧ w.session = some ⟨pid, task⟩ ∧
      w' = ⟨(task.advance sha clock reply w.ledger).1,
        some ⟨pid, (task.advance sha clock reply w.ledger).2⟩,
        (task.invokes sha).toList ++ w.calls⟩) ∨
    (∃ pid, a = .crash pid ∧ w' = { w with session := none }) ∨
    (w.brokerCall sha a = none ∧ IsQuiet sha w.session ∧ IsQuiet sha w'.session ∧
      w'.ledger.paperMutationEvents = w.ledger.paperMutationEvents ∧ w'.calls = w.calls ∧
      (w.ledger.WellFormed sha → w'.ledger.WellFormed sha)) := by
  cases a with
  | advance pid clock reply =>
    rw [step] at hstep
    split at hstep
    · rename_i session hsession
      split_ifs at hstep with hpid
      obtain ⟨pid', task⟩ := session
      obtain rfl : pid' = pid := hpid
      cases hstep
      exact .inl ⟨pid', clock, reply, task, rfl, hsession, rfl⟩
    · cases hstep
  | crash pid =>
    rw [step] at hstep
    split_ifs at hstep
    cases hstep
    exact .inr (.inl ⟨pid, rfl, rfl⟩)
  | acquire pid =>
    rw [step] at hstep
    split_ifs at hstep with hsession
    cases hstep
    exact .inr (.inr ⟨rfl, hsession ▸ isQuiet_none, isQuiet_idle pid, rfl, rfl, id⟩)
  | release pid =>
    rw [step] at hstep
    split_ifs at hstep with hsession
    cases hstep
    exact .inr (.inr ⟨rfl, hsession ▸ isQuiet_idle pid, isQuiet_none, rfl, rfl, id⟩)
  | bindAccount pid account =>
    rw [step] at hstep
    split_ifs at hstep with hsession
    cases hstep
    have hcommit := committed_spec sha w.ledger (ExecutionWriter.bindAccount w.ledger account)
      fun _ _ h => ⟨bindAccount_events h, fun hledger => hledger.bindAccount h⟩
    exact .inr (.inr ⟨rfl, hsession ▸ isQuiet_idle pid, hsession ▸ isQuiet_idle pid, hcommit.1, rfl,
      hcommit.2⟩)
  | write pid _ _ _ _ =>
    rw [step] at hstep
    split_ifs at hstep with hsession
    cases hstep
    exact .inr (.inr ⟨rfl, hsession ▸ isQuiet_idle pid, hsession ▸ isQuiet_idle pid, rfl, rfl,
      fun h => h.congr rfl rfl rfl⟩)
  | saveEntry pid order mutation =>
    rw [step] at hstep
    split_ifs at hstep with hsession
    cases hstep
    have hcommit := committed_spec sha w.ledger
      (ExecutionWriter.saveEntryMutationIntent sha w.ledger order mutation)
      fun _ _ h => ⟨saveEntry_events h, fun hledger => hledger.saveEntry h⟩
    exact .inr (.inr ⟨rfl, hsession ▸ isQuiet_idle pid, hsession ▸ isQuiet_idle pid, hcommit.1, rfl,
      hcommit.2⟩)
  | run pid intent persistIntent =>
    rw [step] at hstep
    split_ifs at hstep with hsession
    cases hstep
    exact .inr (.inr ⟨rfl, hsession ▸ isQuiet_idle pid, isQuiet_ofRun pid intent persistIntent, rfl,
      rfl, id⟩)
  | recover pid snapshot =>
    rw [step] at hstep
    split_ifs at hstep with hsession
    cases hstep
    exact .inr (.inr ⟨rfl, hsession ▸ isQuiet_idle pid, isQuiet_ofRecover pid w.ledger snapshot, rfl,
      rfl, id⟩)

/-- The attempt that is recorded is the one that the broker is called for next. -/
theorem isCurrent_invoking {ledger : ExecutionLedger} {intent : PaperMutationIntent} {n : ℕ}
    {eventKey : PaperMutationEventKey} {clock : DateTime}
    (hcurrent : (Task.attempting intent n).IsCurrent sha ledger) :
    (Task.invoking intent n).IsCurrent sha
      (ledger.addMutationEvent eventKey (paperMutationKey sha intent)
        (attemptedEvent intent n clock)) := by
  obtain ⟨hphase, hn⟩ := hcurrent
  have hnext : (attemptedEvent intent n clock).attemptNumber = n - 1 + 1 :=
    (Nat.sub_add_cancel hn).symm
  refine ⟨?_, hn⟩
  rw [ExecutionLedger.mutationEvents_addMutationEvent, if_pos rfl, mutationPhase_concat, hphase,
    Option.bind_some, MutationPhase.next, if_pos hnext]
  rfl

/-- Every action keeps the invariant. -/
theorem Inv.step (hinv : w.Inv sha) (hstep : w.step sha a = some w') : w'.Inv sha := by
  obtain ⟨hledger, hcurrent⟩ := hinv
  rcases step_cases hstep with ⟨pid, clock, reply, task, rfl, hsession, rfl⟩ | ⟨pid, rfl, rfl⟩ |
    ⟨-, -, hquiet, -, -, hledger'⟩
  · have htask := hcurrent _ hsession
    have hadvance : task.advance sha clock reply w.ledger =
        ((task.advance sha clock reply w.ledger).1, (task.advance sha clock reply w.ledger).2) :=
      rfl
    rcases Task.advance_cases hledger htask hadvance with
      ⟨-, hledger', -, htask'⟩ | ⟨intent, n, rfl, htask', hevent, hrule, hledger'⟩ |
      ⟨key, event, -, -, -, hevent, hrule, hledger', htask'⟩
    · refine ⟨hledger', ?_⟩
      rintro _ ⟨⟩
      exact htask'
    · refine ⟨by rw [hledger']; exact hledger.addMutationEvent hevent hrule, ?_⟩
      rintro _ ⟨⟩
      dsimp only
      rw [htask', hledger']
      exact isCurrent_invoking htask
    · refine ⟨by rw [hledger']; exact hledger.addMutationEvent hevent hrule, ?_⟩
      rintro _ ⟨⟩
      exact htask'
  · refine ⟨hledger, ?_⟩
    intro session h
    cases h
  · exact ⟨hledger' hledger, fun session h => (hquiet session h).2 _⟩

theorem inv_initial (sha : Sha256) : initial.Inv sha := by
  refine ⟨.empty sha, ?_⟩
  intro session h
  cases h

/-- The invariant holds in every reachable state. -/
theorem inv_of_reachable (h : (world sha).Reachable w) : w.Inv sha :=
  h.invariant (fun _ h => h ▸ inv_initial sha) fun _ _ _ _ hinv hstep => hinv.step hstep

/-! ## Refinement -/

/-- Whether the process is about to call the broker for a mutation. -/
def isArmed (sha : Sha256) (w : World) (key : PaperMutationKey) : Bool :=
  w.session.any fun session => (session.task.invokes sha).any (·.1 = key)

end World

/-- The phase of the register that a mutation is in. -/
def MutationPhase.register (phase : MutationPhase) (armed : Bool) : Attempt.Phase :=
  match phase.last with
  | .none => .idle phase.absent
  | .attempted => if armed then .armed (phase.absent + 1) else .pending (phase.absent + 1)
  | .ambiguous => .pending (phase.absent + 1)
  | .acknowledged | .rejected | .recoveredAcknowledged => .settled (phase.absent + 1)

/-- The attempts that had no effect, the last one first. -/
def absentAttempts (events : List PaperMutationEvent) : List ℕ :=
  ((events.filter (·.eventType = .recoveredAbsent)).map (·.attemptNumber)).reverse

theorem mem_absentAttempts {events : List PaperMutationEvent} {n : ℕ} :
    n ∈ absentAttempts events ↔
      ∃ event ∈ events, event.eventType = .recoveredAbsent ∧ event.attemptNumber = n := by
  simp [absentAttempts, and_assoc]

theorem absentAttempts_concat (events : List PaperMutationEvent) (event : PaperMutationEvent) :
    absentAttempts (events ++ [event]) =
      (if event.eventType = .recoveredAbsent then [event.attemptNumber] else []) ++
        absentAttempts events := by
  rw [absentAttempts, List.filter_append, List.map_append, List.reverse_append,
    List.filter_singleton]
  by_cases h : event.eventType = .recoveredAbsent <;> simp [h, absentAttempts]

namespace World

variable {sha : Sha256} {w w' : World} {a : Action}

/-- The register of a mutation. -/
def register (sha : Sha256) (key : PaperMutationKey) (w : World) : Attempt.Register where
  phase := ((mutationPhase (w.ledger.mutationEvents key)).getD .initial).register
    (w.isArmed sha key)
  sent := w.callsOf key
  closed := absentAttempts (w.ledger.mutationEvents key)

theorem register_congr {key : PaperMutationKey}
    (hevents : w'.ledger.mutationEvents key = w.ledger.mutationEvents key)
    (harmed : w'.isArmed sha key = w.isArmed sha key)
    (hcalls : w'.callsOf key = w.callsOf key) : w'.register sha key = w.register sha key := by
  rw [register, register, hevents, harmed, hcalls]

theorem isArmed_of_isQuiet {key : PaperMutationKey} (h : IsQuiet sha w.session) :
    w.isArmed sha key = false := by
  rw [isArmed]
  cases hsession : w.session with
  | none => rfl
  | some session => simp [(h session hsession).1]

/-- Where a process is about to call the broker for a mutation, its attempt is recorded and has
    no outcome. -/
theorem Inv.phase_of_isArmed (hinv : w.Inv sha) {key : PaperMutationKey}
    (h : w.isArmed sha key = true) :
    ∃ n, mutationPhase (w.ledger.mutationEvents key) = some ⟨n, .attempted⟩ := by
  rw [isArmed, Option.any_eq_true] at h
  obtain ⟨⟨pid, task⟩, hsession, h⟩ := h
  have hcurrent := hinv.isCurrent _ hsession
  cases task with
  | invoking intent n =>
    obtain rfl : paperMutationKey sha intent = key := by simpa [Task.invokes] using h
    exact ⟨n - 1, hcurrent.1⟩
  | _ => simp [Task.invokes] at h

/-- The register after an event of the mutation. -/
theorem register_addMutationEvent {key : PaperMutationKey} {event : PaperMutationEvent}
    {eventKey : PaperMutationEventKey} {phase phase' : MutationPhase}
    (hphase : mutationPhase (w.ledger.mutationEvents key) = some phase)
    (hnext : phase.next event = some phase')
    (hledger : w'.ledger = w.ledger.addMutationEvent eventKey key event)
    (hcalls : w'.callsOf key = w.callsOf key) :
    w'.register sha key = ⟨phase'.register (w'.isArmed sha key), w.callsOf key,
      (if event.eventType = .recoveredAbsent then [event.attemptNumber] else []) ++
        absentAttempts (w.ledger.mutationEvents key)⟩ := by
  rw [register, hledger, hcalls, ExecutionLedger.mutationEvents_addMutationEvent, if_pos rfl,
    mutationPhase_concat, hphase, Option.bind_some, hnext, absentAttempts_concat]
  rfl

/-- The recording of an attempt arms the register. -/
theorem register_attempted {key : PaperMutationKey} {event : PaperMutationEvent}
    {eventKey : PaperMutationEventKey} {phase phase' : MutationPhase}
    (hphase : mutationPhase (w.ledger.mutationEvents key) = some phase)
    (hnext : phase.next event = some phase') (htype : event.eventType = .attempted)
    (hledger : w'.ledger = w.ledger.addMutationEvent eventKey key event)
    (hcalls : w'.callsOf key = w.callsOf key) (harmed : w'.isArmed sha key = true) :
    Attempt.step (w.register sha key) .arm = some (w'.register sha key) := by
  rw [register_addMutationEvent hphase hnext hledger hcalls, htype, harmed, register, hphase]
  obtain ⟨absent, last⟩ := phase
  rw [MutationPhase.next, htype] at hnext
  split_ifs at hnext
  cases last <;> simp [MutationPhase.advance] at hnext
  subst hnext
  rfl

/-- The recording of an outcome or of a verdict settles the register, or closes its attempt, or
    leaves it pending. -/
theorem register_outcome {key : PaperMutationKey} {event : PaperMutationEvent}
    {eventKey : PaperMutationEventKey} {phase phase' : MutationPhase}
    (hphase : mutationPhase (w.ledger.mutationEvents key) = some phase)
    (hnext : phase.next event = some phase') (htype : event.eventType ≠ .attempted)
    (hledger : w'.ledger = w.ledger.addMutationEvent eventKey key event)
    (hcalls : w'.callsOf key = w.callsOf key) (hbefore : w.isArmed sha key = false) :
    w'.register sha key = w.register sha key ∨
      ∃ act, Attempt.step (w.register sha key) act = some (w'.register sha key) := by
  rw [register_addMutationEvent hphase hnext hledger hcalls]
  rw [register, hphase, hbefore]
  obtain ⟨absent, last⟩ := phase
  rw [MutationPhase.next] at hnext
  split_ifs at hnext with hattempt
  cases last <;> cases hevent : event.eventType <;>
    simp only [MutationPhase.advance, hevent, reduceCtorEq, Option.some.injEq] at hnext <;>
    subst hnext
  · exact absurd hevent htype
  · exact .inr ⟨.settle, rfl⟩
  · exact .inr ⟨.settle, rfl⟩
  · exact .inl rfl
  · exact .inr ⟨.settle, rfl⟩
  · refine .inr ⟨.close, ?_⟩
    rw [hattempt]
    rfl

theorem isArmed_eq {pid : Pid} {task : Task} (hsession : w.session = some ⟨pid, task⟩)
    (key : PaperMutationKey) : w.isArmed sha key = (task.invokes sha).any (·.1 = key) := by
  rw [isArmed, hsession, Option.any_some]

/-- The calling of the broker sends the attempt that is armed. -/
theorem register_send (hinv : w.Inv sha) {pid : Pid} {intent : PaperMutationIntent} {n : ℕ}
    (hsession : w.session = some ⟨pid, .invoking intent n⟩)
    (hledger : w'.ledger = w.ledger)
    (hcalls : w'.calls = (paperMutationKey sha intent, n) :: w.calls)
    (harmed : w'.isArmed sha (paperMutationKey sha intent) = false) :
    Attempt.step (w.register sha (paperMutationKey sha intent)) .send =
      some (w'.register sha (paperMutationKey sha intent)) := by
  obtain ⟨hphase, hn⟩ := hinv.isCurrent _ hsession
  have hbefore : w.isArmed sha (paperMutationKey sha intent) = true := by
    simp [isArmed_eq hsession, Task.invokes]
  have hsent : w'.callsOf (paperMutationKey sha intent) =
      (n - 1 + 1) :: w.callsOf (paperMutationKey sha intent) := by
    simp [callsOf, hcalls, Nat.sub_add_cancel hn]
  simp only [register, hledger, hphase, hbefore, harmed, hsent, Option.getD_some]
  rfl

/-- A section of a task is an act on the register of a mutation, or leaves it as it is. -/
theorem register_advance (hinv : w.Inv sha) {pid : Pid} {task task' : Task} {clock : DateTime}
    {reply : BrokerReply} {ledger' : ExecutionLedger} (hsession : w.session = some ⟨pid, task⟩)
    (hadvance : task.advance sha clock reply w.ledger = (ledger', task'))
    (key : PaperMutationKey) (hw' : w' = ⟨ledger', some ⟨pid, task'⟩,
      (task.invokes sha).toList ++ w.calls⟩) :
    w'.register sha key = w.register sha key ∨
      ∃ act, Attempt.step (w.register sha key) act = some (w'.register sha key) := by
  have hsession' : w'.session = some ⟨pid, task'⟩ := by rw [hw']
  have hledger' : w'.ledger = ledger' := by rw [hw']
  have hcalls' : w'.calls = (task.invokes sha).toList ++ w.calls := by rw [hw']
  rcases Task.advance_cases hinv.wellFormed (hinv.isCurrent _ hsession) hadvance with
    ⟨hevents, -, hinvokes', -⟩ | ⟨intent, n, rfl, rfl, -, hrule, hledger⟩ |
    ⟨key', event, hinvokes, hinvokes', htype, -, hrule, hledger, -⟩
  · have harmed' : w'.isArmed sha key = false := by simp [isArmed_eq hsession', hinvokes']
    have hsame : w'.ledger.mutationEvents key = w.ledger.mutationEvents key := by
      rw [ExecutionLedger.mutationEvents, hledger', hevents, ExecutionLedger.mutationEvents]
    by_cases harmed : w.isArmed sha key = true
    · -- The only section that starts armed is the one that calls the broker.
      rw [isArmed_eq hsession] at harmed
      cases task with
      | invoking intent n =>
        cases hadvance
        obtain rfl : paperMutationKey sha intent = key := by simpa [Task.invokes] using harmed
        exact .inr ⟨.send, register_send hinv hsession hledger' hcalls' harmed'⟩
      | _ => simp [Task.invokes] at harmed
    · rw [Bool.not_eq_true] at harmed
      refine .inl (register_congr hsame (harmed'.trans harmed.symm) ?_)
      rw [callsOf, hcalls', List.filter_append, callsOf]
      rw [isArmed_eq hsession] at harmed
      cases hinvokes : task.invokes sha with
      | none => simp
      | some call => simp_all
  · have hcalls : w'.calls = w.calls := hcalls'
    have hbefore : ∀ key, w.isArmed sha key = false := fun key => by
      simp [isArmed_eq hsession, Task.invokes]
    by_cases hkey : paperMutationKey sha intent = key
    · subst hkey
      obtain ⟨phase, hphase⟩ := hinv.wellFormed.exists_phase (paperMutationKey sha intent)
      obtain ⟨phase', hnext⟩ := Option.isSome_iff_exists.1
        ((requireMutationTransition_iff hphase _).1 hrule)
      refine .inr ⟨.arm, register_attempted hphase hnext rfl (hledger'.trans hledger) ?_ ?_⟩
      · rw [callsOf, hcalls, callsOf]
      · simp [isArmed_eq hsession', Task.invokes]
    · refine .inl (register_congr ?_ ?_ ?_)
      · rw [hledger', hledger, ExecutionLedger.mutationEvents_addMutationEvent, if_neg hkey,
          List.append_nil]
      · simp [hbefore, isArmed_eq hsession', Task.invokes, hkey]
      · rw [callsOf, hcalls, callsOf]
  · have hcalls : w'.callsOf key = w.callsOf key := by
      rw [callsOf, hcalls', hinvokes, callsOf]
      rfl
    have hbefore : w.isArmed sha key = false := by simp [isArmed_eq hsession, hinvokes]
    have hafter : w'.isArmed sha key = false := by simp [isArmed_eq hsession', hinvokes']
    by_cases hkey : key' = key
    · subst hkey
      obtain ⟨phase, hphase⟩ := hinv.wellFormed.exists_phase key'
      obtain ⟨phase', hnext⟩ := Option.isSome_iff_exists.1
        ((requireMutationTransition_iff hphase _).1 hrule)
      exact register_outcome hphase hnext htype (hledger'.trans hledger) hcalls hbefore
    · refine .inl (register_congr ?_ (hafter.trans hbefore.symm) hcalls)
      rw [hledger', hledger, ExecutionLedger.mutationEvents_addMutationEvent, if_neg hkey,
        List.append_nil]

/-- Every action is an act on the register of a mutation, or leaves it as it is. -/
theorem register_step (hinv : w.Inv sha) (hstep : w.step sha a = some w')
    (key : PaperMutationKey) : w'.register sha key = w.register sha key ∨
      ∃ act, Attempt.step (w.register sha key) act = some (w'.register sha key) := by
  rcases step_cases hstep with ⟨pid, clock, reply, task, rfl, hsession, rfl⟩ | ⟨pid, rfl, rfl⟩ |
    ⟨-, hquiet, hquiet', hevents, hcalls, -⟩
  · exact register_advance hinv hsession rfl key rfl
  · by_cases harmed : w.isArmed sha key = true
    · -- The process is lost after it recorded an attempt, and before it called the broker.
      obtain ⟨n, hphase⟩ := hinv.phase_of_isArmed harmed
      refine .inr ⟨.drop, ?_⟩
      simp only [register, hphase, harmed, Option.getD_some]
      rfl
    · exact .inl (register_congr rfl (by rw [Bool.not_eq_true] at harmed; rw [harmed]; rfl) rfl)
  · refine .inl (register_congr ?_ ?_ ?_)
    · rw [ExecutionLedger.mutationEvents, hevents, ExecutionLedger.mutationEvents]
    · rw [isArmed_of_isQuiet hquiet, isArmed_of_isQuiet hquiet']
    · rw [callsOf, hcalls, callsOf]

/-- The processes refine a register of attempts for every mutation. -/
def refinement (sha : Sha256) (key : PaperMutationKey) :
    (world sha).Refinement Attempt.system where
  abs := register sha key
  init_abs := by
    rintro _ rfl
    rfl
  step_abs _ _ _ hs hstep := register_step (inv_of_reachable hs) hstep key

/-! ## Calls of the broker -/

/-- The calls grow by the one that an action makes. -/
theorem calls_step (hstep : w.step sha a = some w') :
    w'.calls = (w.brokerCall sha a).toList ++ w.calls := by
  rcases step_cases hstep with ⟨pid, clock, reply, task, rfl, hsession, rfl⟩ | ⟨pid, rfl, rfl⟩ |
    ⟨hcall, -, -, -, hcalls, -⟩
  · rw [brokerCall, hsession, Option.bind_some]
  · rfl
  · rw [hcall, hcalls]
    rfl

/-- The calls are distinct if those of every mutation are. -/
theorem nodup_of_callsOf {calls : List (PaperMutationKey × ℕ)}
    (h : ∀ key, ((calls.filter (·.1 = key)).map (·.2)).Nodup) : calls.Nodup := by
  induction calls with
  | nil => exact .nil
  | cons call calls ih =>
    refine List.nodup_cons.2 ⟨fun hmem => ?_, ih fun key => ?_⟩
    · have hcall := h call.1
      rw [List.filter_cons_of_pos (by simp), List.map_cons, List.nodup_cons] at hcall
      exact hcall.1 (List.mem_map_of_mem (List.mem_filter.2 ⟨hmem, by simp⟩))
    · have hkey := h key
      rw [List.filter_cons] at hkey
      split_ifs at hkey with hcall
      · exact (List.nodup_cons.1 hkey).2
      · exact hkey

end World

/-- Whether an event of a type is recorded for an attempt. -/
def IsRecorded (events : List PaperMutationEvent) (type : PaperMutationEventType) (n : ℕ) : Prop :=
  ∃ event ∈ events, event.eventType = type ∧ event.attemptNumber = n

/-- Every attempt of a history, up to the latest one, is recorded before anything else of it. -/
theorem isRecorded_attempted {events : List PaperMutationEvent} {phase : MutationPhase}
    (hphase : mutationPhase events = some phase) {n : ℕ} (hn : 0 < n) (hle : n ≤ phase.current) :
    IsRecorded events .attempted n := by
  have htypes := map_eventType_sameAttempt hphase n
  have hmem : .attempted ∈ phase.types n := by
    rw [MutationPhase.types]
    rw [MutationPhase.current] at hle
    split_ifs at hle ⊢ <;> first | omega | skip
    all_goals cases hlast : phase.last <;> simp_all [LastAttempt.types, MutationPhase.absentTypes]
  rw [← htypes, List.mem_map] at hmem
  obtain ⟨event, hevent, htype⟩ := hmem
  obtain ⟨hevent, hattempt⟩ := List.mem_filter.1 hevent
  exact ⟨event, hevent, htype, by simpa using hattempt⟩

/-- Once an attempt ends with an event that says what became of the mutation, the register of the
    mutation is settled. -/
theorem isSettled_of_isFinal {events : List PaperMutationEvent} {phase : MutationPhase}
    (hphase : mutationPhase events = some phase) {n : ℕ} {event : PaperMutationEvent}
    (hlast : (sameAttempt events n).getLast? = some event) (hfinal : event.eventType.isFinal) :
    ∀ armed, ∃ k, phase.register armed = .settled k := by
  have htypes := congrArg List.getLast? (map_eventType_sameAttempt hphase n)
  rw [List.getLast?_map, hlast, Option.map_some] at htypes
  intro armed
  rw [MutationPhase.types] at htypes
  split_ifs at htypes
  · cases htypes
  · cases hkind : phase.last <;> rw [hkind] at htypes
    case none => cases htypes
    case attempted | ambiguous =>
      obtain htype : event.eventType = _ := Option.some.inj htypes
      rw [htype] at hfinal
      cases hfinal
    case acknowledged | rejected | recoveredAcknowledged =>
      exact ⟨phase.absent + 1, by rw [MutationPhase.register, hkind]⟩
  · rw [show event.eventType = .recoveredAbsent by simpa [MutationPhase.absentTypes] using htypes]
      at hfinal
    cases hfinal

/-- Where an action calls the broker, it does so for the attempt that the register has armed. -/
theorem World.armed_of_brokerCall {sha : Sha256} {w w' : World} {a : Action} (hinv : w.Inv sha)
    {key : PaperMutationKey} {n : ℕ} (hstep : w.step sha a = some w')
    (hcall : w.brokerCall sha a = some (key, n)) :
    (w.register sha key).phase = .armed n ∧
      IsRecorded (w.ledger.mutationEvents key) .attempted n := by
  rcases World.step_cases hstep with ⟨pid, clock, reply, task, rfl, hsession, -⟩ | ⟨pid, rfl, -⟩ |
    ⟨hnone, -⟩
  · rw [World.brokerCall, hsession, Option.bind_some] at hcall
    cases task with
    | invoking intent m =>
      cases hcall
      obtain ⟨hphase, hn⟩ := hinv.isCurrent _ hsession
      have harmed : w.isArmed sha (paperMutationKey sha intent) = true := by
        simp [World.isArmed_eq hsession, Task.invokes]
      refine ⟨?_, isRecorded_attempted hphase hn (Nat.sub_add_cancel hn).ge⟩
      rw [World.register, hphase, harmed]
      exact congrArg Attempt.Phase.armed (Nat.sub_add_cancel hn)
    | _ => cases hcall
  · cases hcall
  · rw [hnone] at hcall
    cases hcall

/-- The broker is called at most once for every attempt of a mutation, after the attempt is
    recorded and all those before it were found to have had no effect, and it is not called any
    more once it is known what became of the mutation. -/
theorem broker_called_at_most_once (sha : Sha256) {w : World} (hw : (world sha).Reachable w) :
    w.calls.Nodup ∧
    (∀ key n, (key, n) ∈ w.calls →
      IsRecorded (w.ledger.mutationEvents key) .attempted n ∧
      ∀ k, 0 < k → k < n → IsRecorded (w.ledger.mutationEvents key) .recoveredAbsent k) ∧
    (∀ a w' key n, w.step sha a = some w' → w.brokerCall sha a = some (key, n) →
      (key, n) ∉ w.calls ∧
      IsRecorded (w.ledger.mutationEvents key) .attempted n ∧
      ∀ k, 0 < k → k < n → IsRecorded (w.ledger.mutationEvents key) .recoveredAbsent k) ∧
    (∀ key n event, (sameAttempt (w.ledger.mutationEvents key) n).getLast? = some event →
      event.eventType.isFinal →
      ∀ as w', (world sha).Run w as w' → w'.callsOf key = w.callsOf key) := by
  have hinv := World.inv_of_reachable hw
  have hregister (key : PaperMutationKey) : (w.register sha key).WellFormed :=
    Attempt.Register.wellFormed_of_reachable ((World.refinement sha key).reachable hw)
  refine ⟨World.nodup_of_callsOf fun key => (hregister key).nodup, fun key n hmem => ?_,
    fun a w' key n hstep hcall => ?_, fun key n event hlast hfinal as w' hrun => ?_⟩
  · obtain ⟨phase, hphase⟩ := hinv.wellFormed.exists_phase key
    have hsent : n ∈ (w.register sha key).sent := World.mem_callsOf.2 hmem
    have hle := (hregister key).sent_le n hsent
    have hcount : (w.register sha key).phase.count = phase.current := by
      rw [World.register, hphase, Option.getD_some, MutationPhase.register, MutationPhase.current]
      cases hlast : phase.last <;> simp [Attempt.Phase.count]
      split_ifs <;> rfl
    refine ⟨isRecorded_attempted hphase ((hregister key).sent_pos n hsent) (hcount ▸ hle),
      fun k hk hkn => ?_⟩
    exact mem_absentAttempts.1 ((hregister key).closed_of_lt k hk (hkn.trans_le hle))
  · obtain ⟨harmed, hrecorded⟩ := World.armed_of_brokerCall hinv hstep hcall
    refine ⟨fun hmem => (hregister key).armed_fresh n harmed (World.mem_callsOf.2 hmem), hrecorded,
      fun k hk hkn => ?_⟩
    refine mem_absentAttempts.1 ((hregister key).closed_of_lt k hk ?_)
    rw [harmed]
    exact hkn
  · obtain ⟨phase, hphase⟩ := hinv.wellFormed.exists_phase key
    obtain ⟨k, hk⟩ := isSettled_of_isFinal hphase hlast hfinal (w.isArmed sha key)
    have hsettled : (w.register sha key).phase = .settled k := by
      rw [World.register, hphase, Option.getD_some, hk]
    obtain ⟨ds, hds⟩ := (World.refinement sha key).run hw hrun
    exact congrArg Attempt.Register.sent (Attempt.run_settled hsettled hds)

namespace EntrySample

def mutationKey : PaperMutationKey := paperMutationKey sha mutation

/-- A process saves an entry, records an attempt of it, and is about to call the broker. -/
def armed : List Action :=
  [.acquire 1, .bindAccount 1 fingerprint, .saveEntry 1 order mutation, .run 1 mutation false,
    .advance 1 attemptedAt .otherError, .advance 1 attemptedAt .otherError]

/-- The ledger with an event after the one that records the attempt. -/
def ledger (outcome : Option PaperMutationEvent) : ExecutionLedger where
  accountBinding := some fingerprint
  orderIntents := [intentValues intent 10]
  paperMutationIntents := [⟨mutationKey, mutation⟩]
  paperMutationEvents :=
    ⟨1, paperMutationEventKey sha mutationKey attempted, mutationKey, attempted⟩ ::
      (outcome.map fun event =>
        ⟨2, paperMutationEventKey sha mutationKey event, mutationKey, event⟩).toList

/-- The broker accepts the order. -/
def reply : BrokerReply := .receipt (.entryOrder "request-1" attemptedAt brokerOrder)

def acknowledgement : PaperMutationEvent :=
  acknowledgedMutationEvent sha (.entryOrder "request-1" attemptedAt brokerOrder) 1 attemptedAt

def acknowledged : World := ⟨ledger (some acknowledgement), some ⟨1, .idle⟩, [(mutationKey, 1)]⟩

theorem reachable_acknowledged : (world sha).Reachable acknowledged :=
  .of_replay (armed ++ [.advance 1 attemptedAt reply, .advance 1 attemptedAt reply])
    (by decide +kernel)

/-- The broker cannot be reached. -/
def ambiguity : PaperMutationEvent := ambiguousMutationEvent sha "transport_error" 1 attemptedAt

def ambiguous : World := ⟨ledger (some ambiguity), some ⟨1, .idle⟩, [(mutationKey, 1)]⟩

theorem reachable_ambiguous : (world sha).Reachable ambiguous :=
  .of_replay (armed ++
    [.advance 1 attemptedAt .transportError, .advance 1 attemptedAt .transportError])
    (by decide +kernel)

/-- The process crashes before it calls the broker. -/
def crashed : World := ⟨ledger none, none, []⟩

theorem reachable_crashed : (world sha).Reachable crashed :=
  .of_replay (armed ++ [.crash 1]) (by decide +kernel)

end EntrySample

/-- The entry that the broker accepted was sent once, after its attempt was recorded, and it is
    not sent again. -/
theorem broker_called_once_for_entry :
    IsRecorded (EntrySample.acknowledged.ledger.mutationEvents EntrySample.mutationKey)
      .attempted 1 ∧
    ∀ as w', (world EntrySample.sha).Run EntrySample.acknowledged as w' →
      w'.callsOf EntrySample.mutationKey = [1] := by
  obtain ⟨-, hcalls, -, hsettled⟩ :=
    broker_called_at_most_once EntrySample.sha EntrySample.reachable_acknowledged
  refine ⟨(hcalls _ 1 (List.mem_singleton_self _)).1, fun as w' hrun => ?_⟩
  exact hsettled EntrySample.mutationKey 1 EntrySample.acknowledgement (by decide) rfl as w' hrun

/-! ## Recovery of the reachable ledgers -/

end TradingAgent
