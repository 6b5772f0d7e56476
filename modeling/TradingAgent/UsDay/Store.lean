import TradingAgent.Library.Transition
import TradingAgent.UsDay.Directory

/-!
# The thesis store and its processes

The store publishes theses and their changes, each of them in a file of its own
(`UsDayThesisStore.publishThesis`, `UsDayThesisStore.publishChange`).

* A process does a call in sections (`Phase`, `advance`), between which other processes go on. A
  section is done under the exclusive lock of the store, or is a single call of the file system.
* A change is checked and published under the lock of its chain, that one process has at a time.
* A process may crash after any of its writes (`Action.crash`).

What is left of a call in a phase is `Phase.finish`: it is the rest of the call (`finish_eq`).
-/

namespace TradingAgent.UsDay

open Transition
open Writing (read raise)

/-! ## The calls -/

namespace UsDayThesisStore

/-- A file is created, unless it is there: `publish_private_immutable_text`. -/
def publishThesisFile (thesis : UsDayTradeThesis) : DiskWriting Bool := do
  match ← read (·.theses thesis.thesisId) with
  | some existing => if existing = thesis then return false else raise .conflict
  | none =>
    Writing.commit (.publishThesis thesis)
    return true

def publishChangeFile (change : UsDayThesisChange) : DiskWriting Bool := do
  match ← read fun disk => (disk.changes change.thesisId).find? (·.eventId = change.eventId) with
  | some existing => if existing = change then return false else raise .conflict
  | none =>
    Writing.commit (.publishChange change)
    return true

variable (store : StoreIdentity)

/-- The method `thesis`. -/
def thesis (thesisId : String) : DiskWriting UsDayTradeThesis := do
  prepareBoundDirectory store .theses false
  match ← read (·.theses thesisId) with
  | some thesis => return thesis
  | none => raise .thesisMissing

/-- The method `changes`. -/
def changes (thesisId : String) : DiskWriting (List UsDayThesisChange) := do
  prepareBoundDirectory store (.changesOf thesisId) false
  if ← read fun disk => (disk.directories (.changesOf thesisId)).isNone then return []
  else
    let files ← read (·.changes thesisId)
    let thesis ← thesis store thesisId
    match orderChanges thesis files with
    | .ok ordered => return ordered
    | .error e => raise e

def publishThesis (thesis : UsDayTradeThesis) : DiskWriting Bool := do
  prepareBoundDirectory store .theses true
  publishThesisFile thesis

/-- The method `_publish` for a change. -/
def publishNext (change : UsDayThesisChange) : DiskWriting Bool := do
  prepareBoundDirectory store (.changesOf change.thesisId) true
  publishChangeFile change

/-- The rest of `_publish_change_locked`, once the thesis is read. -/
def publishAfter (thesis : UsDayTradeThesis) (change : UsDayThesisChange) : DiskWriting Bool := do
  let prior ← changes store change.thesisId
  match checkChange thesis prior change with
  | .error e => raise e
  | .ok false => return false
  | .ok true => publishNext store change

/-- The method `_publish_change_locked`. -/
def publishChangeLocked (change : UsDayThesisChange) : DiskWriting Bool := do
  let thesis ← thesis store change.thesisId
  publishAfter store thesis change

/-- The method `publish_change`: the directory is prepared before the chain is locked. -/
def publishChange (change : UsDayThesisChange) : DiskWriting Bool := do
  prepareBoundDirectory store (.changesOf change.thesisId) true
  publishChangeLocked store change

end UsDayThesisStore

open UsDayThesisStore

inductive StoreCall
  | publishThesis (thesis : UsDayTradeThesis)
  | publishChange (change : UsDayThesisChange)
  deriving DecidableEq, Repr

def StoreCall.run (store : StoreIdentity) : StoreCall → DiskWriting Bool
  | .publishThesis thesis => UsDayThesisStore.publishThesis store thesis
  | .publishChange change => UsDayThesisStore.publishChange store change

/-- What is validated of the value that is published, by its type. -/
def StoreCall.isValid (sha : Sha256) : StoreCall → Bool
  | .publishThesis thesis => thesis.validateThesis sha
  | .publishChange change => change.validateChange sha

/-- The text that the identity of the value is made of. -/
def StoreCall.text : StoreCall → List JsonAtom
  | .publishThesis thesis => thesis.payload
  | .publishChange change => change.payload

/-! ## Processes -/

/-- What a process does next. -/
inductive Phase
  | closed
  | opening (token : String)
  | opened (store : StoreIdentity)
  | preparesTheses (store : StoreIdentity) (thesis : UsDayTradeThesis)
  | publishesThesis (store : StoreIdentity) (thesis : UsDayTradeThesis)
  | preparesChain (store : StoreIdentity) (change : UsDayThesisChange)
  | awaitsChain (store : StoreIdentity) (change : UsDayThesisChange)
  | readsThesis (store : StoreIdentity) (change : UsDayThesisChange)
  | readsChanges (store : StoreIdentity) (change : UsDayThesisChange) (thesis : UsDayTradeThesis)
  | preparesNext (store : StoreIdentity) (change : UsDayThesisChange)
  | publishesChange (store : StoreIdentity) (change : UsDayThesisChange)
  deriving DecidableEq, Repr

namespace Phase

/-- The store that a process has opened. -/
def store? : Phase → Option StoreIdentity
  | closed | opening _ => none
  | opened store | preparesTheses store _ | publishesThesis store _ | preparesChain store _
  | awaitsChain store _ | readsThesis store _ | readsChanges store _ _ | preparesNext store _
  | publishesChange store _ => some store

/-- The call that a process does. -/
def call? : Phase → Option StoreCall
  | closed | opening _ | opened _ => none
  | preparesTheses _ thesis | publishesThesis _ thesis => some (.publishThesis thesis)
  | preparesChain _ change | awaitsChain _ change | readsThesis _ change
  | readsChanges _ change _ | preparesNext _ change | publishesChange _ change =>
    some (.publishChange change)

/-- The thesis whose chain a process has locked. -/
def locked? : Phase → Option String
  | readsThesis _ change | readsChanges _ change _ | preparesNext _ change
  | publishesChange _ change => some change.thesisId
  | _ => none

/-- What is left of a call. -/
def finish : Phase → DiskWriting Bool
  | closed | opened _ => pure true
  | opening token => do
    let _ ← openStore token
    return true
  | preparesTheses store thesis => UsDayThesisStore.publishThesis store thesis
  | publishesThesis _ thesis => publishThesisFile thesis
  | preparesChain store change => UsDayThesisStore.publishChange store change
  | awaitsChain store change | readsThesis store change => publishChangeLocked store change
  | readsChanges store change thesis => publishAfter store thesis change
  | preparesNext store change => publishNext store change
  | publishesChange _ change => publishChangeFile change

end Phase

/-- The next section of a process: the phase after it, and what its call returns, if it does. -/
def advance : Phase → DiskWriting (Phase × Option Bool)
  | .closed => return (.closed, none)
  | .opened store => return (.opened store, none)
  | .opening token => do
    let store ← openStore token
    return (.opened store, some true)
  | .preparesTheses store thesis => do
    prepareBoundDirectory store .theses true
    return (.publishesThesis store thesis, none)
  | .publishesThesis store thesis => do
    let published ← publishThesisFile thesis
    return (.opened store, some published)
  | .preparesChain store change => do
    prepareBoundDirectory store (.changesOf change.thesisId) true
    return (.awaitsChain store change, none)
  | .awaitsChain store change => return (.readsThesis store change, none)
  | .readsThesis store change => do
    let thesis ← thesis store change.thesisId
    return (.readsChanges store change thesis, none)
  | .readsChanges store change thesis => do
    let prior ← changes store change.thesisId
    match checkChange thesis prior change with
    | .error e => raise e
    | .ok false => return (.opened store, some false)
    | .ok true => return (.preparesNext store change, none)
  | .preparesNext store change => do
    prepareBoundDirectory store (.changesOf change.thesisId) true
    return (.publishesChange store change, none)
  | .publishesChange store change => do
    let published ← publishChangeFile change
    return (.opened store, some published)

/-- The phase of a process whose call raises an error. -/
def Phase.failed (phase : Phase) : Phase :=
  match phase.store? with
  | some store => .opened store
  | none => .closed

/-! ## The system -/

structure StoreWorld where
  disk : Disk := {}
  phases : ℕ → Phase := fun _ => .closed

inductive Action
  | openStore (pid : ℕ) (token : String)
  | call (pid : ℕ) (call : StoreCall)
  | advance (pid : ℕ)
  /-- A process crashes after a number of the writes of its next section. -/
  | crash (pid : ℕ) (writes : ℕ)
  deriving DecidableEq, Repr

/-- The first phase of a call. -/
def StoreCall.start (store : StoreIdentity) : StoreCall → Phase
  | .publishThesis thesis => .preparesTheses store thesis
  | .publishChange change => .preparesChain store change

/-- The disk after some of the writes of a section. -/
def Disk.after (disk : Disk) (phase : Phase) (writes : ℕ) : Disk :=
  ((advance phase disk).1.take writes).foldl Disk.write disk

namespace StoreWorld

/-- The effect of an action, where it is possible. -/
def step (world : StoreWorld) : Action → Option StoreWorld
  | .openStore pid token =>
    if world.phases pid = .closed then
      some { world with phases := Function.update world.phases pid (.opening token) }
    else none
  | .call pid call =>
    match world.phases pid with
    | .opened store =>
      some { world with phases := Function.update world.phases pid (call.start store) }
    | _ => none
  | .advance pid =>
    let phase := world.phases pid
    some {
      disk := (UsDay.advance phase).after world.disk
      phases := Function.update world.phases pid <|
        match (UsDay.advance phase world.disk).2 with
        | .ok (next, _) => next
        | .error _ => phase.failed }
  | .crash pid writes =>
    some {
      disk := world.disk.after (world.phases pid) writes
      phases := Function.update world.phases pid .closed }

/-- Whether an action is allowed: a chain is locked by one process, and what is published is valid,
    with a text among given ones. -/
def allows (sha : Sha256) (texts : Set (List JsonAtom)) (world : StoreWorld) : Action → Prop
  | .openStore _ _ | .crash _ _ => True
  | .call _ call => call.isValid sha = true ∧ call.text ∈ texts
  | .advance pid =>
    ∀ store change, world.phases pid = .awaitsChain store change →
      ∀ other, (world.phases other).locked? ≠ some change.thesisId

end StoreWorld

/-- Processes and their store, from where there is none. -/
def storeSystem (sha : Sha256) (texts : Set (List JsonAtom)) : System StoreWorld Action where
  init world := world = {}
  step world action next := world.allows sha texts action ∧ world.step action = some next

/-- The action is not a crash right after a directory was created that is not bound yet. -/
def Action.isClean (world : StoreWorld) : Action → Bool
  | .crash pid writes => ¬ isTorn ((UsDay.advance (world.phases pid) world.disk).1.take writes)
  | .openStore _ _ | .call _ _ | .advance _ => true

/-- The runs without such crashes. -/
def cleanSystem (sha : Sha256) (texts : Set (List JsonAtom)) : System StoreWorld Action where
  init world := world = {}
  step world action next :=
    (storeSystem sha texts).step world action next ∧ action.isClean world = true

/-! ## What is left of a call -/

/-- What a process does after a section. -/
def finishAfter : Phase × Option Bool → DiskWriting Bool
  | (_, some returned) => return returned
  | (next, none) => next.finish

/-- The sections of a call are what the call does. -/
theorem finish_eq {phase : Phase} (h : phase ≠ .closed) (h' : ∀ store, phase ≠ .opened store)
    (disk : Disk) : phase.finish disk = (advance phase >>= finishAfter) disk := by
  cases phase with
  | closed => exact absurd rfl h
  | opened store => exact absurd rfl (h' store)
  | opening token =>
    rw [advance, Writing.bind_assoc]
    rfl
  | preparesTheses store thesis =>
    rw [advance, Writing.bind_assoc]
    rfl
  | publishesThesis store thesis => exact ((Writing.bind_assoc _).trans Writing.bind_pure_self).symm
  | preparesChain store change =>
    rw [advance, Writing.bind_assoc]
    rfl
  | awaitsChain store change => rfl
  | readsThesis store change =>
    rw [advance, Writing.bind_assoc]
    rfl
  | readsChanges store change thesis =>
    -- The check of the change goes either way.
    rw [advance, Writing.bind_assoc]
    refine congrArg (fun f => (changes store change.thesisId >>= f) disk) (funext fun prior => ?_)
    rcases checkChange thesis prior change with e | ⟨_ | _⟩ <;> rfl
  | preparesNext store change =>
    rw [advance, Writing.bind_assoc]
    rfl
  | publishesChange store change => exact ((Writing.bind_assoc _).trans Writing.bind_pure_self).symm

end TradingAgent.UsDay
