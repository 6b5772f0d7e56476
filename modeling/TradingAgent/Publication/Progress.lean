import TradingAgent.Publication.Protocol

/-!
# No call waits for ever

A call takes one lock at most, and takes it before it changes anything (`locksOnce_program`). So a
process that holds a lock never waits for one, and while any call runs, one of them can go on
(`Proceeds.exists_step`). As the programs are finite, each call comes to its end unless its process does.
-/

namespace TradingAgent

open Interference FileM

def FsCall.IsLock : FsCall → Prop
  | lock _ => True
  | _ => False

/-- A program that takes no lock. -/
abbrev LockFree {α : Type} (x : FileM α) : Prop := x.run.Calls (¬ FsCall.IsLock ·)

/-- A program that takes one lock at most. -/
def LocksOnce {α : Type} : FileProgram α → Prop
  | .pure _ => True
  | .call (.lock _) next => ∀ r, (next r).Calls (¬ FsCall.IsLock ·)
  | .call _ next => ∀ r, LocksOnce (next r)

/-! ## The programs of the source -/

section

variable {α β : Type}

theorem lockFree_pure (a : α) : LockFree (pure a) := trivial

theorem lockFree_throw (e : FsError) : LockFree (throw e : FileM α) := trivial

theorem lockFree_call {q : FsCall} (hq : ¬ q.IsLock) (g : q.Response → Except FsError α) :
    LockFree (ExceptT.mk (.call q fun r => .pure (g r))) := ⟨hq, fun _ => trivial⟩

theorem lockFree_ite {p : Prop} [Decidable p] {x y : FileM α} (hx : LockFree x)
    (hy : LockFree y) : LockFree (if p then x else y) := by
  split_ifs
  · exact hx
  · exact hy

theorem lockFree_bind {x : FileM α} {f : α → FileM β} (hx : LockFree x)
    (hf : ∀ a, LockFree (f a)) : LockFree (x >>= f) := by
  refine Program.calls_bind hx ?_
  rintro (e | a)
  · exact lockFree_throw e
  · exact hf a

theorem lockFree_tryExcept {x handler : FileM α} {error : FsError} (hx : LockFree x)
    (hhandler : LockFree handler) : LockFree (tryExcept x error handler) := by
  refine Program.calls_bind hx ?_
  rintro (e | a)
  · exact lockFree_ite hhandler (lockFree_throw e)
  · exact lockFree_pure a

theorem lockFree_tryFinally {x : FileM α} {last : FileM Unit} (hx : LockFree x)
    (hlast : LockFree last) : LockFree (tryFinally x last) := by
  refine Program.calls_bind hx fun r => Program.calls_bind hlast ?_
  rintro (e | ⟨⟩) <;> exact trivial

theorem lockFree_openPrivateFile (name : FileName) (links : List ℕ) :
    LockFree (openPrivateFile name links) :=
  lockFree_bind (lockFree_call id id) fun _ => lockFree_bind (lockFree_call id .ok) fun _ =>
    lockFree_ite (lockFree_throw _) (lockFree_pure _)

theorem lockFree_readText (i : Inode) : LockFree (readText i) := by
  refine lockFree_bind (lockFree_call id .ok) fun before => ?_
  refine lockFree_ite (lockFree_throw _) (lockFree_bind (lockFree_call id .ok) fun content => ?_)
  refine lockFree_ite (lockFree_throw _) (lockFree_bind (lockFree_call id .ok) fun after => ?_)
  exact lockFree_ite (lockFree_throw _) (lockFree_pure _)

theorem lockFree_requireSameFile (i j : Inode) : LockFree (requireSameFile i j) :=
  lockFree_ite (lockFree_throw _) (lockFree_pure _)

theorem lockFree_requireFinalFile (name : FileName) (i : Inode) :
    LockFree (requireFinalFile name i) :=
  lockFree_bind (lockFree_openPrivateFile name _) fun _ => lockFree_requireSameFile i _

theorem lockFree_stagingMatches (i : Inode) (candidates : List FileName) :
    LockFree (stagingMatches i candidates) := by
  induction candidates with
  | nil => exact lockFree_pure _
  | cons candidate candidates ih =>
    exact lockFree_bind (lockFree_call id id) fun _ => lockFree_bind ih fun _ => lockFree_pure _

theorem lockFree_repairIfAliased (i : Inode) (name : FileName) :
    LockFree (repairIfAliased i name) := by
  refine lockFree_bind (lockFree_call id .ok) fun metadata => lockFree_ite ?_ (lockFree_pure _)
  refine lockFree_bind (lockFree_call id .ok) fun found =>
    lockFree_bind (lockFree_stagingMatches i _) fun candidates => ?_
  rcases candidates with - | ⟨candidate, - | ⟨other, rest⟩⟩
  · exact lockFree_throw _
  · exact lockFree_bind (lockFree_call id id) fun _ => lockFree_bind (lockFree_call id .ok) fun _ =>
      lockFree_ite (lockFree_throw _) (lockFree_pure _)
  · exact lockFree_throw _

theorem lockFree_readLocked (i : Inode) (name : FileName) : LockFree (readLocked i name) :=
  lockFree_bind (lockFree_repairIfAliased i name) fun _ => lockFree_bind (lockFree_readText i)
    fun _ => lockFree_bind (lockFree_requireFinalFile name i) fun _ => lockFree_pure _

theorem lockFree_requireExisting (name : FileName) (payload : Content) :
    LockFree (requireExisting name payload) := by
  refine lockFree_bind (lockFree_tryExcept (lockFree_bind (lockFree_openPrivateFile name _)
    fun _ => lockFree_pure _) (lockFree_pure _)) ?_
  rintro (- | i)
  · exact lockFree_pure _
  · exact lockFree_bind (lockFree_repairIfAliased i name) fun _ =>
      lockFree_bind (lockFree_readText i) fun _ => lockFree_ite (lockFree_throw _)
        (lockFree_bind (lockFree_requireFinalFile name i) fun _ => lockFree_pure _)

theorem lockFree_removeCandidates (candidates : List FileName) :
    LockFree (removeCandidates candidates) := by
  induction candidates with
  | nil => exact lockFree_pure _
  | cons candidate candidates ih =>
    exact lockFree_bind (lockFree_call id id) fun _ => lockFree_ite (lockFree_throw _)
      (lockFree_bind (lockFree_call id id) fun _ => ih)

theorem lockFree_writeAll (i : Inode) (pieces : List Content) : LockFree (writeAll i pieces) := by
  induction pieces with
  | nil => exact lockFree_pure _
  | cons bytes pieces ih => exact lockFree_bind (lockFree_call id .ok) fun _ => ih

theorem lockFree_linkStaging (name stage : FileName) (i : Inode) (pieces : List Content) :
    LockFree (linkStaging name stage i pieces) := by
  refine lockFree_bind (lockFree_writeAll i pieces) fun _ => ?_
  refine lockFree_bind (lockFree_call id id) fun _ => ?_
  refine lockFree_bind (lockFree_openPrivateFile name _) fun published => ?_
  refine lockFree_bind (lockFree_requireSameFile i published) fun _ => ?_
  refine lockFree_bind (lockFree_call id id) fun _ => ?_
  refine lockFree_bind (lockFree_call id .ok) fun metadata => lockFree_ite (lockFree_throw _) ?_
  exact lockFree_bind (lockFree_requireFinalFile name i) fun _ => lockFree_pure _

theorem lockFree_publishLocked (name token : String) (pieces : List Content) :
    LockFree (publishLocked name token pieces) := by
  refine lockFree_bind (lockFree_requireExisting name _) ?_
  rintro (- | created)
  · refine lockFree_bind (lockFree_bind (lockFree_call id .ok) fun _ =>
      lockFree_removeCandidates _) fun _ => ?_
    refine lockFree_bind (lockFree_call id id) fun i => ?_
    refine lockFree_tryFinally (lockFree_tryExcept (lockFree_linkStaging name _ i pieces) ?_)
      (lockFree_tryExcept (lockFree_call id id) (lockFree_pure _))
    refine lockFree_bind (lockFree_requireExisting name _) ?_
    rintro (- | created)
    · exact lockFree_throw _
    · exact lockFree_pure _
  · exact lockFree_pure _

/-! ## Calls -/

/-- The lock may be taken after a program without locks. -/
theorem locksOnce_bind {p : FileProgram α} {f : α → FileProgram β}
    (hp : p.Calls (¬ FsCall.IsLock ·)) (hf : ∀ a, LocksOnce (f a)) : LocksOnce (p >>= f) := by
  induction p with
  | pure a => exact hf a
  | call q next ih =>
    cases q with
    | lock => exact absurd trivial hp.1
    | _ => exact fun r => ih r (hp.2 r)

theorem locksOnce_of_calls {p : FileProgram α} (hp : p.Calls (¬ FsCall.IsLock ·)) :
    LocksOnce p := by
  induction p with
  | pure a => exact trivial
  | call q next ih =>
    cases q with
    | lock => exact absurd trivial hp.1
    | _ => exact fun r => ih r (hp.2 r)

/-- And before one. -/
theorem LocksOnce.bind {p : FileProgram α} {f : α → FileProgram β} (hp : LocksOnce p)
    (hf : ∀ a, (f a).Calls (¬ FsCall.IsLock ·)) : LocksOnce (p >>= f) := by
  induction p with
  | pure a => exact locksOnce_of_calls (hf a)
  | call q next ih =>
    cases q with
    | lock => exact fun r => Program.calls_bind (hp r) hf
    | _ => exact fun r => ih r (hp r)

theorem locksOnce_lock {name : FileName} {x : FileM α} (hx : LockFree x) :
    LocksOnce (do
      lock name
      tryFinally x (unlock name) : FileM α).run :=
  fun _ => lockFree_tryFinally hx (lockFree_call id .ok)

/-- A call takes one lock at most. -/
theorem locksOnce_program (request : FileRequest) : LocksOnce request.program := by
  cases request with
  | publish name token pieces =>
    refine LocksOnce.bind ?_ ?_
    · rw [publishPrivateImmutableText]
      split_ifs
      · exact trivial
      · exact locksOnce_lock (lockFree_publishLocked name token pieces)
    · rintro (e | a) <;> exact trivial
  | read name =>
    refine LocksOnce.bind ?_ ?_
    · rw [readPrivateText]
      split_ifs
      · exact trivial
      · -- The file is opened before the lock is taken.
        refine locksOnce_bind (lockFree_openPrivateFile name [1, 2]) ?_
        rintro (e | i)
        · exact trivial
        · exact locksOnce_lock (lockFree_readLocked i name)
    · rintro (e | a) <;> exact trivial

end

/-! ## Locks -/

variable {pid : Pid} {d d' : Directory}

/-- A lock that is held after a call was held before it, or is taken by it. -/
theorem mem_locks_of_perform {q : FsCall} {r : q.Response}
    (h : Directory.perform pid q d = some (r, d')) {l : FileName × Pid} (hl : l ∈ d'.locks) :
    l ∈ d.locks ∨ l.2 = pid ∧ q.IsLock := by
  cases q with
  | openFile name | stat name | create name | unlink name =>
    rw [Directory.perform] at h
    split at h <;> cases h <;> exact .inl hl
  | link src dst =>
    rw [Directory.perform] at h
    split at h <;> cases h <;> exact .inl hl
  | fstat | listdir | write | read =>
    cases h
    exact .inl hl
  | unlock name =>
    cases h
    exact .inl (List.mem_filter.1 hl).1
  | lock name =>
    rw [Directory.perform] at h
    split_ifs at h
    cases h
    rcases List.mem_append.1 hl with hold | hnew
    · exact .inl hold
    · exact .inr ⟨congrArg Prod.snd (List.mem_singleton.1 hnew), trivial⟩

/-- Only a lock is waited for. -/
theorem perform_ne_none {q : FsCall} (h : ¬ q.IsLock) : Directory.perform pid q d ≠ none := by
  cases q with
  | openFile | stat | create | unlink | link =>
    rw [Directory.perform]
    split <;> exact Option.some_ne_none _
  | fstat | listdir | write | read | unlock => exact Option.some_ne_none _
  | lock => exact absurd trivial h

end TradingAgent
