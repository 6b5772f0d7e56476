import TradingAgent.Publication.Progress

/-!
# Publication

In a directory of independent names, and for texts of at most 64 MiB, what is published stays and
is read back, whatever the processes do at the same time and wherever they end
(`publication_of_independent`).

The names matter: the staging files of `x.y` are found by the search for those of `x`, and a
publication of `x` removes them while `x.y` is being published (`PublicationSample.staging_is_removed`).
-/

namespace TradingAgent

open Interference FileM

variable {names : Set FileName}

/-- A process that ends changes nothing but its locks. -/
theorem rely_release {pid other : Pid} (hne : pid ≠ other) (d : Directory) :
    Rely names other d (d.release pid) where
  inv hd := hd.congr rfl rfl (hd.locks.sublist (List.filter_sublist.map _))
  locks name := by simp [Directory.release, hne.symm]
  cells _ _ _ _ _ hc := hc.congr rfl rfl
  grows _ := .congr rfl rfl

/-- The processes that publish and read files of independent names. -/
def filesContract (hind : Independent names) : publication.Contract (IsAllowed names) where
  rely := Rely names
  guarantee := Guarantee names
  inv := DirInv names
  idle := Idle
  grows := Grows names
  post := FilePost
  rely_refl _ d := .refl d
  rely_trans _ _ _ _ h h' := h.trans h'
  grows_refl d := .refl d
  grows_trans _ _ _ h h' := h.trans h'
  rely_of_guarantee _ _ _ _ _ hne hd h := (h hd).rely hne.symm hd
  inv_of_guarantee _ _ _ _ hd h := (h hd).inv
  grows_of_guarantee _ _ _ _ hd h := (h hd).grows
  rely_release _ _ d hne _ := rely_release hne d
  inv_release _ _ hd := hd.congr rfl rfl (hd.locks.sublist (List.filter_sublist.map _))
  grows_release _ _ _ := .congr rfl rfl
  idle_release pid d _ name hmem := by simp [publication, Directory.release] at hmem
  idle_rely _ _ _ h hrely := h.rely hrely
  ensures pid request d hallowed hd hidle := by
    cases request with
    | publish name token pieces => exact ensures_publish hind hallowed hd hidle
    | read name => exact ensures_read hind hallowed hd hidle

abbrev FilePool := Pool FileRequest FsCall FsCall.Response Directory (Option FileAnswer)

variable (names) in
/-- The pools that come from an empty directory, by calls for some names. -/
abbrev FilesReachable (w : FilePool) : Prop :=
  (publication.system (IsAllowed names) {}).Reachable w

theorem dirInv_empty : DirInv names {} where
  nodup := List.nodup_nil
  belongs := List.forall_mem_nil _
  cells _ _ := ⟨.empty, rfl, nofun, nofun, nofun, nofun⟩
  locks := List.nodup_nil

variable {w w' : FilePool}

theorem FilesReachable.holds (hind : Independent names) (hw : FilesReachable names w) :
    (filesContract hind).Holds w :=
  (filesContract hind).invariant dirInv_empty (fun _ _ => List.not_mem_nil) hw

/-- What a call of a process does to the directory. -/
theorem FilesReachable.fileStep (hind : Independent names) (hw : FilesReachable names w) {pid : Pid}
    {job : Job FileRequest FsCall FsCall.Response Directory (Option FileAnswer)} {q : FsCall}
    {next : q.Response → FileProgram (Option FileAnswer)} (hjob : w.jobs pid = some job)
    (hrest : job.rest = .call q next) {r : q.Response} {d : Directory}
    (hperform : Directory.perform pid q w.state = some (r, d)) :
    FileStep names pid job.request w.state d :=
  have hholds := hw.holds hind
  (hholds.guarantee (filesContract hind) hjob hrest hperform).1 hholds.inv

/-! ## Locks -/

/-- A process that holds a lock takes no other one. -/
def Proceeds (w : FilePool) : Prop :=
  ∀ pid job, w.jobs pid = some job →
    job.rest.Calls (¬ FsCall.IsLock ·) ∨ Idle pid w.state ∧ LocksOnce job.rest

theorem Idle.perform {pid other : Pid} {d d' : Directory} {q : FsCall} {r : q.Response}
    (h : Idle other d) (hperform : Directory.perform pid q d = some (r, d'))
    (hq : other = pid → ¬ q.IsLock) : Idle other d' := by
  intro name hmem
  rcases mem_locks_of_perform hperform hmem with hold | ⟨heq, hlock⟩
  · exact h name hold
  · exact hq heq hlock

theorem Proceeds.step (h : Proceeds w) (hidle : ∀ pid, w.jobs pid = none → Idle pid w.state)
    {e : Event FileRequest} (hstep : publication.step w e = some w') : Proceeds w' := by
  cases e with
  | start pid request =>
    rw [Machine.step] at hstep
    split at hstep <;> cases hstep
    rename_i hnone
    intro other job hjob
    dsimp only at hjob ⊢
    by_cases heq : other = pid
    · subst heq
      rw [Function.update_self] at hjob
      cases hjob
      exact .inr ⟨hidle other hnone, locksOnce_program request⟩
    · rw [Function.update_of_ne heq] at hjob
      exact h other job hjob
  | call pid =>
    rw [Machine.step] at hstep
    split at hstep
    · rename_i request since start q next hcall
      obtain ⟨⟨r, d⟩, hperform, rfl⟩ := Option.map_eq_some_iff.1 hstep
      intro other job hjob
      dsimp only at hjob ⊢
      by_cases heq : other = pid
      · subst heq
        rw [Function.update_self] at hjob
        cases hjob
        rcases h other _ hcall with hfree | ⟨hidle, honce⟩
        · exact .inl (hfree.2 r)
        · -- The call for the lock, or one before it.
          by_cases hlock : q.IsLock
          · cases q with
            | lock => exact .inl (honce r)
            | _ => exact hlock.elim
          · refine .inr ⟨hidle.perform hperform fun _ => hlock, ?_⟩
            cases q with
            | lock => exact absurd trivial hlock
            | _ => exact honce r
      · rw [Function.update_of_ne heq] at hjob
        rcases h other job hjob with hfree | ⟨hidle, honce⟩
        · exact .inl hfree
        · exact .inr ⟨hidle.perform hperform fun hpid => absurd hpid heq, honce⟩
    · cases hstep
  | finish pid =>
    rw [Machine.step] at hstep
    split at hstep <;> cases hstep
    intro other job hjob
    dsimp only at hjob ⊢
    by_cases heq : other = pid
    · subst heq
      rw [Function.update_self] at hjob
      cases hjob
    · rw [Function.update_of_ne heq] at hjob
      exact h other job hjob
  | crash pid =>
    rw [Machine.step] at hstep
    split at hstep <;> cases hstep
    intro other job hjob
    dsimp only at hjob ⊢
    by_cases heq : other = pid
    · subst heq
      rw [Function.update_self] at hjob
      cases hjob
    · rw [Function.update_of_ne heq] at hjob
      rcases h other job hjob with hfree | ⟨hidle, honce⟩
      · exact .inl hfree
      · refine .inr ⟨fun name hmem => ?_, honce⟩
        exact hidle name (List.mem_filter.1 hmem).1

theorem FilesReachable.proceeds (hind : Independent names) (hw : FilesReachable names w) :
    Proceeds w := by
  refine hw.invariant ?_ fun w e w' hw h hstep => h.step (FilesReachable.holds hind hw).idle hstep.2
  rintro _ rfl pid job ⟨⟩

/-- A process whose call is under way can go on, or another one holds the lock that it waits for. -/
theorem exists_step_or_wait {pid : Pid}
    {job : Job FileRequest FsCall FsCall.Response Directory (Option FileAnswer)}
    (hjob : w.jobs pid = some job) :
    (∃ e, (e = .call pid ∨ e = .finish pid) ∧ publication.step w e ≠ none) ∨
      ∃ name next other, job.rest = .call (.lock name) next ∧ (name, other) ∈ w.state.locks := by
  obtain ⟨request, since, start, rest⟩ := job
  cases rest with
  | pure a =>
    refine .inl ⟨.finish pid, .inr rfl, ?_⟩
    rw [Machine.step, hjob]
    exact Option.some_ne_none _
  | call q next =>
    by_cases hperform : Directory.perform pid q w.state = none
    · cases q with
      | lock name =>
        rw [Directory.perform] at hperform
        split_ifs at hperform with hany
        obtain ⟨⟨_, other⟩, hl, heq⟩ := List.any_eq_true.1 hany
        obtain rfl := of_decide_eq_true heq
        exact .inr ⟨_, next, other, rfl, hl⟩
      | _ => exact absurd hperform (perform_ne_none id)
    · refine .inl ⟨.call pid, .inl rfl, ?_⟩
      rw [Machine.step, hjob]
      exact fun hnone => hperform (Option.map_eq_none_iff.1 hnone)

/-- While a call is under way, one of those that are can go on. -/
theorem FilesReachable.exists_step (hind : Independent names) (hw : FilesReachable names w)
    {pid : Pid} (hjob : w.jobs pid ≠ none) :
    ∃ other e, (e = .call other ∨ e = .finish other) ∧ publication.step w e ≠ none := by
  obtain ⟨job, hjob⟩ := Option.ne_none_iff_exists'.1 hjob
  rcases exists_step_or_wait hjob with hstep | ⟨name, next, other, -, hheld⟩
  · exact ⟨pid, hstep⟩
  · -- The process that holds the lock is running, and waits for none.
    have hother : w.jobs other ≠ none := fun hnone => (hw.holds hind).idle other hnone name hheld
    obtain ⟨job', hjob'⟩ := Option.ne_none_iff_exists'.1 hother
    rcases exists_step_or_wait hjob' with hstep | ⟨name', next', -, hrest, -⟩
    · exact ⟨other, hstep⟩
    · rcases hw.proceeds hind other job' hjob' with hfree | ⟨hidle, -⟩
      · rw [hrest] at hfree
        exact absurd trivial hfree.1
      · exact absurd hheld (hidle name)

/-! ## Payloads -/

variable (names) in
/-- What is true of the calls that have been made. -/
structure Publishes (w : FilePool) : Prop where
  /-- A visible name refers to one payload, as a whole. -/
  complete : ∀ name ∈ names, ∀ i content, Visible name i content w.state →
    ∃ token pieces, .publish name token pieces ∈ w.requests ∧ content = pieces.flatten
  /-- A read returns such a payload, and fails only if there was none when it began. -/
  read : ∀ call ∈ w.returned, ∀ name, call.request = .read name →
    (∃ token pieces, .publish name token pieces ∈ w.requests ∧
      call.result = some (.text pieces.flatten)) ∨
    call.result = none ∧ (name = "" ∨ ∀ i content, ¬ Visible name i content call.start)
  /-- What has been published is what every later call reads. -/
  later : ∀ (k : ℕ) publish, w.returned[k]? = some publish → ∀ name token pieces,
    publish.request = .publish name token pieces → publish.result ≠ none →
    ∀ call ∈ w.returned, call.request = .read name → k < call.since →
      call.result = some (.text pieces.flatten)
  /-- The name has one link then, and no staging file. A publication fails only for a payload
      other than the one that is visible. -/
  publish : ∀ call ∈ w.returned, ∀ name token pieces, call.request = .publish name token pieces →
    (∃ created i, call.result = some (.created created) ∧ name ≠ "" ∧
      Visible name i pieces.flatten call.final ∧ Settled name call.final) ∨
    call.result = none ∧ (name = "" ∨ pieces.flatten = [] ∨
      ∃ i content, Visible name i content call.final ∧ content ≠ pieces.flatten)
  refused : ∀ call ∈ w.returned, ∀ name token pieces, call.request = .publish name token pieces →
    ∀ i content, Visible name i content call.start → content ≠ pieces.flatten →
      call.result = none
  /-- A publication that is repeated succeeds, if its payload is the only one. -/
  repeated : ∀ call ∈ w.returned, ∀ name token pieces,
    call.request = .publish name token pieces → name ≠ "" → pieces.flatten ≠ [] →
    (∀ token' pieces', .publish name token' pieces' ∈ w.requests →
      pieces'.flatten = pieces.flatten) →
    (∃ created, call.result = some (.created created)) ∧ Settled name call.final

variable (names) in
/-- What an event may do to the files. -/
inductive Confined (w : FilePool) (d' : Directory) : Event FileRequest → Prop
  | none {e : Event FileRequest} : d'.entries = w.state.entries →
    d'.inodes = w.state.inodes → Confined w d' e
  /-- The files of the other names are left as they are. If the name of the call is visible, then
      at most a staging file of it is removed. -/
  | call {pid : Pid} {job : Job FileRequest FsCall FsCall.Response Directory (Option FileAnswer)} :
    w.jobs pid = some job →
    (∀ other ∈ names, other ≠ job.request.name → ∃ c, IsCell other c w.state ∧ IsCell other c d') →
    ((∃ i content, Visible job.request.name i content w.state) →
      (d'.entries = w.state.entries ∨ ∃ stage, isStagingOf job.request.name stage = true ∧
        d'.entries = w.state.entries.filter (·.1 ≠ stage)) ∧
      ∀ i, (d'.data i).content = (w.state.data i).content) →
    Confined w d' (.call pid)

theorem FilesReachable.complete (hind : Independent names) (hw : FilesReachable names w)
    {name : FileName} (hname : name ∈ names) {i : Inode} {content : Content}
    (hvisible : Visible name i content w.state) :
    ∃ token pieces, .publish name token pieces ∈ w.requests ∧ content = pieces.flatten := by
  refine hw.invariant (P := fun w => Visible name i content w.state →
    ∃ token pieces, .publish name token pieces ∈ w.requests ∧ content = pieces.flatten)
    ?_ ?_ hvisible
  · rintro _ rfl ⟨⟨⟩, -⟩
  · intro w e w' hw h hstep hvisible
    have hrequests := Machine.requests_subset_of_step hstep.2
    have hbefore : Visible name i content w.state →
        ∃ token pieces, .publish name token pieces ∈ w'.requests ∧ content = pieces.flatten := by
      intro hv
      obtain ⟨token, pieces, hmem, heq⟩ := h hv
      exact ⟨token, pieces, hrequests hmem, heq⟩
    rcases Machine.state_of_step hstep.2 with ⟨hstate, -⟩ |
      ⟨pid, job, q, next, r, -, hjob, hrest, hperform⟩ | ⟨pid, -, hstate⟩
    · exact hbefore (hstate ▸ hvisible)
    · have hfile := FilesReachable.fileStep hind hw hjob hrest hperform
      rcases hfile.new name hname i content hvisible with hv | ⟨token, pieces, hrequest, heq⟩
      · exact hbefore hv
      · have hrequested := ((FilesReachable.holds hind hw).runs pid job hjob).requested
        exact ⟨token, pieces, hrequests (hrequest ▸ hrequested), heq⟩
    · rw [hstate] at hvisible
      exact hbefore ((Visible.congr rfl rfl).1 hvisible)

theorem FilesReachable.publishes (hind : Independent names) (hw : FilesReachable names w) :
    Publishes names w := by
  have hholds := FilesReachable.holds hind hw
  have hcomplete : ∀ name ∈ names, ∀ i content, Visible name i content w.state →
      ∃ token pieces, .publish name token pieces ∈ w.requests ∧ content = pieces.flatten :=
    fun name hname i content hvisible => FilesReachable.complete hind hw hname hvisible
  have hpublish : ∀ call ∈ w.returned, ∀ name token pieces,
      call.request = .publish name token pieces →
      (∃ created i, call.result = some (.created created) ∧ name ≠ "" ∧
        Visible name i pieces.flatten call.final ∧ Settled name call.final) ∨
      call.result = none ∧ (name = "" ∨ pieces.flatten = [] ∨
        ∃ i content, Visible name i content call.final ∧ content ≠ pieces.flatten) := by
    intro call hcall name token pieces hrequest
    have hpost := (hholds.returned call hcall).post
    obtain ⟨request, since, start, result, final⟩ := call
    subst hrequest
    rcases result with - | (created | content)
    · exact .inr ⟨rfl, hpost⟩
    · obtain ⟨hne, ⟨i, hvisible⟩, hsettled⟩ := hpost
      exact .inl ⟨created, i, rfl, hne, hvisible, hsettled⟩
    · exact hpost.elim
  refine ⟨hcomplete, ?_, ?_, hpublish, ?_, ?_⟩
  · intro call hcall name hrequest
    have hreturned := hholds.returned call hcall
    have hname := hreturned.allowed.name_mem
    have hpost := hreturned.post
    obtain ⟨request, since, start, result, final⟩ := call
    subst hrequest
    rcases result with - | (created | content)
    · exact .inr ⟨rfl, hpost⟩
    · exact hpost.elim
    · obtain ⟨i, hvisible⟩ := hpost
      obtain ⟨token, pieces, hmem, rfl⟩ :=
        hcomplete name hname i content (hreturned.final.visible name hname i content hvisible)
      exact .inl ⟨token, pieces, hmem, rfl⟩
  · intro k publish hk name token pieces hrequest hresult call hcall hread hsince
    have hname : name ∈ names := by
      have hmem := (hholds.returned call hcall).allowed.name_mem
      rwa [hread] at hmem
    obtain ⟨created, i, -, hne, hvisible, -⟩ :=
      (hpublish publish (List.mem_of_getElem? hk) name token pieces hrequest).resolve_right
        fun h => hresult h.1
    -- The payload is visible when the read begins, and when it ends.
    have hreturned := hholds.returned call hcall
    have hstart := (hreturned.later k publish hk hsince).visible name hname i _ hvisible
    have hfinal := hreturned.grows.visible name hname i _ hstart
    have hpost := hreturned.post
    obtain ⟨request, since, start, result, final⟩ := call
    subst hread
    rcases result with - | (created | content)
    · exact hpost.elim (absurd · hne) fun hnot => absurd hstart (hnot i _)
    · exact hpost.elim
    · obtain ⟨j, hj⟩ := hpost
      rw [Visible.unique hj hfinal]
  · intro call hcall name token pieces hrequest i content hvisible hne
    have hreturned := hholds.returned call hcall
    have hname : name ∈ names := by
      have hmem := hreturned.allowed.name_mem
      rwa [hrequest] at hmem
    rcases hpublish call hcall name token pieces hrequest with ⟨_, j, -, -, hfinal, -⟩ | ⟨hnone, -⟩
    · have hstill := hreturned.grows.visible name hname i content hvisible
      exact absurd (Visible.unique hstill hfinal) hne
    · exact hnone
  · intro call hcall name token pieces hrequest hname hpayload hsame
    have hreturned := hholds.returned call hcall
    have hmem : name ∈ names := by
      have hmem := hreturned.allowed.name_mem
      rwa [hrequest] at hmem
    rcases hpublish call hcall name token pieces hrequest with
      ⟨created, i, hresult, -, -, hsettled⟩ | ⟨-, hempty | hempty | ⟨i, content, hvisible, hne⟩⟩
    · exact ⟨⟨created, hresult⟩, hsettled⟩
    · exact absurd hempty hname
    · exact absurd hempty hpayload
    · -- What is visible is a payload, and there is one only.
      obtain ⟨token', pieces', hrequested, rfl⟩ :=
        hcomplete name hmem i content (hreturned.final.visible name hmem i content hvisible)
      exact absurd (hsame token' pieces' hrequested) hne

theorem FilesReachable.confined (hind : Independent names) (hw : FilesReachable names w)
    {e : Event FileRequest} (hstep : publication.step w e = some w') :
    Confined names w w'.state e := by
  rcases Machine.state_of_step hstep with ⟨hstate, -⟩ |
    ⟨pid, job, q, next, r, rfl, hjob, hrest, hperform⟩ | ⟨pid, -, hstate⟩
  · rw [hstate]
    exact .none rfl rfl
  · have hfile := FilesReachable.fileStep hind hw hjob hrest hperform
    refine .call hjob (fun other hother hne => ?_) hfile.taken
    obtain ⟨c, hc⟩ := (FilesReachable.holds hind hw).inv.cells other hother
    exact ⟨c, hc, hfile.cells other hother (.inl hne) c hc⟩
  · rw [hstate]
    exact .none rfl rfl

/-- In a directory of independent names, whatever the processes do and wherever they end: the calls
    that have returned are as they should be, what is visible stays, no call touches the files of
    another name, and while calls are under way, one of them can go on. -/
theorem publication_of_independent (hind : Independent names) (hw : FilesReachable names w) :
    Publishes names w ∧
    (∀ es w', (publication.system (IsAllowed names) {}).Run w es w' → ∀ name ∈ names,
      ∀ i content, Visible name i content w.state → Visible name i content w'.state) ∧
    (∀ e w', publication.step w e = some w' → Confined names w w'.state e) ∧
    ∀ pid, w.jobs pid ≠ none →
      ∃ other e, (e = .call other ∨ e = .finish other) ∧ publication.step w e ≠ none := by
  refine ⟨FilesReachable.publishes hind hw, fun es w' hrun => ?_,
    fun e w' hstep => FilesReachable.confined hind hw hstep,
    fun pid hjob => FilesReachable.exists_step hind hw hjob⟩
  have hgrows := (filesContract hind).grows_run dirInv_empty (fun _ _ => List.not_mem_nil) hw hrun
  exact hgrows.visible

/-! ## Samples -/

namespace PublicationSample

def token : String := String.ofList (List.replicate 24 'a')

/-- A process that has linked the name ends; another one publishes the same, and a third reads. -/
def crashed : List (Event FileRequest) :=
  .start 1 (.publish "x" token [[1], [2]]) :: List.replicate 7 (.call 1) ++ [.crash 1] ++
    .start 2 (.publish "x" token [[1, 2]]) :: List.replicate 14 (.call 2) ++ [.finish 2] ++
    .start 3 (.read "x") :: List.replicate 10 (.call 3) ++ [.finish 3]

theorem independent_x : Independent {"x"} where
  target := by
    rintro _ rfl _ rfl
    decide +kernel
  staging := by
    rintro _ rfl _ rfl hne
    exact absurd rfl hne
  lock := by
    rintro _ rfl _ rfl
    decide +kernel

theorem crashed_reachable : ∃ w : FilePool, FilesReachable {"x"} w ∧
    w.returned.map (fun call => (call.request, call.result)) =
      [(.publish "x" token [[1, 2]], some (.created false)), (.read "x", some (.text [1, 2]))] := by
  have hreplay : (Transition.System.replay publication.step { state := {} } crashed).map
      (fun w => w.returned.map fun call => (call.request, call.result)) =
      some [(.publish "x" token [[1, 2]], some (.created false)),
        (.read "x", some (.text [1, 2]))] := by
    decide +kernel
  obtain ⟨w, hw, heq⟩ := Option.map_eq_some_iff.1 hreplay
  refine ⟨w, ⟨_, crashed, rfl, Machine.run_of_replay ?_ hw⟩, heq⟩
  intro pid request hmem
  simp only [crashed, List.mem_append, List.mem_cons, List.mem_replicate,
    Event.start.injEq, reduceCtorEq, and_false, or_false, false_or, List.not_mem_nil,
    List.cons_append] at hmem
  rcases hmem with ⟨-, rfl⟩ | ⟨-, rfl⟩ | ⟨-, rfl⟩
  · exact ⟨rfl, by decide +kernel, by decide +kernel⟩
  · exact ⟨rfl, by decide +kernel, by decide +kernel⟩
  · exact rfl

/-- What the pool is then, by the theorem above. -/
theorem publication_of_crashed : ∃ w : FilePool, Publishes {"x"} w ∧
    w.returned.map (fun call => (call.request, call.result)) =
      [(.publish "x" token [[1, 2]], some (.created false)), (.read "x", some (.text [1, 2]))] := by
  obtain ⟨w, hw, hreturned⟩ := crashed_reachable
  exact ⟨w, (publication_of_independent independent_x hw).1, hreturned⟩

/-- The process that publishes `x.y` has written its staging file, and the one that publishes `x`
    has searched for those of `x`. -/
def searched : List (Event FileRequest) :=
  .start 1 (.publish "x.y" token [[1]]) :: .start 2 (.publish "x" token [[2]]) ::
    (List.replicate 5 (.call 1) ++ List.replicate 4 (.call 2))

/-- Both go on to their ends. -/
def finished : List (Event FileRequest) :=
  List.replicate 11 (.call 2) ++ [.finish 2] ++ List.replicate 3 (.call 1) ++ [.finish 1]

/-- While one process publishes `x.y`, another one publishes `x`: it removes the staging file of
    the first, whose publication fails. -/
theorem staging_is_removed : ∃ w w' w'' : FilePool,
    (publication.system (fun _ => True) {}).Reachable w ∧
    (w.jobs 2).map (·.request) = some (.publish "x" token [[2]]) ∧
    publication.step w (.call 2) = some w' ∧
    stagingName "x.y" token ∈ w.state.entries.map (·.1) ∧
    stagingName "x.y" token ∉ w'.state.entries.map (·.1) ∧
    (publication.system (fun _ => True) {}).Run w' finished w'' ∧
    w''.returned.map (fun call => (call.request, call.result)) =
      [(.publish "x" token [[2]], some (.created true)), (.publish "x.y" token [[1]], none)] := by
  have hreplay : ((Transition.System.replay publication.step { state := {} } searched).bind
      fun w => (publication.step w (.call 2)).bind fun w' =>
        (Transition.System.replay publication.step w' finished).map fun w'' =>
          (((w.jobs 2).map (·.request), w''.returned.map fun call => (call.request, call.result)),
            w.state.entries.map (·.1), w'.state.entries.map (·.1))) =
      some ((some (.publish "x" token [[2]]), [(.publish "x" token [[2]], some (.created true)),
        (.publish "x.y" token [[1]], none)]), [stagingName "x.y" token], []) := by
    decide +kernel
  obtain ⟨w, hw, hreplay⟩ := Option.bind_eq_some_iff.1 hreplay
  obtain ⟨w', hw', hreplay⟩ := Option.bind_eq_some_iff.1 hreplay
  obtain ⟨w'', hw'', heq⟩ := Option.map_eq_some_iff.1 hreplay
  simp only [Prod.mk.injEq] at heq
  obtain ⟨⟨hjob, hreturned⟩, hbefore, hafter⟩ := heq
  refine ⟨w, w', w'', ⟨_, searched, rfl, Machine.run_of_replay (fun _ _ _ => trivial) hw⟩, hjob, hw',
    ?_, ?_, Machine.run_of_replay (fun _ _ _ => trivial) hw'', hreturned⟩
  · rw [hbefore]
    exact List.mem_singleton_self _
  · rw [hafter]
    exact List.not_mem_nil

end PublicationSample

end TradingAgent
