import TradingAgent.Library.Transition

/-!
# Programs under interference

Several processes run programs on a shared state. A program makes calls, each of which is answered
at once (`Program`); between any two of its calls, the other processes may make theirs, and a
process may end at any point (`Pool`).

A program is verified on its own. It may *rely* on the other processes to change the state in some
ways only, and it *guarantees* to change it in some ways only itself: `Program.Ensures` says that
it does the latter, and what holds when it returns, if the former is the case. The rules for it
are those of the constructs of programs (`ensures_pure`, `ensures_call`, `ensures_bind`).

If what each process guarantees is what the others rely on (`Machine.Contract`), then all of it holds
of the pool, in any interleaving (`Machine.Contract.invariant`).
-/

namespace Interference

/-- A program whose calls are answered, and which returns an `α`. -/
inductive Program (Call : Type) (Response : Call → Type) (α : Type)
  | pure (a : α)
  | call (c : Call) (next : Response c → Program Call Response α)

variable {Call : Type} {Response : Call → Type} {σ α β : Type}

namespace Program

def bind : Program Call Response α → (α → Program Call Response β) → Program Call Response β
  | pure a, f => f a
  | call c next, f => call c fun r => (next r).bind f

instance : Monad (Program Call Response) where
  pure := pure
  bind := bind

variable (perform : (c : Call) → σ → Option (Response c × σ)) (rely guarantee : σ → σ → Prop)

/-- From a state, a program that relies on the other processes guarantees all its calls, and what
    it returns satisfies `Q` there and then, for as long as the others keep to it. A call that is
    not answered blocks. -/
def Ensures (Q : α → σ → Prop) : Program Call Response α → σ → Prop
  | pure a, s => ∀ t, rely s t → Q a t
  | call c next, s => ∀ t, rely s t → ∀ r u, perform c t = some (r, u) →
      guarantee t u ∧ Ensures Q (next r) u

variable {perform rely guarantee} {Q Q' : α → σ → Prop}

theorem ensures_pure {a : α} {s : σ} (h : ∀ t, rely s t → Q a t) :
    Ensures perform rely guarantee Q (.pure a) s := h

theorem ensures_call {c : Call} {next : Response c → Program Call Response α} {s : σ}
    (h : ∀ t, rely s t → ∀ r u, perform c t = some (r, u) →
      guarantee t u ∧ Ensures perform rely guarantee Q (next r) u) :
    Ensures perform rely guarantee Q (.call c next) s := h

/-- What a program ensures, it ensures whatever the others do first. -/
theorem Ensures.after (htrans : ∀ s t u, rely s t → rely t u → rely s u)
    {p : Program Call Response α} {s t : σ} (h : p.Ensures perform rely guarantee Q s)
    (hst : rely s t) : p.Ensures perform rely guarantee Q t := by
  cases p with
  | pure a => exact fun u htu => h u (htrans s t u hst htu)
  | call c next => exact fun u htu => h u (htrans s t u hst htu)

theorem Ensures.mono (hQ : ∀ a t, Q a t → Q' a t) {p : Program Call Response α} {s : σ}
    (h : p.Ensures perform rely guarantee Q s) : p.Ensures perform rely guarantee Q' s := by
  induction p generalizing s with
  | pure a => exact fun t hst => hQ a t (h t hst)
  | call c next ih =>
    intro t hst r u hperform
    obtain ⟨hguarantee, hnext⟩ := h t hst r u hperform
    exact ⟨hguarantee, ih r hnext⟩

/-- One program after the other. -/
theorem ensures_bind (hrefl : ∀ s, rely s s) {Q : β → σ → Prop} {p : Program Call Response α}
    {f : α → Program Call Response β} {s : σ}
    (h : p.Ensures perform rely guarantee
      (fun a => (f a).Ensures perform rely guarantee Q) s) :
    (p >>= f).Ensures perform rely guarantee Q s := by
  induction p generalizing s with
  | pure a => exact h s (hrefl s)
  | call c next ih =>
    intro t hst r u hperform
    obtain ⟨hguarantee, hnext⟩ := h t hst r u hperform
    exact ⟨hguarantee, ih r hnext⟩

/-- All calls of a program are of some kind, whatever they are answered. -/
def Calls (P : Call → Prop) : Program Call Response α → Prop
  | pure _ => True
  | call c next => P c ∧ ∀ r, (next r).Calls P

theorem calls_bind {P : Call → Prop} {p : Program Call Response α}
    {f : α → Program Call Response β} (hp : p.Calls P) (hf : ∀ a, (f a).Calls P) :
    (p >>= f).Calls P := by
  induction p with
  | pure a => exact hf a
  | call c next ih => exact ⟨hp.1, fun r => ih r (hp.2 r)⟩

end Program

/-! ## Pools of processes -/

abbrev Pid := ℕ

/-- The call of a program that a process is in: what was asked for, when it began, and the rest of
    the program. -/
structure Job (Request Call : Type) (Response : Call → Type) (σ α : Type) where
  request : Request
  /-- The number of the calls that had returned when this one began, and the state then. -/
  since : ℕ
  start : σ
  rest : Program Call Response α

/-- A call that has returned. -/
structure Returned (Request σ α : Type) where
  request : Request
  since : ℕ
  start : σ
  result : α
  final : σ

/-- A shared state, the processes, and what has happened. -/
structure Pool (Request Call : Type) (Response : Call → Type) (σ α : Type) where
  state : σ
  jobs : Pid → Option (Job Request Call Response σ α) := fun _ => none
  requests : List Request := []
  returned : List (Returned Request σ α) := []

inductive Event (Request : Type)
  /-- A process that is idle begins the program for a request. -/
  | start (pid : Pid) (request : Request)
  /-- The next call of the program is answered. -/
  | call (pid : Pid)
  /-- The program returns. -/
  | finish (pid : Pid)
  /-- The process ends, and what it holds is released. -/
  | crash (pid : Pid)

/-- What the processes run, and what they run it on. -/
structure Machine (Request Call : Type) (Response : Call → Type) (σ α : Type) where
  perform : Pid → (c : Call) → σ → Option (Response c × σ)
  program : Request → Program Call Response α
  release : Pid → σ → σ

namespace Machine

variable {Request : Type} (M : Machine Request Call Response σ α)

/-- The pool after an event, if it is possible. -/
def step (w : Pool Request Call Response σ α) :
    Event Request → Option (Pool Request Call Response σ α)
  | .start pid request =>
    match w.jobs pid with
    | some _ => none
    | none =>
      some { w with
        jobs := Function.update w.jobs pid
          (some ⟨request, w.returned.length, w.state, M.program request⟩)
        requests := w.requests ++ [request] }
  | .call pid =>
    match w.jobs pid with
    | some ⟨request, since, start, .call c next⟩ =>
      (M.perform pid c w.state).map fun (r, state) =>
        { w with
          state
          jobs := Function.update w.jobs pid (some ⟨request, since, start, next r⟩) }
    | _ => none
  | .finish pid =>
    match w.jobs pid with
    | some ⟨request, since, start, .pure result⟩ =>
      some { w with
        jobs := Function.update w.jobs pid none
        returned := w.returned ++ [⟨request, since, start, result, w.state⟩] }
    | _ => none
  | .crash pid =>
    match w.jobs pid with
    | some _ =>
      some { w with
        state := M.release pid w.state
        jobs := Function.update w.jobs pid none }
    | none => none

variable {M} in
/-- The state changes by the calls of programs, and when a process ends. -/
theorem state_of_step {w w' : Pool Request Call Response σ α} {e : Event Request}
    (h : M.step w e = some w') :
    (w'.state = w.state ∧ ∀ pid, e ≠ .call pid ∧ e ≠ .crash pid) ∨
    (∃ pid job c next r, e = .call pid ∧ w.jobs pid = some job ∧ job.rest = .call c next ∧
      M.perform pid c w.state = some (r, w'.state)) ∨
    ∃ pid, e = .crash pid ∧ w'.state = M.release pid w.state := by
  cases e with
  | start pid request =>
    rw [step] at h
    split at h <;> cases h
    exact .inl ⟨rfl, fun _ => ⟨nofun, nofun⟩⟩
  | call pid =>
    rw [step] at h
    split at h
    · rename_i request since start c next hjob
      obtain ⟨⟨r, t⟩, hperform, hw'⟩ := Option.map_eq_some_iff.1 h
      subst hw'
      exact .inr (.inl ⟨pid, _, c, next, r, rfl, hjob, rfl, hperform⟩)
    · cases h
  | finish pid =>
    rw [step] at h
    split at h <;> cases h
    exact .inl ⟨rfl, fun _ => ⟨nofun, nofun⟩⟩
  | crash pid =>
    rw [step] at h
    split at h <;> cases h
    exact .inr (.inr ⟨pid, rfl, rfl⟩)

variable {M} in
theorem requests_subset_of_step {w w' : Pool Request Call Response σ α} {e : Event Request}
    (h : M.step w e = some w') : w.requests ⊆ w'.requests := by
  cases e with
  | start pid request =>
    rw [step] at h
    split at h <;> cases h
    exact List.subset_append_left _ _
  | call pid =>
    rw [step] at h
    split at h
    · obtain ⟨_, -, hw'⟩ := Option.map_eq_some_iff.1 h
      subst hw'
      exact List.Subset.refl _
    · cases h
  | finish pid | crash pid =>
    rw [step] at h
    split at h <;> cases h
    exact List.Subset.refl _

/-- The pools that come from a state by requests of some kind. -/
def system (allowed : Request → Prop) (initial : σ) :
    Transition.System (Pool Request Call Response σ α) (Event Request) where
  init w := w = { state := initial }
  step w e w' := (∀ pid request, e = .start pid request → allowed request) ∧ M.step w e = some w'

variable {M} in
/-- Events that are possible one after the other, with requests of the kind, are a run. -/
theorem run_of_replay {allowed : Request → Prop} {initial : σ}
    {w w' : Pool Request Call Response σ α} {es : List (Event Request)}
    (hallowed : ∀ pid request, .start pid request ∈ es → allowed request)
    (h : Transition.System.replay M.step w es = some w') :
    (M.system allowed initial).Run w es w' := by
  induction es generalizing w with
  | nil =>
    cases h
    exact .nil _
  | cons e es ih =>
    rw [Transition.System.replay, Option.bind_eq_some_iff] at h
    obtain ⟨u, hstep, h⟩ := h
    refine .cons ⟨fun pid request he => hallowed pid request ?_, hstep⟩
      (ih (fun pid request hmem => hallowed pid request (List.mem_cons_of_mem e hmem)) h)
    rw [he]
    exact List.mem_cons_self

/-! ## Contracts -/

/-- What each process relies on and guarantees, and why this fits together. -/
structure Contract (allowed : Request → Prop) where
  rely : Pid → σ → σ → Prop
  guarantee : Pid → Request → σ → σ → Prop
  inv : σ → Prop
  /-- What is true of the state while a process runs no program. -/
  idle : Pid → σ → Prop
  /-- What no process undoes. -/
  grows : σ → σ → Prop
  /-- What is true when a program returns. -/
  post : Request → σ → α → σ → Prop
  rely_refl : ∀ pid s, rely pid s s
  rely_trans : ∀ pid s t u, rely pid s t → rely pid t u → rely pid s u
  grows_refl : ∀ s, grows s s
  grows_trans : ∀ s t u, grows s t → grows t u → grows s u
  rely_of_guarantee : ∀ pid pid' request s t, pid ≠ pid' → inv s → guarantee pid request s t →
    rely pid' s t
  inv_of_guarantee : ∀ pid request s t, inv s → guarantee pid request s t → inv t
  grows_of_guarantee : ∀ pid request s t, inv s → guarantee pid request s t → grows s t
  rely_release : ∀ pid pid' s, pid ≠ pid' → inv s → rely pid' s (M.release pid s)
  inv_release : ∀ pid s, inv s → inv (M.release pid s)
  grows_release : ∀ pid s, inv s → grows s (M.release pid s)
  idle_release : ∀ pid s, inv s → idle pid (M.release pid s)
  idle_rely : ∀ pid s t, idle pid s → rely pid s t → idle pid t
  ensures : ∀ pid request s, allowed request → inv s → idle pid s →
    (M.program request).Ensures (M.perform pid) (rely pid) (guarantee pid request)
      (fun a t => post request s a t ∧ idle pid t) s

namespace Contract

variable {M} {allowed : Request → Prop} (C : M.Contract allowed)
  {w w' : Pool Request Call Response σ α}

/-- What a process that runs a program still ensures. -/
structure Runs (w : Pool Request Call Response σ α) (pid : Pid)
    (job : Job Request Call Response σ α) : Prop where
  allowed : allowed job.request
  requested : job.request ∈ w.requests
  ensures : job.rest.Ensures (M.perform pid) (C.rely pid) (C.guarantee pid job.request)
    (fun a t => C.post job.request job.start a t ∧ C.idle pid t) w.state
  grows : C.grows job.start w.state
  since : job.since ≤ w.returned.length
  later : ∀ k call, w.returned[k]? = some call → k < job.since → C.grows call.final job.start

/-- What is true of a call that has returned. -/
structure HasReturned (w : Pool Request Call Response σ α) (call : Returned Request σ α) :
    Prop where
  allowed : allowed call.request
  requested : call.request ∈ w.requests
  post : C.post call.request call.start call.result call.final
  grows : C.grows call.start call.final
  final : C.grows call.final w.state
  since : call.since ≤ w.returned.length
  later : ∀ k other, w.returned[k]? = some other → k < call.since → C.grows other.final call.start

/-- What is true of a pool of programs that keep to their contract. -/
structure Holds (w : Pool Request Call Response σ α) : Prop where
  inv : C.inv w.state
  idle : ∀ pid, w.jobs pid = none → C.idle pid w.state
  runs : ∀ pid job, w.jobs pid = some job → C.Runs w pid job
  returned : ∀ call ∈ w.returned, C.HasReturned w call

/-- What the calls of a process change for a program of another one. -/
theorem Runs.interfere {pid : Pid} {job : Job Request Call Response σ α} (h : C.Runs w pid job)
    (hrely : C.rely pid w.state w'.state) (hgrows : C.grows w.state w'.state)
    (hrequests : w.requests ⊆ w'.requests) (hreturned : w.returned <+: w'.returned) :
    C.Runs w' pid job where
  allowed := h.allowed
  requested := hrequests h.requested
  ensures := h.ensures.after (C.rely_trans pid) hrely
  grows := C.grows_trans _ _ _ h.grows hgrows
  since := Nat.le_trans h.since hreturned.length_le
  later k call hcall hk := by
    obtain ⟨rest, hrest⟩ := hreturned
    rw [← hrest, List.getElem?_append_left (Nat.lt_of_lt_of_le hk h.since)] at hcall
    exact h.later k call hcall hk

theorem HasReturned.interfere {call : Returned Request σ α} (h : C.HasReturned w call)
    (hgrows : C.grows w.state w'.state) (hrequests : w.requests ⊆ w'.requests)
    (hreturned : w.returned <+: w'.returned) : C.HasReturned w' call where
  allowed := h.allowed
  requested := hrequests h.requested
  post := h.post
  grows := h.grows
  final := C.grows_trans _ _ _ h.final hgrows
  since := Nat.le_trans h.since hreturned.length_le
  later k other hother hk := by
    obtain ⟨rest, hrest⟩ := hreturned
    rw [← hrest, List.getElem?_append_left (Nat.lt_of_lt_of_le hk h.since)] at hother
    exact h.later k other hother hk

/-- The other processes after an event of one of them. -/
theorem Holds.others (h : C.Holds w) {pid : Pid}
    {job : Option (Job Request Call Response σ α)}
    (hjobs : w'.jobs = Function.update w.jobs pid job)
    (hrely : ∀ other, other ≠ pid → C.rely other w.state w'.state)
    (hgrows : C.grows w.state w'.state) (hrequests : w.requests ⊆ w'.requests)
    (hreturned : w.returned <+: w'.returned) :
    (∀ other, other ≠ pid → w'.jobs other = none → C.idle other w'.state) ∧
      ∀ other, other ≠ pid → ∀ job, w'.jobs other = some job → C.Runs w' other job := by
  refine ⟨fun other hne hnone => ?_, fun other hne job hjob => ?_⟩
  · rw [hjobs, Function.update_of_ne hne] at hnone
    exact C.idle_rely other _ _ (h.idle other hnone) (hrely other hne)
  · rw [hjobs, Function.update_of_ne hne] at hjob
    exact (h.runs other job hjob).interfere C (hrely other hne) hgrows hrequests hreturned

/-- An event of a process keeps the contract, if it does so for the process itself. -/
theorem Holds.event (h : C.Holds w) {pid : Pid} {job : Option (Job Request Call Response σ α)}
    (hjobs : w'.jobs = Function.update w.jobs pid job) (hinv : C.inv w'.state)
    (hrely : ∀ other, other ≠ pid → C.rely other w.state w'.state)
    (hgrows : C.grows w.state w'.state) (hrequests : w.requests ⊆ w'.requests)
    (hreturned : w.returned <+: w'.returned)
    (hidle : job = none → C.idle pid w'.state)
    (hruns : ∀ j, job = some j → C.Runs w' pid j)
    (hnew : ∀ call ∈ w'.returned, call ∈ w.returned ∨ C.HasReturned w' call) : C.Holds w' := by
  obtain ⟨hidles, hothers⟩ := h.others C hjobs hrely hgrows hrequests hreturned
  have hself : w'.jobs pid = job := by
    rw [hjobs, Function.update_self]
  refine ⟨hinv, fun other hnone => ?_, fun other j hj => ?_, fun call hcall => ?_⟩
  · by_cases heq : other = pid
    · subst heq
      exact hidle (hself.symm.trans hnone)
    · exact hidles other heq hnone
  · by_cases heq : other = pid
    · subst heq
      exact hruns j (hself.symm.trans hj)
    · exact hothers other heq j hj
  · rcases hnew call hcall with hold | hreturn
    · exact (h.returned call hold).interfere C hgrows hrequests hreturned
    · exact hreturn

/-- A call of a process is guaranteed by it. -/
theorem Holds.guarantee (h : C.Holds w) {pid : Pid} {job : Job Request Call Response σ α}
    {c : Call} {next : Response c → Program Call Response α} (hjob : w.jobs pid = some job)
    (hrest : job.rest = .call c next) {r : Response c} {t : σ}
    (hperform : M.perform pid c w.state = some (r, t)) :
    C.guarantee pid job.request w.state t ∧
      (next r).Ensures (M.perform pid) (C.rely pid) (C.guarantee pid job.request)
        (fun a t => C.post job.request job.start a t ∧ C.idle pid t) t := by
  have hensures := (h.runs pid job hjob).ensures
  rw [hrest] at hensures
  exact hensures w.state (C.rely_refl pid w.state) r t hperform

/-- The events keep the contract. -/
theorem Holds.step (h : C.Holds w) {e : Event Request}
    (hallowed : ∀ pid request, e = .start pid request → allowed request)
    (hstep : M.step w e = some w') : C.Holds w' := by
  cases e with
  | start pid request =>
    rw [Machine.step] at hstep
    split at hstep
    · cases hstep
    · rename_i hnone
      cases hstep
      refine h.event C rfl h.inv (fun other _ => C.rely_refl other _) (C.grows_refl _)
        (List.subset_append_left _ _) List.prefix_rfl nofun ?_ (fun call hcall => .inl hcall)
      rintro _ ⟨⟩
      have hrequest := hallowed pid request rfl
      refine ⟨hrequest, List.mem_append_right _ (List.mem_singleton_self request),
        C.ensures pid request w.state hrequest h.inv (h.idle pid hnone), C.grows_refl _,
        Nat.le_refl _, fun k call hcall _ => ?_⟩
      exact (h.returned call (List.mem_of_getElem? hcall)).final
  | call pid =>
    rw [Machine.step] at hstep
    split at hstep
    · rename_i request since start c next hjob
      obtain ⟨⟨r, t⟩, hperform, hw'⟩ := Option.map_eq_some_iff.1 hstep
      obtain ⟨hguarantee, hnext⟩ := h.guarantee C hjob rfl hperform
      have hruns := h.runs pid _ hjob
      have hgrows := C.grows_of_guarantee pid request _ _ h.inv hguarantee
      subst hw'
      refine h.event C rfl (C.inv_of_guarantee pid request _ _ h.inv hguarantee)
        (fun other hne => C.rely_of_guarantee pid other request _ _ hne.symm h.inv hguarantee)
        hgrows (List.Subset.refl _) List.prefix_rfl nofun ?_ (fun call hcall => .inl hcall)
      rintro _ ⟨⟩
      exact ⟨hruns.allowed, hruns.requested, hnext, C.grows_trans _ _ _ hruns.grows hgrows,
        hruns.since, hruns.later⟩
    · cases hstep
  | finish pid =>
    rw [Machine.step] at hstep
    split at hstep
    · rename_i request since start result hjob
      have hruns := h.runs pid _ hjob
      obtain ⟨hpost, hidle⟩ := hruns.ensures w.state (C.rely_refl pid w.state)
      cases hstep
      refine h.event C rfl h.inv (fun other _ => C.rely_refl other _) (C.grows_refl _)
        (List.Subset.refl _) (List.prefix_append _ _) (fun _ => hidle) nofun ?_
      intro call hcall
      rcases List.mem_append.1 hcall with hold | hnew
      · exact .inl hold
      · obtain rfl := List.mem_singleton.1 hnew
        refine .inr ⟨hruns.allowed, hruns.requested, hpost, hruns.grows, C.grows_refl _, ?_, ?_⟩
        · exact Nat.le_trans hruns.since (List.prefix_append _ _).length_le
        · intro k other hother hk
          rw [List.getElem?_append_left (Nat.lt_of_lt_of_le hk hruns.since)] at hother
          exact hruns.later k other hother hk
    · cases hstep
  | crash pid =>
    rw [Machine.step] at hstep
    split at hstep
    · cases hstep
      exact h.event C rfl (C.inv_release pid _ h.inv)
        (fun other hne => C.rely_release pid other _ hne.symm h.inv) (C.grows_release pid _ h.inv)
        (List.Subset.refl _) List.prefix_rfl (fun _ => C.idle_release pid _ h.inv) nofun
        (fun call hcall => .inl hcall)
    · cases hstep

/-- The contract holds in every pool that is reached. -/
theorem invariant {initial : σ} (hinv : C.inv initial) (hidle : ∀ pid, C.idle pid initial)
    (hw : (M.system allowed initial).Reachable w) : C.Holds w := by
  refine hw.invariant ?_ fun w e w' _ hholds hstep => hholds.step C hstep.1 hstep.2
  rintro _ rfl
  exact ⟨hinv, fun pid _ => hidle pid, nofun, nofun⟩

/-- What is there is never undone. -/
theorem Holds.grows_step (h : C.Holds w) {e : Event Request} (hstep : M.step w e = some w') :
    C.grows w.state w'.state := by
  rcases state_of_step hstep with ⟨hstate, -⟩ | ⟨pid, job, c, next, r, -, hjob, hrest, hperform⟩ |
    ⟨pid, -, hstate⟩
  · rw [hstate]
    exact C.grows_refl _
  · exact C.grows_of_guarantee pid job.request _ _ h.inv (h.guarantee C hjob hrest hperform).1
  · rw [hstate]
    exact C.grows_release pid _ h.inv

/-- Nor is it undone in a run. -/
theorem grows_run {initial : σ} (hinv : C.inv initial) (hidle : ∀ pid, C.idle pid initial)
    (hw : (M.system allowed initial).Reachable w) {es : List (Event Request)}
    (hrun : (M.system allowed initial).Run w es w') : C.grows w.state w'.state := by
  induction hrun with
  | nil => exact C.grows_refl _
  | cons hstep _ ih =>
    have hgrows := (C.invariant hinv hidle hw).grows_step C hstep.2
    exact C.grows_trans _ _ _ hgrows (ih (hw.step hstep))

end Contract

end Machine

end Interference
