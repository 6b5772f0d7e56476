import TradingAgent.UsDay.Reopening

/-!
# The processes of the thesis store

What holds in every run of the processes (`WorldInv`): a chain is locked by one process, and each of
them relies on what it has made sure of.

In runs whose crashes leave nothing torn (`cleanSystem`), the store can always be opened, its chains
are read, each call does what the files say, and a call that is interrupted can be repeated
(`repeats_after_crashes`). A crash inside the first opening, or inside the creation of a namespace,
may leave something that is refused for ever (`StoreSample`).
-/

namespace TradingAgent.UsDay

open Transition Writing UsDayThesisStore

/-! ## Processes -/

section Processes

variable {sha : Sha256} {texts : Set (List JsonAtom)} {world later : StoreWorld}

/-- What holds wherever the processes are, and wherever they have crashed. -/
structure WorldInv (sha : Sha256) (texts : Set (List JsonAtom)) (world : StoreWorld) : Prop where
  disk : world.disk.Inv sha texts
  phases : ∀ pid, (world.phases pid).Holds world.disk
  calls : ∀ pid call, (world.phases pid).call? = some call →
    call.isValid sha = true ∧ call.text ∈ texts
  /-- A chain is locked by one process. -/
  locks : ∀ pid other thesisId, (world.phases pid).locked? = some thesisId →
    (world.phases other).locked? = some thesisId → pid = other

theorem worldInv_initial : WorldInv sha texts {} := by
  refine ⟨⟨⟨fun _ => nofun, fun _ _ => nofun, fun _ _ => rfl, fun _ => ⟨rfl, rfl⟩⟩, fun _ _ => nofun,
    fun _ => List.forall_mem_nil _, fun _ _ => nofun⟩, fun _ => trivial, fun _ _ => nofun,
    fun _ _ _ => nofun⟩

/-- One process goes on, and the others stay where they are. -/
theorem WorldInv.update (h : WorldInv sha texts world) (pid : ℕ) {disk : Disk} {next : Phase}
    (hkept : world.disk.Kept sha texts (world.phases pid).locked? disk) (hnext : next.Holds disk)
    (hcall : ∀ call, next.call? = some call → call.isValid sha = true ∧ call.text ∈ texts)
    (hlock : ∀ thesisId, next.locked? = some thesisId → ∀ other, other ≠ pid →
      (world.phases other).locked? ≠ some thesisId) :
    WorldInv sha texts ⟨disk, Function.update world.phases pid next⟩ := by
  refine ⟨hkept.inv, fun other => ?_, fun other call hother => ?_, fun a b thesisId ha hb => ?_⟩
  · dsimp only
    by_cases heq : other = pid
    · subst heq
      rwa [Function.update_self]
    · rw [Function.update_of_ne heq]
      refine (h.phases other).mono hkept.grows fun thesisId hlocked => hkept.frame thesisId ?_
      exact fun hmine => heq (h.locks other pid thesisId hlocked hmine)
  · dsimp only at hother
    by_cases heq : other = pid
    · subst heq
      rw [Function.update_self] at hother
      exact hcall call hother
    · rw [Function.update_of_ne heq] at hother
      exact h.calls other call hother
  · dsimp only at ha hb
    by_cases hap : a = pid
    · by_cases hbp : b = pid
      · rw [hap, hbp]
      · subst hap
        rw [Function.update_self] at ha
        rw [Function.update_of_ne hbp] at hb
        exact absurd hb (hlock thesisId ha b hbp)
    · rw [Function.update_of_ne hap] at ha
      by_cases hbp : b = pid
      · subst hbp
        rw [Function.update_self] at hb
        exact absurd ha (hlock thesisId hb a hap)
      · rw [Function.update_of_ne hbp] at hb
        exact h.locks a b thesisId ha hb

/-- After an error, the store stays open. -/
theorem Phase.Holds.failed {disk later : Disk} {phase : Phase} (h : phase.Holds disk)
    (hgrows : disk.Grows later) : phase.failed.Holds later := by
  cases phase with
  | closed => trivial
  | opening token => trivial
  | opened store => exact hgrows.anchor _ h
  | preparesTheses store thesis => exact hgrows.anchor _ h
  | preparesChain store change => exact hgrows.anchor _ h
  | publishesThesis store thesis => exact hgrows.anchor _ h.1
  | awaitsChain store change => exact hgrows.anchor _ h.1
  | readsThesis store change => exact hgrows.anchor _ h.1
  | readsChanges store change thesis => exact hgrows.anchor _ h.1
  | preparesNext store change => exact hgrows.anchor _ h.1
  | publishesChange store change => exact hgrows.anchor _ h.1

theorem call?_failed (phase : Phase) : phase.failed.call? = none ∧ phase.failed.locked? = none := by
  cases phase <;> exact ⟨rfl, rfl⟩

theorem worldInv_step (hsha : sha.Separates texts) (h : WorldInv sha texts world) {action : Action}
    (hstep : (storeSystem sha texts).step world action later) :
    WorldInv sha texts later ∧ world.disk.Grows later.disk := by
  obtain ⟨hallowed, hstep⟩ := hstep
  cases action with
  | openStore pid token =>
    rw [StoreWorld.step] at hstep
    split at hstep
    · cases hstep
      exact ⟨h.update pid (.refl h.disk _) trivial (fun _ => nofun) (fun _ => nofun), .refl _⟩
    · cases hstep
  | call pid call =>
    rw [StoreWorld.step] at hstep
    split at hstep
    · rename_i store hopened
      cases hstep
      have hanchor : world.disk.anchor = some store := by
        have hphase := h.phases pid
        rwa [hopened] at hphase
      refine ⟨h.update pid (.refl h.disk _) ?_ (fun other hother => ?_) (fun thesisId => ?_), .refl _⟩
      · cases call <;> exact hanchor
      · cases call <;> cases hother <;> exact hallowed
      · cases call <;> nofun
    · cases hstep
  | advance pid =>
    cases hstep
    have hphase := h.phases pid
    have hkept := (advance_keeps hsha h.disk hphase (h.calls pid)).after
    refine ⟨?_, hkept.grows⟩
    cases hresult : (advance (world.phases pid) world.disk).2 with
    | error e =>
      refine h.update pid hkept (hphase.failed hkept.grows) (fun call hcall => ?_)
        (fun thesisId hlocked => ?_)
      · rw [(call?_failed _).1] at hcall
        cases hcall
      · rw [(call?_failed _).2] at hlocked
        cases hlocked
    | ok result =>
      obtain ⟨next, returned⟩ := result
      obtain ⟨hnext, hcall, hlock⟩ := advance_holds h.disk hphase hkept.grows hresult
      refine h.update pid hkept hnext (fun call hnextcall => ?_) (fun thesisId hlocked => ?_)
      · rcases hcall with hsame | hnone
        · exact h.calls pid call (hsame ▸ hnextcall)
        · rw [hnone] at hnextcall
          cases hnextcall
      · rcases hlock with hnone | hsame | ⟨store, change, hawaits, hacquired⟩
        · rw [hnone] at hlocked
          cases hlocked
        · intro other hne hother
          exact hne (h.locks other pid thesisId hother (hsame ▸ hlocked))
        · -- The lock is free when it is acquired.
          rw [hacquired] at hlocked
          cases hlocked
          exact fun other _ => hallowed store change hawaits other
  | crash pid writes =>
    cases hstep
    have hkept := advance_keeps hsha h.disk (h.phases pid) (h.calls pid) _ _
      (List.take_append_drop writes _).symm
    exact ⟨h.update pid hkept trivial (fun _ => nofun) (fun _ => nofun), hkept.grows⟩

theorem worldInv_of_reachable (hsha : sha.Separates texts)
    (h : (storeSystem sha texts).Reachable world) : WorldInv sha texts world :=
  h.invariant (fun _ hinit => hinit ▸ worldInv_initial)
    fun _ _ _ _ hworld hstep => (worldInv_step hsha hworld hstep).1

/-! ## Runs that leave nothing torn -/

/-- The steps of such a run are steps of the processes. -/
theorem reachable_of_clean (h : (cleanSystem sha texts).Reachable world) :
    (storeSystem sha texts).Reachable world := by
  refine h.invariant (fun _ hinit => .init hinit) fun _ _ _ _ hreachable hstep => ?_
  exact hreachable.step hstep.1

theorem whole_step (hsha : sha.Separates texts) (h : WorldInv sha texts world)
    (hwhole : world.disk.IsWhole) {action : Action}
    (hstep : (cleanSystem sha texts).step world action later) : later.disk.IsWhole := by
  obtain ⟨⟨-, hstep⟩, hclean⟩ := hstep
  cases action with
  | openStore pid token =>
    rw [StoreWorld.step] at hstep
    split at hstep
    · cases hstep
      exact hwhole
    · cases hstep
  | call pid call =>
    rw [StoreWorld.step] at hstep
    split at hstep
    · cases hstep
      exact hwhole
    · cases hstep
  | advance pid =>
    cases hstep
    have hsplit := (List.append_nil (advance (world.phases pid) world.disk).1).symm
    have hleft := leftBy h.disk hwhole (h.phases pid) hsha (h.calls pid) hsplit
    exact (hleft.clean (isTorn_advance h.disk hwhole (h.phases pid))).1
  | crash pid writes =>
    cases hstep
    have hsplit := (List.take_append_drop writes (advance (world.phases pid) world.disk).1).symm
    have hleft := leftBy h.disk hwhole (h.phases pid) hsha (h.calls pid) hsplit
    refine (hleft.clean ?_).1
    rw [Action.isClean, decide_eq_true_eq] at hclean
    exact Bool.eq_false_iff.2 hclean

theorem whole_of_reachable (hsha : sha.Separates texts)
    (h : (cleanSystem sha texts).Reachable world) : world.disk.IsWhole := by
  refine h.invariant (P := fun world => world.disk.IsWhole) (fun s hinit => ?_)
    fun s _ _ hreachable hwhole hstep => ?_
  · rw [show s = {} from hinit]
    exact ⟨fun _ => ⟨rfl, rfl⟩, fun _ hdirectory => absurd rfl hdirectory⟩
  · exact whole_step hsha (worldInv_of_reachable hsha (reachable_of_clean hreachable)) hwhole hstep

/-- Everything that is there stays. -/
theorem grows_of_run (hsha : sha.Separates texts) (h : WorldInv sha texts world)
    {actions : List Action} (hrun : (storeSystem sha texts).Run world actions later) :
    world.disk.Grows later.disk := by
  induction hrun with
  | nil => exact .refl _
  | cons hstep _ ih =>
    obtain ⟨hnext, hgrows⟩ := worldInv_step hsha h hstep
    exact hgrows.trans (ih hnext)

theorem run_of_clean {actions : List Action}
    (hrun : (cleanSystem sha texts).Run world actions later) :
    (storeSystem sha texts).Run world actions later := by
  induction hrun with
  | nil => exact .nil _
  | cons hstep _ ih => exact .cons hstep.1 ih

/-- A change that is published has a thesis, in a store that is bound. -/
theorem exists_of_published {disk : Disk} (h : disk.Inv sha texts) {thesisId : String}
    {change : UsDayThesisChange} (hchange : change ∈ disk.changes thesisId) :
    ∃ store thesis, disk.anchor = some store ∧ disk.theses thesisId = some thesis := by
  obtain ⟨hthesis, hchained⟩ := h.change thesisId change hchange
  obtain ⟨thesis, hthesis⟩ := Option.ne_none_iff_exists'.1 hthesis
  obtain ⟨registered, hregistered⟩ := Option.ne_none_iff_exists'.1
    (hchained (.changesOf thesisId) (by simp [Namespace.parts]))
  exact ⟨registered.store, thesis, (h.registry.registered _ _ hregistered).1, hthesis⟩

/-- In every state of a run whose crashes leave nothing torn, the changes that are published can be
    read, as one chain, and stay; a call to publish one tells the truth, and returns that it is there
    once it is. Whatever the phase of a process, the store is opened again, and its call does what the
    files say; after a crash it does what it would have done, or succeeds, exactly if the crash leaves
    nothing torn. -/
theorem repeats_after_crashes (hsha : sha.Separates texts)
    (h : (cleanSystem sha texts).Reachable world) :
    (∀ store thesisId thesis, world.disk.anchor = some store →
        world.disk.theses thesisId = some thesis →
      (changes store thesisId world.disk).2 = .ok (world.disk.changes thesisId) ∧
        IsChain thesisId thesis.observedAt (world.disk.changes thesisId)) ∧
      (∀ change, change ∈ world.disk.changes change.thesisId → ∃ store thesis,
        world.disk.anchor = some store ∧ world.disk.theses change.thesisId = some thesis ∧
          (UsDayThesisStore.publishChange store change world.disk).2 = .ok false) ∧
      (∀ actions later, (cleanSystem sha texts).Run world actions later →
        ∀ thesisId, world.disk.changes thesisId <+: later.disk.changes thesisId) ∧
      (∀ pid change, (world.phases pid).call? = some (.publishChange change) →
        IsTold world.disk (world.phases pid) change) ∧
      (∀ pid token call, (world.phases pid).call? = some call →
        (reopen token (world.phases pid) world.disk).2 = call.outcome world.disk) ∧
      ∀ pid writes token,
        ((∃ b, (reopen token (world.phases pid)
              (world.disk.after (world.phases pid) writes)).2 = .ok b) ∨
            (reopen token (world.phases pid) (world.disk.after (world.phases pid) writes)).2 =
              ((world.phases pid).finish world.disk).2) ↔
          (Action.crash pid writes).isClean world = true := by
  have hworld := worldInv_of_reachable hsha (reachable_of_clean h)
  have hwhole := whole_of_reachable hsha h
  refine ⟨fun store thesisId thesis hanchor hthesis => ⟨?_, ?_⟩, fun change hchange => ?_,
    fun actions later hrun => ?_, fun pid change hcall => ?_, fun pid token call hcall => ?_,
    fun pid writes token => ?_⟩
  · rw [changes_of_whole hworld.disk hanchor hthesis hwhole]
  · exact (hworld.disk.chain thesisId thesis hthesis).1
  · obtain ⟨store, thesis, hanchor, hthesis⟩ := exists_of_published hworld.disk hchange
    have hnodup := (List.nodup_cons.1 (hworld.disk.chain _ _ hthesis).2).2
    have hrun := run_eq_outcome hworld.disk hanchor hwhole (.publishChange change)
    rw [StoreCall.run, StoreCall.outcome, hthesis] at hrun
    exact ⟨store, thesis, hanchor, hthesis, hrun.trans (checkChange_of_mem hnodup hchange)⟩
  · exact (grows_of_run hsha hworld (run_of_clean hrun)).changes
  · exact isTold hworld.disk (hworld.phases pid) hcall
  · obtain ⟨-, -, hreopened⟩ :=
      @reopen_of_whole sha texts world.disk (world.phases pid) token hworld.disk hwhole
    rw [hreopened, hcall]
  · rw [reopen_iff hworld.disk hwhole (hworld.phases pid) hsha (hworld.calls pid), Action.isClean,
      decide_eq_true_eq, Bool.not_eq_true]

end Processes

/-! ## An example -/

namespace StoreSample

def hex (c : Char) : String := String.ofList (List.replicate 64 c)

/-- A digest that tells changes from theses. -/
def digest : Sha256 where
  hexdigest material := hex (if material.length = 6 then 'b' else 'a')
  isHex64_hexdigest material := by split_ifs <;> decide +kernel

/-- A thesis that recommends nothing. -/
def thesis : UsDayTradeThesis where
  thesisId := hex 'a'
  decision := .noTrade
  situationId := hex '1'
  agentVersionId := hex '2'
  playbookId := "breakout"
  themeId := hex '3'
  catalystEventId := hex '4'
  flowInferenceKind := none
  themeName := "chips"
  symbol := none
  entryPrice := none
  stopPrice := none
  targets := []
  invalidationRule := "There is no setup."
  confidenceBps := 0
  evidenceRefs := []
  observedAt := 0
  validUntil := 60
  reasonCode := some "no_setup"

def change : UsDayThesisChange := ⟨hex 'b', hex 'a', hex 'a', .hold, 10, "It is held."⟩

def texts : Set (List JsonAtom) := {m | m = thesis.payload ∨ m = change.payload}

theorem separates : digest.Separates texts := by
  have hne : digest.hexdigest thesis.payload ≠ digest.hexdigest change.payload := by decide +kernel
  rintro _ (rfl | rfl) _ (rfl | rfl) heq
  · rfl
  · exact absurd heq hne
  · exact absurd heq.symm hne
  · rfl

theorem isValid : thesis.validateThesis digest = true ∧ change.validateChange digest = true := by
  decide +kernel

/-- The process 0 opens the store for the first time. -/
def opening : StoreWorld where
  phases := Function.update (fun _ => .closed) 0 (.opening "t")

theorem opening_reachable : (cleanSystem digest texts).Reachable opening :=
  .step (.init rfl) (e := .openStore 0 "t") ⟨⟨trivial, rfl⟩, rfl⟩

/-- It crashes after it has created the registry: the store is refused for ever, though it would have
    been opened. -/
theorem opening_is_refused :
    (storeSystem digest texts).Reachable opening ∧
      ((opening.phases 0).finish opening.disk).2 = .ok true ∧
      ∀ token, (reopen token (opening.phases 0)
        (opening.disk.after (opening.phases 0) 2)).2 = .error .rootNotBound :=
  ⟨reachable_of_clean opening_reachable, rfl, fun _ => rfl⟩

/-- It opens the store, publishes the thesis, and starts to publish the change. -/
def actions : List Action :=
  [.openStore 0 "t", .advance 0, .call 0 (.publishThesis thesis), .advance 0, .advance 0,
    .call 0 (.publishChange change)]

def worldAfter (n : ℕ) : StoreWorld := (System.replay StoreWorld.step {} (actions.take n)).getD {}

theorem publishing_reachable : (cleanSystem digest texts).Reachable (worldAfter 6) := by
  have h₂ : (cleanSystem digest texts).Reachable (worldAfter 2) :=
    opening_reachable.step (e := .advance 0) ⟨⟨fun _ _ h => (by cases h), rfl⟩, rfl⟩
  have h₃ : (cleanSystem digest texts).Reachable (worldAfter 3) :=
    h₂.step (e := .call 0 (.publishThesis thesis)) ⟨⟨⟨isValid.1, .inl rfl⟩, rfl⟩, rfl⟩
  have h₄ : (cleanSystem digest texts).Reachable (worldAfter 4) :=
    h₃.step (e := .advance 0) ⟨⟨fun _ _ h => (by cases h), rfl⟩, rfl⟩
  have h₅ : (cleanSystem digest texts).Reachable (worldAfter 5) :=
    h₄.step (e := .advance 0) ⟨⟨fun _ _ h => (by cases h), rfl⟩, rfl⟩
  exact h₅.step (e := .call 0 (.publishChange change)) ⟨⟨⟨isValid.2, .inr rfl⟩, rfl⟩, rfl⟩

/-- Once the directory of the changes is bound, the call is repeated, but not right before that. -/
theorem change_is_repeated :
    (∃ b, (reopen "u" ((worldAfter 6).phases 0)
        ((worldAfter 6).disk.after ((worldAfter 6).phases 0) 2)).2 = .ok b) ∧
      ¬ ((∃ b, (reopen "u" ((worldAfter 6).phases 0)
          ((worldAfter 6).disk.after ((worldAfter 6).phases 0) 1)).2 = .ok b) ∨
        (reopen "u" ((worldAfter 6).phases 0)
            ((worldAfter 6).disk.after ((worldAfter 6).phases 0) 1)).2 =
          (((worldAfter 6).phases 0).finish (worldAfter 6).disk).2) := by
  obtain ⟨-, -, -, -, -, hiff⟩ := repeats_after_crashes separates publishing_reachable
  refine ⟨?_, fun hdone => ?_⟩
  · rcases (hiff 0 2 "u").2 rfl with hok | hsame
    · exact hok
    · exact ⟨true, hsame⟩
  · cases (hiff 0 1 "u").1 hdone

end StoreSample

end TradingAgent.UsDay
