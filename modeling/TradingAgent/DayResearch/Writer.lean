import TradingAgent.DayResearch.Search
import TradingAgent.Library.Transaction

/-!
# The writer of the ledger

* The calls are made by a writer (`ExperimentLedgerWriter`), in a transaction of its own. It keeps
  the graph of the versions that it has audited for a binding, and forgets it when a family or a
  version is registered (`ExperimentLedgerWriter.call`).
* A writer begins with the committed tables, and what it has written is committed or rolled back, at
  any time (`storeSystem`).
* The graph that it keeps is the one that it would read (`ExperimentLedgerWriter.IsCurrent`): it
  returns and writes what it would if it audited before each binding, so that the tables are those of
  a database whose calls keep no graph (`storeRefinement`).
-/

namespace TradingAgent.DayResearch

open Except Transition

variable {ctx : DayResearchContext} {ledger next : DayResearchLedger} {b : Bool}

/-! ## What a call does -/

/-- The record of a call is among the rows. -/
def IsRecorded (ledger : DayResearchLedger) : Call → Prop
  | .preregistration manifest => manifest ∈ ledger.preregistrations
  | .attempt attempt => attempt ∈ ledger.attempts
  | .reveal reveal => ∃ row ∈ ledger.holdoutReveals, row.reveal = reveal
  | .family family => family ∈ ledger.families
  | .version version => version ∈ ledger.versions
  | .binding binding => binding ∈ ledger.bindings
  | .capsule capsule => capsule ∈ ledger.capsules

/-- What a call returns, and the tables after it. -/
inductive Writes (ctx : DayResearchContext) (ledger : DayResearchLedger) :
    Call → Except LedgerError Bool → DayResearchLedger → Prop
  | refused (call : Call) (e : LedgerError) : Writes ctx ledger call (.error e) ledger
  | known (call : Call) : IsRecorded ledger call → Writes ctx ledger call (.ok false) ledger
  | unsealed {manifest : PreregistrationManifest} (e : LedgerError) :
      IsNewPreregistration ctx ledger manifest →
      Writes ctx ledger (.preregistration manifest) (.error e)
        { ledger with preregistrations := ledger.preregistrations ++ [manifest] }
  | preregistration {manifest : PreregistrationManifest} :
      IsNewPreregistration ctx ledger manifest →
      (∀ row ∈ ledger.holdoutSeals, row.hypothesisId ≠ manifest.hypothesis.hypothesisId ∧
        row.sealed.sealId ≠ manifest.hypothesis.holdoutPeriodSealedRef.sealId) →
      Writes ctx ledger (.preregistration manifest) (.ok true)
        { ledger with
          preregistrations := ledger.preregistrations ++ [manifest]
          holdoutSeals := ledger.holdoutSeals ++ [manifest.storedSeal] }
  | attempt {attempt : ResearchAttempt} : attempt.validateAttempt = true →
      (∃ manifest, IsPreregistered ctx ledger attempt manifest) →
      IsNewAttempt ctx ledger attempt →
      Writes ctx ledger (.attempt attempt) (.ok true)
        { ledger with attempts := ledger.attempts ++ [attempt] }
  | reveal {row : StoredReveal} {manifest : PreregistrationManifest} :
      IsRevealed ledger row manifest → IsNewReveal ctx ledger row →
      Writes ctx ledger (.reveal row.reveal) (.ok true)
        { ledger with holdoutReveals := ledger.holdoutReveals ++ [row] }
  | family {family : HypothesisFamily} : family.validateFamily ctx.digests = true →
      IsNewFamily ctx ledger family →
      Writes ctx ledger (.family family) (.ok true)
        { ledger with families := ledger.families ++ [family] }
  | version {version : HypothesisVersion} : version.validateVersion ctx.digests = true →
      IsNewVersion ctx ledger version →
      Writes ctx ledger (.version version) (.ok true)
        { ledger with versions := ledger.versions ++ [version] }
  | binding {binding : DayResearchAttemptBinding} : binding.validateBinding ctx.digests = true →
      IsNewBinding ctx ledger binding →
      Writes ctx ledger (.binding binding) (.ok true)
        { ledger with bindings := ledger.bindings ++ [binding] }
  | capsule {capsule : StrategyCapsule} : capsule.validateCapsule ctx.digests = true →
      (∀ row ∈ ledger.capsules, row.capsuleId ≠ capsule.capsuleId) →
      (∃ binding version attempt manifest,
        IsPublished ctx ledger capsule binding version attempt manifest) →
      Writes ctx ledger (.capsule capsule) (.ok true)
        { ledger with capsules := ledger.capsules ++ [capsule] }

theorem writes_call (h : IsLedger ctx ledger) (call : Call) :
    Writes ctx ledger call (ledger.call ctx call).1 (ledger.call ctx call).2 := by
  cases call with
  | preregistration manifest =>
    rw [DayResearchLedger.call]
    rcases registerPreregistration_cases h.preregistrations manifest with
      ⟨e, heq⟩ | ⟨-, hmem, heq⟩ | ⟨hnew, ⟨e, heq⟩ | ⟨hseal, heq⟩⟩
    · rw [heq]
      exact .refused _ e
    · rw [heq]
      exact .known _ hmem
    · rw [heq]
      exact .unsealed e hnew
    · rw [heq]
      exact .preregistration hnew hseal
  | attempt attempt =>
    rw [DayResearchLedger.call]
    rcases settle_cases (appendAttempt ctx ledger attempt) with ⟨b, next, hok, heq⟩ | ⟨e, -, heq⟩
    · rw [heq]
      obtain ⟨hvalid, hpre, ⟨hmem, rfl, rfl⟩ | ⟨hnew, rfl, rfl⟩⟩ := (appendAttempt_eq_ok h).1 hok
      · exact .known _ hmem
      · exact .attempt hvalid hpre hnew
    · rw [heq]
      exact .refused _ e
  | reveal reveal =>
    rw [DayResearchLedger.call]
    rcases settle_cases (revealHoldout ctx ledger reveal) with ⟨b, next, hok, heq⟩ | ⟨e, -, heq⟩
    · rw [heq]
      obtain ⟨-, row, manifest, rfl, hrevealed, hnew, rfl, rfl⟩ := (revealHoldout_eq_ok h).1 hok
      exact .reveal hrevealed hnew
    · rw [heq]
      exact .refused _ e
  | family family =>
    rw [DayResearchLedger.call]
    rcases settle_cases (registerDayHypothesisFamily ctx ledger family) with
      ⟨b, next, hok, heq⟩ | ⟨e, -, heq⟩
    · rw [heq]
      obtain ⟨hvalid, ⟨hmem, rfl, rfl⟩ | ⟨hnew, rfl, rfl⟩⟩ :=
        (registerDayHypothesisFamily_eq_ok h.families).1 hok
      · exact .known _ hmem
      · exact .family hvalid hnew
    · rw [heq]
      exact .refused _ e
  | version version =>
    rw [DayResearchLedger.call]
    rcases settle_cases (registerDayHypothesisVersion ctx ledger version) with
      ⟨b, next, hok, heq⟩ | ⟨e, -, heq⟩
    · rw [heq]
      obtain ⟨hvalid, ⟨hmem, rfl, rfl⟩ | ⟨hnew, rfl, rfl⟩⟩ :=
        (registerDayHypothesisVersion_eq_ok h.families h.versions).1 hok
      · exact .known _ hmem
      · exact .version hvalid hnew
    · rw [heq]
      exact .refused _ e
  | binding binding =>
    rw [DayResearchLedger.call, registerDayResearchAttemptBinding_eq h.isAudited]
    rcases settle_cases (registerDayResearchAttemptBindingAfterAudit ctx ledger
      ⟨ledger.families, ledger.versions⟩ binding) with ⟨b, next, hok, heq⟩ | ⟨e, -, heq⟩
    · rw [heq]
      obtain ⟨hvalid, ⟨hmem, rfl, rfl⟩ | ⟨hnew, rfl, rfl⟩⟩ :=
        (registerDayResearchAttemptBindingAfterAudit_eq_ok h.isAudited).1 hok
      · exact .known _ hmem
      · exact .binding hvalid hnew
    · rw [heq]
      exact .refused _ e
  | capsule capsule =>
    rw [DayResearchLedger.call]
    rcases settle_cases (registerDayStrategyCapsule ctx ledger capsule) with
      ⟨b, next, hok, heq⟩ | ⟨e, -, heq⟩
    · rw [heq]
      obtain ⟨hvalid, ⟨hmem, rfl, rfl⟩ | ⟨hid, hpublished, rfl, rfl⟩⟩ :=
        (registerDayStrategyCapsule_eq_ok h).1 hok
      · exact .known _ hmem
      · exact .capsule hvalid hid hpublished
    · rw [heq]
      exact .refused _ e

namespace Writes

variable {call : Call} {result : Except LedgerError Bool}

theorem isLedger (h : Writes ctx ledger call result next) (hledger : IsLedger ctx ledger) :
    IsLedger ctx next := by
  cases h with
  | refused => exact hledger
  | known => exact hledger
  | unsealed e hnew =>
    exact isLedger_preregistration hledger hnew List.prefix_rfl
      (hledger.seals.mono (List.prefix_append _ _))
  | preregistration hnew hseal =>
    exact isLedger_preregistration hledger hnew (List.prefix_append _ _)
      (hledger.seals.concat hseal)
  | attempt hvalid hpre hnew => exact isLedger_attempt hledger hvalid hpre hnew
  | reveal hrevealed hnew => exact isLedger_reveal hledger hrevealed hnew
  | family hvalid hnew => exact isLedger_family hledger hvalid hnew
  | version hvalid hnew => exact isLedger_version hledger hvalid hnew
  | binding hvalid hnew => exact isLedger_binding hledger hvalid hnew
  | capsule hvalid hid hpublished => exact isLedger_capsule hledger hvalid hid hpublished

theorem isExtension (h : Writes ctx ledger call result next) : IsExtension ledger next := by
  -- Whatever a call writes is appended.
  have happend {α : Type} (rows more : List α) : rows <+: rows ++ more := List.prefix_append _ _
  have hrefl := IsExtension.refl ledger
  cases h with
  | refused => exact hrefl
  | known => exact hrefl
  | unsealed => exact { hrefl with preregistrations := happend _ _ }
  | preregistration =>
    exact { hrefl with preregistrations := happend _ _, holdoutSeals := happend _ _ }
  | attempt => exact { hrefl with attempts := happend _ _ }
  | reveal => exact { hrefl with holdoutReveals := happend _ _ }
  | family => exact { hrefl with families := happend _ _ }
  | version => exact { hrefl with versions := happend _ _ }
  | binding => exact { hrefl with bindings := happend _ _ }
  | capsule => exact { hrefl with capsules := happend _ _ }

/-- After a call that returns, its record is among the rows. -/
theorem isRecorded (h : Writes ctx ledger call (.ok b) next) : IsRecorded next call := by
  cases h <;> simp_all [IsRecorded]

/-- The families and the versions stay as they are, unless one of them is registered. -/
theorem graph_eq (h : Writes ctx ledger call result next)
    (hfamily : ∀ family, call = .family family → result ≠ .ok true)
    (hversion : ∀ version, call = .version version → result ≠ .ok true) :
    next.families = ledger.families ∧ next.versions = ledger.versions := by
  cases h with
  | family => exact absurd rfl (hfamily _ rfl)
  | version => exact absurd rfl (hversion _ rfl)
  | _ => exact ⟨rfl, rfl⟩

end Writes

theorem IsRecorded.extend {call : Call} (h : IsRecorded ledger call)
    (hext : IsExtension ledger next) : IsRecorded next call := by
  cases call with
  | preregistration manifest => exact hext.preregistrations.subset h
  | attempt attempt => exact hext.attempts.subset h
  | reveal reveal =>
    obtain ⟨row, hrow, rfl⟩ := h
    exact ⟨row, hext.holdoutReveals.subset hrow, rfl⟩
  | family family => exact hext.families.subset h
  | version version => exact hext.versions.subset h
  | binding binding => exact hext.bindings.subset h
  | capsule capsule => exact hext.capsules.subset h

/-! ## Writers -/

/-- A writer, with the graph that it has audited. -/
structure ExperimentLedgerWriter where
  tables : DayResearchLedger
  dayResearchBindingGraph : Option StoredDayResearchVersionGraph := none
  deriving DecidableEq, Repr

/-- The graph is forgotten if a record was registered. -/
def keepUnlessRegistered (graph : Option StoredDayResearchVersionGraph) :
    Except LedgerError Bool → Option StoredDayResearchVersionGraph
  | .ok true => none
  | _ => graph

namespace ExperimentLedgerWriter

def auditedGraph (ctx : DayResearchContext) (writer : ExperimentLedgerWriter) :
    Except LedgerError StoredDayResearchVersionGraph :=
  match writer.dayResearchBindingGraph with
  | some graph => .ok graph
  | none => auditDayResearchAttemptBindings ctx writer.tables

def registerBinding (ctx : DayResearchContext) (writer : ExperimentLedgerWriter)
    (binding : DayResearchAttemptBinding) : Except LedgerError Bool × ExperimentLedgerWriter :=
  match writer.auditedGraph ctx with
  | .error e => (.error e, writer)
  | .ok graph =>
    let result := settle writer.tables
      (registerDayResearchAttemptBindingAfterAudit ctx writer.tables graph binding)
    (result.1, ⟨result.2, some graph⟩)

def call (ctx : DayResearchContext) (writer : ExperimentLedgerWriter) (call : Call) :
    Except LedgerError Bool × ExperimentLedgerWriter :=
  let result := writer.tables.call ctx call
  match call with
  | .binding binding => writer.registerBinding ctx binding
  | .family _ | .version _ =>
    (result.1, ⟨result.2, keepUnlessRegistered writer.dayResearchBindingGraph result.1⟩)
  | _ => (result.1, { writer with tables := result.2 })

/-- The graph that is kept is that of the tables. -/
def IsCurrent (writer : ExperimentLedgerWriter) : Prop :=
  ∀ graph, writer.dayResearchBindingGraph = some graph →
    graph = ⟨writer.tables.families, writer.tables.versions⟩

variable {writer : ExperimentLedgerWriter}

theorem auditedGraph_eq (h : IsLedger ctx writer.tables) (hcurrent : writer.IsCurrent) :
    writer.auditedGraph ctx = .ok ⟨writer.tables.families, writer.tables.versions⟩ := by
  rw [auditedGraph]
  cases hgraph : writer.dayResearchBindingGraph with
  | some graph =>
    dsimp only
    rw [hcurrent graph hgraph]
  | none =>
    dsimp only
    rw [auditDayResearchAttemptBindings, storedBindingAudit_eq_ok.2 ⟨h.isAudited, rfl⟩]
    rfl

theorem IsCurrent.of_eq {later : ExperimentLedgerWriter} (h : writer.IsCurrent)
    (hgraph : later.dayResearchBindingGraph = writer.dayResearchBindingGraph)
    (hrows : later.tables.families = writer.tables.families ∧
      later.tables.versions = writer.tables.versions) : later.IsCurrent := by
  intro graph hlater
  rw [hrows.1, hrows.2]
  exact h graph (hgraph ▸ hlater)

/-- What is kept of the graph after a call that may register a family or a version. -/
theorem isCurrent_keepUnlessRegistered {c : Call} {result : Except LedgerError Bool}
    (hcurrent : writer.IsCurrent) (hwrites : Writes ctx writer.tables c result next) :
    IsCurrent ⟨next, keepUnlessRegistered writer.dayResearchBindingGraph result⟩ := by
  by_cases hresult : result = .ok true
  · subst hresult
    rintro graph ⟨⟩
  · refine hcurrent.of_eq ?_ (hwrites.graph_eq (fun _ _ => hresult) fun _ _ => hresult)
    unfold keepUnlessRegistered
    split
    · exact absurd rfl hresult
    · rfl

/-- The tables of a writer that has made a call are those after the call, and so is what it returns,
    as if it kept no graph. -/
theorem call_eq (h : IsLedger ctx writer.tables) (hcurrent : writer.IsCurrent) (c : Call) :
    (writer.call ctx c).1 = (writer.tables.call ctx c).1 ∧
      (writer.call ctx c).2.tables = (writer.tables.call ctx c).2 ∧
      (writer.call ctx c).2.IsCurrent := by
  have hwrites := writes_call h c
  cases c with
  | binding binding =>
    have hcall : writer.call ctx (.binding binding) =
        ((writer.tables.call ctx (.binding binding)).1,
          ⟨(writer.tables.call ctx (.binding binding)).2,
            some ⟨writer.tables.families, writer.tables.versions⟩⟩) := by
      rw [call, registerBinding, auditedGraph_eq h hcurrent, DayResearchLedger.call,
        registerDayResearchAttemptBinding_eq h.isAudited]
    rw [hcall]
    refine ⟨rfl, rfl, ?_⟩
    rintro graph ⟨⟩
    obtain ⟨hfamilies, hversions⟩ := hwrites.graph_eq (by simp) (by simp)
    rw [hfamilies, hversions]
  | family family => exact ⟨rfl, rfl, isCurrent_keepUnlessRegistered hcurrent hwrites⟩
  | version version => exact ⟨rfl, rfl, isCurrent_keepUnlessRegistered hcurrent hwrites⟩
  | _ => exact ⟨rfl, rfl, hcurrent.of_eq rfl (hwrites.graph_eq (by simp) (by simp))⟩

end ExperimentLedgerWriter

/-! ## The store -/

/-- The committed tables, and the writer of the open transaction. -/
structure ExperimentLedgerStore where
  committed : DayResearchLedger := {}
  writer : Option ExperimentLedgerWriter := none
  deriving DecidableEq, Repr

/-- The tables that the next transaction begins with, if the open one is committed. -/
def ExperimentLedgerStore.tables (store : ExperimentLedgerStore) : DayResearchLedger :=
  (store.writer.map (·.tables)).getD store.committed

/-- There is one writer at a time. It is lost with its transaction. -/
def ExperimentLedgerStore.step (ctx : DayResearchContext) (store : ExperimentLedgerStore) :
    Transaction.Event Call → ExperimentLedgerStore
  | .begin => { store with writer := some (store.writer.getD ⟨store.committed, none⟩) }
  | .call c => { store with writer := store.writer.map fun writer => (writer.call ctx c).2 }
  | .commit => ⟨store.tables, none⟩
  | .rollback => ⟨store.committed, none⟩

/-- The store, from empty tables on, under any calls, commits and losses, in any order. -/
def storeSystem (ctx : DayResearchContext) :
    System ExperimentLedgerStore (Transaction.Event Call) where
  init store := store = {}
  step store event next := next = store.step ctx event

/-- What holds of the store. -/
structure IsStore (ctx : DayResearchContext) (store : ExperimentLedgerStore) : Prop where
  committed : IsLedger ctx store.committed
  tables : ∀ writer ∈ store.writer, IsLedger ctx writer.tables
  current : ∀ writer ∈ store.writer, writer.IsCurrent
  extension : ∀ writer ∈ store.writer, IsExtension store.committed writer.tables

variable {store later : ExperimentLedgerStore}

theorem IsStore.isLedger_tables (h : IsStore ctx store) : IsLedger ctx store.tables := by
  rw [ExperimentLedgerStore.tables]
  cases hwriter : store.writer with
  | none => exact h.committed
  | some writer => exact h.tables writer hwriter

theorem IsStore.isExtension_tables (h : IsStore ctx store) :
    IsExtension store.committed store.tables := by
  rw [ExperimentLedgerStore.tables]
  cases hwriter : store.writer with
  | none => exact .refl _
  | some writer => exact h.extension writer hwriter

theorem IsStore.step (h : IsStore ctx store) (event : Transaction.Event Call) :
    IsStore ctx (store.step ctx event) := by
  cases event with
  | begin =>
    -- A writer begins with no graph, and the open one stays as it is.
    have hbegin : ∀ writer ∈ some (store.writer.getD ⟨store.committed, none⟩),
        IsLedger ctx writer.tables ∧ writer.IsCurrent ∧
          IsExtension store.committed writer.tables := by
      rintro writer ⟨⟩
      cases hwriter : store.writer with
      | none => exact ⟨h.committed, fun _ hgraph => absurd hgraph (by simp), .refl _⟩
      | some writer => exact ⟨h.tables writer hwriter, h.current writer hwriter,
          h.extension writer hwriter⟩
    exact ⟨h.committed, fun writer hw => (hbegin writer hw).1,
      fun writer hw => (hbegin writer hw).2.1, fun writer hw => (hbegin writer hw).2.2⟩
  | call c =>
    have hcall : ∀ later ∈ store.writer.map fun writer => (writer.call ctx c).2,
        IsLedger ctx later.tables ∧ later.IsCurrent ∧
          IsExtension store.committed later.tables := by
      intro later hlater
      obtain ⟨writer, hwriter, rfl⟩ := Option.map_eq_some_iff.1 hlater
      have hledger := h.tables writer hwriter
      have hwrites := writes_call hledger c
      obtain ⟨-, htables, hcurrent⟩ :=
        ExperimentLedgerWriter.call_eq hledger (h.current writer hwriter) c
      rw [htables]
      exact ⟨hwrites.isLedger hledger, hcurrent,
        (h.extension writer hwriter).trans hwrites.isExtension⟩
    exact ⟨h.committed, fun later hl => (hcall later hl).1, fun later hl => (hcall later hl).2.1,
      fun later hl => (hcall later hl).2.2⟩
  | commit => exact ⟨h.isLedger_tables, by rintro _ ⟨⟩, by rintro _ ⟨⟩, by rintro _ ⟨⟩⟩
  | rollback => exact ⟨h.committed, by rintro _ ⟨⟩, by rintro _ ⟨⟩, by rintro _ ⟨⟩⟩

theorem isStore_of_reachable (h : (storeSystem ctx).Reachable store) : IsStore ctx store := by
  refine h.invariant ?_ ?_
  · rintro _ rfl
    exact ⟨isLedger_empty, by rintro _ ⟨⟩, by rintro _ ⟨⟩, by rintro _ ⟨⟩⟩
  · rintro store event _ - hstore rfl
    exact hstore.step event

/-- The events that happen one after the other are a run. -/
theorem run_foldl (store : ExperimentLedgerStore) (events : List (Transaction.Event Call)) :
    (storeSystem ctx).Run store events (events.foldl (·.step ctx) store) := by
  induction events generalizing store with
  | nil => exact .nil store
  | cons event events ih => exact .cons rfl (ih _)

theorem run_eq_foldl {events : List (Transaction.Event Call)}
    (h : (storeSystem ctx).Run store events later) : events.foldl (·.step ctx) store = later := by
  induction h with
  | nil => rfl
  | cons hstep _ ih =>
    cases hstep
    exact ih

theorem reachable_foldl (events : List (Transaction.Event Call)) :
    (storeSystem ctx).Reachable (events.foldl (·.step ctx) {}) :=
  ⟨_, events, rfl, run_foldl _ events⟩

/-- What a call leaves of the tables, if it audits them each time. -/
def DayResearchLedger.after (ctx : DayResearchContext) (ledger : DayResearchLedger) (c : Call) :
    DayResearchLedger :=
  (ledger.call ctx c).2

/-- The tables of a store, without what its writer keeps. -/
def ExperimentLedgerStore.database (store : ExperimentLedgerStore) :
    Transaction.Database DayResearchLedger :=
  ⟨store.committed, store.writer.map (·.tables)⟩

theorem ExperimentLedgerStore.committed_database (store : ExperimentLedgerStore) :
    store.database.committed = store.committed :=
  rfl

theorem IsStore.database_step (h : IsStore ctx store) (event : Transaction.Event Call) :
    (store.step ctx event).database =
      Transaction.step (DayResearchLedger.after ctx) store.database event := by
  cases event with
  | begin =>
    cases hwriter : store.writer <;>
      simp [Transaction.step, ExperimentLedgerStore.step, ExperimentLedgerStore.database, hwriter]
  | call c =>
    cases hwriter : store.writer with
    | none =>
      simp [Transaction.step, ExperimentLedgerStore.step, ExperimentLedgerStore.database, hwriter]
    | some writer =>
      obtain ⟨-, htables, -⟩ := ExperimentLedgerWriter.call_eq (h.tables writer hwriter)
        (h.current writer hwriter) c
      simp [Transaction.step, ExperimentLedgerStore.step, ExperimentLedgerStore.database, hwriter,
        htables, DayResearchLedger.after]
  | commit => rfl
  | rollback => rfl

theorem IsStore.database_foldl (h : IsStore ctx store) (events : List (Transaction.Event Call)) :
    (events.foldl (·.step ctx) store).database =
      events.foldl (Transaction.step (DayResearchLedger.after ctx)) store.database := by
  induction events generalizing store with
  | nil => rfl
  | cons event events ih => rw [List.foldl_cons, List.foldl_cons, ih (h.step event), h.database_step]

/-- The store stands for a database whose calls audit the tables each time. -/
def storeRefinement (ctx : DayResearchContext) :
    System.Refinement (storeSystem ctx) (Transaction.system {} (DayResearchLedger.after ctx)) where
  abs := ExperimentLedgerStore.database
  init_abs := by
    rintro _ rfl
    rfl
  step_abs := by
    rintro store event _ hreachable rfl
    exact .inr ⟨event, (isStore_of_reachable hreachable).database_step event⟩

/-- Whatever happens, the committed rows stay, in their order. -/
theorem isExtension_of_run {events : List (Transaction.Event Call)}
    (h : (storeSystem ctx).Reachable store) (hrun : (storeSystem ctx).Run store events later) :
    IsExtension store.committed later.committed := by
  -- So do those of the database that the store stands for.
  obtain ⟨_, hdatabase⟩ := (storeRefinement ctx).run h hrun
  have hcall : ∀ ledger c, IsLedger ctx ledger →
      Writes ctx ledger c (ledger.call ctx c).1 (ledger.after ctx c) :=
    fun ledger c hledger => writes_call hledger c
  exact Transaction.related IsExtension.refl (fun _ _ _ => .trans) isLedger_empty
    (fun ledger c hledger => (hcall ledger c hledger).isLedger hledger)
    (fun ledger c hledger => (hcall ledger c hledger).isExtension)
    ((storeRefinement ctx).reachable h) hdatabase

/-! ## A search -/

namespace SearchSample

/-- The digests of the sample repeat a digit. -/
def hex (c : Char) : String := String.ofList (List.replicate 64 c)

theorem isHex64_hex {c : Char} (h : (c.isDigit || ('a' ≤ c && c ≤ 'f')) = true) :
    isHex64 (hex c) = true := by
  rw [isHex64, hex, String.toList_ofList, decide_eq_true_iff]
  exact ⟨List.length_replicate, List.all_eq_true.2 fun d hd => (List.eq_of_mem_replicate hd) ▸ h⟩

theorem isHex64_a : isHex64 (hex 'a') = true := isHex64_hex (by decide)

theorem isHex64_b : isHex64 (hex 'b') = true := isHex64_hex (by decide)

theorem isHex64_c : isHex64 (hex 'c') = true := isHex64_hex (by decide)

theorem isHex64_d : isHex64 (hex 'd') = true := isHex64_hex (by decide)

theorem isHex64_e : isHex64 (hex 'e') = true := isHex64_hex (by decide)

theorem canonicalText_rule : canonicalText "rule" = true := by decide

theorem sortedUniqueText_rule : sortedUniqueText ["rule"] = true := by
  simp [sortedUniqueText, canonicalText_rule, sortedSet_eq_self_iff.2 (List.pairwise_singleton _ _)]

def env : DayResearchContext where
  digests := ⟨fun _ => hex 'a', fun _ => hex 'b', fun _ => hex 'c', fun _ => hex 'e',
    fun _ => hex 'd', fun _ => hex 'e'⟩
  familyKey := (·.familyId)
  versionKey := (·.hypothesisVersionId)
  manifestSha256 := (·.hypothesis.hypothesisId)
  attemptSha256 := (·.attemptId)
  revealSha256 := (·.revealId)
  restIsValid _ := true

/-- A moment in UTC, in seconds. -/
def second (n : ℤ) : DateTime := ⟨TimeDelta.seconds n, some 0⟩

def manifest : PreregistrationManifest where
  hypothesis := {
    hypothesisId := "momentum"
    parentHypothesisId := none
    searchFamilyId := "search"
    agentId := .intradayMomentum
    multipleTestingFamily := "rule"
    holdoutPeriodSealedRef := ⟨"seal", hex 'e', second 0, "owner", "once"⟩
    codeSha256 := hex 'e'
    dataManifestSha256 := hex 'e'
    rest := "" }
  hypothesisSha256 := hex 'e'
  preregisteredAt := second 1

def attempt : ResearchAttempt where
  attemptId := "attempt"
  hypothesisId := "momentum"
  branchIndex := 0
  inputHashes := [hex 'e']
  codeSha256 := hex 'e'
  dataManifestSha256 := hex 'e'
  startedAt := second 2
  finishedAt := some (second 3)
  status := .succeeded
  artifactRefs := ["artifact://safe/" ++ hex 'e']
  errorClass := none
  maxCpuSeconds := 1

def cost : CostModelDeclaration := ⟨"rule", 1, 1⟩

def family : HypothesisFamily where
  familyId := hex 'a'
  parentFamilyId := none
  canonicalQuestion := "rule"
  economicMechanism := "rule"
  alternativeExplanations := ["rule"]
  counterfactualBaseline := "rule"
  createdBy := "rule"
  createdAt := TimeDelta.seconds 1
  sourceLineage := ["rule"]

def version : HypothesisVersion where
  hypothesisVersionId := hex 'b'
  familyId := hex 'a'
  parentVersionId := none
  marketId := .usEquities
  universeSnapshotId := "rule"
  universeSnapshotAt := TimeDelta.seconds 1
  sourceRefs := ["rule"]
  methodologyTags := ["rule"]
  primaryEvaluationOwner := "rule"
  evaluationCadence := "rule"
  predictor := "rule"
  samplingTimestamp := TimeDelta.seconds 1
  target := "rule"
  targetHorizon := TimeDelta.hours 1
  expectedDirection := .positive
  entryRule := "rule"
  exitRule := "rule"
  stopRule := "rule"
  invalidationRule := "rule"
  threshold := 1
  costModel := cost
  freeParameters := []
  searchBudget := ⟨1, 1, 1⟩
  multipleTestingFamily := "rule"
  modelSha256 := hex 'e'
  promptSha256 := hex 'e'
  codeSha256 := hex 'e'
  dataManifestSha256 := hex 'e'
  protocolSha256 := hex 'e'
  createdAt := TimeDelta.seconds 2
  registrationCompletedBarAt := TimeDelta.seconds 3
  firstShadowEligibleAt := TimeDelta.seconds 4

def binding : DayResearchAttemptBinding where
  bindingId := hex 'c'
  attemptId := "attempt"
  marketId := .usEquities
  hypothesisVersionId := hex 'b'
  artifactRef := "artifact://safe/" ++ hex 'e'
  multipleTestingFamily := "rule"
  multipleTestingBudget := 2
  searchBudgetDebit := 1
  boundAt := TimeDelta.seconds 4

def capsule : StrategyCapsule where
  capsuleId := hex 'd'
  hypothesisVersionId := hex 'b'
  attemptBindingId := hex 'c'
  marketId := .usEquities
  artifactKind := .builtin
  artifactRef := "artifact://safe/" ++ hex 'e'
  artifactSha256 := hex 'e'
  generatedArtifactId := none
  evaluationCadence := "rule"
  evidenceSchema := ["rule"]
  entryRule := "rule"
  exitRule := "rule"
  stopRule := "rule"
  targetRule := "rule"
  costModel := cost
  slippageModelId := "rule"
  resourceLimits := {}
  riskPolicyRef := "rule"
  protocolSha256 := hex 'e'
  evaluatorSha256 := hex 'e'
  preflightReceipt := none
  publishedAt := TimeDelta.seconds 5
  authorityCeiling := .researchOnly

def reveal : HoldoutReveal where
  revealId := "reveal"
  hypothesisId := "momentum"
  sealId := "seal"
  commitmentSha256 := hex 'e'
  reviewerId := "reviewer"
  exactMetrics := [⟨"mean", 1, 0, 2⟩]
  sanitizedResult := {
    resultId := "result"
    hypothesisId := "momentum"
    ownerAgentId := .intradayMomentum
    outcome := .supported
    reasonCodes := [.preregisteredSupportMet]
    artifactRefs := ["artifact://safe/" ++ hex 'e']
    evaluatedAt := second 6 }
  revealedAt := second 6

theorem manifest_valid : manifest.validateManifest env = true := by
  simp [PreregistrationManifest.validateManifest, manifest, SealedHoldoutRef.validateSeal, isHex64_e,
    second, DateTime.aware, env]

theorem attempt_valid : attempt.validateAttempt = true := by
  have hfinished : second 2 ≤ second 3 := by decide
  have haware : ∀ n, (second n).aware = true := fun n => by simp [second, DateTime.aware]
  simp [ResearchAttempt.validateAttempt, attempt, isHex64_e, hfinished, haware,
    ResearchAttempt.statusIsValid]

theorem family_valid : family.validateFamily env.digests = true := by
  simp [HypothesisFamily.validateFamily, family, isHex64_a, canonicalText_rule,
    sortedUniqueText_rule, HypothesisFamily.canonicalId, env]

theorem version_valid : version.validateVersion env.digests = true := by
  have hhorizon : isTargetHorizon (TimeDelta.hours 1) = true := by decide
  have htimes : TimeDelta.seconds 1 ≤ TimeDelta.seconds 2 ∧
      TimeDelta.seconds 2 ≤ TimeDelta.seconds 3 ∧ TimeDelta.seconds 3 < TimeDelta.seconds 4 := by
    decide
  simp [HypothesisVersion.validateVersion, version, isHex64_a, isHex64_b, isHex64_e,
    canonicalText_rule, sortedUniqueText_rule, HypothesisVersion.canonicalId, env, cost,
    CostModelDeclaration.validateCostModel, hhorizon, SearchBudget.isValid,
    sortedSet_eq_self_iff.2 List.Pairwise.nil, htimes]

theorem binding_valid : binding.validateBinding env.digests = true := by
  have hattempt : canonicalText "attempt" = true := by decide
  simp [DayResearchAttemptBinding.validateBinding, binding, isHex64_b, isHex64_c, hattempt,
    canonicalText_rule, isSafeArtifactRef_append, isHex64_e, DayResearchAttemptBinding.canonicalId,
    env]

theorem capsule_valid : capsule.validateCapsule env.digests = true := by
  have hlimits : CapsuleResourceLimits.isValid
      { rssBytes := 1073741824, outputBytes := 1048576 } = true := by
    norm_num [CapsuleResourceLimits.isValid]
  simp [StrategyCapsule.validateCapsule, capsule, isHex64_b, isHex64_c, isHex64_d, isHex64_e,
    canonicalText_rule, sortedUniqueText_rule, isSafeArtifactRef_append, cost,
    CostModelDeclaration.validateCostModel, StrategyCapsule.artifactIsValid, hlimits,
    StrategyCapsule.canonicalId, env]

theorem reveal_valid : reveal.validateReveal = true := by
  simp [HoldoutReveal.validateReveal, reveal, isHex64_e, ExactHoldoutMetric.validateInterval,
    TerminalResearchResult.validateResult, isSafeArtifactRef_append, second, DateTime.aware]

/-- The tables after each of the calls. -/
def registered : DayResearchLedger :=
  { preregistrations := [manifest], holdoutSeals := [manifest.storedSeal] }

def attempted : DayResearchLedger := { registered with attempts := [attempt] }

def questioned : DayResearchLedger := { attempted with families := [family] }

def versioned : DayResearchLedger := { questioned with versions := [version] }

def bound : DayResearchLedger := { versioned with bindings := [binding] }

def published : DayResearchLedger := { bound with capsules := [capsule] }

def revealed : DayResearchLedger := { published with holdoutReveals := [⟨reveal, "search"⟩] }

theorem isLedger_after {c : Call} (h : IsLedger env ledger) (hafter : ledger.after env c = next) :
    IsLedger env next :=
  hafter ▸ (writes_call h c).isLedger h

theorem after_preregistration : DayResearchLedger.after env {} (.preregistration manifest) =
    registered := by
  have hstored : preregistrationIsStored env {} manifest = .ok false :=
    (preregistrationIsStored_eq_ok isLedger_empty.preregistrations).2
      (.inr ⟨⟨manifest_valid, by simp, by simp [manifest]⟩, rfl⟩)
  rw [DayResearchLedger.after, DayResearchLedger.call, registerPreregistration, hstored]
  rfl

theorem isLedger_registered : IsLedger env registered :=
  isLedger_after isLedger_empty after_preregistration

theorem isPreregistered : IsPreregistered env registered attempt manifest :=
  (isPreregistered_iff isLedger_registered).2
    ⟨by simp [registered], rfl, rfl, rfl, manifest.storedSeal, by simp [registered], rfl⟩

theorem after_attempt : registered.after env (.attempt attempt) = attempted := by
  rw [DayResearchLedger.after, DayResearchLedger.call, (appendAttempt_eq_ok isLedger_registered).2
    ⟨attempt_valid, ⟨manifest, isPreregistered⟩,
      .inr ⟨⟨by simp [registered], by simp [registered], by simp [registered]⟩, rfl, rfl⟩⟩]
  rfl

theorem isLedger_attempted : IsLedger env attempted :=
  isLedger_after isLedger_registered after_attempt

theorem after_family : attempted.after env (.family family) = questioned := by
  rw [DayResearchLedger.after, DayResearchLedger.call,
    (registerDayHypothesisFamily_eq_ok isLedger_attempted.families).2 ⟨family_valid,
      .inr ⟨⟨by simp [attempted, registered], by simp [attempted, registered], by simp [family]⟩,
        rfl, rfl⟩⟩]
  rfl

theorem isLedger_questioned : IsLedger env questioned :=
  isLedger_after isLedger_attempted after_family

theorem after_version : questioned.after env (.version version) = versioned := by
  have hfamily : ∃ row ∈ questioned.families,
      row.familyId = version.familyId ∧ row.createdAt ≤ version.createdAt :=
    ⟨family, by simp [questioned], rfl, by decide⟩
  rw [DayResearchLedger.after, DayResearchLedger.call,
    (registerDayHypothesisVersion_eq_ok isLedger_questioned.families
      isLedger_questioned.versions).2 ⟨version_valid,
      .inr ⟨⟨by simp [questioned, attempted, registered],
        by simp [questioned, attempted, registered], hfamily, by simp [version]⟩, rfl, rfl⟩⟩]
  rfl

theorem isLedger_versioned : IsLedger env versioned :=
  isLedger_after isLedger_questioned after_version

theorem rests : Rests env versioned binding version attempt manifest where
  version_mem := by simp [versioned]
  version_id := rfl
  attempt_row := by simp [versioned, questioned, attempted, binding, attempt]
  attempt_valid := attempt_valid
  preregistered := by
    refine (isPreregistered_iff isLedger_versioned).2 ⟨?_, rfl, rfl, rfl, manifest.storedSeal, ?_, rfl⟩
    · simp [versioned, questioned, attempted, registered]
    · simp [versioned, questioned, attempted, registered]
  matches_binding := {
    market := rfl
    family := rfl
    search := rfl
    code := rfl
    data := rfl
    finished := ⟨second 3, rfl, by decide⟩
    created := by decide
    completed := by decide
    terminal := by simp [attempt]
    succeeded := fun _ => by simp [attempt, binding]
    failed := fun hfailed => absurd rfl hfailed }

theorem after_binding : versioned.after env (.binding binding) = bound := by
  have hnone : versioned.bindings = [] := rfl
  rw [DayResearchLedger.after, DayResearchLedger.call,
    registerDayResearchAttemptBinding_eq isLedger_versioned.isAudited,
    (registerDayResearchAttemptBindingAfterAudit_eq_ok isLedger_versioned.isAudited).2
      ⟨binding_valid, .inr ⟨⟨by simp [hnone], by simp [hnone], ⟨version, attempt, manifest, rests⟩,
        by simp [hnone], by simp [hnone, debited, binding]⟩, rfl, rfl⟩⟩]
  rfl

theorem isLedger_bound : IsLedger env bound := isLedger_after isLedger_versioned after_binding

theorem isPublished : IsPublished env bound capsule binding version attempt manifest where
  binding_mem := by simp [bound]
  binding_id := rfl
  rests := rests.extend { IsExtension.refl versioned with bindings := List.prefix_append [] _ }
    ⟨isLedger_bound.preregistrations.nodup, isLedger_bound.seals.nodup,
      isLedger_bound.attempts.nodup⟩
  version_id := rfl
  market := rfl
  succeeded := rfl
  artifact := rfl
  code := rfl
  cadence := rfl
  entry := rfl
  exit := rfl
  stop := rfl
  cost := rfl
  protocol := rfl
  published := by decide

theorem after_capsule : bound.after env (.capsule capsule) = published := by
  have hnone : bound.capsules = [] := rfl
  rw [DayResearchLedger.after, DayResearchLedger.call,
    (registerDayStrategyCapsule_eq_ok isLedger_bound).2 ⟨capsule_valid,
      .inr ⟨by simp [hnone], ⟨binding, version, attempt, manifest, isPublished⟩, rfl, rfl⟩⟩]
  rfl

theorem isLedger_published : IsLedger env published := isLedger_after isLedger_bound after_capsule

theorem after_reveal : published.after env (.reveal reveal) = revealed := by
  have hnone : published.holdoutReveals = [] := rfl
  have hmem : manifest ∈ published.preregistrations := by
    simp [published, bound, versioned, questioned, attempted, registered]
  have hseal : manifest.storedSeal ∈ published.holdoutSeals := by
    simp [published, bound, versioned, questioned, attempted, registered]
  rw [DayResearchLedger.after, DayResearchLedger.call,
    (revealHoldout_eq_ok isLedger_published).2 ⟨reveal_valid, ⟨reveal, "search"⟩, manifest, rfl,
      ⟨hmem, hseal, rfl, rfl, rfl, rfl, rfl⟩,
      ⟨by simp [hnone], by simp [hnone], by simp [hnone], by simp [hnone], by simp [hnone]⟩,
      rfl, rfl⟩]
  rfl

/-- A search is carried out in one transaction, and its holdout is revealed in another one. -/
def search : List (Transaction.Event Call) :=
  [.begin, .call (.preregistration manifest), .call (.attempt attempt), .call (.family family),
    .call (.version version), .call (.binding binding), .call (.capsule capsule), .commit]

def conclusion : List (Transaction.Event Call) := [.begin, .call (.reveal reveal), .commit]

def searched : ExperimentLedgerStore := search.foldl (·.step env) {}

def concluded : ExperimentLedgerStore := (search ++ conclusion).foldl (·.step env) {}

theorem reachable_searched : (storeSystem env).Reachable searched := reachable_foldl search

theorem reachable_concluded : (storeSystem env).Reachable concluded := reachable_foldl _

theorem database_searched : searched.database = ⟨published, none⟩ := by
  have hstore : IsStore env {} := isStore_of_reachable (.init rfl)
  rw [searched, hstore.database_foldl]
  simp only [search, List.foldl_cons, List.foldl_nil, Transaction.step,
    ExperimentLedgerStore.database, Option.map_none, Option.getD_none, Option.map_some,
    after_preregistration, after_attempt, after_family, after_version, after_binding,
    after_capsule, Option.getD_some]

theorem committed_searched : searched.committed = published := by
  rw [← searched.committed_database, database_searched]

theorem committed_concluded : concluded.committed = revealed := by
  rw [← concluded.committed_database, concluded, List.foldl_append, ← searched,
    (isStore_of_reachable reachable_searched).database_foldl, database_searched]
  simp only [conclusion, List.foldl_cons, List.foldl_nil, Transaction.step, Option.getD_none,
    Option.map_some, after_reveal, Option.getD_some]

/-- The next transaction after the search. -/
theorem run_begin (store : ExperimentLedgerStore) :
    (storeSystem env).Run store [.begin] (store.step env .begin) :=
  run_foldl store [.begin]

end SearchSample

end TradingAgent.DayResearch
