import TradingAgent.Library.Transition
import TradingAgent.Swing.Turn

/-!
# Sessions of the swing strategy

The ledgers that some sessions lead to, each of them advanced in full, or interrupted after some of
its transactions (`swingSystem`). They are all consistent (`isConsistent_of_reachable`).
-/

namespace TradingAgent.Swing

open Transition Writing

variable {env : SwingEnvironment} {source : SwingDailySource} {ledger ledger' : SwingShadowLedger}
  {signal : TradeSignalEnvelope} {signals : List TradeSignalEnvelope}

/-! ## New signals -/

/-- What is done for a new signal: it is inserted with its first event, unless it is there already
    or is refused. -/
theorem recordSignal_cases (env : SwingEnvironment) (source : SwingDailySource)
    (signal : TradeSignalEnvelope) (h : ledger.IsConsistent) :
    (recordSignal env source signal ledger).1 = [] ∧
        ((recordSignal env source signal).isOk ledger = true → signal ∈ ledger.signals) ∨
      ∃ w event, ledger.signal? signal.signalId = none ∧ signal.validateSignal = true ∧
        event.kind = .signalCreated ∧ w.signal? = some signal ∧ w.event? = some event ∧
        recordSignal env source signal ledger = ([w], .ok (some event)) := by
  rw [isOk, recordSignal]
  by_cases hmatches : signalMatchesSource env source signal = true
  swap
  · rw [if_pos hmatches]
    exact .inl ⟨rfl, fun hok => by cases hok⟩
  rw [if_neg (not_not.2 hmatches), appendSignal]
  by_cases hvalid : signal.validateSignal = true
  swap
  · rw [if_pos hvalid]
    exact .inl ⟨rfl, fun hok => by cases hok⟩
  rw [if_neg (not_not.2 hvalid), read_bind]
  cases hstored : ledger.signal? signal.signalId with
  | some existing =>
    dsimp only
    by_cases hsame : existing = signal
    · rw [if_neg (not_not.2 hsame)]
      exact .inl ⟨rfl, fun _ => hsame ▸ (SwingShadowLedger.signal?_eq_some hstored).1⟩
    · rw [if_pos hsame]
      exact .inl ⟨rfl, fun hok => by cases hok⟩
  | none =>
    dsimp only
    by_cases hevent :
        (creationEvent signal source.sessionDate (env.sourceKey source)).validateEvent = true
    swap
    · rw [if_pos hevent]
      exact .inl ⟨rfl, fun hok => by cases hok⟩
    -- No event is there without its signal.
    have hnone : ledger.event? (creationEvent signal source.sessionDate
        (env.sourceKey source)).eventId = none := by
      rw [SwingShadowLedger.event?, List.find?_eq_none]
      intro e he heq
      have hid : e.signalId = signal.signalId := congrArg Prod.fst (of_decide_eq_true heq)
      exact List.filter_eq_nil_iff.1 (h.eventsOf_new hstored) e he (decide_eq_true hid)
    rw [if_neg (not_not.2 hevent), read_bind, hnone]
    exact .inr ⟨_, _, rfl, hvalid, rfl, rfl, rfl, rfl⟩

theorem recordSignal_preserves (h : ledger.IsConsistent) :
    PreservesAt SwingShadowLedger.IsConsistent (recordSignal env source signal) ledger := by
  rcases recordSignal_cases env source signal h with
    ⟨hnil, -⟩ | ⟨w, event, hnew, hvalid, hkind, hsignal, hevent, hrun⟩
  · exact .of_nil h hnil
  · exact .of_single h (h.insertSignal hvalid hnew hkind hsignal hevent) (congrArg Prod.fst hrun)

/-- A signal that is recorded is stored. -/
theorem mem_after_recordSignal (h : ledger.IsConsistent)
    (hok : (recordSignal env source signal).isOk ledger = true) :
    signal ∈ ((recordSignal env source signal).after ledger).signals := by
  rw [after]
  rcases recordSignal_cases env source signal h with
    ⟨hnil, hstored⟩ | ⟨w, event, -, -, -, hsignal, -, hrun⟩
  · rw [hnil]
    exact hstored hok
  · rw [hrun]
    refine List.mem_append_right _ ?_
    rw [hsignal]
    exact List.mem_singleton_self signal

theorem signalMatchesSource_of_isOk (hok : (recordSignal env source signal).isOk ledger = true) :
    signalMatchesSource env source signal = true := by
  by_contra hmatches
  rw [isOk, recordSignal, if_pos hmatches] at hok
  exact Bool.false_ne_true hok

/-- A signal that is stored is not recorded again. -/
theorem recordSignal_again (hmatches : signalMatchesSource env source signal = true)
    (hvalid : signal.validateSignal = true)
    (hstored : ledger'.signal? signal.signalId = some signal) :
    recordSignal env source signal ledger' = ([], .ok none) := by
  rw [recordSignal, if_neg (not_not.2 hmatches), appendSignal, if_neg (not_not.2 hvalid), read_bind,
    hstored]
  dsimp only
  rw [if_neg (not_not.2 rfl)]
  rfl

theorem signals_prefix_commit (ledger : SwingShadowLedger) (ws : List Transaction) :
    ledger.signals <+: (ws.foldl SwingShadowLedger.commit ledger).signals := by
  induction ws generalizing ledger with
  | nil => exact List.prefix_rfl
  | cons w ws ih => exact (List.prefix_append _ _).trans (ih (ledger.commit w))

theorem signal?_foldl_commit {id : String} (h : ledger.signal? id = some signal)
    (ws : List Transaction) :
    (ws.foldl SwingShadowLedger.commit ledger).signal? id = some signal := by
  obtain ⟨more, hmore⟩ := signals_prefix_commit ledger ws
  rw [SwingShadowLedger.signal?, ← hmore, List.find?_append]
  rw [SwingShadowLedger.signal?] at h
  rw [h, Option.some_or]

/-- The signals that a session records are stored. -/
theorem mem_after_recordSignals (h : ledger.IsConsistent)
    (hok : (forEach (recordSignal env source) signals).isOk ledger = true) :
    ∀ signal ∈ signals,
      signal ∈ ((forEach (recordSignal env source) signals).after ledger).signals := by
  induction signals generalizing ledger with
  | nil => exact List.forall_mem_nil _
  | cons s signals ih =>
    cases hfirst : (recordSignal env source s).isOk ledger with
    | false =>
      rw [(forEach_cons_of_error hfirst).2] at hok
      exact absurd hok Bool.false_ne_true
    | true =>
      rw [(forEach_cons_of_ok hfirst).2] at hok
      have hpreserves : ((recordSignal env source s).after ledger).IsConsistent :=
        (recordSignal_preserves h).after
      rw [after, (forEach_cons_of_ok hfirst).1, List.foldl_append]
      refine List.forall_mem_cons.2 ⟨?_, ih hpreserves hok⟩
      exact (signals_prefix_commit _ _).subset (mem_after_recordSignal h hfirst)

/-- No other signals are stored than the old and the new ones. -/
theorem mem_of_after_recordSignals (h : ledger.IsConsistent) :
    ∀ signal ∈ ((forEach (recordSignal env source) signals).after ledger).signals,
      signal ∈ ledger.signals ++ signals := by
  have hloop : PreservesAt
      (fun l => l.IsConsistent ∧ ∀ signal ∈ l.signals, signal ∈ ledger.signals ++ signals)
      (forEach (recordSignal env source) signals) ledger := by
    refine .forEach (fun s hs l hl => ?_) ⟨h, fun s hs => List.mem_append_left _ hs⟩
    rcases recordSignal_cases env source s hl.1 with
      ⟨hnil, -⟩ | ⟨w, event, hnew, hvalid, hkind, hsignal, hevent, hrun⟩
    · exact .of_nil hl hnil
    · refine .of_single hl ⟨hl.1.insertSignal hvalid hnew hkind hsignal hevent, ?_⟩
        (congrArg Prod.fst hrun)
      rw [SwingShadowLedger.commit, hsignal, Option.toList_some]
      exact List.forall_mem_append.2
        ⟨hl.2, List.forall_mem_singleton.2 (List.mem_append_right _ hs)⟩
  exact hloop.after.2

/-! ## Turns -/

@[simp] theorem signals_insertEvent (e : SwingShadowEvent) :
    (ledger.commit (.insertEvent e)).signals = ledger.signals := List.append_nil _

/-- The turn of a signal keeps the ledger consistent, and adds no signal. -/
theorem advanceSignal_preserves (hsource : source.validateSource env.newYork = true)
    (h : ledger.IsConsistent) (hs : signal ∈ ledger.signals) :
    PreservesAt (fun l => l.IsConsistent ∧ l.signals = ledger.signals)
      (advanceSignal env source signal) ledger := by
  cases hboth : entersAndCloses env source ledger signal with
  | false =>
    rcases advanceSignal_cases hsource h hs hboth with hnil | ⟨latest, hlatest, -, e, he, hrun⟩
    · exact .of_nil ⟨h, rfl⟩ hnil
    · exact .of_single ⟨h, rfl⟩
        ⟨h.insertEvent hs he.signalId hlatest he.kind, signals_insertEvent e⟩
        (congrArg Prod.fst hrun)
  | true =>
    obtain ⟨latest, hlatest⟩ := h.exists_latest hs
    obtain ⟨hpending, entry, exit, hkind, hentry, hexit, hrun⟩ :=
      advanceSignal_of_entersAndCloses hsource h hs hlatest hboth
    have hentered := h.insertEvent hs hentry.signalId hlatest (hpending ▸ hentry.kind)
    have hlast : ((ledger.commit (.insertEvent entry)).eventsOf signal.signalId).getLast? =
        some entry := by
      rw [← hentry.signalId, SwingShadowLedger.eventsOf_insertEvent, List.getLast?_concat]
    have hclosed := hentered.insertEvent (List.mem_append_left _ hs) hexit.signalId hlast
      (hkind ▸ hexit.kind)
    exact .of_pair ⟨h, rfl⟩ ⟨hentered, signals_insertEvent entry⟩
      ⟨hclosed, (signals_insertEvent exit).trans (signals_insertEvent entry)⟩
      (congrArg Prod.fst hrun)

/-- The turns of all signals keep the ledger consistent, and add no signal. -/
theorem turns_preserve (hsource : source.validateSource env.newYork = true)
    (h : ledger.IsConsistent) :
    PreservesAt (fun l => l.IsConsistent ∧ l.signals = ledger.signals)
      (advanceSignals env source) ledger := by
  have hloop : PreservesAt (fun l => l.IsConsistent ∧ l.signals = ledger.signals)
      (forEach (advanceSignal env source) ledger.signals) ledger := by
    refine .forEach (fun signal hs l hl => ?_) ⟨h, rfl⟩
    exact (advanceSignal_preserves hsource hl.1 (hl.2 ▸ hs)).imp fun _ hkeeps =>
      ⟨hkeeps.1, hkeeps.2.trans hl.2⟩
  intro done rest hsplit
  rw [advanceSignals, read_bind] at hsplit
  exact hloop done rest hsplit

/-! ## Sessions -/

/-- A session of the strategy: its bars, and the new signals. -/
structure SwingSession (env : SwingEnvironment) where
  source : SwingDailySource
  signals : List TradeSignalEnvelope
  valid : source.validateSource env.newYork = true

def SwingSession.advance (session : SwingSession env) : SwingShadowWork (List SwingShadowEvent) :=
  advanceSwingShadowSession env session.source session.signals

/-- What a session writes: its new signals, and then the turns. -/
def sessionWork (env : SwingEnvironment) (source : SwingDailySource)
    (signals : List TradeSignalEnvelope) : SwingShadowWork (List (List SwingShadowEvent)) :=
  forEach (recordSignal env source) signals >>= fun _ => advanceSignals env source

theorem advance_writes (env : SwingEnvironment) (source : SwingDailySource)
    (hclosed : isAfterClose env.newYork source.sessionDate source.observedAt = true)
    (signals : List TradeSignalEnvelope) (ledger : SwingShadowLedger) :
    (advanceSwingShadowSession env source signals ledger).1 =
        (sessionWork env source signals ledger).1
      ∧ (advanceSwingShadowSession env source signals).isOk ledger =
        (sessionWork env source signals).isOk ledger := by
  rw [advanceSwingShadowSession, if_neg (not_not.2 hclosed), isOk_mapError, sessionWork]
  cases h : (forEach (recordSignal env source) signals ledger).2 with
  | error e =>
    rw [isOk_bind_of_error h, isOk_bind_of_error h, bind_of_error h]
    exact ⟨congrArg Prod.fst (bind_of_error h), rfl⟩
  | ok created =>
    have hrest := bind_pure_writes (advanceSignals env source)
      (fun advanced => created.reduceOption ++ advanced.flatten)
      ((forEach (recordSignal env source) signals).after ledger)
    rw [isOk_bind_of_ok h, isOk_bind_of_ok h, bind_of_ok h, hrest.2]
    exact ⟨(congrArg Prod.fst (bind_of_ok h)).trans (congrArg _ hrest.1), rfl⟩

theorem SwingSession.isAfterClose (session : SwingSession env) :
    Swing.isAfterClose env.newYork session.source.sessionDate session.source.observedAt = true := by
  have hsource := session.valid
  simp only [SwingDailySource.validateSource, Bool.decide_and, Bool.and_eq_true,
    decide_eq_true_eq] at hsource
  exact hsource.2.2.1

theorem advance_preserves (session : SwingSession env) (h : ledger.IsConsistent) :
    PreservesAt SwingShadowLedger.IsConsistent session.advance ledger := by
  have hrecord : PreservesAt SwingShadowLedger.IsConsistent
      (forEach (recordSignal env session.source) session.signals) ledger :=
    .forEach (fun _ _ _ hl => recordSignal_preserves hl) h
  have hboth := hrecord.bind (f := fun _ => advanceSignals env session.source) fun _ _ =>
    (turns_preserve session.valid hrecord.after).imp fun _ hkeeps => hkeeps.1
  intro done rest hsplit
  rw [SwingSession.advance, (advance_writes _ _ session.isAfterClose _ _).1] at hsplit
  exact hboth done rest hsplit

/-- The ledgers of the strategy: each step is a session, and the number of its transactions that are
    committed before it is interrupted. -/
def swingSystem (env : SwingEnvironment) : System SwingShadowLedger (SwingSession env × ℕ) where
  init ledger := ledger = {}
  step ledger call ledger' :=
    ledger' = ((call.1.advance ledger).1.take call.2).foldl SwingShadowLedger.commit ledger

/-- Every ledger that can be reached is consistent. -/
theorem isConsistent_of_reachable (h : (swingSystem env).Reachable ledger) :
    ledger.IsConsistent := by
  refine h.invariant ?_ ?_
  · rintro _ rfl
    exact SwingShadowLedger.isConsistent_empty
  · rintro s call _ - hs rfl
    exact advance_preserves call.1 hs _ _ (List.take_append_drop call.2 _).symm

end TradingAgent.Swing
