import TradingAgent.Swing.Session

/-!
# Signals that are advanced together

A session advances each signal as it would alone: on the ledger of that signal, with the bars of
its symbol, under the key of the whole source (`advanceAlone`). But the signals take their turns in
the order of the ledger, and the session ends at the first one that raises an error, such as one
without a bar: those after it are not advanced (`signals_advance_alone`,
`missing_bar_stops_session`).
-/

namespace TradingAgent.Swing

open Transition Writing

variable {env : SwingEnvironment} {source : SwingDailySource} {ledger : SwingShadowLedger}
  {signal : TradeSignalEnvelope} {signals : List TradeSignalEnvelope}

/-! ## Work on the ledger of one signal -/

theorem arePartsOf_signals :
    ArePartsOf (fun id ledger => SwingShadowLedger.only ledger id) Transaction.signalId
      SwingShadowLedger.commit :=
  SwingShadowLedger.isView_only

/-- Work on the ledger of a signal. -/
abbrev ConfinedTo {α : Type} (signal : TradeSignalEnvelope) (work : SwingShadowWork α) : Prop :=
  Writing.Confined (SwingShadowLedger.only · signal.signalId) (·.signalId = signal.signalId) work

theorem confined_append (kind : ShadowEventKind) (price : Option Decimal) :
    ConfinedTo signal (append env source signal kind price) := by
  rw [append]
  split
  · exact .raise _
  · exact .bind (SwingShadowLedger.isView_only _)
      (confined_appendEvent (event env source signal kind price)) fun _ => .pure _

theorem confined_appendExit {bar : SwingDailyBar}
    {otherwise : SwingShadowWork (List SwingShadowEvent)} (h : ConfinedTo signal otherwise) :
    ConfinedTo signal (appendExit env source signal bar otherwise) := by
  rw [appendExit]
  split
  · exact confined_append _ _
  split
  · exact confined_append _ _
  · exact h

theorem confined_advancePending (bar : SwingDailyBar) :
    ConfinedTo signal (advancePending env source signal bar) := by
  have hview := SwingShadowLedger.isView_only signal.signalId
  rw [advancePending]
  split
  · exact .pure _
  split
  · exact confined_append _ _
  · exact .bind hview (confined_append _ _) fun _ =>
      .bind hview (confined_appendExit (.pure _)) fun _ => .pure _

theorem confined_advanceOpenPosition (bar : SwingDailyBar) (entry : SwingShadowEvent) :
    ConfinedTo signal (advanceOpenPosition env source signal bar entry) := by
  rw [advanceOpenPosition]
  split
  · exact .pure _
  refine confined_appendExit ?_
  split
  · exact .raise _
  split
  · exact confined_append _ _
  · exact .pure _

theorem confined_takeTurn (latest : SwingShadowEvent) :
    ConfinedTo signal (takeTurn env source signal latest) := by
  rw [takeTurn]
  split
  · exact .pure _
  split
  · exact .raise _
  split
  · exact confined_advancePending _
  · exact confined_advanceOpenPosition _ _
  · exact .raise _

theorem confined_advanceSignal (env : SwingEnvironment) (source : SwingDailySource)
    (signal : TradeSignalEnvelope) : ConfinedTo signal (advanceSignal env source signal) := by
  rw [advanceSignal]
  refine .bind (SwingShadowLedger.isView_only _) (.read fun l => ?_) fun events => ?_
  · exact SwingShadowLedger.eventsOf_only
  · cases events.getLast? with
    | none => exact .raise _
    | some latest => exact confined_takeTurn latest

theorem confined_recordSignal (env : SwingEnvironment) (source : SwingDailySource)
    (signal : TradeSignalEnvelope) : ConfinedTo signal (recordSignal env source signal) := by
  rw [recordSignal]
  split
  · exact .raise _
  · exact confined_appendSignal _ _ _

/-! ## A signal alone -/

/-- The environment in which every source has the key of a given one. -/
def SwingEnvironment.keyedAs (env : SwingEnvironment) (source : SwingDailySource) :
    SwingEnvironment where
  newYork := env.newYork
  sourceKey _ := env.sourceKey source
  isHex64_sourceKey _ := env.isHex64_sourceKey source

/-- A session of one signal alone: with the bars of its symbol, under the key of the source. -/
def advanceAlone (env : SwingEnvironment) (source : SwingDailySource)
    (signals : List TradeSignalEnvelope) (signal : TradeSignalEnvelope) :
    SwingShadowWork (List SwingShadowEvent) :=
  advanceSwingShadowSession (env.keyedAs source) (source.only signal.symbol)
    (signals.filter (·.signalId = signal.signalId))

theorem currentBar_only (source : SwingDailySource) (symbol : String) :
    currentBar (source.only symbol) symbol = currentBar source symbol := by
  rw [currentBar, SwingDailySource.barsFor_only, currentBar]
  rfl

theorem advanceSignal_only (env : SwingEnvironment) (source : SwingDailySource)
    (signal : TradeSignalEnvelope) :
    advanceSignal (env.keyedAs source) (source.only signal.symbol) signal =
      advanceSignal env source signal := by
  have hturn : ∀ latest, takeTurn (env.keyedAs source) (source.only signal.symbol) signal latest =
      takeTurn env source signal latest := by
    intro latest
    rw [takeTurn, currentBar_only, takeTurn]
    rfl
  rw [advanceSignal, advanceSignal]
  congr 1
  funext events
  cases events.getLast? with
  | none => rfl
  | some latest => exact hturn latest

/-- The new signals of a session, as it records them. -/
abbrev recordSignals (env : SwingEnvironment) (source : SwingDailySource)
    (signals : List TradeSignalEnvelope) : SwingShadowWork (List (Option SwingShadowEvent)) :=
  forEach (recordSignal env source) signals

/-- What a session of a signal alone writes: the signal, if it is new, and then its turn. -/
theorem advanceAlone_writes
    (hclosed : isAfterClose env.newYork source.sessionDate source.observedAt = true)
    (signals : List TradeSignalEnvelope) (signal : TradeSignalEnvelope) (own : SwingShadowLedger) :
    (advanceAlone env source signals signal own).1 =
        ((recordSignals env source (signals.filter (·.signalId = signal.signalId)) >>=
          fun _ => advanceSignals (env.keyedAs source) (source.only signal.symbol)) own).1
      ∧ (advanceAlone env source signals signal).isOk own =
        (recordSignals env source (signals.filter (·.signalId = signal.signalId)) >>=
          fun _ => advanceSignals (env.keyedAs source) (source.only signal.symbol)).isOk own :=
  advance_writes (env.keyedAs source) (source.only signal.symbol) hclosed _ own

/-- The turn of a signal alone is the one it takes among all signals. -/
theorem advanceSignals_alone (env : SwingEnvironment) (source : SwingDailySource) (h : ledger.IsConsistent) (hs : signal ∈ ledger.signals) :
    (advanceSignals (env.keyedAs source) (source.only signal.symbol)
        (ledger.only signal.signalId)).1 = (advanceSignal env source signal ledger).1
      ∧ (advanceSignals (env.keyedAs source) (source.only signal.symbol)).isOk
        (ledger.only signal.signalId) = (advanceSignal env source signal).isOk ledger := by
  have hsignals : (ledger.only signal.signalId).signals = [signal] := h.filter_eq hs
  have hturn : advanceSignals (env.keyedAs source) (source.only signal.symbol)
      (ledger.only signal.signalId) =
      forEach (advanceSignal env source) [signal] (ledger.only signal.signalId) := by
    rw [advanceSignals, read_bind, hsignals, forEach, advanceSignal_only]
    rfl
  have hview := (confined_advanceSignal env source signal).reads ledger
  rw [hturn, isOk_congr hturn, isOk_congr hview, hview]
  cases hok : (advanceSignal env source signal).isOk (ledger.only signal.signalId) with
  | true =>
    rw [(forEach_cons_of_ok hok).1, (forEach_cons_of_ok hok).2]
    exact ⟨List.append_nil _, rfl⟩
  | false => exact forEach_cons_of_error hok

/-- The ledger of a signal after the new signals are recorded, all of them or only those of its
    identity. -/
theorem only_after_recordSignals (hok : (recordSignals env source signals).isOk ledger = true)
    (id : String) :
    (recordSignals env source (signals.filter (·.signalId = id))).isOk (ledger.only id) = true
      ∧ (recordSignals env source (signals.filter (·.signalId = id))).after (ledger.only id) =
        ((recordSignals env source signals).after ledger).only id := by
  have hall := (filter_forEach (k := id) (confined_recordSignal env source) arePartsOf_signals
    ledger).2 hok
  refine ⟨hall.2, ?_⟩
  rw [after, after, (SwingShadowLedger.isView_only id).foldl, hall.1]

theorem advance_of_recorded (session : SwingSession env)
    (hok : (recordSignals env session.source session.signals).isOk ledger = true) :
    session.advance.after ledger =
        (advanceSignals env session.source).after
          ((recordSignals env session.source session.signals).after ledger)
      ∧ session.advance.isOk ledger = (advanceSignals env session.source).isOk
          ((recordSignals env session.source session.signals).after ledger) := by
  obtain ⟨created, h⟩ := isOk_iff.1 hok
  have hwrites := advance_writes env session.source session.isAfterClose session.signals ledger
  rw [sessionWork, bind_of_ok h, isOk_bind_of_ok h] at hwrites
  rw [after, SwingSession.advance, hwrites.1, hwrites.2, List.foldl_append]
  exact ⟨rfl, rfl⟩

theorem advance_of_refused (session : SwingSession env)
    (hok : (recordSignals env session.source session.signals).isOk ledger = false) :
    session.advance.after ledger =
        (recordSignals env session.source session.signals).after ledger
      ∧ session.advance.isOk ledger = false := by
  obtain ⟨e, h⟩ := isOk_eq_false_iff.1 hok
  have hwrites := advance_writes env session.source session.isAfterClose session.signals ledger
  rw [sessionWork, bind_of_error h, isOk_bind_of_error h] at hwrites
  rw [after, SwingSession.advance, hwrites.1, hwrites.2]
  exact ⟨rfl, rfl⟩

/-- A signal that is stored after the new ones are recorded, alone. -/
theorem advanceAlone_of_recorded (session : SwingSession env) (h : ledger.IsConsistent)
    (hok : (recordSignals env session.source session.signals).isOk ledger = true)
    (hs : signal ∈ ((recordSignals env session.source session.signals).after ledger).signals) :
    (advanceAlone env session.source session.signals signal).after (ledger.only signal.signalId) =
        ((advanceSignal env session.source signal).after
          ((recordSignals env session.source session.signals).after ledger)).only signal.signalId
      ∧ (advanceAlone env session.source session.signals signal).isOk
          (ledger.only signal.signalId) =
        (advanceSignal env session.source signal).isOk
          ((recordSignals env session.source session.signals).after ledger) := by
  have hrecorded : ((recordSignals env session.source session.signals).after ledger).IsConsistent :=
    PreservesAt.after (.forEach (fun _ _ _ hl => recordSignal_preserves hl) h)
  obtain ⟨hown, hstate⟩ := only_after_recordSignals hok signal.signalId
  obtain ⟨created, hcreated⟩ := isOk_iff.1 hown
  have hwrites := advanceAlone_writes session.isAfterClose session.signals signal
    (ledger.only signal.signalId)
  have hturn := advanceSignals_alone env session.source hrecorded hs
  rw [bind_of_ok hcreated, isOk_bind_of_ok hcreated, hstate, hturn.1, hturn.2] at hwrites
  refine ⟨?_, hwrites.2⟩
  rw [after, hwrites.1, List.foldl_append]
  change List.foldl _ ((recordSignals env session.source _).after _) _ = _
  rw [hstate]
  exact ((SwingShadowLedger.isView_only signal.signalId).foldl_mine
    ((confined_advanceSignal env session.source signal).writes _)).symm

/-! ## All signals -/

/-- The turns of some signals raise no error exactly if each one, taken first, raises none. -/
theorem isOk_turns_iff (env : SwingEnvironment) (source : SwingDailySource)
    (h : ledger.IsConsistent) {turns : List TradeSignalEnvelope}
    (hturns : turns.Sublist ledger.signals) :
    (forEach (advanceSignal env source) turns).isOk ledger = true ↔
      ∀ signal ∈ turns, (advanceSignal env source signal).isOk ledger = true := by
  rw [isOk_forEach_iff (confined_advanceSignal env source) arePartsOf_signals]
  refine forall_congr' fun signal => imp_congr_right fun hs => ?_
  have hsignal := filter_key_eq_singleton (h.nodup.sublist (hturns.map _)) hs
  rw [hsignal, isOk_congr ((confined_advanceSignal env source signal).reads ledger)]
  cases hturn : (advanceSignal env source signal).isOk (ledger.only signal.signalId) with
  | true => rw [(forEach_cons_of_ok hturn).2]; exact iff_of_true rfl rfl
  | false => rw [(forEach_cons_of_error hturn).2]

section Recorded

variable (session : SwingSession env) (h : ledger.IsConsistent)
  (hok : (recordSignals env session.source session.signals).isOk ledger = true)
include h hok

/-- The turns of some signals of the ledger raise no error exactly if each signal alone raises
    none. -/
theorem isOk_turns_iff_alone {turns : List TradeSignalEnvelope}
    (hturns : turns.Sublist
      ((recordSignals env session.source session.signals).after ledger).signals) :
    (forEach (advanceSignal env session.source) turns).isOk
        ((recordSignals env session.source session.signals).after ledger) = true ↔
      ∀ signal ∈ turns, (advanceAlone env session.source session.signals signal).isOk
        (ledger.only signal.signalId) = true := by
  have hrecorded : ((recordSignals env session.source session.signals).after ledger).IsConsistent :=
    PreservesAt.after (.forEach (fun _ _ _ hl => recordSignal_preserves hl) h)
  rw [isOk_turns_iff env session.source hrecorded hturns]
  refine forall_congr' fun signal => imp_congr_right fun hs => ?_
  rw [(advanceAlone_of_recorded session h hok (hturns.subset hs)).2]

/-- In its turn, a signal does what it does alone, unless a signal before it raises an error. -/
theorem only_after_advance {before later : List TradeSignalEnvelope}
    (hsplit : ((recordSignals env session.source session.signals).after ledger).signals =
      before ++ signal :: later) :
    ((∀ b ∈ before, (advanceAlone env session.source session.signals b).isOk
          (ledger.only b.signalId) = true) →
        (session.advance.after ledger).only signal.signalId =
          (advanceAlone env session.source session.signals signal).after
            (ledger.only signal.signalId))
      ∧ ((∃ b ∈ before, (advanceAlone env session.source session.signals b).isOk
          (ledger.only b.signalId) = false) →
        (session.advance.after ledger).only signal.signalId =
          ((recordSignals env session.source session.signals).after ledger).only
            signal.signalId) := by
  have hrecorded : ((recordSignals env session.source session.signals).after ledger).IsConsistent :=
    PreservesAt.after (.forEach (fun _ _ _ hl => recordSignal_preserves hl) h)
  have hturns := isOk_turns_iff_alone session h hok
    (hsplit ▸ List.sublist_append_left before (signal :: later))
  have hs : signal ∈ ((recordSignals env session.source session.signals).after ledger).signals :=
    hsplit ▸ List.mem_append_right before List.mem_cons_self
  have halone := (advanceAlone_of_recorded session h hok hs).1
  rw [(advance_of_recorded session hok).1, after, halone]
  generalize (recordSignals env session.source session.signals).after ledger = recorded
    at hrecorded hturns hsplit
  -- The identities of the signals before and after this one are other ones.
  have hnodup := hrecorded.nodup
  rw [hsplit, List.map_append, List.map_cons, List.nodup_middle, List.nodup_cons,
    List.mem_append, not_or] at hnodup
  have hbefore : ∀ b ∈ before, b.signalId ≠ signal.signalId := fun b hb hid =>
    hnodup.1.1 (hid ▸ List.mem_map_of_mem hb)
  have hlater : ∀ b ∈ later, b.signalId ≠ signal.signalId := fun b hb hid =>
    hnodup.1.2 (hid ▸ List.mem_map_of_mem hb)
  rw [advanceSignals, read_bind, hsplit, (SwingShadowLedger.isView_only signal.signalId).foldl]
  refine ⟨fun hall => ?_, fun hany => ?_⟩
  · rw [filter_forEach_of_ok (confined_advanceSignal env session.source) arePartsOf_signals hbefore
      hlater (hturns.2 hall), after, (SwingShadowLedger.isView_only signal.signalId).foldl_mine
        ((confined_advanceSignal env session.source signal).writes recorded),
      ← (confined_advanceSignal env session.source signal).reads recorded]
  · -- A signal before this one ends the session.
    obtain ⟨b, hb, hfails⟩ := hany
    have herror : (forEach (advanceSignal env session.source) before).isOk recorded = false := by
      rw [← Bool.not_eq_true]
      intro hall
      rw [hturns.1 hall b hb] at hfails
      exact Bool.false_ne_true hfails.symm
    rw [forEach_append_of_error herror, filter_forEach_eq_nil
      (confined_advanceSignal env session.source) arePartsOf_signals hbefore]
    rfl

end Recorded

/-- Advancing all signals, beside advancing each one alone. The session raises an error exactly if a
    signal alone does. Once the new signals are recorded, a signal gets the events that it gets
    alone, unless a signal that is stored before it raises an error alone: then it gets none. -/
theorem signals_advance_alone (h : (swingSystem env).Reachable ledger) (session : SwingSession env) :
    (session.advance.isOk ledger = true ↔ ∀ signal ∈ ledger.signals ++ session.signals,
      (advanceAlone env session.source session.signals signal).isOk
        (ledger.only signal.signalId) = true) ∧
    ((recordSignals env session.source session.signals).isOk ledger = true →
      ∀ before signal later,
        ((recordSignals env session.source session.signals).after ledger).signals =
          before ++ signal :: later →
        ((∀ b ∈ before, (advanceAlone env session.source session.signals b).isOk
            (ledger.only b.signalId) = true) →
          (session.advance.after ledger).only signal.signalId =
            (advanceAlone env session.source session.signals signal).after
              (ledger.only signal.signalId)) ∧
        ((∃ b ∈ before, (advanceAlone env session.source session.signals b).isOk
            (ledger.only b.signalId) = false) →
          (session.advance.after ledger).only signal.signalId =
            ((recordSignals env session.source session.signals).after ledger).only
              signal.signalId)) ∧
    ((recordSignals env session.source session.signals).isOk ledger = false →
      session.advance.after ledger =
        (recordSignals env session.source session.signals).after ledger) := by
  have hconsistent := isConsistent_of_reachable h
  refine ⟨?_, fun hok _ _ _ => only_after_advance session hconsistent hok,
    fun hrefused => (advance_of_refused session hrefused).1⟩
  cases hok : (recordSignals env session.source session.signals).isOk ledger with
  | true =>
    rw [(advance_of_recorded session hok).2]
    refine (isOk_turns_iff_alone session hconsistent hok (List.Sublist.refl _)).trans ?_
    -- The signals that take turns are the old and the new ones.
    refine forall_congr' fun signal => ⟨fun hturn hs => hturn ?_, fun halone hs => halone ?_⟩
    · rcases List.mem_append.1 hs with hold | hnew
      · exact (signals_prefix_commit _ _).subset hold
      · exact mem_after_recordSignals hconsistent hok signal hnew
    · exact mem_of_after_recordSignals hconsistent signal hs
  | false =>
    rw [(advance_of_refused session hok).2]
    refine iff_of_false Bool.false_ne_true fun hall => ?_
    -- A new signal that is refused is refused alone.
    rw [← Bool.not_eq_true, isOk_forEach_iff (confined_recordSignal env session.source)
      arePartsOf_signals] at hok
    refine hok fun signal hs => ?_
    have halone := hall signal (List.mem_append_right _ hs)
    rw [(advanceAlone_writes session.isAfterClose session.signals signal _).2] at halone
    by_contra hrefused
    rw [Bool.not_eq_true] at hrefused
    obtain ⟨e, he⟩ := isOk_eq_false_iff.1 hrefused
    rw [isOk_bind_of_error he] at halone
    exact Bool.false_ne_true halone

namespace SwingSample

/-- In the summer. -/
def newYork : ZoneInfo := ⟨fun _ => TimeDelta.hours (-4)⟩

def key : String := "0000000000000000000000000000000000000000000000000000000000000000"

def environment : SwingEnvironment where
  newYork := newYork
  sourceKey _ := key
  isHex64_sourceKey _ := by decide +kernel

/-- The days of the signals and of the session for which they are valid. -/
def signalDay : Date := .ofCivil 2026 7 15
def entryDay : Date := .ofCivil 2026 7 16

/-- Five minutes after the close of a day. -/
def afterClose (day : Date) : DateTime := .combine day 16 5 (TimeDelta.hours (-4))

def bar (symbol : String) (day : Date) (low high : Decimal) : SwingDailyBar where
  symbol := symbol
  sessionDate := day
  observedAt := afterClose day
  open_ := 15
  high := high
  low := low
  close := 15
  volume := 1000

def dailySource (day : Date) (bars : List SwingDailyBar) : SwingDailySource where
  sessionDate := day
  observedAt := afterClose day
  provider := "fixture"
  feed := "completed_daily"
  universeId := "universe"
  symbols := bars.map (·.symbol)
  bars := bars

def tradeSignal (symbol : String) : TradeSignalEnvelope where
  signalId := symbol
  strategyLane := ⟨.usEquities, .swingTrading, "new_high_momentum"⟩
  producerStrategyVersion := "v1"
  symbol := symbol
  observedAt := afterClose signalDay
  validUntil := .combine entryDay 16 0 (TimeDelta.hours (-4))
  side := .long
  entryType := .stopTrigger
  entryPrice := 15
  stopPrice := 13
  targets := [⟨"target", 17⟩]
  actionability := .conditional
  invalidationRule := "rule"
  rationale := "rationale"
  evidenceRefs := [⟨"swing_shadow/daily_source", key, afterClose signalDay⟩]

/-- The session in which two signals are made. -/
def signalSession : SwingSession environment where
  source := dailySource signalDay [bar "AAA" signalDay 14 16, bar "BBB" signalDay 14 16]
  signals := [tradeSignal "AAA", tradeSignal "BBB"]
  valid := by decide +kernel

/-- The next session, without a bar of the first signal. -/
def partialSession : SwingSession environment where
  source := dailySource entryDay [bar "BBB" entryDay 14 16]
  signals := []
  valid := by decide +kernel

def shadowEvent (symbol : String) (kind : ShadowEventKind) (day : Date)
    (price : Option Decimal) : SwingShadowEvent where
  signalId := symbol
  kind := kind
  sessionDate := day
  observedAt := afterClose day
  sourceKey := key
  price := price

def twoSignals : SwingShadowLedger where
  signals := [tradeSignal "AAA", tradeSignal "BBB"]
  events := [shadowEvent "AAA" .signalCreated signalDay none,
    shadowEvent "BBB" .signalCreated signalDay none]

theorem reachable_twoSignals : (swingSystem environment).Reachable twoSignals := by
  refine System.Reachable.step (.init rfl) (e := (signalSession, 2)) ?_
  show twoSignals = ((signalSession.advance {}).1.take 2).foldl SwingShadowLedger.commit {}
  decide +kernel

/-- The second signal, in a session without a bar of the first one. -/
theorem signals_advance_alone_sample :
    (partialSession.advance.after twoSignals).only "BBB" = twoSignals.only "BBB" :=
  ((signals_advance_alone reachable_twoSignals partialSession).2.1 rfl [tradeSignal "AAA"]
    (tradeSignal "BBB") [] rfl).2
    ⟨tradeSignal "AAA", List.mem_singleton_self _, by decide +kernel⟩

/-- A missing bar of a signal prevents the events of another one: it would be entered alone. -/
theorem missing_bar_stops_session :
    (swingSystem environment).Reachable twoSignals ∧ tradeSignal "BBB" ∈ twoSignals.signals ∧
      (partialSession.advance.after twoSignals).eventsOf "BBB" =
        [shadowEvent "BBB" .signalCreated signalDay none] ∧
      ((advanceAlone environment partialSession.source partialSession.signals
          (tradeSignal "BBB")).after (twoSignals.only "BBB")).eventsOf "BBB" =
        [shadowEvent "BBB" .signalCreated signalDay none,
          shadowEvent "BBB" .entryFilled entryDay (some 15)] :=
  ⟨reachable_twoSignals, List.mem_cons_of_mem _ List.mem_cons_self, by decide +kernel,
    by decide +kernel⟩

end SwingSample

end TradingAgent.Swing
