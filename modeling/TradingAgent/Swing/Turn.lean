import TradingAgent.Library.Fold
import TradingAgent.Swing.Engine

/-!
# The turn of a signal

In a ledger that the engine wrote (`SwingShadowLedger.IsConsistent`), the events of a signal go
through one of a few lifecycles. A turn appends what comes next in it (`advanceSignal_spec`): with
valid bars, nothing that it appends is refused.
-/

namespace TradingAgent.Swing

open Writing

/-! ## Lifecycles -/

/-- The kinds of the events of a signal, up to some time. -/
def lifecycles : List (List ShadowEventKind) :=
  [[.signalCreated], [.signalCreated, .expired], [.signalCreated, .entryFilled],
    [.signalCreated, .entryFilled, .stopped], [.signalCreated, .entryFilled, .targeted],
    [.signalCreated, .entryFilled, .timeExit]]

/-- What may come after an event of a kind. -/
def ShadowEventKind.next : ShadowEventKind → List ShadowEventKind
  | signalCreated => [expired, entryFilled]
  | entryFilled => [stopped, targeted, timeExit]
  | stopped | targeted | timeExit | expired => []

theorem lifecycle_next {kinds : List ShadowEventKind} (h : kinds ∈ lifecycles)
    {latest kind : ShadowEventKind} (hlatest : kinds.getLast? = some latest)
    (hkind : kind ∈ latest.next) : kind ∉ kinds ∧ kinds ++ [kind] ∈ lifecycles := by
  have hall : ∀ kinds ∈ lifecycles, ∀ latest ∈ kinds.getLast?, ∀ kind ∈ latest.next,
      kind ∉ kinds ∧ kinds ++ [kind] ∈ lifecycles := by decide
  exact hall kinds h latest hlatest kind hkind

theorem lifecycle_pending {kinds : List ShadowEventKind} (h : kinds ∈ lifecycles)
    (hlatest : kinds.getLast? = some .signalCreated) : kinds = [.signalCreated] := by
  have hall : ∀ kinds ∈ lifecycles, kinds.getLast? = some .signalCreated →
      kinds = [.signalCreated] := by decide
  exact hall kinds h hlatest

namespace SwingShadowLedger

def kindsOf (ledger : SwingShadowLedger) (id : String) : List ShadowEventKind :=
  (ledger.eventsOf id).map (·.kind)

/-- What the engine keeps of the ledger. -/
structure IsConsistent (ledger : SwingShadowLedger) : Prop where
  nodup : (ledger.signals.map (·.signalId)).Nodup
  valid : ∀ signal ∈ ledger.signals, signal.validateSignal = true
  owned : ∀ event ∈ ledger.events, ∃ signal ∈ ledger.signals, signal.signalId = event.signalId
  lifecycle : ∀ signal ∈ ledger.signals, ledger.kindsOf signal.signalId ∈ lifecycles

variable {ledger : SwingShadowLedger} {signal : TradeSignalEnvelope}

theorem isConsistent_empty : ({} : SwingShadowLedger).IsConsistent where
  nodup := List.nodup_nil
  valid := List.forall_mem_nil _
  owned := List.forall_mem_nil _
  lifecycle := List.forall_mem_nil _

theorem signal?_eq_none {id : String} :
    ledger.signal? id = none ↔ ∀ signal ∈ ledger.signals, signal.signalId ≠ id := by
  simp [signal?]

theorem signal?_eq_some {id : String} (h : ledger.signal? id = some signal) :
    signal ∈ ledger.signals ∧ signal.signalId = id :=
  ⟨List.mem_of_find?_eq_some h, by simpa using List.find?_some h⟩

/-- A stored signal has its first event at least. -/
theorem IsConsistent.exists_latest (h : ledger.IsConsistent) (hs : signal ∈ ledger.signals) :
    ∃ latest, (ledger.eventsOf signal.signalId).getLast? = some latest := by
  have hlifecycle := h.lifecycle signal hs
  cases hlatest : (ledger.eventsOf signal.signalId).getLast? with
  | some latest => exact ⟨latest, rfl⟩
  | none =>
    rw [kindsOf, List.getLast?_eq_none_iff.1 hlatest, List.map_nil] at hlifecycle
    exact absurd hlifecycle (by decide)

theorem eventsOf_commit_of_ne {w : Transaction} {id : String} (h : w.signalId ≠ id) :
    (ledger.commit w).eventsOf id = ledger.eventsOf id :=
  congrArg SwingShadowLedger.events ((isView_only id).write_other ledger w h)

theorem eventsOf_insertEvent (event : SwingShadowEvent) :
    (ledger.commit (.insertEvent event)).eventsOf event.signalId =
      ledger.eventsOf event.signalId ++ [event] := by
  rw [eventsOf_commit]
  simp [Transaction.event?]

/-- A signal that is new has no events. -/
theorem IsConsistent.eventsOf_new (h : ledger.IsConsistent) {id : String}
    (hnew : ledger.signal? id = none) : ledger.eventsOf id = [] := by
  refine List.filter_eq_nil_iff.2 fun event hevent hid => ?_
  obtain ⟨signal, hsignal, hsame⟩ := h.owned event hevent
  exact signal?_eq_none.1 hnew signal hsignal (hsame.trans (of_decide_eq_true hid))

/-- The signal of an identity is the only one. -/
theorem IsConsistent.filter_eq (h : ledger.IsConsistent) (hs : signal ∈ ledger.signals) :
    ledger.signals.filter (·.signalId = signal.signalId) = [signal] :=
  filter_key_eq_singleton h.nodup hs

theorem IsConsistent.signal?_eq (h : ledger.IsConsistent) (hs : signal ∈ ledger.signals) :
    ledger.signal? signal.signalId = some signal := by
  rw [signal?, ← List.head?_filter, h.filter_eq hs, List.head?_cons]

/-- A new signal is inserted with its first event. -/
theorem IsConsistent.insertSignal (h : ledger.IsConsistent) {w : Transaction}
    (hvalid : signal.validateSignal = true) (hnew : ledger.signal? signal.signalId = none)
    {event : SwingShadowEvent} (hkind : event.kind = .signalCreated)
    (hsignal : w.signal? = some signal) (hevent : w.event? = some event) :
    (ledger.commit w).IsConsistent := by
  have hid : signal.signalId = w.signalId := Transaction.signalId_of_mem_signal hsignal
  have heventid : event.signalId = w.signalId := Transaction.signalId_of_mem_event hevent
  have hsignals : (ledger.commit w).signals = ledger.signals ++ [signal] := by
    rw [commit, hsignal, Option.toList_some]
  have hnone := signal?_eq_none.1 hnew
  refine ⟨?_, ?_, ?_, ?_⟩
  · rw [hsignals, List.map_append, List.nodup_append']
    refine ⟨h.nodup, List.nodup_singleton _, fun id hold hid => ?_⟩
    obtain ⟨old, hmem, rfl⟩ := List.mem_map.1 hold
    exact hnone old hmem (List.mem_singleton.1 hid)
  · rw [hsignals]
    exact List.forall_mem_append.2 ⟨h.valid, List.forall_mem_singleton.2 hvalid⟩
  · rw [hsignals, commit, hevent, Option.toList_some]
    refine List.forall_mem_append.2 ⟨fun e he => ?_, List.forall_mem_singleton.2
      ⟨signal, List.mem_append_right _ (List.mem_singleton_self _), hid.trans heventid.symm⟩⟩
    obtain ⟨s, hs, hsame⟩ := h.owned e he
    exact ⟨s, List.mem_append_left _ hs, hsame⟩
  · rw [hsignals]
    refine List.forall_mem_append.2 ⟨fun s hs => ?_, List.forall_mem_singleton.2 ?_⟩
    · rw [kindsOf, eventsOf_commit_of_ne fun hsame => hnone s hs (hsame.symm.trans hid.symm)]
      exact h.lifecycle s hs
    · -- Its events are the first one only.
      rw [kindsOf, eventsOf_commit, h.eventsOf_new hnew, hevent, Option.toList_some,
        List.filter_cons_of_pos (by exact decide_eq_true (heventid.trans hid.symm)),
        List.filter_nil, List.nil_append, List.map_singleton, hkind]
      exact List.mem_cons_self

/-- The next event of a signal is inserted. -/
theorem IsConsistent.insertEvent (h : ledger.IsConsistent) (hs : signal ∈ ledger.signals)
    {event : SwingShadowEvent} (hid : event.signalId = signal.signalId)
    {latest : SwingShadowEvent}
    (hlatest : (ledger.eventsOf signal.signalId).getLast? = some latest)
    (hkind : event.kind ∈ latest.kind.next) :
    (ledger.commit (.insertEvent event)).IsConsistent := by
  have hsignals : (ledger.commit (.insertEvent event)).signals = ledger.signals :=
    List.append_nil _
  refine ⟨?_, ?_, ?_, ?_⟩
  · rw [hsignals]
    exact h.nodup
  · rw [hsignals]
    exact h.valid
  · rw [hsignals]
    exact List.forall_mem_append.2 ⟨h.owned, List.forall_mem_singleton.2 ⟨signal, hs, hid.symm⟩⟩
  · intro s hs'
    rw [hsignals] at hs'
    by_cases hsame : event.signalId = s.signalId
    · have hkinds : (ledger.kindsOf signal.signalId).getLast? = some latest.kind := by
        rw [kindsOf, List.getLast?_map, hlatest, Option.map_some]
      rw [kindsOf, ← hsame, eventsOf_insertEvent, List.map_append, List.map_singleton, hid]
      exact (lifecycle_next (h.lifecycle signal hs) hkinds hkind).2
    · rw [kindsOf, eventsOf_commit_of_ne (by exact hsame)]
      exact h.lifecycle s hs'

end SwingShadowLedger

/-! ## Turns -/

variable {env : SwingEnvironment} {source : SwingDailySource} {ledger : SwingShadowLedger}
  {signal : TradeSignalEnvelope} {latest : SwingShadowEvent} {kind : ShadowEventKind}
  {price : Option Decimal} {bar : SwingDailyBar}

theorem validateEvent_event (hsource : source.validateSource env.newYork = true)
    (hsignal : signal.validateSignal = true)
    (hprice : SwingShadowEvent.priceIsValid kind price = true) :
    (event env source signal kind price).validateEvent = true := by
  simp only [SwingDailySource.validateSource, Bool.decide_and, Bool.and_eq_true,
    decide_eq_true_eq] at hsource
  simp only [TradeSignalEnvelope.validateSignal, Bool.decide_and, Bool.and_eq_true,
    decide_eq_true_eq] at hsignal
  rw [SwingShadowEvent.validateEvent]
  exact decide_eq_true ⟨hsignal.1.1, hsource.2.1, env.isHex64_sourceKey source, hprice⟩

/-- An event that is next in the lifecycle of a signal is appended. -/
theorem append_eq (h : ledger.IsConsistent) (hs : signal ∈ ledger.signals)
    (hlatest : (ledger.eventsOf signal.signalId).getLast? = some latest)
    (hkind : kind ∈ latest.kind.next)
    (hvalid : (event env source signal kind price).validateEvent = true) :
    append env source signal kind price ledger =
      ([.insertEvent (event env source signal kind price)],
        .ok [event env source signal kind price]) := by
  have hkinds : (ledger.kindsOf signal.signalId).getLast? = some latest.kind := by
    rw [SwingShadowLedger.kindsOf, List.getLast?_map, hlatest, Option.map_some]
  have hnew := (lifecycle_next (h.lifecycle signal hs) hkinds hkind).1
  -- No event of this kind is there already.
  have hevent : ledger.event? (event env source signal kind price).eventId = none := by
    rw [SwingShadowLedger.event?, List.find?_eq_none]
    intro e he heq
    have heq : e.eventId = (signal.signalId, kind) := of_decide_eq_true heq
    refine hnew (List.mem_map.2 ⟨e, List.mem_filter.2 ⟨he, ?_⟩, congrArg Prod.snd heq⟩)
    exact decide_eq_true (congrArg Prod.fst heq)
  have hsignal : ledger.signal? (event env source signal kind price).signalId = some signal :=
    h.signal?_eq hs
  have happend : appendEvent (event env source signal kind price) ledger =
      ([.insertEvent (event env source signal kind price)], .ok true) := by
    rw [appendEvent, if_neg (not_not.2 hvalid), read_bind, hevent]
    dsimp only
    rw [read_bind, hsignal]
    rfl
  rw [append, if_neg (not_not.2 hvalid), bind_of_ok (congrArg Prod.snd happend), happend]
  rfl

theorem positive_of_validSignal (h : signal.validateSignal = true) :
    isPositiveFinite signal.entryPrice = true ∧ isPositiveFinite signal.stopPrice = true
      ∧ isPositiveFinite signal.targetPrice = true := by
  simp only [TradeSignalEnvelope.validateSignal, Bool.decide_and, Bool.and_eq_true,
    decide_eq_true_eq, List.all_eq_true] at h
  obtain ⟨-, -, -, -, -, -, -, hentry, hstop, htargets, hall, -⟩ := h
  obtain ⟨target, targets, htargets⟩ := List.exists_cons_of_ne_nil htargets
  refine ⟨hentry, hstop, ?_⟩
  have htarget := hall target (htargets ▸ List.mem_cons_self)
  simp only [validateTarget, Bool.decide_and, Bool.and_eq_true, decide_eq_true_eq] at htarget
  rw [TradeSignalEnvelope.targetPrice, htargets]
  exact htarget.2

theorem currentBar_eq_some (h : currentBar source signal.symbol = some bar) :
    bar ∈ source.bars ∧ bar.symbol = signal.symbol ∧ bar.sessionDate = source.sessionDate := by
  rw [currentBar, Option.filter_eq_some_iff] at h
  have hmem := List.mem_filter.1 (List.mem_of_getLast? h.1)
  exact ⟨hmem.1, of_decide_eq_true hmem.2, of_decide_eq_true h.2⟩

theorem positive_of_validBar (hsource : source.validateSource env.newYork = true)
    (hbar : bar ∈ source.bars) :
    isPositiveFinite bar.open_ = true ∧ isPositiveFinite bar.close = true := by
  simp only [SwingDailySource.validateSource, Bool.decide_and, Bool.and_eq_true,
    decide_eq_true_eq, List.all_eq_true] at hsource
  have hvalid := hsource.1 bar hbar
  simp only [validateBar, Bool.decide_and, Bool.and_eq_true, decide_eq_true_eq, List.all_eq_true]
    at hvalid
  exact ⟨hvalid.2.2.2.1 _ (by simp), hvalid.2.2.2.1 _ (by simp)⟩

theorem isPositiveFinite_max {a b : Decimal} (ha : isPositiveFinite a = true)
    (hb : isPositiveFinite b = true) : isPositiveFinite (Decimal.max a b) = true := by
  rw [Decimal.max]
  split_ifs <;> assumption

theorem isPositiveFinite_min {a b : Decimal} (ha : isPositiveFinite a = true)
    (hb : isPositiveFinite b = true) : isPositiveFinite (Decimal.min a b) = true := by
  rw [Decimal.min]
  split_ifs <;> assumption

/-- Whether a bar reaches the stop or the target of a signal. -/
def reachesExit (signal : TradeSignalEnvelope) (bar : SwingDailyBar) : Bool :=
  bar.low ≤ signal.stopPrice ∨ signal.targetPrice ≤ bar.high

/-- Whether a pending signal is entered in the session of a bar. -/
def reachesEntry (env : SwingEnvironment) (source : SwingDailySource) (signal : TradeSignalEnvelope)
    (bar : SwingDailyBar) : Bool :=
  source.sessionDate = validSession env signal ∧ ¬ bar.high < signal.entryPrice

/-- Whether a signal is pending: it has no event after its first one. -/
def isPending (ledger : SwingShadowLedger) (signal : TradeSignalEnvelope) : Bool :=
  (ledger.eventsOf signal.signalId).getLast?.all (·.kind = .signalCreated)

/-- Whether a pending signal is entered in a session whose bar also reaches its stop or target. -/
def entersAndCloses (env : SwingEnvironment) (source : SwingDailySource)
    (ledger : SwingShadowLedger) (signal : TradeSignalEnvelope) : Bool :=
  isPending ledger signal && (currentBar source signal.symbol).any fun bar =>
    reachesEntry env source signal bar && reachesExit signal bar

theorem kind_of_not_terminal (h : kind.terminal = false) :
    kind = .signalCreated ∨ kind = .entryFilled := by
  cases kind with
  | signalCreated => exact .inl rfl
  | entryFilled => exact .inr rfl
  | stopped | targeted | timeExit | expired => cases h

theorem signalCreated_not_mem_next (kind : ShadowEventKind) :
    ShadowEventKind.signalCreated ∉ kind.next := by
  cases kind <;> decide

/-- What comes after the entry ends the lifecycle. -/
theorem terminal_of_mem_next (h : kind ∈ ShadowEventKind.entryFilled.next) :
    kind.terminal = true := by
  have hall : ∀ kind ∈ ShadowEventKind.entryFilled.next, kind.terminal = true := by decide
  exact hall kind h

theorem takeTurn_of_terminal (h : latest.kind.terminal = true) :
    takeTurn env source signal latest = pure [] := by
  rw [takeTurn, if_pos h]

theorem takeTurn_of_none (h : latest.kind.terminal = false)
    (hbar : currentBar source signal.symbol = none) :
    takeTurn env source signal latest = raise .invalidEngine := by
  rw [takeTurn, h, if_neg Bool.false_ne_true, hbar]

theorem takeTurn_of_pending (h : latest.kind = .signalCreated)
    (hbar : currentBar source signal.symbol = some bar) :
    takeTurn env source signal latest = advancePending env source signal bar := by
  rw [takeTurn, h, hbar]
  rfl

theorem takeTurn_of_open (h : latest.kind = .entryFilled)
    (hbar : currentBar source signal.symbol = some bar) :
    takeTurn env source signal latest = advanceOpenPosition env source signal bar latest := by
  rw [takeTurn, h, hbar]
  rfl

/-- An event of a session that comes next for a signal. -/
structure ComesNext (source : SwingDailySource) (signal : TradeSignalEnvelope)
    (latest : ShadowEventKind) (e : SwingShadowEvent) : Prop where
  kind : e.kind ∈ latest.next
  signalId : e.signalId = signal.signalId
  sessionDate : e.sessionDate = source.sessionDate

theorem comesNext_event {latest : ShadowEventKind} (hkind : kind ∈ latest.next) :
    ComesNext source signal latest (event env source signal kind price) :=
  ⟨hkind, rfl, rfl⟩

/-- The turn of a signal appends one event. -/
def AppendsOne (source : SwingDailySource) (signal : TradeSignalEnvelope) (latest : ShadowEventKind)
    (turn : SwingShadowWork (List SwingShadowEvent)) (ledger : SwingShadowLedger) : Prop :=
  ∃ e, ComesNext source signal latest e ∧ turn ledger = ([.insertEvent e], .ok [e])

section Valid

variable (hsource : source.validateSource env.newYork = true) (h : ledger.IsConsistent)
  (hs : signal ∈ ledger.signals)
  (hlatest : (ledger.eventsOf signal.signalId).getLast? = some latest)
include hsource h hs hlatest

theorem appendsOne_append (hkind : kind ∈ latest.kind.next)
    (hprice : SwingShadowEvent.priceIsValid kind price = true) :
    AppendsOne source signal latest.kind (append env source signal kind price) ledger :=
  ⟨_, comesNext_event hkind,
    append_eq h hs hlatest hkind (validateEvent_event hsource (h.valid signal hs) hprice)⟩

/-- A bar that reaches the stop or the target closes an open position. -/
theorem appendsOne_appendExit (hopen : latest.kind = .entryFilled) (hbar : bar ∈ source.bars)
    (hexit : reachesExit signal bar = true) (otherwise : SwingShadowWork (List SwingShadowEvent)) :
    AppendsOne source signal latest.kind (appendExit env source signal bar otherwise) ledger := by
  obtain ⟨-, hstop, htarget⟩ := positive_of_validSignal (h.valid signal hs)
  have hprice := (positive_of_validBar hsource hbar).1
  rw [appendExit]
  by_cases hlow : bar.low ≤ signal.stopPrice
  · rw [if_pos hlow]
    refine appendsOne_append hsource h hs hlatest ?_ (isPositiveFinite_min hprice hstop)
    rw [hopen]
    exact List.mem_cons_self
  · -- The stop comes first: only a bar that does not reach it can reach the target.
    have hhigh : signal.targetPrice ≤ bar.high := (of_decide_eq_true hexit).resolve_left hlow
    rw [if_neg hlow, if_pos hhigh]
    refine appendsOne_append hsource h hs hlatest ?_ (isPositiveFinite_max hprice htarget)
    rw [hopen]
    exact List.mem_cons_of_mem _ List.mem_cons_self

omit hsource h hs hlatest in
theorem appendExit_of_not (hexit : reachesExit signal bar = false)
    (otherwise : SwingShadowWork (List SwingShadowEvent)) :
    appendExit env source signal bar otherwise = otherwise := by
  have hnot := of_decide_eq_false hexit
  rw [not_or] at hnot
  rw [appendExit, if_neg hnot.1, if_neg hnot.2]

omit hsource h hs in
theorem advanceSignal_eq :
    advanceSignal env source signal ledger = takeTurn env source signal latest ledger := by
  rw [advanceSignal, read_bind, hlatest]

theorem advanceOpenPosition_cases (hopen : latest.kind = .entryFilled) (hbar : bar ∈ source.bars) :
    (advanceOpenPosition env source signal bar latest ledger).1 = [] ∨
      latest.sessionDate < source.sessionDate ∧ AppendsOne source signal latest.kind
        (advanceOpenPosition env source signal bar latest) ledger := by
  rw [advanceOpenPosition]
  by_cases hlater : source.sessionDate ≤ latest.sessionDate
  · rw [if_pos hlater]
    exact .inl rfl
  rw [if_neg hlater]
  have hlater : latest.sessionDate < source.sessionDate := Int.not_le.1 hlater
  cases hexit : reachesExit signal bar with
  | true => exact .inr ⟨hlater, appendsOne_appendExit hsource h hs hlatest hopen hbar hexit _⟩
  | false =>
    rw [appendExit_of_not hexit]
    cases completedHoldingSessions latest.sessionDate source.sessionDate with
    | none => exact .inl rfl
    | some completed =>
      dsimp only
      split
      · refine .inr ⟨hlater, appendsOne_append hsource h hs hlatest ?_
          (positive_of_validBar hsource hbar).2⟩
        rw [hopen]
        exact List.mem_cons_of_mem _ (List.mem_cons_of_mem _ List.mem_cons_self)
      · exact .inl rfl

theorem appendsOne_entry (hpending : latest.kind = .signalCreated) (hbar : bar ∈ source.bars) :
    AppendsOne source signal latest.kind (append env source signal .entryFilled
      (some (Decimal.max bar.open_ signal.entryPrice))) ledger := by
  refine appendsOne_append hsource h hs hlatest ?_ (isPositiveFinite_max
    (positive_of_validBar hsource hbar).1 (positive_of_validSignal (h.valid signal hs)).1)
  rw [hpending]
  exact List.mem_cons_of_mem _ List.mem_cons_self

/-- A pending signal that the bar does not both enter and close appends at most one event. -/
theorem advancePending_cases (hpending : latest.kind = .signalCreated) (hbar : bar ∈ source.bars)
    (hnot : (reachesEntry env source signal bar && reachesExit signal bar) = false) :
    advancePending env source signal bar ledger = ([], .ok []) ∨
      AppendsOne source signal latest.kind (advancePending env source signal bar) ledger := by
  rw [advancePending]
  by_cases hearly : source.sessionDate < validSession env signal
  · rw [if_pos hearly]
    exact .inl rfl
  rw [if_neg hearly]
  by_cases hexpired : validSession env signal < source.sessionDate ∨ bar.high < signal.entryPrice
  · rw [if_pos hexpired]
    refine .inr (appendsOne_append hsource h hs hlatest ?_ rfl)
    rw [hpending]
    exact List.mem_cons_self
  rw [if_neg hexpired]
  rw [not_or] at hexpired
  -- The signal is entered, and the bar does not close it.
  have hentry : reachesEntry env source signal bar = true :=
    decide_eq_true ⟨le_antisymm (Int.not_lt.1 hexpired.1) (Int.not_lt.1 hearly), hexpired.2⟩
  rw [hentry, Bool.true_and] at hnot
  obtain ⟨e, hnext, happend⟩ := appendsOne_entry hsource h hs hlatest hpending hbar
  refine .inr ⟨e, hnext, ?_⟩
  rw [appendExit_of_not hnot, bind_of_ok (congrArg Prod.snd happend), happend]
  rfl

/-- A pending signal that the bar both enters and closes appends two events. -/
theorem advancePending_of_reaches (hpending : latest.kind = .signalCreated)
    (hbar : bar ∈ source.bars) (hentry : reachesEntry env source signal bar = true)
    (hexit : reachesExit signal bar = true) :
    ∃ entry exit, entry.kind = .entryFilled ∧ ComesNext source signal .signalCreated entry ∧
      ComesNext source signal .entryFilled exit ∧
      advancePending env source signal bar ledger =
        ([.insertEvent entry, .insertEvent exit], .ok [entry, exit]) := by
  have hentry := of_decide_eq_true hentry
  have hearly : ¬ source.sessionDate < validSession env signal := hentry.1.not_lt
  have hexpired : ¬ (validSession env signal < source.sessionDate ∨
      bar.high < signal.entryPrice) := by
    rintro (hlate | hlow)
    · exact hentry.1.not_gt hlate
    · exact hentry.2 hlow
  obtain ⟨hopen, hstop, -⟩ := positive_of_validSignal (h.valid signal hs)
  have hprice := (positive_of_validBar hsource hbar).1
  have hnext : ShadowEventKind.entryFilled ∈ latest.kind.next := by
    rw [hpending]
    exact List.mem_cons_of_mem _ List.mem_cons_self
  have hvalid : (event env source signal .entryFilled
      (some (Decimal.max bar.open_ signal.entryPrice))).validateEvent = true :=
    validateEvent_event hsource (h.valid signal hs) (isPositiveFinite_max hprice hopen)
  have happend := append_eq h hs hlatest hnext hvalid
  have hentered : ComesNext source signal .signalCreated (event env source signal .entryFilled
      (some (Decimal.max bar.open_ signal.entryPrice))) :=
    comesNext_event (List.mem_cons_of_mem _ List.mem_cons_self)
  rw [advancePending, if_neg hearly, if_neg hexpired]
  generalize hentrydef : event env source signal .entryFilled
    (some (Decimal.max bar.open_ signal.entryPrice)) = entry at happend hentered
  have hkind : entry.kind = .entryFilled := hentrydef ▸ rfl
  -- After the entry, the position is open, and the same bar closes it.
  have hconsistent : (ledger.commit (.insertEvent entry)).IsConsistent :=
    h.insertEvent hs hentered.signalId hlatest (by rw [hkind]; exact hnext)
  have hlast : ((ledger.commit (.insertEvent entry)).eventsOf signal.signalId).getLast? =
      some entry := by
    rw [← hentered.signalId, SwingShadowLedger.eventsOf_insertEvent, List.getLast?_concat]
  obtain ⟨exit, hexitnext, hclose⟩ := appendsOne_appendExit hsource hconsistent
    (List.mem_append_left _ hs) hlast hkind hbar hexit (pure [])
  rw [hkind] at hexitnext
  refine ⟨entry, exit, hkind, hentered, hexitnext, ?_⟩
  rw [bind_of_ok (congrArg Prod.snd happend), after, happend, List.foldl_cons, List.foldl_nil,
    bind_of_ok (congrArg Prod.snd hclose), hclose]
  rfl

omit hlatest in
/-- What a turn appends, unless the signal is both entered and closed: nothing or one event, after
    which there is nothing left to do. -/
theorem advanceSignal_cases (hnot : entersAndCloses env source ledger signal = false) :
    (advanceSignal env source signal ledger).1 = [] ∨
      ∃ latest, (ledger.eventsOf signal.signalId).getLast? = some latest ∧
        (currentBar source signal.symbol).isSome ∧
        AppendsOne source signal latest.kind (advanceSignal env source signal) ledger := by
  cases hlatest : (ledger.eventsOf signal.signalId).getLast? with
  | none =>
    rw [advanceSignal, read_bind, hlatest]
    exact .inl rfl
  | some latest =>
    rw [advanceSignal_eq hlatest]
    rw [entersAndCloses, isPending, hlatest, Option.all_some] at hnot
    cases hterminal : latest.kind.terminal with
    | true =>
      rw [takeTurn_of_terminal hterminal]
      exact .inl rfl
    | false =>
      cases hbar : currentBar source signal.symbol with
      | none =>
        rw [takeTurn_of_none hterminal hbar]
        exact .inl rfl
      | some bar =>
        have hmem := (currentBar_eq_some hbar).1
        rw [hbar, Option.any_some] at hnot
        rcases kind_of_not_terminal hterminal with hpending | hopen
        · rw [takeTurn_of_pending hpending hbar]
          rw [hpending, decide_eq_true rfl, Bool.true_and] at hnot
          refine (advancePending_cases hsource h hs hlatest hpending hmem hnot).imp
            (congrArg Prod.fst) ?_
          rintro ⟨e, hnext, hone⟩
          exact ⟨latest, rfl, rfl, e, hnext, by
            rw [advanceSignal_eq hlatest, takeTurn_of_pending hpending hbar, hone]⟩
        · rw [takeTurn_of_open hopen hbar]
          refine (advanceOpenPosition_cases hsource h hs hlatest hopen hmem).imp id ?_
          rintro ⟨-, e, hnext, hone⟩
          exact ⟨latest, rfl, rfl, e, hnext, by
            rw [advanceSignal_eq hlatest, takeTurn_of_open hopen hbar, hone]⟩

theorem advanceSignal_of_entersAndCloses
    (hyes : entersAndCloses env source ledger signal = true) :
    latest.kind = .signalCreated ∧ ∃ entry exit, entry.kind = .entryFilled ∧
      ComesNext source signal .signalCreated entry ∧ ComesNext source signal .entryFilled exit ∧
      advanceSignal env source signal ledger =
        ([.insertEvent entry, .insertEvent exit], .ok [entry, exit]) := by
  rw [entersAndCloses, isPending, hlatest, Option.all_some, Bool.and_eq_true, decide_eq_true_eq,
    Option.any_eq_true] at hyes
  obtain ⟨hpending, bar, hbar, hreaches⟩ := hyes
  rw [Bool.and_eq_true] at hreaches
  refine ⟨hpending, ?_⟩
  rw [advanceSignal_eq hlatest, takeTurn_of_pending hpending hbar]
  exact advancePending_of_reaches hsource h hs hlatest hpending (currentBar_eq_some hbar).1
    hreaches.1 hreaches.2

end Valid

/-- After its turn in a session, a signal has nothing left to do in it. -/
theorem advanceSignal_again (env : SwingEnvironment) {e : SwingShadowEvent}
    (hlast : (ledger.eventsOf signal.signalId).getLast? = some e) {kind : ShadowEventKind}
    (he : ComesNext source signal kind e) (hbar : (currentBar source signal.symbol).isSome) :
    advanceSignal env source signal ledger = ([], .ok []) := by
  rw [advanceSignal_eq hlast]
  cases hterminal : e.kind.terminal with
  | true =>
    rw [takeTurn_of_terminal hterminal]
    rfl
  | false =>
    -- The position was entered in this session: it is followed from the next one on.
    obtain ⟨bar, hbar⟩ := Option.isSome_iff_exists.1 hbar
    rcases kind_of_not_terminal hterminal with hpending | hopen
    · exact absurd (hpending ▸ he.kind) (signalCreated_not_mem_next kind)
    · rw [takeTurn_of_open hopen hbar, advanceOpenPosition, if_pos he.sessionDate.ge]
      rfl

end TradingAgent.Swing
