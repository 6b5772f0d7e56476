import TradingAgent.Swing.Independence

/-!
# Sessions that are interrupted

A session may be interrupted after any of its transactions, and is then advanced again
(`crashedRun`).

* A session that was interrupted makes just the rest of its transactions, unless a signal is both
  entered and closed in it (`resumes_session`): these are two transactions, and a position is only
  followed from the session after its entry on.
* So the events of some sessions are those of the run that is never interrupted, wherever it is
  interrupted, exactly if in no session a signal that takes its turn is both entered and closed
  (`crash_safe_iff`).
-/

namespace TradingAgent.Swing

open Transition Writing

variable {env : SwingEnvironment} {source : SwingDailySource} {ledger ledger' : SwingShadowLedger}
  {signal : TradeSignalEnvelope} {signals : List TradeSignalEnvelope} {latest : SwingShadowEvent}
  {bar : SwingDailyBar}

/-! ## Who takes a turn -/

/-- Whether an open position can be followed: the sessions since its entry are only counted if the
    bar does not close it. -/
def canFollow (source : SwingDailySource) (signal : TradeSignalEnvelope) (entry : SwingShadowEvent)
    (bar : SwingDailyBar) : Bool :=
  source.sessionDate ≤ entry.sessionDate || reachesExit signal bar ||
    (completedHoldingSessions entry.sessionDate source.sessionDate).isSome

/-- Whether the turn of a signal raises no error. -/
def canTakeTurn (source : SwingDailySource) (ledger : SwingShadowLedger)
    (signal : TradeSignalEnvelope) : Bool :=
  match (ledger.eventsOf signal.signalId).getLast? with
  | none => (currentBar source signal.symbol).isSome
  | some latest => latest.kind.terminal || (currentBar source signal.symbol).any fun bar =>
      latest.kind = .signalCreated || canFollow source signal latest bar

theorem AppendsOne.isOk {turn : SwingShadowWork (List SwingShadowEvent)} {kind : ShadowEventKind}
    (h : AppendsOne source signal kind turn ledger) : turn.isOk ledger = true := by
  obtain ⟨e, -, hrun⟩ := h
  exact isOk_iff.2 ⟨[e], congrArg Prod.snd hrun⟩

section Valid

variable (hsource : source.validateSource env.newYork = true) (h : ledger.IsConsistent)
  (hs : signal ∈ ledger.signals)
include hsource h hs

theorem isOk_advanceOpenPosition
    (hlatest : (ledger.eventsOf signal.signalId).getLast? = some latest)
    (hopen : latest.kind = .entryFilled) (hbar : bar ∈ source.bars) :
    (advanceOpenPosition env source signal bar latest).isOk ledger =
      canFollow source signal latest bar := by
  rw [advanceOpenPosition, canFollow]
  by_cases hlater : source.sessionDate ≤ latest.sessionDate
  · rw [if_pos hlater, decide_eq_true hlater]
    rfl
  rw [if_neg hlater, decide_eq_false hlater, Bool.false_or]
  cases hexit : reachesExit signal bar with
  | true => exact (appendsOne_appendExit hsource h hs hlatest hopen hbar hexit _).isOk
  | false =>
    rw [appendExit_of_not hexit]
    cases completedHoldingSessions latest.sessionDate source.sessionDate with
    | none => rfl
    | some completed =>
      dsimp only
      split
      · have htime : ShadowEventKind.timeExit ∈ latest.kind.next := by
          rw [hopen]
          exact List.mem_cons_of_mem _ (List.mem_cons_of_mem _ List.mem_cons_self)
        have hprice : SwingShadowEvent.priceIsValid .timeExit (some bar.close) = true :=
          (positive_of_validBar hsource hbar).2
        exact (appendsOne_append hsource h hs hlatest htime hprice).isOk
      · rfl

theorem isOk_advancePending
    (hlatest : (ledger.eventsOf signal.signalId).getLast? = some latest)
    (hpending : latest.kind = .signalCreated) (hbar : bar ∈ source.bars) :
    (advancePending env source signal bar).isOk ledger = true := by
  cases hboth : reachesEntry env source signal bar && reachesExit signal bar with
  | true =>
    rw [Bool.and_eq_true] at hboth
    obtain ⟨entry, exit, -, -, -, hrun⟩ :=
      advancePending_of_reaches hsource h hs hlatest hpending hbar hboth.1 hboth.2
    exact isOk_iff.2 ⟨_, congrArg Prod.snd hrun⟩
  | false =>
    rcases advancePending_cases hsource h hs hlatest hpending hbar hboth with hnil | hone
    · exact isOk_iff.2 ⟨_, congrArg Prod.snd hnil⟩
    · exact hone.isOk

theorem isOk_advanceSignal :
    (advanceSignal env source signal).isOk ledger = canTakeTurn source ledger signal := by
  obtain ⟨latest, hlatest⟩ := h.exists_latest hs
  rw [isOk, advanceSignal_eq hlatest, ← isOk, canTakeTurn, hlatest]
  dsimp only
  cases hterminal : latest.kind.terminal with
  | true =>
    rw [takeTurn_of_terminal hterminal]
    rfl
  | false =>
    rw [Bool.false_or]
    cases hbar : currentBar source signal.symbol with
    | none =>
      rw [takeTurn_of_none hterminal hbar]
      rfl
    | some bar =>
      rw [Option.any_some]
      rcases kind_of_not_terminal hterminal with hpending | hopen
      · rw [takeTurn_of_pending hpending hbar, hpending, decide_eq_true rfl, Bool.true_or]
        exact isOk_advancePending hsource h hs hlatest hpending (currentBar_eq_some hbar).1
      · rw [takeTurn_of_open hopen hbar, hopen]
        exact isOk_advanceOpenPosition hsource h hs hlatest hopen (currentBar_eq_some hbar).1

/-- A turn that does not both enter and close its signal resumes. -/
theorem resumes_advanceSignal (hnot : entersAndCloses env source ledger signal = false) :
    ResumesAt (advanceSignal env source signal) ledger := by
  refine .of_single ?_
  rcases advanceSignal_cases hsource h hs hnot with hnil | ⟨latest, hlatest, hbar, e, he, hrun⟩
  · exact .inl hnil
  · have hlast : ((ledger.commit (.insertEvent e)).eventsOf signal.signalId).getLast? = some e := by
      rw [← he.signalId, SwingShadowLedger.eventsOf_insertEvent, List.getLast?_concat]
    have hagain := advanceSignal_again env hlast he hbar
    refine .inr ⟨.insertEvent e, congrArg Prod.fst hrun, congrArg Prod.fst hagain, ?_⟩
    rw [isOk, hagain, isOk, hrun]
    rfl

end Valid

/-! ## The events of other signals -/

theorem canTakeTurn_congr (h : ledger'.eventsOf signal.signalId = ledger.eventsOf signal.signalId) :
    canTakeTurn source ledger' signal = canTakeTurn source ledger signal := by
  rw [canTakeTurn, h, canTakeTurn]

theorem entersAndCloses_congr
    (h : ledger'.eventsOf signal.signalId = ledger.eventsOf signal.signalId) :
    entersAndCloses env source ledger' signal = entersAndCloses env source ledger signal := by
  rw [entersAndCloses, isPending, h, entersAndCloses, isPending]

theorem eventsOf_after_of_ne {s : TradeSignalEnvelope} (hne : s.signalId ≠ signal.signalId) :
    ((advanceSignal env source s).after ledger).eventsOf signal.signalId =
      ledger.eventsOf signal.signalId :=
  congrArg SwingShadowLedger.events
    (view_after_of_ne (confined_advanceSignal env source) arePartsOf_signals hne ledger)

/-! ## Turns that resume -/

/-- In these turns, no signal is both entered and closed before a turn raises an error. -/
def TurnsAreSafe (env : SwingEnvironment) (source : SwingDailySource) (ledger : SwingShadowLedger)
    (turns : List TradeSignalEnvelope) : Prop :=
  ∀ before signal later, turns = before ++ signal :: later →
    (∀ b ∈ before, canTakeTurn source ledger b = true) →
    entersAndCloses env source ledger signal = false

theorem TurnsAreSafe.tail {turns : List TradeSignalEnvelope}
    (hsafe : TurnsAreSafe env source ledger (signal :: turns))
    (hturn : canTakeTurn source ledger signal = true)
    (hsame : ∀ s ∈ turns, ledger'.eventsOf s.signalId = ledger.eventsOf s.signalId) :
    TurnsAreSafe env source ledger' turns := by
  rintro before s later rfl hbefore
  rw [entersAndCloses_congr (hsame s (List.mem_append_right _ List.mem_cons_self))]
  refine hsafe (signal :: before) s later rfl (List.forall_mem_cons.2 ⟨hturn, fun b hb => ?_⟩)
  rw [← canTakeTurn_congr (hsame b (List.mem_append_left _ hb))]
  exact hbefore b hb

/-- The turns of a session resume, if they are safe. -/
theorem resumes_turns (hsource : source.validateSource env.newYork = true)
    (h : ledger.IsConsistent) (hsafe : TurnsAreSafe env source ledger ledger.signals) :
    ResumesAt (forEach (advanceSignal env source) ledger.signals) ledger := by
  refine .forEach (fun turns l => l.IsConsistent ∧ (∀ s ∈ turns, s ∈ l.signals) ∧
    (turns.map (·.signalId)).Nodup ∧ TurnsAreSafe env source l turns) ?_ ?_ ?_
    ⟨h, fun _ hs => hs, h.nodup, hsafe⟩
  · rintro s turns l ⟨hl, hstored, hnodup, hsafe⟩ hok
    rw [List.forall_mem_cons] at hstored
    rw [List.map_cons, List.nodup_cons] at hnodup
    have hkeeps := (advanceSignal_preserves hsource hl hstored.1).after
    refine ⟨hkeeps.1, hkeeps.2 ▸ hstored.2, hnodup.2, hsafe.tail ?_ fun t ht => ?_⟩
    · rw [← isOk_advanceSignal hsource hl hstored.1]
      exact hok
    · exact eventsOf_after_of_ne fun hid => hnodup.1 (hid ▸ List.mem_map_of_mem ht)
  · rintro s turns l ⟨hl, hstored, -, hsafe⟩
    rw [List.forall_mem_cons] at hstored
    exact resumes_advanceSignal hsource hl hstored.1
      (hsafe [] s turns rfl (List.forall_mem_nil _))
  · rintro s turns l ⟨-, -, hnodup, -⟩ - ws hws
    rw [List.map_cons, List.nodup_cons] at hnodup
    -- What is written for the signals that follow does not change this one.
    refine .inl ((confined_advanceSignal env source s).congr
      ((SwingShadowLedger.isView_only s.signalId).foldl_other fun w hw hid => ?_))
    obtain ⟨t, ht, l', hmem⟩ := hws w hw
    have howner := (confined_advanceSignal env source t).writes l' w hmem
    exact hnodup.1 ((howner.symm.trans hid) ▸ List.mem_map_of_mem ht)

theorem turnsAreSafe_cons {turns : List TradeSignalEnvelope} :
    TurnsAreSafe env source ledger (signal :: turns) ↔
      entersAndCloses env source ledger signal = false ∧
        (canTakeTurn source ledger signal = true → TurnsAreSafe env source ledger turns) := by
  refine ⟨fun hsafe => ⟨hsafe [] signal turns rfl (List.forall_mem_nil _),
    fun hturn => hsafe.tail hturn fun _ _ => rfl⟩, ?_⟩
  rintro ⟨hfirst, hrest⟩ before s later hsplit hbefore
  rcases List.cons_eq_append_iff.1 hsplit with ⟨rfl, hcons⟩ | ⟨before, rfl, rfl⟩
  · obtain ⟨rfl, rfl⟩ := List.cons.inj hcons
    exact hfirst
  · rw [List.forall_mem_cons] at hbefore
    exact hrest hbefore.1 before s later rfl hbefore.2

/-- Turns are safe if the first signal that cannot take its turn, or is both entered and closed, is
    not both entered and closed. -/
theorem turnsAreSafe_iff {turns : List TradeSignalEnvelope} :
    TurnsAreSafe env source ledger turns ↔
      (turns.find? fun s =>
        !canTakeTurn source ledger s || entersAndCloses env source ledger s).all
          (fun s => !entersAndCloses env source ledger s) = true := by
  induction turns with
  | nil => exact iff_of_true (fun _ _ _ hsplit => by simp at hsplit) rfl
  | cons s turns ih =>
    rw [turnsAreSafe_cons, List.find?_cons]
    cases hturn : canTakeTurn source ledger s <;>
      cases hboth : entersAndCloses env source ledger s <;> simp [hboth, ih]

/-! ## New signals -/

/-- Whether a new signal is accepted, among the signals that are known: one that matches the source,
    is valid, and is the only one of its identity. -/
def isAccepted (env : SwingEnvironment) (source : SwingDailySource)
    (known : List TradeSignalEnvelope) (signal : TradeSignalEnvelope) : Bool :=
  signalMatchesSource env source signal && signal.validateSignal &&
    known.all fun s => s.signalId ≠ signal.signalId ∨ s = signal

theorem isOk_recordSignal (h : ledger.IsConsistent)
    (hmatches : signalMatchesSource env source signal = true)
    (hvalid : signal.validateSignal = true)
    (hknown : ∀ s ∈ ledger.signals, s.signalId = signal.signalId → s = signal) :
    (recordSignal env source signal).isOk ledger = true := by
  rw [isOk, recordSignal, if_neg (not_not.2 hmatches), appendSignal, if_neg (not_not.2 hvalid),
    read_bind]
  cases hstored : ledger.signal? signal.signalId with
  | some existing =>
    obtain ⟨hmem, hid⟩ := SwingShadowLedger.signal?_eq_some hstored
    dsimp only
    rw [if_neg (not_not.2 (hknown existing hmem hid))]
    rfl
  | none =>
    have hevent :
        (creationEvent signal source.sessionDate (env.sourceKey source)).validateEvent = true := by
      simp only [TradeSignalEnvelope.validateSignal, Bool.decide_and, Bool.and_eq_true,
        decide_eq_true_eq] at hvalid
      rw [SwingShadowEvent.validateEvent]
      exact decide_eq_true ⟨hvalid.1.1, hvalid.2.2.2.1, env.isHex64_sourceKey source, rfl⟩
    dsimp only
    rw [if_neg (not_not.2 hevent), read_bind]
    have hnone : ledger.event? (creationEvent signal source.sessionDate
        (env.sourceKey source)).eventId = none := by
      rw [SwingShadowLedger.event?, List.find?_eq_none]
      intro e he heq
      have hid : e.signalId = signal.signalId := congrArg Prod.fst (of_decide_eq_true heq)
      exact List.filter_eq_nil_iff.1 (h.eventsOf_new hstored) e he (decide_eq_true hid)
    rw [hnone]
    rfl

/-- The new signals are recorded exactly if each of them is accepted. -/
theorem isOk_recordSignals_iff (h : ledger.IsConsistent) :
    (recordSignals env source signals).isOk ledger =
      signals.all (isAccepted env source (ledger.signals ++ signals)) := by
  rw [Bool.eq_iff_iff, List.all_eq_true]
  refine ⟨fun hok s hs => ?_, fun hall => ?_⟩
  · have hrecorded : ((recordSignals env source signals).after ledger).IsConsistent :=
      PreservesAt.after (.forEach (fun _ _ _ hl => recordSignal_preserves hl) h)
    have hstored := mem_after_recordSignals h hok
    obtain ⟨l, hl⟩ := exists_isOk_of_forEach hok s hs
    rw [isAccepted, Bool.and_eq_true, Bool.and_eq_true, List.all_eq_true]
    refine ⟨⟨signalMatchesSource_of_isOk hl, hrecorded.valid s (hstored s hs)⟩, fun t ht => ?_⟩
    -- The identities of the signals that are stored are different.
    have ht : t ∈ ((recordSignals env source signals).after ledger).signals := by
      rcases List.mem_append.1 ht with hold | hnew
      · exact (signals_prefix_commit _ _).subset hold
      · exact hstored t hnew
    refine decide_eq_true (or_iff_not_imp_left.2 fun hid => ?_)
    exact List.inj_on_of_nodup_map hrecorded.nodup ht (hstored s hs) (not_not.1 hid)
  · have hall : ∀ s ∈ signals, signalMatchesSource env source s = true ∧
        s.validateSignal = true ∧
        ∀ t ∈ ledger.signals ++ signals, t.signalId = s.signalId → t = s := by
      intro s hs
      have hs := hall s hs
      rw [isAccepted, Bool.and_eq_true, Bool.and_eq_true, List.all_eq_true] at hs
      exact ⟨hs.1.1, hs.1.2, fun t ht hid =>
        (of_decide_eq_true (hs.2 t ht)).resolve_left (not_not.2 hid)⟩
    refine isOk_forEach (fun l => l.IsConsistent ∧
      ∀ t ∈ l.signals, t ∈ ledger.signals ++ signals) (fun s hs l hl => ?_)
      ⟨h, fun t ht => List.mem_append_left _ ht⟩
    obtain ⟨hmatches, hvalid, hknown⟩ := hall s hs
    refine ⟨isOk_recordSignal hl.1 hmatches hvalid fun t ht => hknown t (hl.2 t ht),
      (recordSignal_preserves hl.1).after, fun t ht => ?_⟩
    rcases recordSignal_cases env source s hl.1 with ⟨hnil, -⟩ | ⟨w, e, -, -, -, hsignal, -, hrun⟩
    · rw [after, hnil] at ht
      exact hl.2 t ht
    · rw [after, hrun] at ht
      rcases List.mem_append.1 ht with hold | hnew
      · exact hl.2 t hold
      · rw [hsignal] at hnew
        rw [List.mem_singleton.1 hnew]
        exact List.mem_append_right _ hs

/-- The signals are stored in the order in which they are known. -/
theorem find?_after_recordSignals (h : ledger.IsConsistent)
    (hok : (recordSignals env source signals).isOk ledger = true) (q : TradeSignalEnvelope → Bool) :
    ((recordSignals env source signals).after ledger).signals.find? q =
      (ledger.signals ++ signals).find? q := by
  induction signals generalizing ledger with
  | nil => rw [List.append_nil]; rfl
  | cons s signals ih =>
    cases hfirst : (recordSignal env source s).isOk ledger with
    | false =>
      rw [(forEach_cons_of_error hfirst).2] at hok
      exact absurd hok Bool.false_ne_true
    | true =>
      rw [(forEach_cons_of_ok hfirst).2] at hok
      have hpreserves : ((recordSignal env source s).after ledger).IsConsistent :=
        (recordSignal_preserves h).after
      have hrest := ih hpreserves hok
      rw [after, (forEach_cons_of_ok hfirst).1, List.foldl_append]
      refine hrest.trans ?_
      rcases recordSignal_cases env source s h with ⟨hnil, hstored⟩ | ⟨w, e, -, -, -, hsignal, -, hrun⟩
      · -- The signal was stored already, and is known before.
        rw [after, hnil, List.foldl_nil, List.find?_append, List.find?_append, List.find?_cons]
        cases hq : q s with
        | false => rfl
        | true =>
          obtain ⟨t, ht⟩ := Option.isSome_iff_exists.1
            (List.find?_isSome.2 ⟨s, hstored hfirst, hq⟩)
          rw [ht, Option.some_or, Option.some_or]
      · rw [after, hrun, List.foldl_cons, List.foldl_nil, SwingShadowLedger.commit, hsignal,
          Option.toList_some, List.append_assoc, List.singleton_append]

/-- To record signals changes neither which of them can take a turn nor what becomes of it. -/
theorem turns_after_recordSignals (env : SwingEnvironment) (source : SwingDailySource)
    (signals : List TradeSignalEnvelope) (h : ledger.IsConsistent) (s : TradeSignalEnvelope) :
    canTakeTurn source ((recordSignals env source signals).after ledger) s =
        canTakeTurn source ledger s
      ∧ entersAndCloses env source ((recordSignals env source signals).after ledger) s =
        entersAndCloses env source ledger s := by
  have hloop : PreservesAt (fun l => l.IsConsistent ∧
      canTakeTurn source l s = canTakeTurn source ledger s ∧
      entersAndCloses env source l s = entersAndCloses env source ledger s)
      (recordSignals env source signals) ledger := by
    refine .forEach (fun a _ l hl => ?_) ⟨h, rfl, rfl⟩
    rcases recordSignal_cases env source a hl.1 with
      ⟨hnil, -⟩ | ⟨w, e, hnew, hvalid, hkind, hsignal, hevent, hrun⟩
    · exact .of_nil hl hnil
    refine .of_single hl ⟨hl.1.insertSignal hvalid hnew hkind hsignal hevent, ?_⟩
      (congrArg Prod.fst hrun)
    rw [← hl.2.1, ← hl.2.2]
    have hid : a.signalId = w.signalId := Transaction.signalId_of_mem_signal hsignal
    by_cases hsame : w.signalId = s.signalId
    · -- A signal without events is pending, as it is with its first one.
      have hnone : l.eventsOf s.signalId = [] :=
        hl.1.eventsOf_new (by rw [← hsame, ← hid]; exact hnew)
      have hone : (l.commit w).eventsOf s.signalId = [e] := by
        have howner := Transaction.signalId_of_mem_event (by rw [hevent]; rfl : e ∈ w.event?)
        rw [SwingShadowLedger.eventsOf_commit, hnone, hevent, Option.toList_some,
          List.filter_cons_of_pos (by exact decide_eq_true (howner.trans hsame)), List.filter_nil,
          List.nil_append]
      rw [canTakeTurn, canTakeTurn, entersAndCloses, entersAndCloses, isPending, isPending, hone,
        hnone]
      simp only [List.getLast?_singleton, List.getLast?_nil, Option.all_some, Option.all_none,
        hkind]
      cases currentBar source s.symbol <;> exact ⟨rfl, rfl⟩
    · have hevents : (l.commit w).eventsOf s.signalId = l.eventsOf s.signalId :=
        SwingShadowLedger.eventsOf_commit_of_ne hsame
      exact ⟨canTakeTurn_congr hevents, entersAndCloses_congr hevents⟩
  exact hloop.after.2

/-! ## Sessions that resume -/

namespace SwingSession

/-- Whether a session is safe: a new signal is not accepted, or of the signals in their order, the
    first one that cannot take its turn, or is both entered and closed, is not the latter. -/
def isSafe (session : SwingSession env) (ledger : SwingShadowLedger) : Bool :=
  !session.signals.all (isAccepted env session.source (ledger.signals ++ session.signals)) ||
    ((ledger.signals ++ session.signals).find? fun s =>
      !canTakeTurn session.source ledger s || entersAndCloses env session.source ledger s).all
        fun s => !entersAndCloses env session.source ledger s

variable {session : SwingSession env}

theorem isSafe_iff (h : ledger.IsConsistent) :
    session.isSafe ledger = true ↔
      ((recordSignals env session.source session.signals).isOk ledger = true →
        TurnsAreSafe env session.source
          ((recordSignals env session.source session.signals).after ledger)
          ((recordSignals env session.source session.signals).after ledger).signals) := by
  rw [isSafe, ← isOk_recordSignals_iff h]
  cases hok : (recordSignals env session.source session.signals).isOk ledger with
  | false => exact iff_of_true rfl nofun
  | true =>
    have hturns := turns_after_recordSignals env session.source session.signals h
    refine Iff.trans ?_ (forall_prop_of_true rfl).symm
    rw [Bool.not_true, Bool.false_or, turnsAreSafe_iff, ← find?_after_recordSignals h hok]
    simp only [hturns]

/-- A signal that was recorded is not recorded again, whatever is written later. -/
theorem recordSignal_later (h : ledger.IsConsistent)
    (hok : (recordSignal env source signal).isOk ledger = true) (ws : List Transaction) :
    recordSignal env source signal
      (ws.foldl SwingShadowLedger.commit ((recordSignal env source signal).after ledger)) =
      ([], .ok none) := by
  have hafter : ((recordSignal env source signal).after ledger).IsConsistent :=
    (recordSignal_preserves h).after
  have hstored := mem_after_recordSignal h hok
  exact recordSignal_again (signalMatchesSource_of_isOk hok) (hafter.valid signal hstored)
    (signal?_foldl_commit (hafter.signal?_eq hstored) ws)

theorem resumes_recordSignals (h : ledger.IsConsistent) :
    ResumesAt (recordSignals env source signals) ledger := by
  refine .forEach (fun _ l => l.IsConsistent) ?_ ?_ ?_ h
  · exact fun s _ l hl _ => (recordSignal_preserves hl).after
  · intro s _ l hl
    refine .of_single ?_
    rcases recordSignal_cases env source s hl with ⟨hnil, -⟩ | ⟨w, e, -, -, -, -, -, hrun⟩
    · exact .inl hnil
    · have hok : (recordSignal env source s).isOk l = true :=
        isOk_iff.2 ⟨some e, congrArg Prod.snd hrun⟩
      have hagain := recordSignal_later hl hok []
      rw [after, hrun] at hagain
      refine .inr ⟨w, congrArg Prod.fst hrun, congrArg Prod.fst hagain, ?_⟩
      rw [hok, isOk]
      exact congrArg Except.isOk (congrArg Prod.snd hagain)
  · intro s _ l hl hok ws _
    have hagain := recordSignal_later hl hok ws
    exact .inr ⟨congrArg Prod.fst hagain, congrArg Except.isOk (congrArg Prod.snd hagain)⟩

/-- Once the new signals are recorded, they are not recorded again, whatever is written later. -/
theorem recordSignals_later (h : ledger.IsConsistent)
    (hok : (recordSignals env source signals).isOk ledger = true) (ws : List Transaction) :
    (recordSignals env source signals (ws.foldl SwingShadowLedger.commit
        ((recordSignals env source signals).after ledger))).1 = []
      ∧ (recordSignals env source signals).isOk (ws.foldl SwingShadowLedger.commit
        ((recordSignals env source signals).after ledger)) = true := by
  have hrecorded : ((recordSignals env source signals).after ledger).IsConsistent :=
    PreservesAt.after (.forEach (fun _ _ _ hl => recordSignal_preserves hl) h)
  refine forEach_of_silent fun s hs => ?_
  have hstored := mem_after_recordSignals h hok s hs
  obtain ⟨l, hl⟩ := exists_isOk_of_forEach hok s hs
  have hagain := recordSignal_again (signalMatchesSource_of_isOk hl)
    (hrecorded.valid s hstored) (signal?_foldl_commit (hrecorded.signal?_eq hstored) ws)
  exact ⟨congrArg Prod.fst hagain, congrArg Except.isOk (congrArg Prod.snd hagain)⟩

/-- The turns of all signals resume, if they are safe. -/
theorem resumes_advanceSignals (hsource : source.validateSource env.newYork = true)
    (h : ledger.IsConsistent) (hsafe : TurnsAreSafe env source ledger ledger.signals) :
    ResumesAt (advanceSignals env source) ledger := by
  intro done rest hsplit
  -- The same signals take their turns again.
  have hsignals : (done.foldl SwingShadowLedger.commit ledger).signals = ledger.signals :=
    (turns_preserve hsource h done rest hsplit).2
  have hturns := resumes_turns hsource h hsafe done rest hsplit
  rw [isOk, advanceSignals, read_bind, hsignals]
  exact hturns

/-- A safe session resumes. -/
theorem resumes_session (h : ledger.IsConsistent) (hsafe : session.isSafe ledger = true) :
    ResumesAt session.advance ledger := by
  have hwork : ResumesAt (sessionWork env session.source session.signals) ledger := by
    have hrecorded : ((recordSignals env session.source session.signals).after ledger).IsConsistent :=
      PreservesAt.after (.forEach (fun _ _ _ hl => recordSignal_preserves hl) h)
    refine (resumes_recordSignals h).bind (fun hok _ => ?_) (fun _ _ _ => ⟨rfl, rfl⟩)
      fun hok _ done _ _ => recordSignals_later h hok done
    exact resumes_advanceSignals session.valid hrecorded ((isSafe_iff h).1 hsafe hok)
  exact hwork.congr fun l => advance_writes env session.source session.isAfterClose _ l

end SwingSession

/-! ## Runs that are interrupted -/

/-- The ledger after some sessions that are never interrupted. -/
def freeRun (sessions : List (SwingSession env)) (ledger : SwingShadowLedger) : SwingShadowLedger :=
  sessions.foldl (fun l session => session.advance.after l) ledger

/-- The ledger after some sessions, each of which is interrupted after some numbers of its
    transactions, and is then advanced again. -/
def crashedRun (plan : List (SwingSession env × List ℕ)) (ledger : SwingShadowLedger) :
    SwingShadowLedger :=
  plan.foldl (fun l call => call.1.advance.after (call.1.advance.interrupted call.2 l)) ledger

theorem isConsistent_freeRun (sessions : List (SwingSession env)) (h : ledger.IsConsistent) :
    (freeRun sessions ledger).IsConsistent := by
  induction sessions generalizing ledger with
  | nil => exact h
  | cons session sessions ih => exact ih (advance_preserves session h).after

/-- If every session is safe, then a run that is interrupted leads to the ledger of the one that is
    not. -/
theorem crashedRun_eq (h : ledger.IsConsistent) {plan : List (SwingSession env × List ℕ)}
    (hsafe : ∀ before session later, plan.map (·.1) = before ++ session :: later →
      session.isSafe (freeRun before ledger) = true) :
    crashedRun plan ledger = freeRun (plan.map (·.1)) ledger := by
  induction plan generalizing ledger with
  | nil => rfl
  | cons call plan ih =>
    have hfirst := SwingSession.resumes_session h (hsafe [] call.1 (plan.map (·.1)) rfl)
    have hafter := hfirst.after_interrupted call.2
    rw [crashedRun, List.foldl_cons, hafter]
    refine ih (advance_preserves call.1 h).after fun before session later hsplit => ?_
    exact hsafe (call.1 :: before) session later (by rw [List.map_cons, hsplit]; rfl)

/-! ## A position that is left open -/

/-- A position was entered on a day, and has no exit on this day or before. -/
structure IsLeftOpen (day : Date) (signal : TradeSignalEnvelope) (ledger : SwingShadowLedger) :
    Prop where
  consistent : ledger.IsConsistent
  stored : signal ∈ ledger.signals
  latest : ∃ latest, (ledger.eventsOf signal.signalId).getLast? = some latest ∧
    (latest.kind.terminal = true ∨ latest.kind = .entryFilled ∧ latest.sessionDate = day)
  exits : ∀ e ∈ ledger.eventsOf signal.signalId, e.kind.terminal = true → day < e.sessionDate

variable {day : Date}

theorem IsLeftOpen.congr (h : IsLeftOpen day signal ledger) (h' : ledger'.IsConsistent)
    (hs : signal ∈ ledger'.signals)
    (hevents : ledger'.eventsOf signal.signalId = ledger.eventsOf signal.signalId) :
    IsLeftOpen day signal ledger' :=
  ⟨h', hs, hevents ▸ h.latest, hevents ▸ h.exits⟩

theorem isLeftOpen_recordSignal (h : IsLeftOpen day signal ledger) (s : TradeSignalEnvelope) :
    PreservesAt (IsLeftOpen day signal) (recordSignal env source s) ledger := by
  rcases recordSignal_cases env source s h.consistent with
    ⟨hnil, -⟩ | ⟨w, e, hnew, hvalid, hkind, hsignal, hevent, hrun⟩
  · exact .of_nil h hnil
  · have hid : s.signalId = w.signalId := Transaction.signalId_of_mem_signal hsignal
    -- The signal that is new is another one.
    have hne : w.signalId ≠ signal.signalId := fun hsame =>
      SwingShadowLedger.signal?_eq_none.1 hnew signal h.stored (hsame.symm.trans hid.symm)
    exact .of_single h (h.congr (h.consistent.insertSignal hvalid hnew hkind hsignal hevent)
      (List.mem_append_left _ h.stored) (SwingShadowLedger.eventsOf_commit_of_ne hne))
      (congrArg Prod.fst hrun)

/-- The turn of a position that is left open closes it on a later day, if it does. -/
theorem appendsOne_of_isLeftOpen (hsource : source.validateSource env.newYork = true)
    (h : IsLeftOpen day signal ledger) :
    (advanceSignal env source signal ledger).1 = [] ∨
      ∃ e, e.signalId = signal.signalId ∧ e.kind.terminal = true ∧ day < e.sessionDate ∧
        (∃ latest, (ledger.eventsOf signal.signalId).getLast? = some latest ∧
          e.kind ∈ latest.kind.next) ∧
        (advanceSignal env source signal ledger).1 = [.insertEvent e] := by
  obtain ⟨latest, hlatest, hkind⟩ := h.latest
  rw [advanceSignal_eq hlatest]
  rcases hkind with hterminal | ⟨hopen, hday⟩
  · rw [takeTurn_of_terminal hterminal]
    exact .inl rfl
  cases hbar : currentBar source signal.symbol with
  | none =>
    rw [takeTurn_of_none (by rw [hopen]; rfl) hbar]
    exact .inl rfl
  | some bar =>
    rw [takeTurn_of_open hopen hbar]
    refine (advanceOpenPosition_cases hsource h.consistent h.stored hlatest hopen
      (currentBar_eq_some hbar).1).imp id ?_
    rintro ⟨hlater, e, he, hrun⟩
    refine ⟨e, he.signalId, ?_, ?_, ⟨latest, hlatest, he.kind⟩, congrArg Prod.fst hrun⟩
    · have hnext := he.kind
      rw [hopen] at hnext
      exact terminal_of_mem_next hnext
    · rw [he.sessionDate, ← hday]
      exact hlater

theorem isLeftOpen_advanceSignal (hsource : source.validateSource env.newYork = true)
    (h : IsLeftOpen day signal ledger) {s : TradeSignalEnvelope} (hs : s ∈ ledger.signals) :
    PreservesAt (IsLeftOpen day signal) (advanceSignal env source s) ledger := by
  by_cases hsame : s.signalId = signal.signalId
  · obtain rfl : s = signal := List.inj_on_of_nodup_map h.consistent.nodup hs h.stored hsame
    rcases appendsOne_of_isLeftOpen hsource h with
      hnil | ⟨e, hid, hterminal, hlater, ⟨latest, hlatest, hnext⟩, hrun⟩
    · exact .of_nil h hnil
    · have hevents : (ledger.commit (.insertEvent e)).eventsOf s.signalId =
          ledger.eventsOf s.signalId ++ [e] := by
        rw [← hid, SwingShadowLedger.eventsOf_insertEvent]
      refine .of_single h ⟨h.consistent.insertEvent hs hid hlatest hnext,
        List.mem_append_left _ hs, ⟨e, ?_, .inl hterminal⟩, ?_⟩ hrun
      · rw [hevents, List.getLast?_concat]
      · rw [hevents]
        exact List.forall_mem_append.2
          ⟨h.exits, List.forall_mem_singleton.2 fun _ => hlater⟩
  · intro done rest hsplit
    have hkeeps := advanceSignal_preserves hsource h.consistent hs done rest hsplit
    refine h.congr hkeeps.1 (hkeeps.2 ▸ h.stored) (congrArg SwingShadowLedger.events
      ((SwingShadowLedger.isView_only signal.signalId).foldl_other fun w hw hid => hsame ?_))
    exact ((confined_advanceSignal env source s).writes ledger w
      (hsplit ▸ List.mem_append_left rest hw)).symm.trans hid

theorem isLeftOpen_turns (hsource : source.validateSource env.newYork = true)
    (h : IsLeftOpen day signal ledger) :
    PreservesAt (IsLeftOpen day signal) (advanceSignals env source) ledger := by
  have hloop : PreservesAt (fun l => IsLeftOpen day signal l ∧ l.signals = ledger.signals)
      (forEach (advanceSignal env source) ledger.signals) ledger := by
    refine .forEach (fun s hs l hl => ?_) ⟨h, rfl⟩
    have hs : s ∈ l.signals := hl.2 ▸ hs
    exact (isLeftOpen_advanceSignal hsource hl.1 hs).and
      ((advanceSignal_preserves hsource hl.1.consistent hs).imp fun _ hkeeps =>
        hkeeps.2.trans hl.2)
  intro done rest hsplit
  rw [advanceSignals, read_bind] at hsplit
  exact (hloop done rest hsplit).1

/-- Sessions leave the position as it is, or close it on a later day. -/
theorem isLeftOpen_advance (session : SwingSession env) (h : IsLeftOpen day signal ledger) :
    PreservesAt (IsLeftOpen day signal) session.advance ledger := by
  have hrecord : PreservesAt (IsLeftOpen day signal)
      (recordSignals env session.source session.signals) ledger :=
    .forEach (fun s _ _ hl => isLeftOpen_recordSignal hl s) h
  have hboth := hrecord.bind (f := fun _ => advanceSignals env session.source) fun _ _ =>
    isLeftOpen_turns session.valid hrecord.after
  intro done rest hsplit
  rw [SwingSession.advance, (advance_writes _ _ session.isAfterClose _ _).1] at hsplit
  exact hboth done rest hsplit

theorem mem_events_foldl {ws : List Transaction} {e : SwingShadowEvent}
    (h : e ∈ ledger.events ∨ ∃ w ∈ ws, e ∈ w.event?) :
    e ∈ (ws.foldl SwingShadowLedger.commit ledger).events := by
  induction ws generalizing ledger with
  | nil => exact h.resolve_right fun ⟨w, hw, _⟩ => List.not_mem_nil hw
  | cons w ws ih =>
    refine ih ?_
    rcases h with hold | ⟨v, hv, hnew⟩
    · exact .inl (List.mem_append_left _ hold)
    · rcases List.mem_cons.1 hv with rfl | hv
      · exact .inl (List.mem_append_right _ (Option.mem_toList.2 hnew))
      · exact .inr ⟨v, hv, hnew⟩

/-- The turn of a signal that is both entered and closed, interrupted after the entry. -/
theorem exists_left_open_of_turn (hsource : source.validateSource env.newYork = true)
    (h : ledger.IsConsistent) (hs : signal ∈ ledger.signals)
    (hboth : entersAndCloses env source ledger signal = true) :
    ∃ entry exit, advanceSignal env source signal ledger =
        ([.insertEvent entry, .insertEvent exit], .ok [entry, exit])
      ∧ IsLeftOpen entry.sessionDate signal (ledger.commit (.insertEvent entry))
      ∧ exit.signalId = signal.signalId ∧ exit.kind.terminal = true
      ∧ exit.sessionDate = entry.sessionDate := by
  obtain ⟨latest, hlatest⟩ := h.exists_latest hs
  obtain ⟨hpending, entry, exit, hkind, hentry, hexit, hrun⟩ :=
    advanceSignal_of_entersAndCloses hsource h hs hlatest hboth
  have hevents : (ledger.commit (.insertEvent entry)).eventsOf signal.signalId =
      ledger.eventsOf signal.signalId ++ [entry] := by
    rw [← hentry.signalId, SwingShadowLedger.eventsOf_insertEvent]
  refine ⟨entry, exit, hrun, ⟨h.insertEvent hs hentry.signalId hlatest (hpending ▸ hentry.kind),
    List.mem_append_left _ hs, ⟨entry, ?_, .inr ⟨hkind, rfl⟩⟩, ?_⟩, hexit.signalId,
    terminal_of_mem_next hexit.kind, hexit.sessionDate.trans hentry.sessionDate.symm⟩
  · rw [hevents, List.getLast?_concat]
  · -- Before the entry there is only the first event.
    have hcreated : ledger.kindsOf signal.signalId = [.signalCreated] := by
      refine lifecycle_pending (h.lifecycle signal hs) ?_
      rw [SwingShadowLedger.kindsOf, List.getLast?_map, hlatest, Option.map_some, hpending]
    intro e he hterminal
    rw [hevents, List.mem_append, List.mem_singleton] at he
    rcases he with hold | rfl
    · have hold := List.mem_map_of_mem (f := SwingShadowEvent.kind) hold
      rw [SwingShadowLedger.kindsOf] at hcreated
      rw [hcreated, List.mem_singleton] at hold
      rw [hold] at hterminal
      exact absurd hterminal Bool.false_ne_true
    · rw [hkind] at hterminal
      exact absurd hterminal Bool.false_ne_true

/-- The turns of a session, interrupted after the entry of a signal that is both entered and
    closed. -/
theorem exists_left_open_of_turns (hsource : source.validateSource env.newYork = true)
    (h : ledger.IsConsistent) {before later : List TradeSignalEnvelope}
    (hsplit : ledger.signals = before ++ signal :: later)
    (hbefore : ∀ b ∈ before, canTakeTurn source ledger b = true)
    (hboth : entersAndCloses env source ledger signal = true) :
    ∃ done entry exit rest, (advanceSignals env source ledger).1 =
        done ++ .insertEvent entry :: .insertEvent exit :: rest
      ∧ IsLeftOpen entry.sessionDate signal
        ((done ++ [.insertEvent entry]).foldl SwingShadowLedger.commit ledger)
      ∧ exit.signalId = signal.signalId ∧ exit.kind.terminal = true
      ∧ exit.sessionDate = entry.sessionDate := by
  have hsub : before.Sublist ledger.signals := hsplit ▸ List.sublist_append_left _ _
  have hs : signal ∈ ledger.signals := hsplit ▸ List.mem_append_right _ List.mem_cons_self
  have hturns : (forEach (advanceSignal env source) before).isOk ledger = true := by
    refine (isOk_turns_iff env source h hsub).2 fun b hb => ?_
    rw [isOk_advanceSignal hsource h (hsub.subset hb)]
    exact hbefore b hb
  have hnodup := h.nodup
  rw [hsplit, List.map_append, List.nodup_append] at hnodup
  -- The turns before do not change the signal.
  have hkeeps : PreservesAt (fun l => (l.IsConsistent ∧ l.signals = ledger.signals) ∧
      l.eventsOf signal.signalId = ledger.eventsOf signal.signalId)
      (forEach (advanceSignal env source) before) ledger := by
    refine .forEach (fun b hb l hl => ?_) ⟨⟨h, rfl⟩, rfl⟩
    have hne : b.signalId ≠ signal.signalId :=
      hnodup.2.2 b.signalId (List.mem_map_of_mem hb) _ List.mem_cons_self
    have hb : b ∈ l.signals := hl.1.2 ▸ hsub.subset hb
    intro done rest hwrites
    obtain ⟨hconsistent, hsame⟩ :=
      advanceSignal_preserves hsource hl.1.1 hb done rest hwrites
    refine ⟨⟨hconsistent, hsame.trans hl.1.2⟩, Eq.trans (congrArg SwingShadowLedger.events
      ((SwingShadowLedger.isView_only signal.signalId).foldl_other fun w hw hid => hne ?_)) hl.2⟩
    exact ((confined_advanceSignal env source b).writes l w
      (hwrites ▸ List.mem_append_left rest hw)).symm.trans hid
  obtain ⟨⟨hmid, hsame⟩, hevents⟩ := hkeeps.after
  obtain ⟨entry, exit, hrun, hopen, hexit⟩ := exists_left_open_of_turn hsource hmid (hsame ▸ hs)
    ((entersAndCloses_congr hevents).trans hboth)
  have hturn : (advanceSignal env source signal).isOk
      ((forEach (advanceSignal env source) before).after ledger) = true :=
    isOk_iff.2 ⟨_, congrArg Prod.snd hrun⟩
  have hwrites : (advanceSignals env source ledger).1 =
      (forEach (advanceSignal env source) before ledger).1 ++
        ([.insertEvent entry, .insertEvent exit] ++ (forEach (advanceSignal env source) later
          ((advanceSignal env source signal).after
            ((forEach (advanceSignal env source) before).after ledger))).1) := by
    rw [advanceSignals, read_bind, hsplit, forEach_append_of_ok hturns,
      (forEach_cons_of_ok hturn).1, hrun]
  refine ⟨_, entry, exit, _, hwrites, ?_, hexit⟩
  rw [List.foldl_append]
  exact hopen

/-- A session that is not safe leaves a position open that it closes, if it is interrupted between
    the entry and the exit. -/
theorem exists_left_open {session : SwingSession env} (h : ledger.IsConsistent)
    (hcloses : session.isSafe ledger = false) :
    ∃ n signal exit, IsLeftOpen exit.sessionDate signal
        (((session.advance ledger).1.take n).foldl SwingShadowLedger.commit ledger)
      ∧ exit ∈ (session.advance.after ledger).eventsOf signal.signalId
      ∧ exit.kind.terminal = true := by
  rw [← Bool.not_eq_true, SwingSession.isSafe_iff h, Classical.not_imp] at hcloses
  obtain ⟨hok, hcloses⟩ := hcloses
  rw [TurnsAreSafe] at hcloses
  push Not at hcloses
  obtain ⟨before, signal, later, hsplit, hbefore, hboth⟩ := hcloses
  have hrecorded : ((recordSignals env session.source session.signals).after ledger).IsConsistent :=
    PreservesAt.after (.forEach (fun _ _ _ hl => recordSignal_preserves hl) h)
  obtain ⟨done, entry, exit, rest, hturns, hopen, hid, hterminal, hday⟩ :=
    exists_left_open_of_turns session.valid hrecorded hsplit hbefore
      (Bool.eq_true_of_not_eq_false hboth)
  -- What the session writes: the new signals, the turns before, and then the entry.
  obtain ⟨created, hcreated⟩ := isOk_iff.1 hok
  have hwrites : (session.advance ledger).1 =
      ((recordSignals env session.source session.signals ledger).1 ++
        (done ++ [.insertEvent entry])) ++ .insertEvent exit :: rest := by
    rw [SwingSession.advance, (advance_writes env session.source session.isAfterClose _ ledger).1,
      sessionWork]
    refine (congrArg Prod.fst (bind_of_ok hcreated)).trans ?_
    rw [List.append_assoc, List.append_assoc, List.singleton_append, ← hturns]
  refine ⟨((recordSignals env session.source session.signals ledger).1 ++
    (done ++ [Transaction.insertEvent entry])).length, signal, exit, ?_, ?_, hterminal⟩
  · rw [hwrites, List.take_left, List.foldl_append, hday]
    exact hopen
  · refine List.mem_filter.2 ⟨mem_events_foldl (.inr ⟨.insertEvent exit, ?_, rfl⟩),
      decide_eq_true hid⟩
    rw [hwrites]
    exact List.mem_append_right _ List.mem_cons_self

/-! ## Runs that are safe -/

theorem crashedRun_append (plan more : List (SwingSession env × List ℕ)) :
    crashedRun (plan ++ more) ledger = crashedRun more (crashedRun plan ledger) :=
  List.foldl_append

theorem freeRun_append (sessions more : List (SwingSession env)) :
    freeRun (sessions ++ more) ledger = freeRun more (freeRun sessions ledger) :=
  List.foldl_append

theorem isLeftOpen_crashedRun (plan : List (SwingSession env × List ℕ))
    (h : IsLeftOpen day signal ledger) : IsLeftOpen day signal (crashedRun plan ledger) := by
  induction plan generalizing ledger with
  | nil => exact h
  | cons call plan ih =>
    refine ih (isLeftOpen_advance call.1 ?_).after
    rw [Writing.interrupted]
    generalize call.2 = cuts
    induction cuts generalizing ledger with
    | nil => exact h
    | cons n cuts ihcuts =>
      exact ihcuts (isLeftOpen_advance call.1 h _ _ (List.take_append_drop n _).symm)

theorem mem_freeRun (sessions : List (SwingSession env)) {e : SwingShadowEvent}
    (h : e ∈ ledger.events) : e ∈ (freeRun sessions ledger).events := by
  induction sessions generalizing ledger with
  | nil => exact h
  | cons session sessions ih => exact ih (mem_events_foldl (.inl h))

/-- Sessions, each of which may be interrupted after any of its transactions, any number of times,
    and is then advanced again: every signal has the events that it has if none is interrupted,
    wherever they are interrupted, exactly if every session is safe. -/
theorem crash_safe_iff (sessions : List (SwingSession env)) :
    (∀ plan, plan.map (·.1) = sessions → ∀ id,
        (crashedRun plan {}).eventsOf id = (freeRun sessions {}).eventsOf id) ↔
      ∀ before session later, sessions = before ++ session :: later →
        session.isSafe (freeRun before {}) = true := by
  constructor
  · rintro hsame before session later rfl
    by_contra hcloses
    rw [Bool.not_eq_true] at hcloses
    obtain ⟨n, signal, exit, hopen, hexit, hterminal⟩ :=
      exists_left_open (isConsistent_freeRun before SwingShadowLedger.isConsistent_empty) hcloses
    -- Interrupted between the entry and the exit: the exit is never recorded.
    let never (session : SwingSession env) : SwingSession env × List ℕ := (session, [])
    have hplan : (before.map never ++ (session, [n]) :: later.map never).map (·.1) =
        before ++ session :: later := by
      simp only [List.map_append, List.map_cons, List.map_map]
      congr 1 <;> simp [never, Function.comp_def]
    have hevents := hsame _ hplan signal.signalId
    have hmem : exit ∈ (freeRun (before ++ session :: later) {}).eventsOf signal.signalId := by
      rw [freeRun_append]
      obtain ⟨hmem, hid⟩ := List.mem_filter.1 hexit
      exact List.mem_filter.2 ⟨mem_freeRun later hmem, hid⟩
    rw [← hevents, crashedRun_append] at hmem
    have hbefore : crashedRun (before.map never) {} = freeRun before {} := by
      rw [crashedRun, List.foldl_map, freeRun]
      rfl
    rw [hbefore] at hmem
    have hlater : IsLeftOpen exit.sessionDate signal
        (crashedRun ((session, [n]) :: later.map never) (freeRun before {})) :=
      isLeftOpen_crashedRun (later.map never) (isLeftOpen_advance session hopen).after
    exact Int.lt_irrefl _ (hlater.exits exit hmem hterminal)
  · rintro hsafe plan rfl id
    rw [crashedRun_eq SwingShadowLedger.isConsistent_empty hsafe]

namespace SwingSample

/-- The next session, whose bar reaches the entry and the stop of the first signal. -/
def wideSession : SwingSession environment where
  source := dailySource entryDay
    [SwingSample.bar "AAA" entryDay 12 16, SwingSample.bar "BBB" entryDay 14 16]
  signals := []
  valid := by decide +kernel

/-- A session that is interrupted after the entry of the first signal does not record its exit when
    it is advanced again. -/
theorem exit_is_lost :
    (freeRun [signalSession, wideSession] {}).eventsOf "AAA" =
        [shadowEvent "AAA" .signalCreated signalDay none,
          shadowEvent "AAA" .entryFilled entryDay (some 15),
          shadowEvent "AAA" .stopped entryDay (some 13)] ∧
      (crashedRun [(signalSession, []), (wideSession, [1])] {}).eventsOf "AAA" =
        [shadowEvent "AAA" .signalCreated signalDay none,
          shadowEvent "AAA" .entryFilled entryDay (some 15)] := by
  decide +kernel

end SwingSample

end TradingAgent.Swing
