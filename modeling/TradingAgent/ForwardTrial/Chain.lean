import TradingAgent.ForwardTrial.Models
import TradingAgent.Library.Except

/-!
# The chain of the events of a trial

* The checks that the events of a trial are made to pass, in order, each time they are read
  (`requireEventChain`). Which event may come next is said once, of the events before it
  (`Follows`), and a chain is one in which each event follows those before it
  (`requireEventChain_concat_iff`).
* What is known of every chain (`IsTrialChain`) is read off that.
* A proposal that is an event of the chain already (`eventReplay`), and what becomes of one that
  skips a bar (`gapCensor`).
-/

namespace TradingAgent.ForwardTrial

open Except

/-- What the calls raise. -/
inductive LedgerError
  | conflict (reason : String)
  | invalidSource (reason : String)
  | validation
  deriving DecidableEq, Repr

/-- The reason that an event is censored for, if a bar is missing before its own. -/
def completedBarGap : List String := ["completed_bar_gap"]

/-! ## The checks -/

def requireEventParent (trial : DayForwardTrial) (event : DayForwardTrialEvent) :
    Except LedgerError Unit := do
  raiseIf (event.trialId ≠ trial.trialId ∨ event.marketId ≠ trial.marketId ∨
    event.sessionId ≠ trial.sessionId ∨ event.sessionDate ≠ trial.sessionDate)
    (.invalidSource "forward_trial_event_parent_mismatch")
  raiseIf (event.completedBarAt < trial.firstEligibleCompletedBarAt)
    (.invalidSource "forward_trial_event_not_future")

/-- What the loop over the events keeps. -/
structure ChainState where
  previous : Option DayForwardTrialEvent := none
  entered : Bool := false
  terminal : Bool := false
  expectedSequence : ℤ := 1
  deriving DecidableEq, Repr

namespace ChainState

def sameSequenceBarChanged (previous event : DayForwardTrialEvent) : Bool :=
  event.completedBarSequence = previous.completedBarSequence ∧
    (event.completedBarId ≠ previous.completedBarId ∨
      event.completedBarAt ≠ previous.completedBarAt)

/-- What the event before shows to be wrong. -/
def previousIsInvalid (previous event : DayForwardTrialEvent) : Bool :=
  event.eventAt < previous.eventAt ∨ event.completedBarAt < previous.completedBarAt ∨
    event.completedBarSequence < previous.completedBarSequence ∨
    sameSequenceBarChanged previous event

/-- Whether a bar is missing between two events. -/
def skipsBar (previous event : DayForwardTrialEvent) : Bool :=
  previous.completedBarSequence + 1 < event.completedBarSequence

/-- The checks and the effect of each kind of event. -/
def enter (s : ChainState) (event : DayForwardTrialEvent) : Except LedgerError ChainState :=
  match event.eventKind with
  | .entry => do
    raiseIf (s.previous.all fun p =>
      p.eventKind ≠ .signal ∨ p.completedBarId ≠ event.completedBarId)
      (.invalidSource "forward_trial_entry_without_signal")
    return { s with entered := true }
  | .observed => do
    raiseIf (s.entered = false) (.invalidSource "forward_trial_observed_without_entry")
    return s
  | .exit => do
    raiseIf (s.entered = false) (.invalidSource "forward_trial_exit_without_entry")
    return { s with terminal := true }
  | .failed | .censored => return { s with terminal := true }
  | .signal | .noSignal => do
    raiseIf (s.entered = true) (.invalidSource "forward_trial_signal_after_entry")
    return s
  | .blocked => return s

def step (trial : DayForwardTrial) (s : ChainState) (event : DayForwardTrialEvent) :
    Except LedgerError ChainState := do
  requireEventParent trial event
  raiseIf (s.terminal = true ∨ event.sequence ≠ s.expectedSequence ∨
    event.previousEventId ≠ s.previous.map (·.eventId) ∨
    s.previous.any (previousIsInvalid · event))
    (.invalidSource "forward_trial_event_chain_invalid")
  raiseIf (s.previous.any (skipsBar · event) ∧
    (event.eventKind ≠ .censored ∨ event.reasonCodes ≠ completedBarGap))
    (.invalidSource "forward_trial_event_gap_invalid")
  let s ← s.enter event
  return { s with previous := some event, expectedSequence := s.expectedSequence + 1 }

end ChainState

def requireEventChain (trial : DayForwardTrial) (events : List DayForwardTrialEvent) :
    Except LedgerError Unit := do
  let _ ← events.foldlM (ChainState.step trial) {}

/-! ## Proposals -/

/-- The event that a proposal is a replay of, if it is one. -/
def eventReplay (events : List DayForwardTrialEvent) (proposed : DayForwardTrialEvent) :
    Except LedgerError (Option DayForwardTrialEvent) :=
  match events.find? fun e =>
    e.completedBarId = proposed.completedBarId ∧ e.eventKind = proposed.eventKind with
  | some sameIdentity =>
    if sameIdentity = proposed then .ok (some sameIdentity)
    else .error (.conflict "forward_trial_event_identity_conflict")
  | none =>
    match events.find? fun e => e.completedBarId = proposed.completedBarId ∧
      e.eventKind = .censored ∧ e.reasonCodes = completedBarGap with
    | some gapReplay => .ok (some gapReplay)
    | none =>
      if events.any fun e => e.sequence = proposed.sequence ∨ e.eventId = proposed.eventId then
        .error (.conflict "forward_trial_event_identity_conflict")
      else .ok none

/-- The record that `gapCensor` makes. -/
def gapCensored (sha : Sha256) (event : DayForwardTrialEvent) : DayForwardTrialEvent :=
  let payload := { event with
    eventKind := .censored, exitReason := none, outcomeRef := none, reasonCodes := completedBarGap }
  { payload with eventId := payload.canonicalIdFor sha }

def gapCensor (sha : Sha256) (event : DayForwardTrialEvent) :
    Except LedgerError DayForwardTrialEvent := do
  raiseIf ((gapCensored sha event).validEvent sha = false) .validation
  return gapCensored sha event

def validatedEvent (sha : Sha256) (event : DayForwardTrialEvent) :
    Except LedgerError DayForwardTrialEvent := do
  raiseIf (event.validEvent sha = false) (.invalidSource "forward_trial_event_invalid")
  return event

/-! ## What may come next -/

variable {trial : DayForwardTrial} {events l m : List DayForwardTrialEvent}
  {event e f p : DayForwardTrialEvent} {sha : Sha256}

/-- The event may follow the events before it. -/
structure Follows (trial : DayForwardTrial) (events : List DayForwardTrialEvent)
    (event : DayForwardTrialEvent) : Prop where
  parent : requireEventParent trial event = .ok ()
  open_before : ∀ e ∈ events, e.eventKind.terminal = false
  sequence_eq : event.sequence = events.length + 1
  previousEventId_eq : event.previousEventId = events.getLast?.map (·.eventId)
  not_before : ∀ p, events.getLast? = some p → ChainState.previousIsInvalid p event = false
  gap : ∀ p, events.getLast? = some p → p.completedBarSequence + 1 < event.completedBarSequence →
    event.eventKind = .censored ∧ event.reasonCodes = completedBarGap
  entry : event.eventKind = .entry → ∃ p, events.getLast? = some p ∧ p.eventKind = .signal ∧
    p.completedBarId = event.completedBarId
  entered : event.eventKind = .observed ∨ event.eventKind = .exit →
    ∃ e ∈ events, e.eventKind = .entry
  not_entered : event.eventKind = .signal ∨ event.eventKind = .noSignal →
    ∀ e ∈ events, e.eventKind ≠ .entry

/-- What the loop keeps after some events. -/
def ChainState.after (events : List DayForwardTrialEvent) : ChainState where
  previous := events.getLast?
  entered := events.any (·.eventKind = .entry)
  terminal := events.any (·.eventKind.terminal)
  expectedSequence := events.length + 1

theorem ChainState.after_concat (events : List DayForwardTrialEvent)
    (event : DayForwardTrialEvent) : after (events ++ [event]) =
      { previous := some event
        entered := (after events).entered || event.eventKind = .entry
        terminal := (after events).terminal || event.eventKind.terminal
        expectedSequence := (after events).expectedSequence + 1 } := by
  simp [after]

/-- The check of the kind of an event, and what it leaves. -/
theorem ChainState.enter_after_eq_ok {s : ChainState} :
    (after events).enter event = .ok s ↔
      (event.eventKind = .entry → ∃ p, events.getLast? = some p ∧ p.eventKind = .signal ∧
        p.completedBarId = event.completedBarId) ∧
      (event.eventKind = .observed ∨ event.eventKind = .exit →
        ∃ e ∈ events, e.eventKind = .entry) ∧
      (event.eventKind = .signal ∨ event.eventKind = .noSignal →
        ∀ e ∈ events, e.eventKind ≠ .entry) ∧
      s = { after events with
        entered := (after events).entered || event.eventKind = .entry
        terminal := (after events).terminal || event.eventKind.terminal } := by
  have hentered : (after events).entered = false ↔ ¬ ∃ e ∈ events, e.eventKind = .entry := by
    simp [after]
  rw [enter]
  cases hkind : event.eventKind with
  | entry =>
    have hprevious : ¬ ((after events).previous.all fun p =>
        decide (p.eventKind ≠ .signal ∨ p.completedBarId ≠ event.completedBarId)) = true ↔
        ∃ p, events.getLast? = some p ∧ p.eventKind = .signal ∧
          p.completedBarId = event.completedBarId := by
      cases hlast : events.getLast? <;> simp [after, hlast]
    simp only [bind_eq_ok, raiseIf_eq_ok, pure_eq_ok, hprevious]
    simp [DayForwardTrialEventKind.terminal, eq_comm (b := s)]
  | observed | exit =>
    simp only [bind_eq_ok, raiseIf_eq_ok, pure_eq_ok, hentered]
    simp [DayForwardTrialEventKind.terminal, eq_comm (b := s)]
  | signal | noSignal =>
    have hfresh : ¬ (after events).entered = true ↔ ∀ e ∈ events, e.eventKind ≠ .entry := by
      simp [after]
    simp only [bind_eq_ok, raiseIf_eq_ok, pure_eq_ok, hfresh]
    simp [DayForwardTrialEventKind.terminal, eq_comm (b := s)]
  | failed | censored | blocked =>
    simp [DayForwardTrialEventKind.terminal, eq_comm (b := s)]

/-- One more event goes through the loop exactly if it may follow the others. -/
theorem ChainState.step_after_eq_ok {s : ChainState} :
    step trial (after events) event = .ok s ↔
      Follows trial events event ∧ s = after (events ++ [event]) := by
  have hopen : (after events).terminal = false ↔ ∀ e ∈ events, e.eventKind.terminal = false := by
    simp [after]
  have hprevious : (after events).previous.any (previousIsInvalid · event) = false ↔
      ∀ p, events.getLast? = some p → previousIsInvalid p event = false := by
    cases hlast : events.getLast? <;> simp [after, hlast]
  have hgap : ¬ ((after events).previous.any (skipsBar · event) = true ∧
      (event.eventKind ≠ .censored ∨ event.reasonCodes ≠ completedBarGap)) ↔
      ∀ p, events.getLast? = some p → p.completedBarSequence + 1 < event.completedBarSequence →
        event.eventKind = .censored ∧ event.reasonCodes = completedBarGap := by
    cases hlast : events.getLast? <;>
      simp only [after, hlast, skipsBar, Option.any_some, Option.any_none, decide_eq_true_eq,
        Option.some.injEq, forall_eq', reduceCtorEq, false_and, not_false_eq_true, implies_true,
        false_implies, Bool.false_eq_true] <;> tauto
  rw [step]
  simp only [bind_eq_ok, raiseIf_eq_ok, pure_eq_ok, enter_after_eq_ok, not_or, Bool.not_eq_true,
    ne_eq, not_not, hopen, hprevious]
  constructor
  · rintro ⟨⟨⟩, hparent, ⟨⟩, ⟨hterminal, hseq, hid, hbefore⟩, ⟨⟩, hskip, _, hkind, rfl⟩
    obtain ⟨hentry, hentered, hfresh, rfl⟩ := hkind
    exact ⟨⟨hparent, hterminal, hseq, hid, hbefore, hgap.1 hskip, hentry, hentered, hfresh⟩,
      (after_concat events event).symm⟩
  · rintro ⟨h, rfl⟩
    exact ⟨(), h.parent, (), ⟨h.open_before, h.sequence_eq, h.previousEventId_eq, h.not_before⟩, (),
      hgap.2 h.gap, _, ⟨h.entry, h.entered, h.not_entered, rfl⟩, (after_concat events event).symm⟩

theorem foldlM_step_eq_ok {s : ChainState}
    (h : events.foldlM (ChainState.step trial) {} = .ok s) : s = .after events := by
  induction events using List.reverseRecOn generalizing s with
  | nil =>
    cases h
    rfl
  | append_singleton events event ih =>
    rw [List.foldlM_append, bind_eq_ok] at h
    obtain ⟨before, hbefore, h⟩ := h
    obtain rfl := ih hbefore
    simp only [List.foldlM_cons, List.foldlM_nil, bind_pure] at h
    exact (ChainState.step_after_eq_ok.1 h).2

theorem requireEventChain_eq_ok_iff :
    requireEventChain trial events = .ok () ↔
      events.foldlM (ChainState.step trial) {} = .ok (.after events) := by
  rw [requireEventChain, bind_eq_ok]
  refine ⟨?_, fun h => ⟨_, h, rfl⟩⟩
  rintro ⟨s, hs, -⟩
  rw [hs, foldlM_step_eq_ok hs]

/-- A chain has one more event exactly if it may follow the others. -/
theorem requireEventChain_concat_iff :
    requireEventChain trial (events ++ [event]) = .ok () ↔
      requireEventChain trial events = .ok () ∧ Follows trial events event := by
  rw [requireEventChain_eq_ok_iff, requireEventChain_eq_ok_iff, List.foldlM_append, bind_eq_ok]
  simp only [List.foldlM_cons, List.foldlM_nil, bind_pure]
  constructor
  · rintro ⟨s, hs, hstep⟩
    obtain rfl := foldlM_step_eq_ok hs
    exact ⟨hs, (ChainState.step_after_eq_ok.1 hstep).1⟩
  · rintro ⟨hs, hfollows⟩
    exact ⟨_, hs, ChainState.step_after_eq_ok.2 ⟨hfollows, rfl⟩⟩

/-- Each event of a chain follows those before it. -/
theorem follows_of_requireEventChain (h : requireEventChain trial (l ++ e :: m) = .ok ()) :
    Follows trial l e := by
  induction m using List.reverseRecOn with
  | nil => exact (requireEventChain_concat_iff.1 h).2
  | append_singleton m f ih =>
    rw [← List.cons_append, ← List.append_assoc] at h
    exact ih (requireEventChain_concat_iff.1 h).1

/-! ## Chains -/

/-- What the events of a trial are like. -/
structure IsTrialChain (events : List DayForwardTrialEvent) : Prop where
  /-- Nothing follows an event that ends the trial. -/
  terminal_last : ∀ l e m, events = l ++ e :: m → e.eventKind.terminal = true → m = []
  entry_once : (events.filter (·.eventKind = .entry)).length ≤ 1
  entry_after_signal : ∀ l e m, events = l ++ e :: m → e.eventKind = .entry →
    ∃ s, l.getLast? = some s ∧ s.eventKind = .signal ∧ s.completedBarId = e.completedBarId
  /-- No bar is skipped, but by the event that ends the trial for that. -/
  contiguous : ∀ l e f m, events = l ++ e :: f :: m →
    f.completedBarSequence ≤ e.completedBarSequence + 1 ∨
      f.eventKind = .censored ∧ f.reasonCodes = completedBarGap ∧ m = []

theorem terminal_last_of_requireEventChain (h : requireEventChain trial (l ++ e :: m) = .ok ())
    (hterminal : e.eventKind.terminal = true) : m = [] := by
  cases m with
  | nil => rfl
  | cons f m =>
    rw [← List.singleton_append, ← List.append_assoc] at h
    have hopen := (follows_of_requireEventChain h).open_before e (by simp)
    rw [hterminal] at hopen
    cases hopen

/-- After an entry there is no other one: it would need a signal, and none comes after an entry. -/
theorem not_entry_of_follows (h : requireEventChain trial events = .ok ())
    (hfollows : Follows trial events event) (hentry : event.eventKind = .entry) :
    ∀ e ∈ events, e.eventKind ≠ .entry := by
  obtain ⟨s, hlast, hsignal, -⟩ := hfollows.entry hentry
  obtain ⟨l, rfl⟩ := List.getLast?_eq_some_iff.1 hlast
  have hfresh := (requireEventChain_concat_iff.1 h).2.not_entered (.inl hsignal)
  intro e he
  rcases List.mem_append.1 he with he | he
  · exact hfresh e he
  · obtain rfl := List.mem_singleton.1 he
    rw [hsignal]
    nofun

theorem entry_once_of_requireEventChain (h : requireEventChain trial events = .ok ()) :
    (events.filter (·.eventKind = .entry)).length ≤ 1 := by
  induction events using List.reverseRecOn with
  | nil => exact Nat.zero_le 1
  | append_singleton events event ih =>
    obtain ⟨hchain, hfollows⟩ := requireEventChain_concat_iff.1 h
    by_cases hentry : event.eventKind = .entry
    · have hnone : events.filter (·.eventKind = .entry) = [] :=
        List.filter_eq_nil_iff.2 fun e he => by
          simpa using not_entry_of_follows hchain hfollows hentry e he
      rw [List.filter_append, hnone]
      exact List.length_filter_le _ _
    · rw [List.filter_append, List.filter_singleton, decide_eq_false hentry]
      simpa using ih hchain

theorem isTrialChain_of_requireEventChain (h : requireEventChain trial events = .ok ()) :
    IsTrialChain events where
  terminal_last l e m heq := by
    rw [heq] at h
    exact terminal_last_of_requireEventChain h
  entry_once := entry_once_of_requireEventChain h
  entry_after_signal l e m heq := by
    rw [heq] at h
    exact (follows_of_requireEventChain h).entry
  contiguous l e f m heq := by
    rw [heq, ← List.singleton_append, ← List.append_assoc] at h
    have hfollows := follows_of_requireEventChain h
    rcases le_or_gt f.completedBarSequence (e.completedBarSequence + 1) with hle | hgap
    · exact .inl hle
    · obtain ⟨hkind, hreason⟩ := hfollows.gap e (by simp) hgap
      refine .inr ⟨hkind, hreason, terminal_last_of_requireEventChain h ?_⟩
      rw [hkind]
      rfl

/-- The events are numbered in their order. -/
theorem sequence_le_of_requireEventChain (h : requireEventChain trial events = .ok ()) :
    events.Pairwise fun e f => e.sequence ≤ f.sequence := by
  have hbound : ∀ e ∈ events, e.sequence ≤ events.length := by
    intro e he
    obtain ⟨l, m, rfl⟩ := List.append_of_mem he
    rw [(follows_of_requireEventChain h).sequence_eq, List.length_append, List.length_cons]
    omega
  induction events using List.reverseRecOn with
  | nil => exact .nil
  | append_singleton events event ih =>
    obtain ⟨hchain, hfollows⟩ := requireEventChain_concat_iff.1 h
    have hold : ∀ e ∈ events, e.sequence ≤ events.length := by
      intro e he
      obtain ⟨l, m, rfl⟩ := List.append_of_mem he
      rw [(follows_of_requireEventChain hchain).sequence_eq, List.length_append, List.length_cons]
      omega
    refine List.pairwise_append.2 ⟨ih hchain hold, List.pairwise_singleton _ _, fun e he f hf => ?_⟩
    obtain rfl := List.mem_singleton.1 hf
    rw [hfollows.sequence_eq]
    exact (hold e he).trans (Int.le_add_one le_rfl)

end TradingAgent.ForwardTrial
