import TradingAgent.ForwardTrial.Ledger

/-!
# Proposals that are made again

A proposal that has been accepted may be made again at any later time: the event that was recorded
for it is found among those of the trial (`eventReplay_append`), and returned. This does not depend
on what has been recorded since, but it does on how the proposal was recorded: the gap censor of a
proposal is looked for among the events of another kind than its own. So one that censors the trial
itself, for another reason, is not found again (`resubmitted_iff`).
-/

namespace TradingAgent.ForwardTrial

open Except Transition

variable {ctx : Context} {sha : Sha256} {ledger next later : Ledger} {trial : DayForwardTrial}
  {es more : List DayForwardTrialEvent} {e event stored : DayForwardTrialEvent}

/-- The event skips a bar, and censors the trial for another reason than that, or with an
    outcome. -/
def CensorsOtherwise (events : List DayForwardTrialEvent) (event : DayForwardTrialEvent) : Prop :=
  events.getLast?.any (ChainState.skipsBar · event) = true ∧ event.eventKind = .censored ∧
    ¬ (event.outcomeRef = none ∧ event.reasonCodes = completedBarGap)

/-! ## Finding an event again -/

/-- Nothing is found for a proposal that is new. -/
theorem find?_eq_none_of_eventReplay (h : eventReplay es event = .ok none) :
    (es.find? fun e => e.completedBarId = event.completedBarId ∧ e.eventKind = event.eventKind) =
        none ∧
      (es.find? fun e => e.completedBarId = event.completedBarId ∧ e.eventKind = .censored ∧
        e.reasonCodes = completedBarGap) = none := by
  rw [eventReplay] at h
  split at h
  · split at h <;> cases h
  · rename_i hsame
    split at h
    · cases h
    · rename_i hgap
      exact ⟨hsame, hgap⟩

/-- What is found for a proposal is the first event of its bar and kind, if it is the proposal
    itself, or else the first gap censor of its bar. -/
theorem eventReplay_eq_some_iff : eventReplay es event = .ok (some e) ↔
    ((es.find? fun e => e.completedBarId = event.completedBarId ∧ e.eventKind = event.eventKind) =
        some e ∧ e = event) ∨
      (es.find? fun e => e.completedBarId = event.completedBarId ∧ e.eventKind = event.eventKind) =
          none ∧
        (es.find? fun e => e.completedBarId = event.completedBarId ∧ e.eventKind = .censored ∧
          e.reasonCodes = completedBarGap) = some e := by
  rw [eventReplay]
  split
  · rename_i same hsame
    by_cases heq : same = event
    · rw [if_pos heq]
      refine ⟨?_, ?_⟩
      · rintro ⟨⟩
        exact .inl ⟨hsame, heq⟩
      · rintro (⟨hfound, -⟩ | ⟨hnone, -⟩)
        · rw [Option.some.inj (hsame.symm.trans hfound)]
        · cases hsame.symm.trans hnone
    · rw [if_neg heq]
      refine ⟨nofun, ?_⟩
      rintro (⟨hfound, rfl⟩ | ⟨hnone, -⟩)
      · exact absurd (Option.some.inj (hsame.symm.trans hfound)) heq
      · cases hsame.symm.trans hnone
  · rename_i hsame
    split
    · rename_i found hfound
      refine ⟨?_, ?_⟩
      · rintro ⟨⟩
        exact .inr ⟨hsame, hfound⟩
      · rintro (⟨hother, -⟩ | ⟨-, hother⟩)
        · cases hsame.symm.trans hother
        · rw [Option.some.inj (hfound.symm.trans hother)]
    · rename_i hgap
      refine ⟨fun h => ?_, ?_⟩
      · split at h <;> cases h
      · rintro (⟨hother, -⟩ | ⟨-, hother⟩)
        · cases hsame.symm.trans hother
        · cases hgap.symm.trans hother

/-- What has been found is found again, whatever the chain has become since. -/
theorem eventReplay_append (hchain : requireEventChain trial (es ++ more) = .ok ())
    (h : eventReplay es event = .ok (some e)) :
    eventReplay (es ++ more) event = .ok (some e) := by
  rcases eventReplay_eq_some_iff.1 h with ⟨hsame, heq⟩ | ⟨-, hgap⟩
  · exact eventReplay_eq_some_iff.2 (.inl ⟨by rw [List.find?_append, hsame]; rfl, heq⟩)
  · -- A gap censor ends the trial, so that nothing has been added.
    have hkind := List.find?_some hgap
    rw [decide_eq_true_eq] at hkind
    obtain ⟨l, m, rfl⟩ := List.append_of_mem (List.mem_of_find?_eq_some hgap)
    rw [List.append_assoc, List.cons_append] at hchain
    have hterminal : e.eventKind.terminal = true := by
      rw [hkind.2.1]
      rfl
    have hnil := terminal_last_of_requireEventChain hchain hterminal
    rw [(List.append_eq_nil_iff.1 hnil).2, List.append_nil]
    exact h

/-- The gap censor of an event is the event exactly if it is a gap censor. -/
theorem gapCensored_eq_self_iff (hvalid : event.validEvent sha = true) :
    gapCensored sha event = event ↔ event.eventKind = .censored ∧ event.outcomeRef = none ∧
      event.reasonCodes = completedBarGap := by
  refine ⟨fun h => ?_, ?_⟩
  · rw [← h]
    exact ⟨rfl, rfl, rfl⟩
  · rintro ⟨hkind, houtcome, hreasons⟩
    have hid := DayForwardTrialEvent.eventId_of_validEvent hvalid
    have hpayload := DayForwardTrialEvent.payloadIsValid_of_validEvent hvalid
    rw [DayForwardTrialEvent.payloadIsValid, hkind] at hpayload
    have hexit : event.exitReason = none := (of_decide_eq_true hpayload).1
    have hsame : { event with
        eventKind := .censored, exitReason := none, outcomeRef := none,
        reasonCodes := completedBarGap } = event := by
      rw [← hkind, ← hexit, ← houtcome, ← hreasons]
    rw [gapCensored, hsame, ← hid]

/-- What has just been recorded for a proposal is found for it, but for one that censors the trial
    otherwise. -/
theorem eventReplay_recorded_iff (hvalid : event.validEvent sha = true)
    (hnew : eventReplay es event = .ok none) (hrecorded : recorded sha es event = .ok stored) :
    eventReplay (es ++ [stored]) event = .ok (some stored) ↔ ¬ CensorsOtherwise es event := by
  obtain ⟨hsame, hgap⟩ := find?_eq_none_of_eventReplay hnew
  rw [recorded_eq hvalid] at hrecorded
  have hrecorded := Except.ok.inj hrecorded
  rw [eventReplay_eq_some_iff, List.find?_append, List.find?_append, hsame, hgap, Option.none_or,
    Option.none_or]
  by_cases hskips : es.getLast?.any (ChainState.skipsBar · event) = true
  · rw [if_pos hskips] at hrecorded
    obtain ⟨hbar, hkind, hreasons⟩ : stored.completedBarId = event.completedBarId ∧
        stored.eventKind = .censored ∧ stored.reasonCodes = completedBarGap := by
      rw [← hrecorded]
      exact ⟨rfl, rfl, rfl⟩
    by_cases hcensored : event.eventKind = .censored
    · -- The gap censor has the kind of the proposal: it must be the proposal itself.
      have hself : stored = event ↔ event.outcomeRef = none ∧ event.reasonCodes = completedBarGap := by
        rw [← hrecorded, gapCensored_eq_self_iff hvalid]
        exact and_iff_right hcensored
      simp [CensorsOtherwise, hbar, hkind, hcensored, hskips, hself]
    · have hother : ¬ DayForwardTrialEventKind.censored = event.eventKind := Ne.symm hcensored
      simp [CensorsOtherwise, hbar, hkind, hreasons, hcensored, hother]
  · rw [if_neg hskips] at hrecorded
    obtain rfl := hrecorded
    refine iff_of_true ?_ fun hother => hskips hother.1
    simp

/-- A proposal for which an event is found does not censor the trial otherwise: no bar is skipped,
    as its own is one of the chain. -/
theorem not_censorsOtherwise_of_eventReplay (hchain : requireEventChain trial es = .ok ())
    (h : eventReplay es event = .ok (some stored)) : ¬ CensorsOtherwise es event := by
  rintro ⟨hskips, hcensored, -⟩
  rcases eventReplay_eq_some_iff.1 h with ⟨hsame, rfl⟩ | ⟨hnone, hgap⟩
  · obtain ⟨l, m, rfl⟩ := List.append_of_mem (List.mem_of_find?_eq_some hsame)
    have hterminal : stored.eventKind.terminal = true := by
      rw [hcensored]
      rfl
    rw [terminal_last_of_requireEventChain hchain hterminal, List.getLast?_concat, Option.any_some,
      ChainState.skipsBar, decide_eq_true_eq] at hskips
    omega
  · have hfound := List.find?_some hgap
    rw [decide_eq_true_eq] at hfound
    have hmissing := List.find?_eq_none.1 hnone stored (List.mem_of_find?_eq_some hgap)
    exact hmissing (decide_eq_true ⟨hfound.1, hfound.2.1.trans hcensored.symm⟩)

/-! ## Proposing again -/

/-- A proposal for which an event is found returns it, and changes nothing. -/
theorem append_eq_of_eventReplay (h : IsLedger ctx ledger) (ht : trial ∈ ledger.trials)
    (hvalid : event.validEvent ctx.sha = true) (hid : trial.trialId = event.trialId)
    (hparent : requireEventParent trial event = .ok ())
    (hreplay : eventReplay (ledger.chainOf event.trialId) event = .ok (some stored)) :
    appendDayForwardTrialEvent ctx event ledger = .ok (stored, ledger) := by
  have hread := readDayForwardTrialState_eq h ht
  rw [hid] at hread
  have hchecked : validatedEvent ctx.sha event = .ok event :=
    bind_eq_ok.2 ⟨(), raiseIf_eq_ok.2 (by rw [hvalid]; nofun), rfl⟩
  exact bind_eq_ok.2 ⟨_, hchecked, bind_eq_ok.2 ⟨_, hread, bind_eq_ok.2 ⟨(), hparent,
    bind_eq_ok.2 ⟨_, hreplay, rfl⟩⟩⟩⟩

/-- Conversely, a proposal that changes nothing is one for which an event is found. -/
theorem eventReplay_of_append_eq (h : IsLedger ctx ledger)
    (happend : appendDayForwardTrialEvent ctx event ledger = .ok (stored, ledger)) :
    eventReplay (ledger.chainOf event.trialId) event = .ok (some stored) := by
  obtain ⟨-, state, hread, -, ⟨hreplay, -⟩ | ⟨-, -, -, heq⟩⟩ := append_cases happend
  · rw [(readDayForwardTrialState_eq_ok h hread).2.2] at hreplay
    exact hreplay
  · have hlength := congrArg (fun l : Ledger => l.events.length) heq
    simp at hlength

/-- What is accepted once is accepted again after any calls, with the same event, exactly if it
    does not censor the trial otherwise. -/
theorem resubmitted_iff (h : IsLedger ctx ledger)
    (happend : appendDayForwardTrialEvent ctx event ledger = .ok (stored, next)) :
    (∀ calls later, (system ctx).Run next calls later →
        appendDayForwardTrialEvent ctx event later = .ok (stored, later)) ↔
      ¬ CensorsOtherwise (ledger.chainOf event.trialId) event := by
  have hnext := isLedger_of_append h happend
  obtain ⟨hvalid, state, hread, hparent, hcases⟩ := append_cases happend
  obtain ⟨ht, hid, hevents⟩ := readDayForwardTrialState_eq_ok h hread
  -- It is enough that the event is found in the next ledger.
  have hlater : eventReplay (next.chainOf event.trialId) event = .ok (some stored) ↔
      ∀ calls later, (system ctx).Run next calls later →
        appendDayForwardTrialEvent ctx event later = .ok (stored, later) := by
    refine ⟨fun hfound calls later hrun => ?_, fun hall => ?_⟩
    · have hledger : IsLedger ctx later := by
        clear happend hcases hfound
        induction hrun with
        | nil => exact hnext
        | @cons s _ _ call _ hstep _ ih =>
          obtain rfl := hstep
          exact ih (isLedger_after hnext call)
      have hgrown := isExtension_of_run hrun
      have hmem : state.trial ∈ later.trials := by
        refine hgrown.trials.subset ?_
        rcases hcases with ⟨-, rfl⟩ | ⟨-, -, -, rfl⟩ <;> exact ht
      obtain ⟨more, hmore⟩ := hgrown.events.filter (·.trialId = event.trialId)
      have hchain := hledger.chains state.trial hmem
      rw [hid, Ledger.chainOf, ← hmore] at hchain
      refine append_eq_of_eventReplay hledger hmem hvalid hid hparent ?_
      rw [Ledger.chainOf, ← hmore]
      exact eventReplay_append hchain hfound
    · exact eventReplay_of_append_eq hnext (hall [] next (.nil next))
  rw [← hlater]
  rw [hevents] at hcases
  rcases hcases with ⟨hreplay, rfl⟩ | ⟨hnew, hrecorded, -, rfl⟩
  · have hchain := h.chains state.trial ht
    rw [hid] at hchain
    exact iff_of_true hreplay (not_censorsOtherwise_of_eventReplay hchain hreplay)
  · have hstored := (recorded_cases hvalid hrecorded).2
    rw [chainOf_concat, if_pos hstored]
    exact eventReplay_recorded_iff hvalid hnew hrecorded

/-! ## The ledgers -/

/-- In every ledger that calls lead to, each trial can be read, and its events are a chain, which a
    call that is refused leaves as it is. What is accepted is accepted again at any later time,
    with the same event and without any change, exactly if it does not censor the trial
    otherwise. -/
theorem forwardTrial_iff (h : (system ctx).Reachable ledger) :
    (∀ trial ∈ ledger.trials, ∃ events,
      readDayForwardTrialState ctx ledger trial.trialId = .ok ⟨trial, events⟩ ∧
        IsTrialChain events) ∧
    (∀ event error, appendDayForwardTrialEvent ctx event ledger = .error error →
      ledger.after ctx (.append event) = ledger) ∧
    ∀ event stored next, appendDayForwardTrialEvent ctx event ledger = .ok (stored, next) →
      ((∀ calls later, (system ctx).Run next calls later →
          appendDayForwardTrialEvent ctx event later = .ok (stored, later)) ↔
        ¬ CensorsOtherwise (ledger.chainOf event.trialId) event) := by
  have hledger := isLedger_of_reachable h
  refine ⟨fun trial ht => ?_, fun event error => after_append_of_error,
    fun event stored next => resubmitted_iff hledger⟩
  exact ⟨_, readDayForwardTrialState_eq hledger ht,
    isTrialChain_of_requireEventChain (hledger.chains trial ht)⟩

namespace TrialSample

/-- The letter that stands for a text. -/
def letter (material : List JsonAtom) : Char :=
  if .str "no_signal" ∈ material then 'b'
  else if .str "completed_bar_gap" ∈ material then 'c'
  else if .str "fixture_reason" ∈ material then 'd'
  else 'a'

def digest : Sha256 where
  hexdigest material := String.ofList (List.replicate 64 (letter material))
  isHex64_hexdigest material := by
    rw [letter]
    split_ifs <;> decide +kernel

/-- Clocks of the markets in the summer of 2026. -/
def zones : Zones where
  newYork := ⟨fun _ => TimeDelta.hours (-4)⟩
  seoul := ⟨fun _ => TimeDelta.hours 9⟩

def context : Context where
  sha := digest
  zones := zones
  requireTrialParent _ := .ok ()

/-- The 20th of August 2026, some minutes after 10:00 in New York. -/
def bar (minutes : ℤ) : Instant :=
  (DateTime.combine (Date.ofCivil 2026 8 20) 14 minutes 0).instant

def hex (c : Char) : String := String.ofList (List.replicate 64 c)

def usTrial : DayForwardTrial where
  trialId := hex 'a'
  capsuleId := hex '1'
  hypothesisVersionId := hex '2'
  marketId := .usEquities
  executionLane := .forwardProbe
  sessionId := "XNYS-2026-08-20"
  sessionDate := Date.ofCivil 2026 8 20
  calendarSnapshotId := "calendar://official/XNYS/2026-v1"
  costModelSha256 := hex '3'
  sourceRefsSha256 := hex '4'
  evidenceSchemaSha256 := hex '5'
  preregisteredAt := bar 0 + 1
  registrationCompletedBarAt := bar 0
  firstEligibleCompletedBarAt := bar 1

/-- Nothing is signalled on the first bar. -/
def noSignal : DayForwardTrialEvent where
  eventId := hex 'b'
  trialId := usTrial.trialId
  marketId := usTrial.marketId
  sessionId := usTrial.sessionId
  sessionDate := usTrial.sessionDate
  sequence := 1
  eventKind := .noSignal
  completedBarId := hex '6'
  completedBarSequence := 1
  completedBarAt := bar 1
  eventAt := bar 1
  exitReason := none
  outcomeRef := none
  reasonCodes := []

/-- The third bar censors the trial, for a reason of its own. -/
def censored : DayForwardTrialEvent :=
  { noSignal with
    eventId := hex 'd'
    sequence := 2
    previousEventId := some noSignal.eventId
    eventKind := .censored
    completedBarId := hex '7'
    completedBarSequence := 3
    completedBarAt := bar 3
    eventAt := bar 3
    reasonCodes := ["fixture_reason"] }

/-- What is recorded for that: the gap before it. -/
def gap : DayForwardTrialEvent := gapCensored digest censored

def observed : Ledger := { trials := [usTrial], events := [noSignal] }

def ended : Ledger := { trials := [usTrial], events := [noSignal, gap] }

theorem reachable_observed : (system context).Reachable observed := by
  have hregister : ({ trials := [usTrial] } : Ledger) =
      Ledger.after context {} (.register usTrial) := by decide +kernel
  have happend : observed = Ledger.after context { trials := [usTrial] } (.append noSignal) := by
    decide +kernel
  exact ⟨{}, _, rfl, .cons hregister (.cons happend (.nil _))⟩

/-- The proposal has been accepted, as a gap censor, and is then refused. -/
theorem censored_is_refused : (system context).Reachable observed ∧
    appendDayForwardTrialEvent context censored observed = .ok (gap, ended) ∧
    appendDayForwardTrialEvent context censored ended =
      .error (.conflict "forward_trial_event_identity_conflict") :=
  ⟨reachable_observed, by decide +kernel, by decide +kernel⟩

/-- A signal on the third bar. -/
def signal : DayForwardTrialEvent :=
  { censored with eventId := hex 'a', eventKind := .signal, reasonCodes := [] }

def endedBySignal : Ledger := { trials := [usTrial], events := [noSignal, gapCensored digest signal] }

/-- It is recorded as a gap censor as well, and accepted again. -/
theorem signal_is_resubmitted :
    appendDayForwardTrialEvent context signal endedBySignal =
      .ok (gapCensored digest signal, endedBySignal) :=
  ((forwardTrial_iff reachable_observed).2.2 signal _ endedBySignal (by decide +kernel)).2
    (fun hother => absurd hother.2.1 (by decide)) [] endedBySignal (.nil _)

end TrialSample

end TradingAgent.ForwardTrial
