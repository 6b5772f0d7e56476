import TradingAgent.ForwardTrial.Chain
import TradingAgent.Library.Transition

/-!
# The ledger of the forward trials

* The tables of the trials and of their events (`Ledger`), and the calls that write them:
  `registerDayForwardTrial` and `appendDayForwardTrialEvent`. What a call that returns has done is
  said once for each (`register_cases`, `append_cases`).
* In every ledger that the calls lead to, the events of each trial are a chain (`IsLedger`,
  `isLedger_of_reachable`), so that reading them succeeds (`readDayForwardTrialState_eq`).
* Nothing is taken from a ledger (`isExtension_of_run`).
-/

namespace TradingAgent.ForwardTrial

open Except Transition

/-- The rows of the two tables. The rows stand for the texts that they have been read from. -/
structure Ledger where
  trials : List DayForwardTrial := []
  events : List DayForwardTrialEvent := []
  deriving DecidableEq, Repr

structure DayForwardTrialState where
  trial : DayForwardTrial
  events : List DayForwardTrialEvent
  deriving DecidableEq, Repr

def DayForwardTrialState.terminal (state : DayForwardTrialState) : Bool :=
  state.events.getLast?.any (·.eventKind.terminal)

/-- What the calls depend on, apart from the two tables. -/
structure Context where
  sha : Sha256
  zones : Zones
  /-- The check of a trial against the tables of the capsules and the hypotheses. Their rows never
      change, and no call here writes them. -/
  requireTrialParent : DayForwardTrial → Except LedgerError Unit

section Calls

variable (ctx : Context)

/-! ## Reading -/

def trialById (ledger : Ledger) (trialId : String) :
    Except LedgerError (Option DayForwardTrial) :=
  match ledger.trials.filter (·.trialId = trialId) with
  | [] => .ok none
  | [trial] => do
    raiseIf (trial.validTrial ctx.sha ctx.zones = false)
      (.invalidSource "stored_forward_trial_payload_invalid")
    return some trial
  | _ => .error (.invalidSource "stored_forward_trial_duplicate")

def events (ledger : Ledger) (trialId : String) : Except LedgerError (List DayForwardTrialEvent) :=
  ((ledger.events.filter (·.trialId = trialId)).insertionSort
    fun e f => e.sequence ≤ f.sequence).mapM fun event => do
      raiseIf (event.validEvent ctx.sha = false)
        (.invalidSource "stored_forward_trial_event_payload_invalid")
      return event

def readDayForwardTrialState (ledger : Ledger) (trialId : String) :
    Except LedgerError DayForwardTrialState := do
  match ← trialById ctx ledger trialId with
  | none => .error (.invalidSource "forward_trial_missing")
  | some trial =>
    ctx.requireTrialParent trial
    let storedEvents ← events ctx ledger trial.trialId
    requireEventChain trial storedEvents
    return ⟨trial, storedEvents⟩

/-! ## Writing -/

def validatedTrial (trial : DayForwardTrial) : Except LedgerError DayForwardTrial := do
  raiseIf (trial.validTrial ctx.sha ctx.zones = false) (.invalidSource "forward_trial_invalid")
  return trial

def registerDayForwardTrial (trial : DayForwardTrial) (ledger : Ledger) :
    Except LedgerError (Bool × Ledger) := do
  let checked ← validatedTrial ctx trial
  match ← trialById ctx ledger checked.trialId with
  | some existing =>
    if existing = checked then return (false, ledger)
    else .error (.conflict "forward_trial_identity_conflict")
  | none =>
    raiseIf (ledger.trials.any fun t => t.capsuleId = checked.capsuleId ∧
      t.hypothesisVersionId = checked.hypothesisVersionId ∧ t.marketId = checked.marketId ∧
      t.sessionDate = checked.sessionDate) (.conflict "forward_trial_session_conflict")
    ctx.requireTrialParent checked
    return (true, { ledger with trials := ledger.trials ++ [checked] })

/-- The row is refused if it breaks a constraint of its table. -/
def insertEvent (event : DayForwardTrialEvent) (ledger : Ledger) : Except LedgerError Ledger := do
  raiseIf ((ledger.events.any fun e => e.eventId = event.eventId ∨
      e.trialId = event.trialId ∧ e.sequence = event.sequence) ∨
    ¬ (ledger.trials.any (·.trialId = event.trialId)) ∨
    ¬ (event.previousEventId.all fun id => ledger.events.any (·.eventId = id)))
    (.conflict "forward_trial_event_identity_conflict")
  return { ledger with events := ledger.events ++ [event] }

/-- What is recorded for a proposal: its gap censor, if a bar is missing before it. -/
def recorded (sha : Sha256) (events : List DayForwardTrialEvent) (event : DayForwardTrialEvent) :
    Except LedgerError DayForwardTrialEvent :=
  if events.getLast?.any (ChainState.skipsBar · event) then gapCensor sha event else .ok event

def appendDayForwardTrialEvent (event : DayForwardTrialEvent) (ledger : Ledger) :
    Except LedgerError (DayForwardTrialEvent × Ledger) := do
  let checked ← validatedEvent ctx.sha event
  let state ← readDayForwardTrialState ctx ledger checked.trialId
  requireEventParent state.trial checked
  match ← eventReplay state.events checked with
  | some replayed => return (replayed, ledger)
  | none =>
    raiseIf (state.terminal = true) (.conflict "forward_trial_already_terminal")
    let checked ← recorded ctx.sha state.events checked
    requireEventChain state.trial (state.events ++ [checked])
    let ledger ← insertEvent checked ledger
    return (checked, ledger)

/-! ## Runs -/

inductive Call
  | register (trial : DayForwardTrial)
  | append (event : DayForwardTrialEvent)

/-- The ledger after a call. The one write of each call is the last thing it does, so that one
    that raises has not written. -/
def Ledger.after (ledger : Ledger) : Call → Ledger
  | .register trial => ((registerDayForwardTrial ctx trial ledger).map (·.2)).toOption.getD ledger
  | .append event => ((appendDayForwardTrialEvent ctx event ledger).map (·.2)).toOption.getD ledger

/-- The ledgers, from an empty one on, under any calls in any order. -/
def system : System Ledger Call where
  init ledger := ledger = {}
  step ledger call next := next = ledger.after ctx call

end Calls

/-! ## What the calls do -/

variable {ctx : Context} {ledger next later : Ledger} {trial : DayForwardTrial}
  {event stored : DayForwardTrialEvent} {state : DayForwardTrialState} {b : Bool}

theorem register_cases (h : registerDayForwardTrial ctx trial ledger = .ok (b, next)) :
    next = ledger ∨
      trial.validTrial ctx.sha ctx.zones = true ∧ ctx.requireTrialParent trial = .ok () ∧
        (∀ t ∈ ledger.trials, t.trialId ≠ trial.trialId) ∧
        next = { ledger with trials := ledger.trials ++ [trial] } := by
  obtain ⟨_, hvalid, h⟩ := bind_eq_ok.1 h
  rw [validatedTrial, bind_eq_ok] at hvalid
  obtain ⟨_, hvalid, hchecked⟩ := hvalid
  cases hchecked
  obtain ⟨existing, hexisting, h⟩ := bind_eq_ok.1 h
  cases existing with
  | some existing =>
    dsimp only at h
    by_cases heq : existing = trial
    · rw [if_pos heq] at h
      cases h
      exact .inl rfl
    · rw [if_neg heq] at h
      cases h
  | none =>
    obtain ⟨_, -, h⟩ := bind_eq_ok.1 h
    obtain ⟨⟨⟩, hparent, h⟩ := bind_eq_ok.1 h
    cases h
    refine .inr ⟨by simpa using hvalid, hparent, ?_, rfl⟩
    rw [trialById] at hexisting
    split at hexisting
    · rename_i hnone
      exact fun t ht => of_decide_eq_false (by simpa using List.filter_eq_nil_iff.1 hnone t ht)
    · cases bind_eq_ok.1 hexisting |>.choose_spec.2
    · cases hexisting

/-- A valid event has a valid gap censor. -/
theorem gapCensor_eq {sha : Sha256} (h : event.validEvent sha = true) :
    gapCensor sha event = .ok (gapCensored sha event) := by
  have hvalid : (gapCensored sha event).validEvent sha = true := by
    rw [DayForwardTrialEvent.validEvent, decide_eq_true_eq] at h ⊢
    obtain ⟨-, htrial, hseq, hprevious, hbar, hbarSeq, -, htime, hfirst, -, -, -, -⟩ := h
    refine ⟨sha.isHex64_hexdigest _, htrial, hseq, hprevious, hbar, hbarSeq, rfl, htime, hfirst,
      ?_, ?_, rfl, rfl⟩
    · exact (sortedSet_eq_self_iff.2 (List.pairwise_singleton _ _)).symm
    · show completedBarGap.all isReason = true
      decide +kernel
  rw [gapCensor, bind_eq_ok]
  exact ⟨(), raiseIf_eq_ok.2 (by rw [hvalid]; exact Bool.noConfusion), rfl⟩

/-- What is recorded is the proposal, or its gap censor. -/
theorem recorded_eq {sha : Sha256} (h : event.validEvent sha = true)
    (es : List DayForwardTrialEvent) : recorded sha es event =
      .ok (if es.getLast?.any (ChainState.skipsBar · event) then gapCensored sha event
        else event) := by
  rw [recorded]
  by_cases hskips : es.getLast?.any (ChainState.skipsBar · event) = true
  · rw [if_pos hskips, if_pos hskips, gapCensor_eq h]
  · rw [if_neg hskips, if_neg hskips]

theorem insertEvent_eq_ok (h : insertEvent event ledger = .ok next) :
    next = { ledger with events := ledger.events ++ [event] } := by
  rw [insertEvent, bind_eq_ok] at h
  obtain ⟨_, -, h⟩ := h
  cases h
  rfl

theorem append_cases (h : appendDayForwardTrialEvent ctx event ledger = .ok (stored, next)) :
    event.validEvent ctx.sha = true ∧
      ∃ state, readDayForwardTrialState ctx ledger event.trialId = .ok state ∧
        requireEventParent state.trial event = .ok () ∧
        (eventReplay state.events event = .ok (some stored) ∧ next = ledger ∨
          eventReplay state.events event = .ok none ∧
            recorded ctx.sha state.events event = .ok stored ∧
            requireEventChain state.trial (state.events ++ [stored]) = .ok () ∧
            next = { ledger with events := ledger.events ++ [stored] }) := by
  obtain ⟨_, hvalid, h⟩ := bind_eq_ok.1 h
  rw [validatedEvent, bind_eq_ok] at hvalid
  obtain ⟨_, hvalid, hchecked⟩ := hvalid
  cases hchecked
  obtain ⟨state, hread, h⟩ := bind_eq_ok.1 h
  obtain ⟨⟨⟩, hparent, h⟩ := bind_eq_ok.1 h
  refine ⟨by simpa using hvalid, state, hread, hparent, ?_⟩
  obtain ⟨replayed, hreplay, h⟩ := bind_eq_ok.1 h
  cases replayed with
  | some replayed =>
    cases h
    exact .inl ⟨hreplay, rfl⟩
  | none =>
    obtain ⟨_, -, h⟩ := bind_eq_ok.1 h
    obtain ⟨checked, hchecked, h⟩ := bind_eq_ok.1 h
    obtain ⟨⟨⟩, hchain, h⟩ := bind_eq_ok.1 h
    obtain ⟨written, hwritten, h⟩ := bind_eq_ok.1 h
    cases h
    exact .inr ⟨hreplay, hchecked, hchain, insertEvent_eq_ok hwritten⟩

/-- A call that raises leaves the ledger as it is. -/
theorem after_append_of_error {error : LedgerError}
    (h : appendDayForwardTrialEvent ctx event ledger = .error error) :
    ledger.after ctx (.append event) = ledger := by
  rw [Ledger.after, h]
  rfl

theorem after_append (h : appendDayForwardTrialEvent ctx event ledger = .ok (stored, next)) :
    ledger.after ctx (.append event) = next := by
  rw [Ledger.after, h]
  rfl

/-- The ledger is as it was, or it has one more row. -/
theorem after_cases (ctx : Context) (ledger : Ledger) (call : Call) :
    ledger.after ctx call = ledger ∨
      (∃ b trial, registerDayForwardTrial ctx trial ledger = .ok (b, ledger.after ctx call)) ∨
      ∃ event stored,
        appendDayForwardTrialEvent ctx event ledger = .ok (stored, ledger.after ctx call) := by
  cases call with
  | register trial =>
    cases h : registerDayForwardTrial ctx trial ledger with
    | error error => exact .inl (by rw [Ledger.after, h]; rfl)
    | ok result => exact .inr (.inl ⟨result.1, trial, by rw [Ledger.after, h]; rfl⟩)
  | append event =>
    cases h : appendDayForwardTrialEvent ctx event ledger with
    | error error => exact .inl (after_append_of_error h)
    | ok result => exact .inr (.inr ⟨event, result.1, by rw [after_append h, h]⟩)

/-! ## The ledgers -/

/-- The events of a trial, in the order in which they were written. -/
def Ledger.chainOf (ledger : Ledger) (trialId : String) : List DayForwardTrialEvent :=
  ledger.events.filter (·.trialId = trialId)

/-- What is known of every ledger that the calls lead to. -/
structure IsLedger (ctx : Context) (ledger : Ledger) : Prop where
  nodup : (ledger.trials.map (·.trialId)).Nodup
  trials : ∀ t ∈ ledger.trials, t.validTrial ctx.sha ctx.zones = true ∧
    ctx.requireTrialParent t = .ok ()
  events : ∀ e ∈ ledger.events, e.validEvent ctx.sha = true ∧
    ∃ t ∈ ledger.trials, t.trialId = e.trialId
  chains : ∀ t ∈ ledger.trials, requireEventChain t (ledger.chainOf t.trialId) = .ok ()

theorem trialById_eq (h : IsLedger ctx ledger) (ht : trial ∈ ledger.trials) :
    trialById ctx ledger trial.trialId = .ok (some trial) := by
  rw [trialById, filter_key_eq_singleton h.nodup ht]
  exact bind_eq_ok.2 ⟨(), raiseIf_eq_ok.2 (by rw [(h.trials trial ht).1]; nofun), rfl⟩

/-- Reading a trial gives its events, in the order in which they were written. -/
theorem readDayForwardTrialState_eq (h : IsLedger ctx ledger) (ht : trial ∈ ledger.trials) :
    readDayForwardTrialState ctx ledger trial.trialId =
      .ok ⟨trial, ledger.chainOf trial.trialId⟩ := by
  have hsort : (ledger.chainOf trial.trialId).insertionSort (fun e f => e.sequence ≤ f.sequence) =
      ledger.chainOf trial.trialId :=
    (sequence_le_of_requireEventChain (h.chains trial ht)).insertionSort_eq
  have hevents : events ctx ledger trial.trialId = .ok (ledger.chainOf trial.trialId) := by
    rw [events, ← Ledger.chainOf, hsort]
    refine mapM_self fun e he => bind_eq_ok.2 ⟨(), raiseIf_eq_ok.2 ?_, rfl⟩
    rw [(h.events e (List.mem_of_mem_filter he)).1]
    nofun
  refine bind_eq_ok.2 ⟨some trial, trialById_eq h ht, bind_eq_ok.2 ⟨(), (h.trials trial ht).2, ?_⟩⟩
  exact bind_eq_ok.2 ⟨_, hevents, bind_eq_ok.2 ⟨(), h.chains trial ht, rfl⟩⟩

/-- What is read is a trial, with its events. -/
theorem readDayForwardTrialState_eq_ok (h : IsLedger ctx ledger) {trialId : String}
    (hread : readDayForwardTrialState ctx ledger trialId = .ok state) :
    state.trial ∈ ledger.trials ∧ state.trial.trialId = trialId ∧
      state.events = ledger.chainOf trialId := by
  obtain ⟨found, hfound, hrest⟩ := bind_eq_ok.1 hread
  have hmem : ∃ t ∈ ledger.trials, t.trialId = trialId := by
    rw [trialById] at hfound
    by_contra hnone
    rw [List.filter_eq_nil_iff.2 fun t ht => by simpa using fun hid => hnone ⟨t, ht, hid⟩] at hfound
    cases hfound
    cases hrest
  obtain ⟨t, ht, rfl⟩ := hmem
  rw [readDayForwardTrialState_eq h ht] at hread
  cases hread
  exact ⟨ht, rfl, rfl⟩

theorem isLedger_empty : IsLedger ctx {} where
  nodup := List.nodup_nil
  trials _ ht := absurd ht List.not_mem_nil
  events _ he := absurd he List.not_mem_nil
  chains _ ht := absurd ht List.not_mem_nil

/-- A trial is registered without any events. -/
theorem IsLedger.register (h : IsLedger ctx ledger)
    (hvalid : trial.validTrial ctx.sha ctx.zones = true)
    (hparent : ctx.requireTrialParent trial = .ok ())
    (hnew : ∀ t ∈ ledger.trials, t.trialId ≠ trial.trialId) :
    IsLedger ctx { ledger with trials := ledger.trials ++ [trial] } where
  nodup := by
    rw [List.map_append, List.nodup_append]
    refine ⟨h.nodup, List.nodup_singleton _, ?_⟩
    intro id hid id' hid' heq
    obtain ⟨t, ht, rfl⟩ := List.mem_map.1 hid
    exact hnew t ht (heq.trans (List.mem_singleton.1 hid'))
  trials t ht := by
    rcases List.mem_append.1 ht with ht | ht
    · exact h.trials t ht
    · obtain rfl := List.mem_singleton.1 ht
      exact ⟨hvalid, hparent⟩
  events e he := by
    obtain ⟨hevent, t, ht, hid⟩ := h.events e he
    exact ⟨hevent, t, List.mem_append_left _ ht, hid⟩
  chains t ht := by
    rcases List.mem_append.1 ht with ht | ht
    · exact h.chains t ht
    · obtain rfl := List.mem_singleton.1 ht
      have hnone : ledger.chainOf t.trialId = [] := by
        refine List.filter_eq_nil_iff.2 fun e he => ?_
        obtain ⟨-, s, hs, hid⟩ := h.events e he
        simpa using fun heq : e.trialId = t.trialId => hnew s hs (hid.trans heq)
      rw [Ledger.chainOf] at hnone ⊢
      rw [hnone]
      rfl

theorem chainOf_concat (ledger : Ledger) (event : DayForwardTrialEvent) (trialId : String) :
    Ledger.chainOf { ledger with events := ledger.events ++ [event] } trialId =
      ledger.chainOf trialId ++ if event.trialId = trialId then [event] else [] := by
  rw [Ledger.chainOf, List.filter_append, List.filter_singleton]
  by_cases hid : event.trialId = trialId <;> simp [hid, Ledger.chainOf]

/-- An event is added to the chain of its trial, and to no other one. -/
theorem IsLedger.append (h : IsLedger ctx ledger) (ht : trial ∈ ledger.trials)
    (hvalid : stored.validEvent ctx.sha = true) (hid : stored.trialId = trial.trialId)
    (hchain : requireEventChain trial (ledger.chainOf trial.trialId ++ [stored]) = .ok ()) :
    IsLedger ctx { ledger with events := ledger.events ++ [stored] } where
  nodup := h.nodup
  trials := h.trials
  events e he := by
    rcases List.mem_append.1 he with he | he
    · exact h.events e he
    · obtain rfl := List.mem_singleton.1 he
      exact ⟨hvalid, trial, ht, hid.symm⟩
  chains t hmem := by
    rw [chainOf_concat]
    by_cases heq : stored.trialId = t.trialId
    · obtain rfl : trial = t := List.inj_on_of_nodup_map h.nodup ht hmem (hid.symm.trans heq)
      rw [if_pos heq]
      exact hchain
    · rw [if_neg heq, List.append_nil]
      exact h.chains t hmem

/-- What is recorded is valid, and of the same trial. -/
theorem recorded_cases {es : List DayForwardTrialEvent} {sha : Sha256}
    (hvalid : event.validEvent sha = true) (h : recorded sha es event = .ok stored) :
    stored.validEvent sha = true ∧ stored.trialId = event.trialId := by
  rw [recorded] at h
  split at h
  · rw [gapCensor, bind_eq_ok] at h
    obtain ⟨_, hcensor, h⟩ := h
    cases h
    exact ⟨by simpa using hcensor, rfl⟩
  · cases h
    exact ⟨hvalid, rfl⟩

theorem isLedger_of_append (h : IsLedger ctx ledger)
    (happend : appendDayForwardTrialEvent ctx event ledger = .ok (stored, next)) :
    IsLedger ctx next := by
  obtain ⟨hvalid, state, hread, -, ⟨-, rfl⟩ | ⟨-, hrecorded, hchain, rfl⟩⟩ := append_cases happend
  · exact h
  · obtain ⟨ht, hid, hevents⟩ := readDayForwardTrialState_eq_ok h hread
    obtain ⟨hstored, htrial⟩ := recorded_cases hvalid hrecorded
    rw [hevents, ← hid] at hchain
    exact h.append ht hstored (htrial.trans hid.symm) hchain

theorem isLedger_after (h : IsLedger ctx ledger) (call : Call) :
    IsLedger ctx (ledger.after ctx call) := by
  rcases after_cases ctx ledger call with heq | ⟨b, trial, hcall⟩ | ⟨event, stored, hcall⟩
  · rw [heq]
    exact h
  · rcases register_cases hcall with heq | ⟨hvalid, hparent, hnew, heq⟩
    · rw [heq]
      exact h
    · rw [heq]
      exact h.register hvalid hparent hnew
  · exact isLedger_of_append h hcall

theorem isLedger_of_reachable (h : (system ctx).Reachable ledger) : IsLedger ctx ledger := by
  refine h.invariant ?_ ?_
  · rintro _ rfl
    exact isLedger_empty
  · rintro s call _ - hs rfl
    exact isLedger_after hs call

/-! ## What stays -/

/-- The rows of one ledger are the first rows of another one. -/
structure IsExtension (ledger later : Ledger) : Prop where
  trials : ledger.trials <+: later.trials
  events : ledger.events <+: later.events

theorem isExtension_after (ctx : Context) (ledger : Ledger) (call : Call) :
    IsExtension ledger (ledger.after ctx call) := by
  rcases after_cases ctx ledger call with heq | ⟨b, trial, hcall⟩ | ⟨event, stored, hcall⟩
  · rw [heq]
    exact ⟨List.prefix_rfl, List.prefix_rfl⟩
  · rcases register_cases hcall with heq | ⟨-, -, -, heq⟩
    · rw [heq]
      exact ⟨List.prefix_rfl, List.prefix_rfl⟩
    · rw [heq]
      exact ⟨List.prefix_append _ _, List.prefix_rfl⟩
  · obtain ⟨-, -, -, -, ⟨-, heq⟩ | ⟨-, -, -, heq⟩⟩ := append_cases hcall
    · rw [heq]
      exact ⟨List.prefix_rfl, List.prefix_rfl⟩
    · rw [heq]
      exact ⟨List.prefix_rfl, List.prefix_append _ _⟩

theorem isExtension_of_run {calls : List Call} (h : (system ctx).Run ledger calls later) :
    IsExtension ledger later := by
  induction h with
  | nil => exact ⟨List.prefix_rfl, List.prefix_rfl⟩
  | @cons ledger _ _ call _ hstep _ ih =>
    obtain rfl := hstep
    have hfirst := isExtension_after ctx ledger call
    exact ⟨hfirst.trials.trans ih.trials, hfirst.events.trans ih.events⟩

end TradingAgent.ForwardTrial
