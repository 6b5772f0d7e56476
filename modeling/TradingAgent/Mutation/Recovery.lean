import TradingAgent.Mutation.Recovery.Rules
import TradingAgent.Mutation.Store

/-!
# Recovery of the mutations

A recovery pass (`recover`) reads the events of all mutations once, and then visits the mutations
one after the other. For each one whose last event leaves the outcome open it decides what became
of it, and records the verdict as another event.

* A mutation is visited if its last event is `attempted` or `ambiguous` (`recoverableTypes`),
  while the verdict can be recorded only after `ambiguous` (`recoveryEvent_admitted_iff`): an
  attempt whose process died before it recorded any outcome is visited, but not recordable.
* So a pass can record all its verdicts, and does not fail for that reason, exactly if it has no
  verdict on such an attempt (`recoveryIsRecordable_iff`).
-/

namespace TradingAgent

open Except

def maxRuntimeReceiptAge : TimeDelta := .seconds 5

/-- The types of a last event that leaves the outcome open. -/
def recoverableTypes : List PaperMutationEventType := [.attempted, .ambiguous]

/-- Whether a time is within a snapshot, and recent at the end of it. -/
def isWithin (snapshot : PaperMutationRecoverySnapshot) (receipt : DateTime) : Bool :=
  snapshot.startedAt ≤ receipt ∧ receipt ≤ snapshot.completedAt ∧
    snapshot.completedAt - receipt ≤ maxRuntimeReceiptAge

def requireCurrentEpochSnapshot (snapshot : PaperMutationRecoverySnapshot) :
    Except PaperMutationError Unit :=
  let observedAt := snapshot.state.brokerState.account.observedAt
  let receipts := snapshot.state.protectiveOcos.map (·.observedAt)
  let lookupReceipts := snapshot.state.mutationLookups.map (·.observedAt)
  let aware := [snapshot.startedAt, snapshot.completedAt, observedAt] ++ receipts ++ lookupReceipts
  raiseIf
    (snapshot.connectionEpoch = ""
      ∨ ¬ isStripped snapshot.connectionEpoch
      ∨ (∃ value ∈ aware, ¬ value.aware)
      ∨ snapshot.completedAt ≤ snapshot.startedAt
      ∨ ¬ isWithin snapshot observedAt
      ∨ (∃ receipt ∈ receipts, ¬ isWithin snapshot receipt)
      ∨ (∃ receipt ∈ lookupReceipts, ¬ isWithin snapshot receipt))
    .invalidRecoverySnapshot

/-- The event that records a verdict, if there is one. -/
def recoveryEvent (sha : Sha256) (snapshot : PaperMutationRecoverySnapshot)
    (result : PaperMutationRecoveryResult) (attemptNumber : ℕ) : Option PaperMutationEvent :=
  let evidence : List JsonAtom :=
    [.str result.mutationKey, .str result.state.value, .ofOption .str result.brokerOrderId,
      .str snapshot.connectionEpoch, .time snapshot.completedAt]
  let event (eventType : PaperMutationEventType) : PaperMutationEvent :=
    { attemptNumber := attemptNumber
      occurredAt := snapshot.completedAt
      eventType := eventType
      requestId := none
      statusCode := none
      brokerOrderId := result.brokerOrderId
      evidenceSha256 := sha.hexdigest evidence }
  match result.state with
  | .acknowledged => some (event .recoveredAcknowledged)
  | .absent => some (event .recoveredAbsent)
  | .unresolved => none

/-- The event that an attempt starts with. -/
def attemptedEvents (events : List PaperMutationEvent) (attemptNumber : ℕ) :
    List PaperMutationEvent :=
  events.filter fun event => event.attemptNumber = attemptNumber ∧ event.eventType = .attempted

/-- The visit of one mutation, given the events read at the start of the pass. -/
def recoverVisit (sha : Sha256) (snapshot : PaperMutationRecoverySnapshot)
    (storedEvents : List StoredPaperMutationEvent)
    (protectivePlans : List StoredProtectiveOcoPlan) (ledger : ExecutionLedger)
    (storedIntent : StoredPaperMutationIntent) :
    Except PaperMutationError (ExecutionLedger × Option PaperMutationRecoveryResult) :=
  let events := (storedEvents.filter (·.mutationKey = storedIntent.mutationKey)).map (·.event)
  match events.getLast? with
  | none => pure (ledger, none)
  | some last =>
    if last.eventType ∉ recoverableTypes then pure (ledger, none)
    else do
      raiseIf (storedIntent.intent.accountFingerprint ≠
        snapshot.state.brokerState.account.accountFingerprint) .recoveryAccount
      match attemptedEvents events last.attemptNumber with
      | [attempted] =>
        let result := decidePaperMutationRecovery
          ⟨storedIntent, attempted, snapshot, ledger.orderIntents, protectivePlans⟩
        match recoveryEvent sha snapshot result last.attemptNumber with
        | some event =>
          let (ledger, _) ← appendPaperMutationEvent sha ledger result.mutationKey event
          pure (ledger, some result)
        | none => pure (ledger, some result)
      | _ => .error .invalidRecoverySnapshot

/-- The visits of several mutations. What was recorded before an error stays. -/
def recoverVisits (sha : Sha256) (snapshot : PaperMutationRecoverySnapshot)
    (storedEvents : List StoredPaperMutationEvent)
    (protectivePlans : List StoredProtectiveOcoPlan) :
    List StoredPaperMutationIntent → ExecutionLedger →
      ExecutionLedger × Except PaperMutationError (List PaperMutationRecoveryResult)
  | [], ledger => (ledger, .ok [])
  | storedIntent :: pending, ledger =>
    match recoverVisit sha snapshot storedEvents protectivePlans ledger storedIntent with
    | .error e => (ledger, .error e)
    | .ok (ledger, result) =>
      let (ledger, results) :=
        recoverVisits sha snapshot storedEvents protectivePlans pending ledger
      (ledger, results.map (result.toList ++ ·))

/-- A recovery pass. -/
def recover (sha : Sha256) (ledger : ExecutionLedger) (snapshot : PaperMutationRecoverySnapshot) :
    ExecutionLedger × Except PaperMutationError (List PaperMutationRecoveryResult) :=
  match requireCurrentEpochSnapshot snapshot, readPaperMutationEvents sha ledger,
    readPaperMutationIntents sha ledger with
  | .ok (), .ok storedEvents, .ok intents =>
    recoverVisits sha snapshot storedEvents ledger.protectiveOcoPlans intents ledger
  | .error e, _, _ | _, .error e, _ | _, _, .error e => (ledger, .error e)

/-- The events that record a verdict on an attempt. -/
theorem recoveryEvent_cases {sha : Sha256} {snapshot : PaperMutationRecoverySnapshot}
    {result : PaperMutationRecoveryResult} {n : ℕ} {event : PaperMutationEvent}
    (h : recoveryEvent sha snapshot result n = some event) : event.attemptNumber = n ∧
      (event.eventType = .recoveredAcknowledged ∨ event.eventType = .recoveredAbsent) := by
  unfold recoveryEvent at h
  split at h <;> cases h <;> simp

/-- There is nothing to record exactly if the verdict is that one cannot tell. -/
theorem recoveryEvent_eq_none (sha : Sha256) (snapshot : PaperMutationRecoverySnapshot) (n : ℕ)
    {result : PaperMutationRecoveryResult} :
    recoveryEvent sha snapshot result n = none ↔ result.state = .unresolved := by
  unfold recoveryEvent
  split <;> simp [*]

/-- What the visit of a mutation does: nothing, or it appends an event that records a verdict. -/
theorem recoverVisit_cases {sha : Sha256} {snapshot : PaperMutationRecoverySnapshot}
    {storedEvents : List StoredPaperMutationEvent}
    {protectivePlans : List StoredProtectiveOcoPlan} {ledger ledger' : ExecutionLedger}
    {storedIntent : StoredPaperMutationIntent} {result : Option PaperMutationRecoveryResult}
    (h : recoverVisit sha snapshot storedEvents protectivePlans ledger storedIntent =
      .ok (ledger', result)) :
    ledger' = ledger ∨ ∃ event inserted,
      (event.eventType = .recoveredAcknowledged ∨ event.eventType = .recoveredAbsent) ∧
      appendPaperMutationEvent sha ledger storedIntent.mutationKey event =
        .ok (ledger', inserted) := by
  unfold recoverVisit at h
  dsimp only at h
  split at h
  · rw [pure_eq_ok, Prod.mk.injEq] at h
    exact .inl h.1.symm
  · split_ifs at h
    · obtain ⟨_, -, h⟩ := bind_eq_ok.1 h
      split at h
      · split at h
        · rename_i event hevent
          simp only [bind_eq_ok, pure_eq_ok, Prod.mk.injEq, Prod.exists] at h
          obtain ⟨appended, inserted, happend, rfl, -⟩ := h
          rw [decidePaperMutationRecovery_mutationKey] at happend
          exact .inr ⟨event, inserted, (recoveryEvent_cases hevent).2, happend⟩
        · rw [pure_eq_ok, Prod.mk.injEq] at h
          exact .inl h.1.symm
      · cases h
    · rw [pure_eq_ok, Prod.mk.injEq] at h
      exact .inl h.1.symm

/-! ## Which verdicts can be recorded -/

/-- The outcome of the last attempt is open: its last event, and the event that it starts with. -/
structure IsOpenAttempt (events : List PaperMutationEvent) (last attempted : PaperMutationEvent) :
    Prop where
  getLast?_eq : events.getLast? = some last
  recoverable : last.eventType ∈ recoverableTypes
  attempted_eq : attemptedEvents events last.attemptNumber = [attempted]

/-- The phase in which the outcome of the last attempt is open. -/
theorem phase_of_recoverable {events : List PaperMutationEvent} {phase : MutationPhase}
    (hphase : mutationPhase events = some phase) {last : PaperMutationEvent}
    (hlast : events.getLast? = some last) (hrecoverable : last.eventType ∈ recoverableTypes) :
    last.attemptNumber = phase.absent + 1 ∧
      (last.eventType = .attempted ∧ phase.last = .attempted ∨
        last.eventType = .ambiguous ∧ phase.last = .ambiguous) := by
  obtain ⟨htype, hattempt⟩ := getLast?_eq hphase
  rw [hlast, Option.map_some, MutationPhase.lastType] at htype
  replace hattempt := hattempt last hlast
  obtain ⟨absent, kind⟩ := phase
  cases kind <;> simp_all [MutationPhase.current, LastAttempt.types, recoverableTypes]

/-- An attempt whose outcome is open has exactly one event that it starts with. -/
theorem exists_attempted {events : List PaperMutationEvent} {phase : MutationPhase}
    (hphase : mutationPhase events = some phase) {last : PaperMutationEvent}
    (hlast : events.getLast? = some last) (hrecoverable : last.eventType ∈ recoverableTypes) :
    ∃ attempted, IsOpenAttempt events last attempted := by
  obtain ⟨hattempt, hkind⟩ := phase_of_recoverable hphase hlast hrecoverable
  have htypes := map_eventType_sameAttempt hphase last.attemptNumber
  have heq : attemptedEvents events last.attemptNumber =
      (sameAttempt events last.attemptNumber).filter (·.eventType = .attempted) := by
    rw [attemptedEvents, sameAttempt, List.filter_filter]
    congr 1
    funext event
    simp [Bool.and_comm]
  -- The attempt has that event only, or another one after it, which is `ambiguous`.
  suffices ∃ attempted, (sameAttempt events last.attemptNumber).filter
      (·.eventType = .attempted) = [attempted] by
    obtain ⟨attempted, h⟩ := this
    exact ⟨attempted, hlast, hrecoverable, heq.trans h⟩
  rcases hkind with ⟨-, hkind⟩ | ⟨-, hkind⟩
  · have hsingle : (sameAttempt events last.attemptNumber).map (·.eventType) = [.attempted] := by
      rw [htypes, hattempt]
      simp [MutationPhase.types, hkind, LastAttempt.types]
    obtain ⟨attempted, hsame, htype⟩ := List.map_eq_singleton_iff.1 hsingle
    exact ⟨attempted, by rw [hsame]; simp [htype]⟩
  · have hpair : (sameAttempt events last.attemptNumber).map (·.eventType) =
        [.attempted, .ambiguous] := by
      rw [htypes, hattempt]
      simp [MutationPhase.types, hkind, LastAttempt.types]
    obtain ⟨attempted, rest, hsame, htype, hrest⟩ := List.map_eq_cons_iff.1 hpair
    obtain ⟨ambiguous, rfl, htype'⟩ := List.map_eq_singleton_iff.1 hrest
    exact ⟨attempted, by rw [hsame]; simp [htype, htype']⟩

/-- A verdict can be recorded exactly after `ambiguous`. -/
theorem recoveryEvent_admitted_iff {events : List PaperMutationEvent} {phase : MutationPhase}
    (hphase : mutationPhase events = some phase) {last event : PaperMutationEvent}
    (hlast : events.getLast? = some last) (hrecoverable : last.eventType ∈ recoverableTypes)
    (hattempt : event.attemptNumber = last.attemptNumber)
    (htype : event.eventType = .recoveredAcknowledged ∨ event.eventType = .recoveredAbsent) :
    requireMutationTransition events event = .ok () ↔ last.eventType = .ambiguous := by
  rw [requireMutationTransition_iff hphase]
  obtain ⟨hcurrent, hkind⟩ := phase_of_recoverable hphase hlast hrecoverable
  rw [MutationPhase.next, if_pos (hattempt.trans hcurrent)]
  rcases hkind with ⟨hlast, hkind⟩ | ⟨hlast, hkind⟩ <;> rcases htype with htype | htype <;>
    simp [MutationPhase.advance, hkind, hlast, htype]

/-- What a pass decides about a mutation of the ledger. -/
def recoveryVerdict (ledger : ExecutionLedger) (snapshot : PaperMutationRecoverySnapshot)
    (storedIntent : StoredPaperMutationIntent) (attempted : PaperMutationEvent) :
    PaperMutationRecoveryResult :=
  decidePaperMutationRecovery
    ⟨storedIntent, attempted, snapshot, ledger.orderIntents, ledger.protectiveOcoPlans⟩

/-- A pass does not fail on a transition that is not admitted, and the verdict on every mutation
    can be recorded. -/
def RecoveryIsRecordable (sha : Sha256) (ledger : ExecutionLedger)
    (snapshot : PaperMutationRecoverySnapshot) : Prop :=
  (recover sha ledger snapshot).2 ≠ .error .invalidTransition ∧
  ∀ storedIntent ∈ ledger.paperMutationIntents, ∀ last attempted event,
    IsOpenAttempt (ledger.mutationEvents storedIntent.mutationKey) last attempted →
    recoveryEvent sha snapshot (recoveryVerdict ledger snapshot storedIntent attempted)
      last.attemptNumber = some event →
    requireMutationTransition (ledger.mutationEvents storedIntent.mutationKey) event = .ok ()

/-- There is a verdict only on mutations whose last event is not `attempted`. -/
def IsUndecidedWhileAttempted (ledger : ExecutionLedger)
    (snapshot : PaperMutationRecoverySnapshot) : Prop :=
  ∀ storedIntent ∈ ledger.paperMutationIntents, ∀ last attempted,
    IsOpenAttempt (ledger.mutationEvents storedIntent.mutationKey) last attempted →
    last.eventType = .attempted →
    (recoveryVerdict ledger snapshot storedIntent attempted).state = .unresolved

/-- Where the appending of an event of a stored mutation fails on a transition, the rule does not
    admit the event. -/
theorem appendPaperMutationEvent_error {sha : Sha256} {ledger : ExecutionLedger}
    (hledger : ledger.WellFormed sha) {storedIntent : StoredPaperMutationIntent}
    (hmem : storedIntent ∈ ledger.paperMutationIntents) {event : PaperMutationEvent}
    (h : appendPaperMutationEvent sha ledger storedIntent.mutationKey event =
      .error .invalidTransition) :
    requireMutationTransition (ledger.mutationEvents storedIntent.mutationKey) event ≠ .ok () := by
  intro hrule
  have hstored : (ledger.paperMutationIntents.any (·.mutationKey = storedIntent.mutationKey)) :=
    List.any_eq_true.2 ⟨storedIntent, hmem, by simp⟩
  simp only [appendPaperMutationEvent, bind_eq_error, hledger.readPaperMutationEvents] at h
  rcases h with h | ⟨-, -, h | ⟨-, -, h⟩⟩
  · cases requireMutationEvent_error h
  · exact (raiseIf_eq_error.1 h).1 hstored
  · split at h
    · rcases bind_eq_error.1 h with h | ⟨-, -, h⟩
      · cases (raiseIf_eq_error.1 h).2
      · exact pure_ne_error h
    · simp only [bind_eq_error, pure_ne_error, and_false, exists_false, or_false] at h
      rcases h with h | ⟨-, -, h | ⟨stored, hstored, h⟩⟩
      · cases (raiseIf_eq_error.1 h).2
      · cases h
      · cases hstored
        rw [show (ledger.paperMutationEvents.filter
          (·.mutationKey = storedIntent.mutationKey)).map (·.event) =
            ledger.mutationEvents storedIntent.mutationKey from rfl, hrule] at h
        cases h

/-- The visit of a mutation fails on a transition only if there is a verdict that is not
    admitted. -/
theorem recoverVisit_error {sha : Sha256} {snapshot : PaperMutationRecoverySnapshot}
    {ledger : ExecutionLedger} (hledger : ledger.WellFormed sha)
    {storedEvents : List StoredPaperMutationEvent}
    {storedIntent : StoredPaperMutationIntent} (hmem : storedIntent ∈ ledger.paperMutationIntents)
    (hevents : (storedEvents.filter (·.mutationKey = storedIntent.mutationKey)).map (·.event) =
      ledger.mutationEvents storedIntent.mutationKey)
    (hundecided : IsUndecidedWhileAttempted ledger snapshot) :
    recoverVisit sha snapshot storedEvents ledger.protectiveOcoPlans ledger storedIntent ≠
      .error .invalidTransition := by
  intro h
  obtain ⟨phase, hphase⟩ := hledger.exists_phase storedIntent.mutationKey
  unfold recoverVisit at h
  rw [hevents] at h
  dsimp only at h
  split at h
  · exact pure_ne_error h
  · rename_i last hlast
    by_cases hrecoverable : last.eventType ∈ recoverableTypes
    · rw [if_neg (not_not.2 hrecoverable)] at h
      obtain ⟨attempted, hopen⟩ := exists_attempted hphase hlast hrecoverable
      rw [hopen.attempted_eq] at h
      rcases bind_eq_error.1 h with h | ⟨-, -, h⟩
      · cases (raiseIf_eq_error.1 h).2
      · dsimp only at h
        split at h
        · rename_i event hevent
          rcases bind_eq_error.1 h with h | ⟨_, _, h⟩
          · rw [decidePaperMutationRecovery_mutationKey] at h
            obtain ⟨hattempt, htype⟩ := recoveryEvent_cases hevent
            -- The verdict is not on an attempt without an outcome, so the rule admits it.
            have hambiguous : last.eventType = .ambiguous := by
              rcases (phase_of_recoverable hphase hlast hrecoverable).2 with ⟨hlast', -⟩ | ⟨hlast', -⟩
              · have hnone := hundecided storedIntent hmem last attempted hopen hlast'
                rw [← recoveryEvent_eq_none sha snapshot last.attemptNumber, recoveryVerdict,
                  hevent] at hnone
                cases hnone
              · exact hlast'
            exact appendPaperMutationEvent_error hledger hmem h
              ((recoveryEvent_admitted_iff hphase hlast hrecoverable hattempt htype).2 hambiguous)
          · exact pure_ne_error h
        · exact pure_ne_error h
    · rw [if_pos hrecoverable] at h
      exact pure_ne_error h

/-- The visit of a mutation leaves no verdict on an attempt without an outcome. -/
theorem IsUndecidedWhileAttempted.visit {sha : Sha256} {snapshot : PaperMutationRecoverySnapshot}
    {storedEvents : List StoredPaperMutationEvent}
    {protectivePlans : List StoredProtectiveOcoPlan} {ledger ledger' : ExecutionLedger}
    {storedIntent : StoredPaperMutationIntent} {result : Option PaperMutationRecoveryResult}
    (hundecided : IsUndecidedWhileAttempted ledger snapshot)
    (h : recoverVisit sha snapshot storedEvents protectivePlans ledger storedIntent =
      .ok (ledger', result)) : IsUndecidedWhileAttempted ledger' snapshot := by
  rcases recoverVisit_cases h with rfl | ⟨event, inserted, htype, happend⟩
  · exact hundecided
  · obtain ⟨-, ⟨-, rfl, -⟩ | ⟨-, -, rfl⟩⟩ := appendPaperMutationEvent_cases happend
    · exact hundecided
    · intro other hmem last attempted hopen hlast
      rw [ExecutionLedger.mutationEvents_addMutationEvent] at hopen
      by_cases hkey : storedIntent.mutationKey = other.mutationKey
      · -- The last event of the mutation is now the verdict.
        rw [if_pos hkey] at hopen
        have heq : event = last := by simpa using hopen.getLast?_eq
        rcases htype with htype | htype <;> rw [heq, hlast] at htype <;> cases htype
      · rw [if_neg hkey, List.append_nil] at hopen
        exact hundecided other hmem last attempted hopen hlast

/-- The visits of different mutations fail on no transition if there is no verdict on an attempt
    without an outcome. -/
theorem recoverVisits_error {sha : Sha256} {snapshot : PaperMutationRecoverySnapshot}
    {storedEvents : List StoredPaperMutationEvent} {pending : List StoredPaperMutationIntent}
    {ledger : ExecutionLedger} (hledger : ledger.WellFormed sha)
    (hmem : ∀ storedIntent ∈ pending, storedIntent ∈ ledger.paperMutationIntents)
    (hnodup : (pending.map (·.mutationKey)).Nodup)
    (hevents : ∀ storedIntent ∈ pending,
      (storedEvents.filter (·.mutationKey = storedIntent.mutationKey)).map (·.event) =
        ledger.mutationEvents storedIntent.mutationKey)
    (hundecided : IsUndecidedWhileAttempted ledger snapshot) :
    (recoverVisits sha snapshot storedEvents ledger.protectiveOcoPlans pending ledger).2 ≠
      .error .invalidTransition := by
  induction pending generalizing ledger with
  | nil => nofun
  | cons storedIntent pending ih =>
    simp only [List.forall_mem_cons, List.map_cons, List.nodup_cons] at hmem hnodup hevents
    have hvisit := recoverVisit_error hledger hmem.1 hevents.1 hundecided
    unfold recoverVisits
    split
    · rename_i e he
      rintro ⟨⟩
      exact hvisit he
    · rename_i ledger' result hok
      have hundecided' := hundecided.visit hok
      -- The visit changes the events of the mutation visited only.
      obtain ⟨hledger', hintents, hplans, hother⟩ : ledger'.WellFormed sha ∧
          ledger'.paperMutationIntents = ledger.paperMutationIntents ∧
          ledger'.protectiveOcoPlans = ledger.protectiveOcoPlans ∧
          ∀ key ≠ storedIntent.mutationKey,
            ledger'.mutationEvents key = ledger.mutationEvents key := by
        rcases recoverVisit_cases hok with rfl | ⟨event, inserted, -, happend⟩
        · exact ⟨hledger, rfl, rfl, fun _ _ => rfl⟩
        · refine ⟨hledger.appendPaperMutationEvent happend, ?_⟩
          obtain ⟨-, ⟨-, rfl, -⟩ | ⟨-, -, rfl⟩⟩ := appendPaperMutationEvent_cases happend
          · exact ⟨rfl, rfl, fun _ _ => rfl⟩
          · refine ⟨rfl, rfl, fun key hkey => ?_⟩
            rw [ExecutionLedger.mutationEvents_addMutationEvent, if_neg hkey.symm, List.append_nil]
      have hrest := ih hledger' (fun other hother => hintents ▸ hmem.2 other hother) hnodup.2
        (fun other hmem' => (hevents.2 other hmem').trans
          (hother _ fun hkey => hnodup.1 (hkey ▸ List.mem_map_of_mem hmem')).symm) hundecided'
      rw [hplans] at hrest
      dsimp only
      intro herror
      cases hresults : (recoverVisits sha snapshot storedEvents ledger.protectiveOcoPlans pending
        ledger').2 with
      | ok results => rw [hresults] at herror; cases herror
      | error e =>
        rw [hresults] at herror
        exact hrest (hresults.trans herror)

/-- The verdicts of a pass can be recorded exactly if there is none on an attempt without an
    outcome. -/
theorem recoveryIsRecordable_iff {sha : Sha256} {ledger : ExecutionLedger}
    (hledger : ledger.WellFormed sha) {snapshot : PaperMutationRecoverySnapshot}
    (hsnapshot : requireCurrentEpochSnapshot snapshot = .ok ()) :
    RecoveryIsRecordable sha ledger snapshot ↔ IsUndecidedWhileAttempted ledger snapshot := by
  constructor
  · rintro ⟨-, hadmitted⟩ storedIntent hmem last attempted hopen hlast
    obtain ⟨phase, hphase⟩ := hledger.exists_phase storedIntent.mutationKey
    rw [← recoveryEvent_eq_none sha snapshot last.attemptNumber]
    refine Option.eq_none_iff_forall_not_mem.2 fun event hevent => ?_
    obtain ⟨hattempt, htype⟩ := recoveryEvent_cases hevent
    have hambiguous := (recoveryEvent_admitted_iff hphase hopen.getLast?_eq hopen.recoverable
      hattempt htype).1 (hadmitted storedIntent hmem last attempted event hopen hevent)
    rw [hlast] at hambiguous
    cases hambiguous
  · intro hundecided
    refine ⟨?_, fun storedIntent hmem last attempted event hopen hevent => ?_⟩
    · rw [recover, hsnapshot, hledger.readPaperMutationEvents, hledger.readPaperMutationIntents]
      exact recoverVisits_error hledger (fun _ h => h) hledger.nodup (fun _ _ => rfl) hundecided
    · obtain ⟨phase, hphase⟩ := hledger.exists_phase storedIntent.mutationKey
      obtain ⟨hattempt, htype⟩ := recoveryEvent_cases hevent
      refine (recoveryEvent_admitted_iff hphase hopen.getLast?_eq hopen.recoverable
        hattempt htype).2 ?_
      have hkind := hopen.recoverable
      simp only [recoverableTypes, List.mem_cons, List.not_mem_nil, or_false] at hkind
      rcases hkind with hlast | hlast
      · have hnone := hundecided storedIntent hmem last attempted hopen hlast
        rw [← recoveryEvent_eq_none sha snapshot last.attemptNumber, hevent] at hnone
        cases hnone
      · exact hlast

end TradingAgent
