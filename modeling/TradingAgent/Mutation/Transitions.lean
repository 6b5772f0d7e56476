import TradingAgent.Mutation.Models
import Mathlib.Data.List.Induction

/-!
# Transitions of a mutation

The events of a mutation are appended under the rule `requireMutationTransition`, which looks at
the events recorded so far. What the rule amounts to is an automaton on the events
(`MutationPhase.next`), whose state is the phase of the mutation:

* the attempts made are numbered from 1, and all but the last one were found to have had no
  effect: each of them has exactly the events `attempted`, `ambiguous` and `recoveredAbsent`;
* the last one is in one of the phases of `MutationPhase`.

A history is a list of events which the automaton accepts (`mutationPhase`). The events that the
rule admits after a history are those that the automaton accepts in its phase
(`requireMutationTransition_iff`), so that a ledger which starts empty, and is appended to under
the rule, holds histories only.
-/

namespace TradingAgent

/-! ## The rule -/

/-- The events of one attempt. -/
def sameAttempt (existing : List PaperMutationEvent) (attemptNumber : ℕ) :
    List PaperMutationEvent :=
  existing.filter (·.attemptNumber = attemptNumber)

/-- The number of the latest attempt, or 0 if there is none. -/
def latestAttempt (existing : List PaperMutationEvent) : ℕ :=
  (existing.map (·.attemptNumber)).foldr max 0

def requireNewAttempt (existing same : List PaperMutationEvent) (attemptNumber : ℕ) :
    Except PaperMutationError Unit :=
  if same ≠ [] then .error .invalidTransition
  else if attemptNumber ≠ latestAttempt existing + 1 then .error .invalidTransition
  else if latestAttempt existing = 0 then .ok ()
  else if ¬ (sameAttempt existing (latestAttempt existing)).any (·.eventType = .recoveredAbsent) then
    .error .invalidTransition
  else .ok ()

/-- The rule under which an event is appended to those of a mutation. -/
def requireMutationTransition (existing : List PaperMutationEvent)
    (candidate : PaperMutationEvent) : Except PaperMutationError Unit :=
  let same := sameAttempt existing candidate.attemptNumber
  if candidate.eventType = .attempted then
    requireNewAttempt existing same candidate.attemptNumber
  else if ¬ same.any (·.eventType = .attempted) then .error .invalidTransition
  else if candidate.eventType ∈ [.acknowledged, .rejected, .ambiguous] then
    if same.any (·.eventType ≠ .attempted) then .error .invalidTransition else .ok ()
  else if ¬ same.any (·.eventType = .ambiguous)
      ∨ same.any (·.eventType ∈ [.recoveredAcknowledged, .recoveredAbsent]) then
    .error .invalidTransition
  else .ok ()

/-! ## The automaton -/

/-- What is recorded of the attempt after those that had no effect. -/
inductive LastAttempt
  | none
  | attempted
  | ambiguous
  | acknowledged
  | rejected
  | recoveredAcknowledged
  deriving DecidableEq, Repr

namespace LastAttempt

/-- The types of its events, in order. -/
def types : LastAttempt → List PaperMutationEventType
  | none => []
  | attempted => [.attempted]
  | ambiguous => [.attempted, .ambiguous]
  | acknowledged => [.attempted, .acknowledged]
  | rejected => [.attempted, .rejected]
  | recoveredAcknowledged => [.attempted, .ambiguous, .recoveredAcknowledged]

/-- Whether it is known what became of the mutation. -/
def isSettled : LastAttempt → Bool
  | none | attempted | ambiguous => false
  | acknowledged | rejected | recoveredAcknowledged => true

end LastAttempt

/-- The phase of a mutation: the number of attempts that had no effect, and the one after. -/
structure MutationPhase where
  absent : ℕ
  last : LastAttempt
  deriving DecidableEq, Repr

namespace MutationPhase

/-- The phase of a mutation with no events. -/
def initial : MutationPhase := ⟨0, .none⟩

/-- The number of the latest attempt, or 0 if there is none. -/
def current (phase : MutationPhase) : ℕ :=
  if phase.last = .none then phase.absent else phase.absent + 1

/-- The phase after an event of the next attempt. -/
def advance (phase : MutationPhase) (type : PaperMutationEventType) : Option MutationPhase :=
  match phase.last, type with
  | .none, .attempted => some { phase with last := .attempted }
  | .attempted, .acknowledged => some { phase with last := .acknowledged }
  | .attempted, .rejected => some { phase with last := .rejected }
  | .attempted, .ambiguous => some { phase with last := .ambiguous }
  | .ambiguous, .recoveredAcknowledged => some { phase with last := .recoveredAcknowledged }
  | .ambiguous, .recoveredAbsent => some ⟨phase.absent + 1, .none⟩
  | _, _ => none

/-- The phase after an event, if the event may occur in this phase. -/
def next (phase : MutationPhase) (event : PaperMutationEvent) : Option MutationPhase :=
  if event.attemptNumber = phase.absent + 1 then phase.advance event.eventType else none

/-- The types of the events of an attempt that had no effect. -/
def absentTypes : List PaperMutationEventType := [.attempted, .ambiguous, .recoveredAbsent]

/-- The types of the events of attempt `k`, in order. -/
def types (phase : MutationPhase) (k : ℕ) : List PaperMutationEventType :=
  if k = 0 ∨ phase.absent + 1 < k then []
  else if k = phase.absent + 1 then phase.last.types
  else absentTypes

/-- What an event requires and does. -/
theorem next_cases {phase phase' : MutationPhase} {event : PaperMutationEvent}
    (h : phase.next event = some phase') : event.attemptNumber = phase.absent + 1 ∧
      ((∃ last, phase' = { phase with last := last } ∧
        last.types = phase.last.types ++ [event.eventType]) ∨
      (event.eventType = .recoveredAbsent ∧ phase.last = .ambiguous ∧
        phase' = ⟨phase.absent + 1, .none⟩)) := by
  unfold next at h
  split at h
  · rename_i hattempt
    refine ⟨hattempt, ?_⟩
    unfold advance at h
    split at h <;> cases h <;> simp_all [LastAttempt.types]
  · cases h

/-- An event adds its type to those of its attempt. -/
theorem types_next {phase phase' : MutationPhase} {event : PaperMutationEvent}
    (h : phase.next event = some phase') (k : ℕ) :
    phase'.types k = phase.types k ++ if event.attemptNumber = k then [event.eventType] else [] := by
  obtain ⟨hattempt, ⟨last, rfl, hlast⟩ | ⟨htype, hlast, rfl⟩⟩ := next_cases h
  · rcases lt_trichotomy k (phase.absent + 1) with hk | rfl | hk
    · simp [types, hattempt, hk.ne, hk.ne']
    · simp [types, hattempt, hlast]
    · simp [types, hattempt, hk, hk.ne]
  · -- The attempt had no effect: it joins those before it.
    rw [hattempt, htype]
    rcases lt_trichotomy k (phase.absent + 1) with hk | rfl | hk
    · simp only [types, hk.ne', if_false, List.append_nil]
      split_ifs <;> first | rfl | omega
    · simp [types, hlast, LastAttempt.types, absentTypes]
    · simp only [types, LastAttempt.types, hk.ne, if_false, List.append_nil]
      split_ifs <;> first | rfl | omega

/-- The number of the latest attempt is at most that of the event which may occur next. -/
theorem current_next {phase phase' : MutationPhase} {event : PaperMutationEvent}
    (h : phase.next event = some phase') :
    phase'.current = max event.attemptNumber phase.current := by
  obtain ⟨hattempt, ⟨last, rfl, hlast⟩ | ⟨-, hlast, rfl⟩⟩ := next_cases h
  · have hne : last ≠ .none := by rintro rfl; simp [LastAttempt.types] at hlast
    simp only [current, hne, if_false, hattempt]
    split_ifs <;> omega
  · simp [current, hlast, hattempt]

end MutationPhase

/-- The phase of a mutation after its events, if they are a history. -/
def mutationPhase (events : List PaperMutationEvent) : Option MutationPhase :=
  events.foldlM MutationPhase.next .initial

@[simp] theorem mutationPhase_nil : mutationPhase [] = some .initial := rfl

theorem mutationPhase_concat (events : List PaperMutationEvent) (event : PaperMutationEvent) :
    mutationPhase (events ++ [event]) = (mutationPhase events).bind (·.next event) := by
  simp [mutationPhase, List.foldlM_append]

/-- The types of the events of an attempt of a history. -/
theorem map_eventType_sameAttempt {events : List PaperMutationEvent} {phase : MutationPhase}
    (h : mutationPhase events = some phase) (k : ℕ) :
    (sameAttempt events k).map (·.eventType) = phase.types k := by
  induction events using List.reverseRecOn generalizing phase with
  | nil =>
    obtain rfl : MutationPhase.initial = phase := by simpa using h
    simp [sameAttempt, MutationPhase.types, MutationPhase.initial, LastAttempt.types]
    omega
  | append_singleton events event ih =>
    rw [mutationPhase_concat, Option.bind_eq_some_iff] at h
    obtain ⟨before, hbefore, hnext⟩ := h
    rw [MutationPhase.types_next hnext, ← ih hbefore, sameAttempt, List.filter_append,
      List.map_append, List.filter_singleton]
    by_cases hk : event.attemptNumber = k <;> simp [sameAttempt, hk]

/-- The number of the latest attempt of a history. -/
theorem latestAttempt_eq {events : List PaperMutationEvent} {phase : MutationPhase}
    (h : mutationPhase events = some phase) : latestAttempt events = phase.current := by
  induction events using List.reverseRecOn generalizing phase with
  | nil =>
    obtain rfl : MutationPhase.initial = phase := by simpa using h
    rfl
  | append_singleton events event ih =>
    rw [mutationPhase_concat, Option.bind_eq_some_iff] at h
    obtain ⟨before, hbefore, hnext⟩ := h
    rw [MutationPhase.current_next hnext, ← ih hbefore, latestAttempt, latestAttempt,
      List.map_append, List.foldr_append]
    induction events.map (·.attemptNumber) <;> simp_all [Nat.max_left_comm]

namespace MutationPhase

/-- The type of the last event. -/
def lastType (phase : MutationPhase) : Option PaperMutationEventType :=
  if phase.last = .none then if phase.absent = 0 then none else some .recoveredAbsent
  else phase.last.types.getLast?

end MutationPhase

/-- The last event of a history is of the latest attempt, and of the type that the phase says. -/
theorem getLast?_eq {events : List PaperMutationEvent} {phase : MutationPhase}
    (h : mutationPhase events = some phase) :
    events.getLast?.map (·.eventType) = phase.lastType ∧
      ∀ last, events.getLast? = some last → last.attemptNumber = phase.current := by
  induction events using List.reverseRecOn with
  | nil =>
    obtain rfl : MutationPhase.initial = phase := by simpa using h
    exact ⟨rfl, by simp⟩
  | append_singleton events event _ =>
    rw [mutationPhase_concat, Option.bind_eq_some_iff] at h
    obtain ⟨before, -, hnext⟩ := h
    rw [List.getLast?_append, List.getLast?_singleton]
    obtain ⟨hattempt, ⟨last, rfl, hlast⟩ | ⟨htype, -, rfl⟩⟩ := MutationPhase.next_cases hnext
    · have hne : last ≠ .none := by rintro rfl; simp [LastAttempt.types] at hlast
      simp [MutationPhase.lastType, MutationPhase.current, hne, hlast, hattempt]
    · simp [MutationPhase.lastType, MutationPhase.current, htype, hattempt]

/-- What holds of the type of some event of an attempt of a history. -/
theorem any_sameAttempt {events : List PaperMutationEvent} {phase : MutationPhase}
    (h : mutationPhase events = some phase) (k : ℕ) (p : PaperMutationEventType → Bool) :
    (sameAttempt events k).any (fun event => p event.eventType) = (phase.types k).any p := by
  rw [← map_eventType_sameAttempt h, List.any_map]
  rfl

/-- Under the rule, exactly those events are admitted that may occur in the phase reached. -/
theorem requireMutationTransition_iff {events : List PaperMutationEvent} {phase : MutationPhase}
    (h : mutationPhase events = some phase) (event : PaperMutationEvent) :
    requireMutationTransition events event = .ok () ↔ (phase.next event).isSome := by
  have hnil (k : ℕ) : sameAttempt events k = [] ↔ phase.types k = [] := by
    rw [← map_eventType_sameAttempt h, List.map_eq_nil_iff]
  have hattempted (k : ℕ) := any_sameAttempt h k (· = .attempted)
  have hother (k : ℕ) := any_sameAttempt h k (· ≠ .attempted)
  have hambiguous (k : ℕ) := any_sameAttempt h k (· = .ambiguous)
  have habsent (k : ℕ) := any_sameAttempt h k (· = .recoveredAbsent)
  have hrecovered (k : ℕ) := any_sameAttempt h k (· ∈ [.recoveredAcknowledged, .recoveredAbsent])
  simp only [requireMutationTransition, requireNewAttempt, latestAttempt_eq h, ne_eq, hnil,
    hattempted, hother, hambiguous, habsent, hrecovered]
  clear hnil hattempted hother hambiguous habsent hrecovered h
  obtain ⟨absent, last⟩ := phase
  by_cases hattempt : event.attemptNumber = absent + 1
  · -- The event is one of the last attempt, or the first one of the next attempt.
    have htypes : (⟨absent, last⟩ : MutationPhase).types (absent + 1) = last.types := by
      simp [MutationPhase.types]
    have hprev : (⟨absent, .none⟩ : MutationPhase).types absent =
        if absent = 0 then [] else MutationPhase.absentTypes := by
      simp only [MutationPhase.types]
      split_ifs <;> first | rfl | omega
    cases last <;> cases htype : event.eventType <;>
      simp [MutationPhase.next, MutationPhase.advance, htype, htypes, hattempt,
        MutationPhase.current, LastAttempt.types, hprev]
    exact fun h => ⟨h, by simp [MutationPhase.absentTypes]⟩
  · have hnext : (⟨absent, last⟩ : MutationPhase).next event = none := if_neg hattempt
    simp only [hnext, Option.isSome_none, Bool.false_eq_true, iff_false]
    by_cases hle : event.attemptNumber ≤ absent ∧ event.attemptNumber ≠ 0
    · -- The attempt had no effect, and has all the events that it can have.
      have htypes : (⟨absent, last⟩ : MutationPhase).types event.attemptNumber =
          MutationPhase.absentTypes := by
        simp only [MutationPhase.types]
        split_ifs <;> first | rfl | omega
      cases htype : event.eventType <;> simp [htypes, MutationPhase.absentTypes]
    · -- There is no such attempt, and it is not the next one unless the last one is open.
      have htypes : (⟨absent, last⟩ : MutationPhase).types event.attemptNumber = [] := by
        simp only [MutationPhase.types]
        split_ifs <;> first | rfl | omega
      have hopen : last ≠ .none →
          (⟨absent, last⟩ : MutationPhase).types (absent + 1) = last.types := by
        simp [MutationPhase.types]
      cases htype : event.eventType <;> simp [htypes, MutationPhase.current]
      cases last <;> simp_all [LastAttempt.types]

end TradingAgent
