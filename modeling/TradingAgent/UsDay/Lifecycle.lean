import TradingAgent.Recommendation.Store
import TradingAgent.UsDay.Chain

/-!
# The lifecycle of a thesis

What the user is told of a thesis (`deriveUsDayLifecycle`): its status follows from the events that
are kept of it on paper, and is told again only when it changes. A history is refused if its times
decrease, if it does not start with the setup, or if a status does not lead to the next one.
-/

namespace TradingAgent.UsDay

open Except

inductive UsDayLifecycleStatus
  | investigating
  | armed
  | active
  | rejected
  | stopped
  | targeted
  | censored
  deriving DecidableEq, Repr

structure UsDayLifecycleEvent where
  thesisId : String
  status : UsDayLifecycleStatus
  occurredAt : DateTime
  sourceRef : String
  reason : String
  deriving DecidableEq, Repr

/-- What the calls raise for a history that is refused. -/
inductive UsDayLifecycleError
  | invalid
  deriving DecidableEq, Repr

def initialStatus : DayTradeDecision → UsDayLifecycleStatus
  | .watch => .investigating
  | .recommend => .armed
  | .noTrade | .insufficientEvidence => .rejected

def paperStatus : RecommendationState → UsDayLifecycleStatus
  | .setup => .armed
  | .active | .target1r => .active
  | .invalidated => .rejected
  | .stopped => .stopped
  | .target2r => .targeted
  | .causalityExcluded | .timeExit => .censored

def stateValue : RecommendationState → String
  | .setup => "setup"
  | .active => "active"
  | .invalidated => "invalidated"
  | .causalityExcluded => "causality_excluded"
  | .stopped => "stopped"
  | .target1r => "target_1r"
  | .target2r => "target_2r"
  | .timeExit => "time_exit"

/-- The digest of an event, whose price stands for the text of it. -/
def paperEventRef (sha : Sha256) (event : RecommendationEvent) : String :=
  "paper-event:" ++ sha.hexdigest [.str event.recommendationId, .time event.occurredAt,
    .str (stateValue event.state), .ofOption (.decimal <| .finite ·) event.price, .str event.note]

/-- The statuses that a status may lead to. -/
def UsDayLifecycleStatus.next : UsDayLifecycleStatus → List UsDayLifecycleStatus
  | armed => [active, rejected, censored]
  | active => [stopped, targeted, censored]
  | investigating | rejected | stopped | targeted | censored => []

def legalStatuses : List UsDayLifecycleStatus → Bool
  | [] | [_] => true
  | prior :: current :: statuses => current ∈ prior.next ∧ legalStatuses (current :: statuses)

/-- What the loop over the events keeps: the time of the last event, the last status, and what has
    been told, without the first one. -/
structure LifecycleState where
  priorAt : DateTime
  status : UsDayLifecycleStatus
  told : List UsDayLifecycleEvent := []

def LifecycleState.step (sha : Sha256) (thesisId : String) (s : LifecycleState)
    (event : RecommendationEvent) : Except UsDayLifecycleError LifecycleState := do
  raiseIf (event.recommendationId ≠ thesisId ∨ event.occurredAt.aware = false ∨
    event.occurredAt < s.priorAt) .invalid
  let status := paperStatus event.state
  if status = s.status then return { s with priorAt := event.occurredAt }
  else
    return {
      priorAt := event.occurredAt
      status
      told := s.told ++
        [⟨thesisId, status, event.occurredAt, paperEventRef sha event, event.note⟩] }

/-- What is told of a thesis before there are events. -/
def firstTold (thesis : UsDayTradeThesis) : UsDayLifecycleEvent where
  thesisId := thesis.thesisId
  status := initialStatus thesis.decision
  occurredAt := .utc thesis.observedAt
  sourceRef := "thesis:" ++ thesis.thesisId
  reason := thesis.reasonCode.getD thesis.invalidationRule

def deriveUsDayLifecycle (sha : Sha256) (thesis : UsDayTradeThesis)
    (paperEvents : List RecommendationEvent) :
    Except UsDayLifecycleError (List UsDayLifecycleEvent) := do
  raiseIf (thesis.validateThesis sha = false) .invalid
  let initial := initialStatus thesis.decision
  let s ← paperEvents.foldlM (LifecycleState.step sha thesis.thesisId)
    { priorAt := .utc thesis.observedAt, status := initial }
  raiseIf (initial ≠ .armed ∧ paperEvents ≠ []) .invalid
  raiseIf (paperEvents.head?.any (·.state ≠ .setup)) .invalid
  let lifecycle := firstTold thesis :: s.told
  raiseIf (legalStatuses (lifecycle.map (·.status)) = false) .invalid
  return lifecycle

/-! ## Histories that go through -/

variable {sha : Sha256} {thesis : UsDayTradeThesis} {event setup : RecommendationEvent}
  {events : List RecommendationEvent}

/-- The statuses that are told for some events, one after another. -/
def toldStatuses : UsDayLifecycleStatus → List RecommendationEvent → List UsDayLifecycleStatus
  | _, [] => []
  | last, event :: events =>
    if paperStatus event.state = last then toldStatuses last events
    else paperStatus event.state :: toldStatuses (paperStatus event.state) events

/-- Events of a thesis, at times that do not decrease, are told one after another. -/
theorem foldlM_step_eq_ok {s : LifecycleState}
    (hid : ∀ e ∈ events, e.recommendationId = thesis.thesisId)
    (haware : ∀ e ∈ events, e.occurredAt.aware = true)
    (htimes : events.IsChain fun e f => e.occurredAt ≤ f.occurredAt)
    (hfirst : ∀ e, events.head? = some e → s.priorAt ≤ e.occurredAt) :
    ∃ t, events.foldlM (LifecycleState.step sha thesis.thesisId) s = .ok t ∧
      t.told.map (·.status) = s.told.map (·.status) ++ toldStatuses s.status events := by
  induction events generalizing s with
  | nil => exact ⟨s, rfl, (List.append_nil _).symm⟩
  | cons event events ih =>
    rw [List.forall_mem_cons] at hid haware
    have hchecked : raiseIf (event.recommendationId ≠ thesis.thesisId ∨
        event.occurredAt.aware = false ∨ event.occurredAt < s.priorAt)
        UsDayLifecycleError.invalid = .ok () := by
      refine raiseIf_eq_ok.2 (not_or.2 ⟨not_not.2 hid.1, not_or.2 ⟨?_, ?_⟩⟩)
      · rw [haware.1]
        nofun
      · exact DateTime.not_lt.2 (hfirst event rfl)
    have hnext : ∀ e, events.head? = some e → event.occurredAt ≤ e.occurredAt := by
      intro e he
      cases events with
      | nil => cases he
      | cons f events =>
        cases he
        exact (List.isChain_cons_cons.1 htimes).1
    rw [List.foldlM_cons, LifecycleState.step, hchecked, ok_bind, toldStatuses]
    by_cases hsame : paperStatus event.state = s.status
    · rw [if_pos hsame, if_pos hsame]
      exact ih hid.2 haware.2 htimes.of_cons hnext
    · rw [if_neg hsame, if_neg hsame]
      obtain ⟨t, ht, hstatuses⟩ := ih (s := ⟨event.occurredAt, paperStatus event.state, s.told ++
        [⟨thesis.thesisId, paperStatus event.state, event.occurredAt, paperEventRef sha event,
          event.note⟩]⟩) hid.2 haware.2 htimes.of_cons hnext
      refine ⟨t, ht, ?_⟩
      rw [hstatuses, List.map_append, List.append_assoc]
      rfl

/-- The history of a recommended trade is accepted if it starts with the setup and its statuses
    lead to one another, and those are what is told. -/
theorem deriveUsDayLifecycle_eq_ok (hvalid : thesis.validateThesis sha = true)
    (hdecision : thesis.decision = .recommend) (hsetup : setup.state = .setup)
    (hid : ∀ e ∈ setup :: events, e.recommendationId = thesis.thesisId)
    (haware : ∀ e ∈ setup :: events, e.occurredAt.aware = true)
    (htimes : (setup :: events).IsChain fun e f => e.occurredAt ≤ f.occurredAt)
    (hfirst : DateTime.utc thesis.observedAt ≤ setup.occurredAt)
    (hlegal : legalStatuses (.armed :: toldStatuses .armed events) = true) :
    ∃ lifecycle, deriveUsDayLifecycle sha thesis (setup :: events) = .ok lifecycle ∧
      lifecycle.map (·.status) = .armed :: toldStatuses .armed events := by
  obtain ⟨t, ht, hstatuses⟩ := @foldlM_step_eq_ok sha thesis _
    ⟨.utc thesis.observedAt, .armed, []⟩ hid haware htimes (fun e he => by
      cases he
      exact hfirst)
  have htold : t.told.map (·.status) = toldStatuses .armed events := by
    rw [hstatuses, toldStatuses, hsetup]
    exact List.nil_append _
  have hinitial : initialStatus thesis.decision = .armed := by rw [hdecision]; rfl
  have hlifecycle : (firstTold thesis :: t.told).map (·.status) =
      .armed :: toldStatuses .armed events := by
    rw [List.map_cons, htold, firstTold, hinitial]
  refine ⟨_, bind_eq_ok.2 ⟨(), raiseIf_eq_ok.2 (by rw [hvalid]; nofun), ?_⟩, hlifecycle⟩
  rw [hinitial]
  refine bind_eq_ok.2 ⟨t, ht, bind_eq_ok.2 ⟨(), raiseIf_eq_ok.2 ?_, bind_eq_ok.2
    ⟨(), raiseIf_eq_ok.2 ?_, bind_eq_ok.2 ⟨(), raiseIf_eq_ok.2 ?_, rfl⟩⟩⟩⟩
  · exact fun hbad => hbad.1 rfl
  · simp [hsetup]
  · rw [hlifecycle, hlegal]
    nofun

end TradingAgent.UsDay
