import Mathlib.Data.List.Chain
import TradingAgent.Recommendation.Calls
import TradingAgent.UsDay.Recovery

/-!
# What is told of the histories of the engine

The statuses that are told simulate the states of a recommendation (`paperStatus_of_next`): a state
that follows another one is told as the same status, or as one to which it may lead. So what the
engine records of a recommendation, in regular calls, is told of its thesis, event by event
(`deriveUsDayLifecycle_covers`).

* What is told of some events begins with what is told of the first of them.
* No status is told twice, as each one has a greater rank than the one before it, and a status that
  leads nowhere is told last.
-/

namespace TradingAgent.UsDay

open Except Transition

def statusValue : UsDayLifecycleStatus → String
  | .investigating => "INVESTIGATING"
  | .armed => "ARMED"
  | .active => "ACTIVE"
  | .rejected => "REJECTED"
  | .stopped => "STOPPED"
  | .targeted => "TARGETED"
  | .censored => "CENSORED"

def UsDayLifecycleEvent.transitionId (event : UsDayLifecycleEvent) : String :=
  event.thesisId ++ ":" ++ statusValue event.status

/-- Whether a status leads to no other one. -/
def UsDayLifecycleStatus.isTerminal (status : UsDayLifecycleStatus) : Bool := status.next.isEmpty

/-- How far a thesis has come. -/
def UsDayLifecycleStatus.rank : UsDayLifecycleStatus → ℕ
  | investigating | armed => 0
  | active => 1
  | rejected | stopped | targeted | censored => 2

/-! ## Statuses that lead to one another -/

section

variable {statuses : List UsDayLifecycleStatus} {s t : UsDayLifecycleStatus}

theorem rank_lt_of_next (h : t ∈ s.next) : s.rank < t.rank := by
  cases s <;> cases t <;> simp_all [UsDayLifecycleStatus.next, UsDayLifecycleStatus.rank]

theorem statusValue_injective : Function.Injective statusValue := by
  intro s t h
  cases s <;> cases t <;> first | rfl | exact absurd h (by decide)

theorem legalStatuses_iff :
    legalStatuses statuses = true ↔ statuses.IsChain fun s t => t ∈ s.next := by
  induction statuses with
  | nil => simp [legalStatuses]
  | cons s statuses ih =>
    cases statuses with
    | nil => simp [legalStatuses]
    | cons t statuses => simp [legalStatuses, ih, List.isChain_cons_cons]

theorem nodup_of_legalStatuses (h : legalStatuses statuses = true) : statuses.Nodup := by
  have hranks : statuses.IsChain fun s t => s.rank < t.rank :=
    (legalStatuses_iff.1 h).imp fun _ _ => rank_lt_of_next
  have : IsTrans UsDayLifecycleStatus fun s t => s.rank < t.rank :=
    ⟨fun _ _ _ => Nat.lt_trans⟩
  refine (List.isChain_iff_pairwise.1 hranks).imp ?_
  rintro s _ hlt rfl
  exact Nat.lt_irrefl _ hlt

theorem eq_nil_of_isTerminal {before after : List UsDayLifecycleStatus}
    (h : legalStatuses (before ++ s :: after) = true) (hterminal : s.isTerminal = true) :
    after = [] := by
  have hchain := (List.isChain_append.1 (legalStatuses_iff.1 h)).2.1
  cases after with
  | nil => rfl
  | cons t after =>
    have hnext := (List.isChain_cons_cons.1 hchain).1
    rw [List.isEmpty_iff.1 hterminal] at hnext
    exact absurd hnext List.not_mem_nil

end

/-! ## What is told -/

section

variable {sha : Sha256} {thesis : UsDayTradeThesis} {events : List RecommendationEvent}
  {lifecycle : List UsDayLifecycleEvent}

/-- An event tells nothing or one more status of the thesis. -/
theorem told_step {thesisId : String} {s t : LifecycleState} {event : RecommendationEvent}
    (h : s.step sha thesisId event = .ok t) :
    ∃ new, t.told = s.told ++ new ∧ ∀ e ∈ new, e.thesisId = thesisId := by
  rw [LifecycleState.step] at h
  obtain ⟨-, -, h⟩ := bind_eq_ok.1 h
  dsimp only at h
  split_ifs at h
  · cases h
    exact ⟨[], (List.append_nil _).symm, List.forall_mem_nil _⟩
  · cases h
    exact ⟨_, rfl, List.forall_mem_singleton.2 rfl⟩

theorem told_foldlM {thesisId : String} {s t : LifecycleState}
    (h : events.foldlM (LifecycleState.step sha thesisId) s = .ok t) :
    ∃ new, t.told = s.told ++ new ∧ ∀ e ∈ new, e.thesisId = thesisId := by
  induction events generalizing s with
  | nil =>
    cases h
    exact ⟨[], (List.append_nil _).symm, List.forall_mem_nil _⟩
  | cons event events ih =>
    rw [List.foldlM_cons] at h
    obtain ⟨u, hstep, hrest⟩ := bind_eq_ok.1 h
    obtain ⟨one, hone, hown⟩ := told_step hstep
    obtain ⟨more, hmore, hown'⟩ := ih hrest
    exact ⟨one ++ more, by rw [hmore, hone, List.append_assoc],
      List.forall_mem_append.2 ⟨hown, hown'⟩⟩

/-- What is told is what the loop over the events has told, after the thesis itself. -/
theorem deriveUsDayLifecycle_cases (h : deriveUsDayLifecycle sha thesis events = .ok lifecycle) :
    ∃ t, events.foldlM (LifecycleState.step sha thesis.thesisId)
        ⟨.utc thesis.observedAt, initialStatus thesis.decision, []⟩ = .ok t ∧
      lifecycle = firstTold thesis :: t.told ∧
      legalStatuses (lifecycle.map (·.status)) = true := by
  rw [deriveUsDayLifecycle] at h
  obtain ⟨-, -, h⟩ := bind_eq_ok.1 h
  obtain ⟨t, ht, h⟩ := bind_eq_ok.1 h
  obtain ⟨-, -, h⟩ := bind_eq_ok.1 h
  obtain ⟨-, -, h⟩ := bind_eq_ok.1 h
  obtain ⟨_, hlegal, h⟩ := bind_eq_ok.1 h
  obtain rfl := Except.ok.inj h
  exact ⟨t, ht, rfl, by simpa using raiseIf_eq_ok.1 hlegal⟩

/-- A history that the loop over the events refuses is refused. -/
theorem deriveUsDayLifecycle_of_error
    (h : (events.foldlM (LifecycleState.step sha thesis.thesisId)
      ⟨.utc thesis.observedAt, initialStatus thesis.decision, []⟩).isOk = false) :
    deriveUsDayLifecycle sha thesis events = .error .invalid := by
  cases hlifecycle : deriveUsDayLifecycle sha thesis events with
  | error e => cases e; rfl
  | ok lifecycle =>
    obtain ⟨t, ht, -, -⟩ := deriveUsDayLifecycle_cases hlifecycle
    rw [ht] at h
    cases h

/-- What is told of more events begins with what is told of fewer of them. -/
theorem lifecycle_of_append {more : List RecommendationEvent} {lifecycle' : List UsDayLifecycleEvent}
    (h : deriveUsDayLifecycle sha thesis events = .ok lifecycle)
    (h' : deriveUsDayLifecycle sha thesis (events ++ more) = .ok lifecycle') :
    lifecycle <+: lifecycle' := by
  obtain ⟨s, hs, rfl, -⟩ := deriveUsDayLifecycle_cases h
  obtain ⟨t, ht, rfl, -⟩ := deriveUsDayLifecycle_cases h'
  rw [List.foldlM_append, hs, ok_bind] at ht
  obtain ⟨new, hnew, -⟩ := told_foldlM ht
  exact ⟨new, by rw [hnew, List.cons_append]⟩

/-- No transition is told twice. -/
theorem nodup_transitionIds (h : deriveUsDayLifecycle sha thesis events = .ok lifecycle) :
    (lifecycle.map (·.transitionId)).Nodup := by
  obtain ⟨t, ht, heq, hlegal⟩ := deriveUsDayLifecycle_cases h
  have hown : ∀ e ∈ lifecycle, e.thesisId = thesis.thesisId := by
    obtain ⟨new, hnew, hown⟩ := told_foldlM ht
    rw [heq, hnew]
    exact List.forall_mem_cons.2 ⟨rfl, hown⟩
  have hids : lifecycle.map (·.transitionId) =
      (lifecycle.map (·.status)).map fun s => thesis.thesisId ++ ":" ++ statusValue s := by
    rw [List.map_map]
    refine List.map_congr_left fun e he => ?_
    rw [Function.comp_apply, UsDayLifecycleEvent.transitionId, hown e he]
  rw [hids]
  refine (nodup_of_legalStatuses hlegal).map fun s t hst => statusValue_injective ?_
  exact String.append_right_inj _ |>.1 hst

end

/-! ## The simulation -/

section

variable {s t : RecommendationState} {r : Recommendation} {events : List RecommendationEvent}

/-- A state that follows another one is told as the same status, or as one to which that of the
    other one may lead. -/
theorem paperStatus_of_next (h : t ∈ s.next) :
    paperStatus t = paperStatus s ∨ paperStatus t ∈ (paperStatus s).next := by
  cases s <;> simp only [RecommendationState.next, List.mem_cons, List.not_mem_nil, or_false] at h
  all_goals rcases h with rfl | rfl | rfl | rfl <;> decide

/-- States that follow one another are told as statuses that lead to one another. -/
theorem legalStatuses_told (h : (s :: events.map (·.state)).IsChain fun s t => t ∈ s.next) :
    legalStatuses (paperStatus s :: toldStatuses (paperStatus s) events) = true := by
  induction events generalizing s with
  | nil => rfl
  | cons event events ih =>
    rw [List.map_cons, List.isChain_cons_cons] at h
    have hrest := ih h.2
    rw [toldStatuses]
    split_ifs with hsame
    · rwa [hsame] at hrest
    · have hnext := (paperStatus_of_next h.1).resolve_left hsame
      rw [legalStatuses_iff] at hrest ⊢
      exact List.isChain_cons_cons.2 ⟨hnext, hrest⟩

/-- The first events of a history are told. -/
theorem deriveUsDayLifecycle_of_isHistory {sha : Sha256} {thesis : UsDayTradeThesis}
    (h : IsHistory r events) (hvalid : thesis.validateThesis sha = true)
    (hdecision : thesis.decision = .recommend) (hid : r.recommendationId = thesis.thesisId)
    (hcreated : DateTime.utc thesis.observedAt ≤ r.createdAt)
    {earlier : List RecommendationEvent} (hearlier : earlier <+: events) :
    ∃ lifecycle, deriveUsDayLifecycle sha thesis earlier = .ok lifecycle := by
  cases earlier with
  | nil =>
    refine ⟨[firstTold thesis], ?_⟩
    simp only [deriveUsDayLifecycle, hvalid, hdecision]
    rfl
  | cons setup rest =>
    have hsetup : setup = creationEvent { r with state := .setup } := by
      obtain ⟨more, rfl⟩ := hearlier
      exact Option.some.inj h.created
    have hfollows : (setup :: rest).IsChain Follows := by
      obtain ⟨more, rfl⟩ := hearlier
      exact (List.isChain_append.1 h.follows).1
    have hstates : ((setup :: rest).map (·.state)).IsChain fun s t => t ∈ s.next :=
      (List.isChain_map (·.state)).2 (hfollows.imp fun _ _ hfollow => hfollow.1)
    have hlegal := legalStatuses_told hstates
    rw [hsetup] at hlegal
    obtain ⟨lifecycle, hlifecycle, -⟩ := deriveUsDayLifecycle_eq_ok hvalid hdecision
      (by rw [hsetup]; rfl) (fun e he => (h.ids e (hearlier.subset he)).trans hid)
      (fun e he => h.aware e (hearlier.subset he)) (hfollows.imp fun _ _ hfollow => hfollow.2)
      (by rw [hsetup]; exact hcreated) hlegal
    exact ⟨lifecycle, hlifecycle⟩

end

section

variable {σ κ : Type*} {env : Environment} {risk : RiskConfig} {observer : Observer σ κ}
  {engine : σ} {state : σ × PaperStore} {sha : Sha256} {thesis : UsDayTradeThesis}
  {r : Recommendation}

/-- In regular calls, the events of a recommendation for a thesis are told one after another: what
    is told of more events extends what is told of fewer of them, no transition is told twice, and
    nothing is told after a status that leads nowhere. -/
theorem deriveUsDayLifecycle_covers (hclocks : NewYorkClocks env)
    (h : (regularSystem env risk observer engine).Reachable state)
    (hr : r ∈ state.2.recommendations) (hvalid : thesis.validateThesis sha = true)
    (hdecision : thesis.decision = .recommend) (hid : r.recommendationId = thesis.thesisId)
    (hcreated : DateTime.utc thesis.observedAt ≤ r.createdAt) :
    ∀ later, later <+: state.2.eventsOf r.recommendationId → ∃ lifecycle,
      deriveUsDayLifecycle sha thesis later = .ok lifecycle ∧
      (∀ earlier, earlier <+: later →
        ∃ told, deriveUsDayLifecycle sha thesis earlier = .ok told ∧ told <+: lifecycle) ∧
      (lifecycle.map (·.status)).Nodup ∧ (lifecycle.map (·.transitionId)).Nodup ∧
      ∀ before event after, lifecycle = before ++ event :: after →
        event.status.isTerminal = true → after = [] := by
  have hhistory := isHistory_of_reachable hclocks h hr
  intro later hlater
  obtain ⟨lifecycle, hlifecycle⟩ :=
    deriveUsDayLifecycle_of_isHistory hhistory hvalid hdecision hid hcreated hlater
  have hlegal : legalStatuses (lifecycle.map (·.status)) = true := by
    obtain ⟨-, -, -, hlegal⟩ := deriveUsDayLifecycle_cases hlifecycle
    exact hlegal
  refine ⟨lifecycle, hlifecycle, fun earlier hearlier => ?_, nodup_of_legalStatuses hlegal,
    nodup_transitionIds hlifecycle, ?_⟩
  · obtain ⟨told, htold⟩ := deriveUsDayLifecycle_of_isHistory hhistory hvalid hdecision hid hcreated
      (hearlier.trans hlater)
    obtain ⟨more, rfl⟩ := hearlier
    exact ⟨told, htold, lifecycle_of_append htold hlifecycle⟩
  · rintro before event after rfl hterminal
    rw [List.map_append, List.map_cons] at hlegal
    exact List.map_eq_nil_iff.1 (eq_nil_of_isTerminal hlegal hterminal)

end

/-! ## Calls outside the regular session -/

namespace CoverageSample

open OperatingSample

/-- An observer that sees nothing. -/
def observer : Observer Unit Unit := ⟨fun s _ => (s, none), fun s _ _ => (s, none)⟩

/-- The recommendation for the thesis is saved. -/
def save (seconds : ℤ) : PaperCall := .save {
  recommendationId := thesis.thesisId
  symbol := "AAPL"
  strategy := "breakout"
  createdAt := clock seconds
  entry := 100
  stop := 99
  target1r := 101
  target2r := 102
  state := .setup
  rationale := "" }

def minuteBar (seconds : ℤ) (low high : ℚ) : BarInput where
  symbol := "AAPL"
  timestamp := clock seconds
  openPrice := low
  high
  low
  close := low
  volume := 1000
  priorClose := 98
  averageDailyVolume := 1000000
  spreadBps := 1

def advance (bars : List BarInput) : PaperCall := .event (.batch ⟨bars, .advance⟩)

def finalize (seconds : ℤ) : PaperCall := .event (.finalize (clock seconds))

/-- The store after some calls. -/
def after (calls : List PaperCall) : Unit × PaperStore :=
  calls.foldl (callStep environment.paper {} observer) ((), {})

/-- The trade is entered at 10:06, and finalized at the close. -/
def entryCalls : List PaperCall :=
  [save 320, advance [minuteBar 360 (199 / 2) (201 / 2)], finalize 22000]

/-- The recommendation is saved after the close. -/
def lateRecommendation : List PaperCall :=
  [advance [minuteBar 21540 99 99], save 21900, finalize 22000]

/-- The trade is entered after the close. -/
def lateBar : List PaperCall :=
  [save 320, advance [minuteBar 22000 (199 / 2) (201 / 2)], finalize 23000]

/-- The bar of 10:09 comes after the one of 10:10. -/
def disorderedBars : List PaperCall :=
  [save 320, advance [minuteBar 600 (199 / 2) (201 / 2), minuteBar 540 98 99]]

theorem isValid_thesis : thesis.validateThesis digest = true := by decide +kernel

theorem newYorkClocks : NewYorkClocks environment.paper where
  offset _ := ⟨(by decide : TimeDelta.hours (-5) ≤ TimeDelta.hours (-4)), le_rfl⟩
  regular _ _ _ _ := rfl

theorem reachable_entryCalls :
    (regularSystem environment.paper {} observer ()).Reachable (after entryCalls) := by
  have hbatch : BatchIsRegular environment.paper {} observer (after [save 320])
      ⟨[minuteBar 360 (199 / 2) (201 / 2)], .advance⟩ := by
    refine ⟨?_, ?_, ?_, ?_, fun _ _ signal hsignal => ?_, ?_⟩
    · decide +kernel
    · decide +kernel
    · decide +kernel
    · decide +kernel
    · cases hsignal
    · decide +kernel
  have hsave : IsRegular environment.paper {} observer ((), {}) (save 320) :=
    ⟨rfl, rfl, by decide +kernel⟩
  exact ⟨_, entryCalls, rfl, .cons ⟨hsave, rfl⟩ (.cons ⟨hbatch, rfl⟩ (.cons ⟨trivial, rfl⟩ (.nil _)))⟩

end CoverageSample

open OperatingSample CoverageSample in
theorem entry_is_told : ∃ lifecycle,
    deriveUsDayLifecycle digest thesis ((after entryCalls).2.eventsOf thesis.thesisId) =
      .ok lifecycle ∧
    lifecycle.map (·.status) = [.armed, .active, .censored] ∧
    (lifecycle.map (·.transitionId)).Nodup := by
  have hstatuses : (((after entryCalls).2.eventsOf thesis.thesisId).foldlM
      (LifecycleState.step digest thesis.thesisId)
        ⟨.utc thesis.observedAt, initialStatus thesis.decision, []⟩).map (·.told.map (·.status)) =
          .ok [.active, .censored] := by decide +kernel
  have hmem : ∃ r ∈ (after entryCalls).2.recommendations, r.recommendationId = thesis.thesisId ∧
      DateTime.utc thesis.observedAt ≤ r.createdAt := by decide +kernel
  obtain ⟨r, hr, hid, hcreated⟩ := hmem
  obtain ⟨lifecycle, hlifecycle, -, -, hnodup, -⟩ := @deriveUsDayLifecycle_covers _ _ _ _ _ _ _
    digest thesis r newYorkClocks reachable_entryCalls hr isValid_thesis rfl hid hcreated _
    List.prefix_rfl
  rw [hid] at hlifecycle
  obtain ⟨t, ht, rfl, -⟩ := deriveUsDayLifecycle_cases hlifecycle
  rw [ht] at hstatuses
  refine ⟨_, hlifecycle, ?_, hnodup⟩
  exact congrArg (UsDayLifecycleStatus.armed :: ·) (Except.ok.inj hstatuses)

open OperatingSample CoverageSample in
/-- Outside of regular calls, the times of the events may decrease, and nothing is told then. -/
theorem irregular_calls_are_refused :
    NewYorkClocks environment.paper ∧ thesis.validateThesis digest = true ∧
      thesis.decision = .recommend ∧
      ∀ calls ∈ [lateRecommendation, lateBar, disorderedBars],
        (paperSystem environment.paper {} observer ()).Reachable (after calls) ∧
        ∃ r ∈ (after calls).2.recommendations, r.recommendationId = thesis.thesisId ∧
          DateTime.utc thesis.observedAt ≤ r.createdAt ∧
          deriveUsDayLifecycle digest thesis ((after calls).2.eventsOf r.recommendationId) =
            .error .invalid := by
  have hrefused : ∀ calls ∈ [lateRecommendation, lateBar, disorderedBars],
      ∃ r ∈ (after calls).2.recommendations, r.recommendationId = thesis.thesisId ∧
        DateTime.utc thesis.observedAt ≤ r.createdAt ∧
        (((after calls).2.eventsOf r.recommendationId).foldlM
          (LifecycleState.step digest thesis.thesisId)
            ⟨.utc thesis.observedAt, initialStatus thesis.decision, []⟩).isOk = false := by
    decide +kernel
  refine ⟨newYorkClocks, isValid_thesis, rfl, fun calls hcalls =>
    ⟨⟨((), {}), calls, rfl, run_paperSystem _ calls⟩, ?_⟩⟩
  obtain ⟨r, hr, hid, hcreated, herror⟩ := hrefused calls hcalls
  exact ⟨r, hr, hid, hcreated, deriveUsDayLifecycle_of_error herror⟩

end TradingAgent.UsDay
