import TradingAgent.Kr.Engine

/-!
# What the bars make of a recommendation

What a virtual position is for, apart from how it is polled: the bars of the session, one after the
other, decide whether the entry is reached, and then whether the stop or the target comes first
(`barOutcome`). The outcomes of the bars up to the one that ends the position (`outcomes`) are a
function of the recommendation and the bars alone.

* The bars that the position lives through are those up to that bar (`lived`).
* An entry on the last bar of the session is censored, as no bar is left for its exit
  (`barOutcomes`).
-/

namespace TradingAgent.Kr

/-- What is observed of a position after a bar. -/
structure Outcome where
  state : KrVirtualPositionState
  reason : KrVirtualPositionReason
  fillPrice : Option Decimal
  exitPrice : Option Decimal
  deriving DecidableEq, Repr

/-- The outcome that an event tells of. -/
def KrVirtualPositionEvent.outcome (e : KrVirtualPositionEvent) : Outcome :=
  ⟨e.state, e.reason, e.fillPrice, e.exitPrice⟩

/-- Whether the entry is within the range of a bar. -/
def reachesEntry (r : KrTradeRecommendation) (bar : KrCompletedMinuteBar) : Bool :=
  r.entry ≤ bar.high ∧ bar.low ≤ r.entry

/-- What a bar makes of a position that was filled: the stop comes before the target. -/
def filledOutcome (r : KrTradeRecommendation) (bar : KrCompletedMinuteBar) : Outcome :=
  if bar.low ≤ r.stop then ⟨.stopped, .stopFirst, some r.entry, some r.stop⟩
  else if r.targets.1 ≤ bar.high then ⟨.targeted, .target, some r.entry, some r.targets.1⟩
  else ⟨.active, .entry, some r.entry, none⟩

/-- What a bar makes of a position in a state that is not terminal. -/
def barOutcome (r : KrTradeRecommendation) (state : KrVirtualPositionState)
    (bar : KrCompletedMinuteBar) : Outcome :=
  if state = .armed then
    if reachesEntry r bar then filledOutcome r bar
    else if r.validUntil ≤ bar.endAt then ⟨.expired, .entryExpired, none, none⟩
    else ⟨.armed, .armed, none, none⟩
  else if (filledOutcome r bar).state = .active ∧ isClosingBar bar then
    ⟨.expired, .sessionClose, some r.entry, some bar.close⟩
  else filledOutcome r bar

/-- The state after some bars. -/
def stateAfter (r : KrTradeRecommendation) :
    KrVirtualPositionState → List KrCompletedMinuteBar → KrVirtualPositionState
  | state, [] => state
  | state, bar :: bars =>
    if state.terminal then state else stateAfter r (barOutcome r state bar).state bars

/-- The bars that a position in a state lives through. -/
def lived (r : KrTradeRecommendation) :
    KrVirtualPositionState → List KrCompletedMinuteBar → List KrCompletedMinuteBar
  | _, [] => []
  | state, bar :: bars =>
    if state.terminal then [] else bar :: lived r (barOutcome r state bar).state bars

/-- The outcomes of the bars that a position in a state lives through. -/
def livedOutcomes (r : KrTradeRecommendation) :
    KrVirtualPositionState → List KrCompletedMinuteBar → List Outcome
  | _, [] => []
  | state, bar :: bars =>
    if state.terminal then []
    else barOutcome r state bar :: livedOutcomes r (barOutcome r state bar).state bars

/-- The outcome of a position that was filled, and whose exit is unknown. -/
def censoredOutcome (r : KrTradeRecommendation) : Outcome :=
  ⟨.censored, .barGap, some r.entry, none⟩

/-- The outcomes of the bars of a session. A position that was filled on the last bar is
    censored. -/
def outcomes (r : KrTradeRecommendation) (state : KrVirtualPositionState)
    (bars : List KrCompletedMinuteBar) : List Outcome :=
  livedOutcomes r state bars ++
    if stateAfter r state bars = .active ∧ bars.getLast?.any isClosingBar then
      [censoredOutcome r]
    else []

section

variable {r : KrTradeRecommendation} {state : KrVirtualPositionState}
  {bar : KrCompletedMinuteBar} {bars bars' : List KrCompletedMinuteBar}

theorem stateAfter_cons (hopen : state.terminal = false) :
    stateAfter r state (bar :: bars) = stateAfter r (barOutcome r state bar).state bars := by
  rw [stateAfter, hopen]
  rfl

theorem lived_cons (hopen : state.terminal = false) :
    lived r state (bar :: bars) = bar :: lived r (barOutcome r state bar).state bars := by
  rw [lived, hopen]
  rfl

theorem livedOutcomes_cons (hopen : state.terminal = false) :
    livedOutcomes r state (bar :: bars) =
      barOutcome r state bar :: livedOutcomes r (barOutcome r state bar).state bars := by
  rw [livedOutcomes, hopen]
  rfl

theorem stateAfter_of_terminal (h : state.terminal = true) : stateAfter r state bars = state := by
  rcases bars with _ | ⟨bar, bars⟩
  · rfl
  · rw [stateAfter, if_pos h]

theorem lived_of_terminal (h : state.terminal = true) : lived r state bars = [] := by
  rcases bars with _ | ⟨bar, bars⟩
  · rfl
  · rw [lived, if_pos h]

theorem livedOutcomes_of_terminal (h : state.terminal = true) :
    livedOutcomes r state bars = [] := by
  rcases bars with _ | ⟨bar, bars⟩
  · rfl
  · rw [livedOutcomes, if_pos h]

theorem stateAfter_append :
    stateAfter r state (bars ++ bars') = stateAfter r (stateAfter r state bars) bars' := by
  induction bars generalizing state with
  | nil => rfl
  | cons bar bars ih =>
    rw [List.cons_append]
    by_cases h : state.terminal = true
    · simp only [stateAfter_of_terminal h]
    · rw [Bool.not_eq_true] at h
      rw [stateAfter_cons h, stateAfter_cons h, ih]

theorem lived_append :
    lived r state (bars ++ bars') = lived r state bars ++ lived r (stateAfter r state bars) bars'
    := by
  induction bars generalizing state with
  | nil => rfl
  | cons bar bars ih =>
    rw [List.cons_append]
    by_cases h : state.terminal = true
    · rw [lived_of_terminal h, lived_of_terminal h, stateAfter_of_terminal h, lived_of_terminal h]
      rfl
    · rw [Bool.not_eq_true] at h
      rw [lived_cons h, lived_cons h, stateAfter_cons h, ih, List.cons_append]

theorem livedOutcomes_append :
    livedOutcomes r state (bars ++ bars') =
      livedOutcomes r state bars ++ livedOutcomes r (stateAfter r state bars) bars' := by
  induction bars generalizing state with
  | nil => rfl
  | cons bar bars ih =>
    rw [List.cons_append]
    by_cases h : state.terminal = true
    · rw [livedOutcomes_of_terminal h, livedOutcomes_of_terminal h, stateAfter_of_terminal h,
        livedOutcomes_of_terminal h]
      rfl
    · rw [Bool.not_eq_true] at h
      rw [livedOutcomes_cons h, livedOutcomes_cons h, stateAfter_cons h, ih, List.cons_append]

/-- A position that ends within the first bars lives through no others. -/
theorem lived_subset : lived r state bars ⊆ bars := by
  induction bars generalizing state with
  | nil => exact fun _ h => h
  | cons bar bars ih =>
    by_cases h : state.terminal = true
    · rw [lived_of_terminal h]
      exact List.nil_subset _
    · rw [Bool.not_eq_true] at h
      rw [lived_cons h]
      exact List.cons_subset_cons bar ih

/-- A position stays armed through bars that neither reach the entry nor end when it is no longer
    valid. -/
theorem lived_of_quiet (h : ∀ bar ∈ bars, reachesEntry r bar = false ∧ bar.endAt < r.validUntil) :
    lived r .armed bars = bars := by
  induction bars with
  | nil => rfl
  | cons bar bars ih =>
    obtain ⟨hquiet, hvalid⟩ := h bar List.mem_cons_self
    have harmed : (barOutcome r .armed bar).state = .armed := by
        simp [barOutcome, hquiet, DateTime.not_le.2 hvalid]
    rw [lived_cons rfl, harmed, ih fun b hb => h b (List.mem_cons_of_mem bar hb)]

/-- A bar does not censor a position. -/
theorem barOutcome_ne_censored : (barOutcome r state bar).state ≠ .censored := by
  rw [barOutcome, filledOutcome]
  split_ifs <;> exact nofun

/-- Stop before target: a bar that touches both levels stops the position. -/
theorem barOutcome_stopped (hr : r.stop < r.entry ∧ r.entry < r.targets.1)
    (hstop : bar.low ≤ r.stop) (htarget : r.targets.1 ≤ bar.high) :
    (barOutcome r state bar).state = .stopped := by
  have hfilled : filledOutcome r bar = ⟨.stopped, .stopFirst, some r.entry, some r.stop⟩ :=
    if_pos hstop
  have hreaches : reachesEntry r bar = true :=
    decide_eq_true ⟨Decimal.le_of_lt_of_le hr.2 htarget, Decimal.le_of_le_of_lt hstop hr.1⟩
  rw [barOutcome, hfilled, if_pos hreaches]
  split_ifs with _ h
  · rfl
  · cases h.1
  · rfl

end

end TradingAgent.Kr
