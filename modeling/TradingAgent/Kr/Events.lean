import TradingAgent.Kr.Outcome

/-!
# The events that a call makes

The validation of the events that the engine makes, taken apart: of all that an event validates
about itself, only the number of its pieces of evidence can fail, once the recommendation and the
bars are valid (`event_eq`). So a call either makes the events that it would make if nothing was
validated (`advanceEvents`), or fails because of the evidence alone (`advance_eq`).
-/

namespace TradingAgent.Kr

variable {sha : Sha256} {r : KrTradeRecommendation} {e : KrVirtualPositionEvent}
  {t : KrVirtualPositionTransition} {bar : KrCompletedMinuteBar}
  {bars : List KrCompletedMinuteBar} {now : DateTime}

/-! ## Valid records -/

/-- What is used of the validity of a recommendation. -/
structure RecommendationFacts (r : KrTradeRecommendation) : Prop where
  eventId : isHex64 r.eventId = true
  taskId : isHex64 r.taskId = true
  quantity : 0 < r.quantity
  levels : levelsAreOrdered r.stop r.entry r.targets = true
  evidence_pos : 1 ≤ r.evidenceRefs.length
  evidence_le : r.evidenceRefs.length ≤ 128
  evidence : r.evidenceRefs = sortedSet r.evidenceRefs

theorem recommendationFacts (h : validateRecommendation sha r = true) :
    RecommendationFacts r := by
  simp only [validateRecommendation, Bool.decide_and, Bool.and_eq_true, decide_eq_true_eq,
    List.all_cons] at h
  obtain ⟨⟨heventId, -, htaskId, -⟩, -, -, -, ⟨hpos, hle⟩, hquantity, -, -, hlevels, hevidence, -⟩
    := h
  exact ⟨heventId, htaskId, hquantity, hlevels, hpos, hle, hevidence⟩

/-- What the validity of an event comes to. -/
theorem validateEvent_iff :
    validateEvent sha e = true ↔
      (isHex64 e.eventId = true ∧ isHex64 e.positionId = true ∧ isHex64 e.recommendationId = true ∧
        isHex64 e.taskId = true) ∧ 1 ≤ e.sequence ∧ e.previousEventId.all isHex64 = true ∧
      0 < e.quantity ∧ (1 ≤ e.evidenceRefs.length ∧ e.evidenceRefs.length ≤ 512) ∧
      e.occurredAt.aware = true ∧
      (e.attemptedCompletedBarCursor.all DateTime.aware = true ∧
        e.acceptedCompletedBarCursor.all DateTime.aware = true) ∧
      (e.fillTime.all DateTime.aware = true ∧ e.exitTime.all DateTime.aware = true) ∧
      levelsAreOrdered e.stop e.entry e.targets = true ∧
      e.evidenceRefs = sortedSet e.evidenceRefs ∧ e.eventId = virtualPositionEventId sha e ∧
      validStateShape e = true := by
  simp [validateEvent]

/-- A transition whose event can only be invalid because of the number of pieces of evidence. -/
structure Sound (r : KrTradeRecommendation) (t : KrVirtualPositionTransition) : Prop where
  attempted : t.attempted.all DateTime.aware = true
  accepted : t.accepted.all DateTime.aware = true
  fillTime : t.fillTime.all DateTime.aware = true
  exitTime : t.exitTime.all DateTime.aware = true
  evidence : t.evidenceRefs = sortedSet t.evidenceRefs
  evidence_pos : 1 ≤ t.evidenceRefs.length
  shape : ∀ sha previous now, validStateShape (draft sha r previous t now) = true

/-- What an event needs of the one before it. -/
structure Precedes (e : KrVirtualPositionEvent) : Prop where
  eventId : isHex64 e.eventId = true
  sequence : 1 ≤ e.sequence

/-- An event is valid exactly if it does not refer to more than 512 pieces of evidence. -/
theorem validateEvent_draft {previous : Option KrVirtualPositionEvent}
    (hr : RecommendationFacts r) (hprevious : ∀ p ∈ previous, Precedes p) (ht : Sound r t)
    (hnow : now.aware = true) :
    validateEvent sha (draft sha r previous t now) = true ↔ t.evidenceRefs.length ≤ 512 := by
  rw [validateEvent_iff]
  refine ⟨fun h => h.2.2.2.2.1.2, fun hle => ?_⟩
  have hsequence : 1 ≤ (draft sha r previous t now).sequence := by
    rcases previous with _ | p
    · exact Int.le_refl 1
    · exact Int.le_trans (hprevious p rfl).sequence (Int.le_of_lt (Int.lt_succ p.sequence))
  have hid : (draft sha r previous t now).previousEventId.all isHex64 = true := by
    rcases previous with _ | p
    · rfl
    · exact (hprevious p rfl).eventId
  exact ⟨⟨sha.isHex64_hexdigest _, sha.isHex64_hexdigest _, hr.eventId, hr.taskId⟩, hsequence, hid,
    hr.quantity, ⟨ht.evidence_pos, hle⟩, hnow, ⟨ht.attempted, ht.accepted⟩,
    ⟨ht.fillTime, ht.exitTime⟩, hr.levels, ht.evidence, rfl, ht.shape sha previous now⟩

theorem event_eq {previous : Option KrVirtualPositionEvent} (hr : RecommendationFacts r)
    (hprevious : ∀ p ∈ previous, Precedes p) (ht : Sound r t) (hnow : now.aware = true) :
    event sha r previous t now =
      if t.evidenceRefs.length ≤ 512 then .ok (draft sha r previous t now)
      else .error .validation := by
  have hvalid : validateEvent sha (draft sha r previous t now) = true ↔ _ :=
    validateEvent_draft hr hprevious ht hnow
  rw [event, Except.raiseIf]
  split_ifs with h h' h'
  · rfl
  · exact absurd (hvalid.1 h) h'
  · exact absurd (hvalid.2 h') h
  · rfl

/-- An event of the position of a recommendation, as the engine makes them. -/
structure Follows (sha : Sha256) (r : KrTradeRecommendation) (e : KrVirtualPositionEvent) :
    Prop where
  valid : validateEvent sha e = true
  positionId : e.positionId = virtualPositionId sha r
  recommendationId : e.recommendationId = r.eventId
  taskId : e.taskId = r.taskId
  entry : e.entry = r.entry
  stop : e.stop = r.stop
  targets : e.targets = r.targets
  unfilled : e.state = .armed → e.fillPrice = none ∧ e.fillTime = none

theorem Follows.precedes (he : Follows sha r e) : Precedes e :=
  have h := validateEvent_iff.1 he.valid
  ⟨h.1.1, h.2.1⟩

theorem Follows.precedes_some (he : Follows sha r e) : ∀ p ∈ some e, Precedes p :=
  fun _ hp => Option.some.inj hp ▸ he.precedes

/-- A position that is held was filled at the entry. -/
theorem Follows.filled (he : Follows sha r e) (hstate : e.state = .active) :
    e.fillPrice = some r.entry ∧ e.fillTime.isSome = true ∧ e.fillTime.all DateTime.aware = true
    := by
  obtain ⟨-, -, -, -, -, -, -, ⟨hfill, -⟩, -, -, -, hshape⟩ := validateEvent_iff.1 he.valid
  rw [validStateShape, hstate] at hshape
  simp only [decide_eq_true_eq] at hshape
  exact ⟨he.entry ▸ hshape.2.1.1, hshape.2.1.2, hfill⟩

theorem follows_draft (hvalid : validateEvent sha (draft sha r (some e) t now) = true)
    (hunfilled : t.state = .armed → t.fillPrice = none ∧ t.fillTime = none) :
    Follows sha r (draft sha r (some e) t now) :=
  ⟨hvalid, rfl, rfl, rfl, rfl, rfl, rfl, hunfilled⟩

/-- A position that is open is armed or held. -/
theorem open_cases (hopen : e.terminal = false) : e.state = .armed ∨ e.state = .active := by
  rw [KrVirtualPositionEvent.terminal] at hopen
  cases hstate : e.state <;> rw [hstate] at hopen <;> first | exact .inl rfl | exact .inr rfl | cases hopen

/-! ## The transitions are sound -/

/-- The evidence of an event is sorted, and there is some. -/
theorem Follows.evidence (he : Follows sha r e) :
    e.evidenceRefs = sortedSet e.evidenceRefs ∧ 1 ≤ e.evidenceRefs.length ∧
      e.evidenceRefs.length ≤ 512 := by
  obtain ⟨-, -, -, -, ⟨hpos, hle⟩, -, -, -, -, hevidence, -⟩ := validateEvent_iff.1 he.valid
  exact ⟨hevidence, hpos, hle⟩

theorem barEvidence_pos (e : KrVirtualPositionEvent) (bar : KrCompletedMinuteBar) :
    1 ≤ (barEvidence e bar).length :=
  List.length_pos_of_mem (mem_sortedSet.2 (List.mem_append_right _ (List.mem_singleton_self _)))

/-- A bar leaves the fill of a position as it is, or fills it at the entry. -/
theorem sound_barTransition {state : KrVirtualPositionState} (he : Follows sha r e)
    (hbar : bar.endAt.aware = true)
    (hstate : e.state = .armed ∧ state ≠ .censored ∨
      e.state = .active ∧ (state = .active ∨ state = .stopped ∨ state = .targeted)) :
    Sound r (barTransition e bar (barEvidence e bar) state) := by
  have hsorted : barEvidence e bar = sortedSet (barEvidence e bar) :=
    (sortedSet_sortedSet (e.evidenceRefs ++ [bar.evidenceRef.canonicalId])).symm
  have hpos := barEvidence_pos e bar
  rcases hstate with ⟨harmed, hstate⟩ | ⟨hactive, hstate⟩
  · obtain ⟨hprice, htime⟩ := he.unfilled harmed
    cases state <;> first | exact absurd rfl hstate |
      exact ⟨hbar, hbar, by simp [barTransition, hprice, htime, hbar],
        by simp [barTransition, hbar], hsorted, hpos, fun _ _ _ => by
          simp [validStateShape, draft, barTransition, barReason, hprice, htime, he.entry, he.stop,
            he.targets]⟩
  · obtain ⟨hprice, htime, haware⟩ := he.filled hactive
    obtain ⟨time, htime⟩ := Option.isSome_iff_exists.1 htime
    rw [htime] at haware
    rcases hstate with rfl | rfl | rfl <;>
      exact ⟨hbar, hbar, by simpa [barTransition, hprice, htime] using haware,
        by simp [barTransition, hbar], hsorted, hpos, fun _ _ _ => by
          simp [validStateShape, draft, barTransition, barReason, hprice, htime, he.stop,
            he.targets]⟩

/-- The outcome that a transition makes of a position. -/
def KrVirtualPositionTransition.outcome (t : KrVirtualPositionTransition) : Outcome :=
  ⟨t.state, t.reason, t.fillPrice, t.exitPrice⟩

/-- What the engine needs of the transition of a bar. -/
structure BarSound (r : KrTradeRecommendation) (e : KrVirtualPositionEvent)
    (bar : KrCompletedMinuteBar) (t : KrVirtualPositionTransition) : Prop where
  sound : Sound r t
  accepted : t.accepted = some bar.endAt
  evidence : t.evidenceRefs = barEvidence e bar
  unfilled : t.state = .armed → t.fillPrice = none ∧ t.fillTime = none

theorem barSound_barTransition (state : KrVirtualPositionState) (he : Follows sha r e)
    (hbar : bar.endAt.aware = true)
    (hstate : e.state = .armed ∧ state ≠ .censored ∨
      e.state = .active ∧ (state = .active ∨ state = .stopped ∨ state = .targeted)) :
    BarSound r e bar (barTransition e bar (barEvidence e bar) state) := by
  refine ⟨sound_barTransition he hbar hstate, rfl, rfl, fun hs => ?_⟩
  have harmed : state = .armed := hs
  subst harmed
  rcases hstate with ⟨harmed, -⟩ | ⟨-, hs⟩
  · obtain ⟨hprice, htime⟩ := he.unfilled harmed
    simp [barTransition, hprice, htime]
  · rcases hs with hs | hs | hs <;> cases hs

/-- An active position that reaches the close of the session leaves at the price of the close. -/
theorem barSound_sessionClose (he : Follows sha r e) (hstate : e.state = .active)
    (hbar : bar.endAt.aware = true) :
    BarSound r e bar ⟨.expired, .sessionClose, some bar.endAt, some bar.endAt, e.fillPrice,
      e.fillTime, some bar.close, some bar.endAt, barEvidence e bar⟩ := by
  obtain ⟨hprice, htime, haware⟩ := he.filled hstate
  refine ⟨⟨hbar, hbar, haware, hbar, (sortedSet_sortedSet _).symm, barEvidence_pos e bar, ?_⟩, rfl,
    rfl, nofun⟩
  intro _ _ _
  simp [validStateShape, draft, hprice, htime]

theorem barSound_applyBar (he : Follows sha r e) (hopen : e.terminal = false)
    (hbar : bar.endAt.aware = true) : BarSound r e bar (applyBar r e bar) := by
  rcases open_cases hopen with harmed | hactive
  · have h := fun state (hstate : state ≠ .censored) =>
      barSound_barTransition state he hbar (.inl ⟨harmed, hstate⟩)
    rw [applyBar, if_pos harmed]
    split_ifs <;> exact h _ nofun
  · have h := fun state hstate => barSound_barTransition state he hbar
      (.inr ⟨hactive, hstate⟩)
    have hne : e.state ≠ .armed := by rw [hactive]; decide
    rw [applyBar, if_neg hne]
    split_ifs
    · exact h _ (.inr (.inl rfl))
    · exact h _ (.inr (.inr rfl))
    · exact barSound_sessionClose he hactive hbar
    · exact h _ (.inl rfl)

/-- The engine makes of a bar what the bar makes of the recommendation. -/
theorem outcome_applyBar (he : Follows sha r e) (hopen : e.terminal = false) :
    (applyBar r e bar).outcome = barOutcome r e.state bar := by
  rcases open_cases hopen with harmed | hactive
  · obtain ⟨hprice, -⟩ := he.unfilled harmed
    rw [applyBar, barOutcome, if_pos harmed, if_pos harmed, filledOutcome]
    simp only [reachesEntry, decide_eq_true_eq]
    split_ifs <;>
      simp [barTransition, KrVirtualPositionTransition.outcome, barReason, hprice, he.entry,
        he.stop, he.targets]
  · obtain ⟨hprice, -, -⟩ := he.filled hactive
    have hne : e.state ≠ .armed := by rw [hactive]; decide
    rw [applyBar, barOutcome, if_neg hne, if_neg hne, filledOutcome]
    by_cases hstop : bar.low ≤ r.stop
    · simp [hstop, barTransition, KrVirtualPositionTransition.outcome, barReason, hprice, he.stop]
    · by_cases htarget : r.targets.1 ≤ bar.high
      · simp [hstop, htarget, barTransition, KrVirtualPositionTransition.outcome, barReason, hprice,
          he.targets]
      · by_cases hclose : isClosingBar bar = true
        · simp [hstop, htarget, hclose, KrVirtualPositionTransition.outcome, hprice]
        · simp [hstop, htarget, hclose, barTransition, KrVirtualPositionTransition.outcome,
            barReason, hprice]

/-! ## Transitions without a bar -/

theorem sound_expired (he : Follows sha r e) (hstate : e.state = .armed) :
    Sound r (copyVirtualPositionTransition e .expired .entryExpired) := by
  obtain ⟨hprice, htime⟩ := he.unfilled hstate
  obtain ⟨hevidence, hpos, -⟩ := he.evidence
  obtain ⟨-, -, -, -, -, -, ⟨hattempted, haccepted⟩, ⟨hfill, -⟩, -⟩ := validateEvent_iff.1 he.valid
  refine ⟨hattempted, haccepted, hfill, rfl, hevidence, hpos, fun _ _ _ => ?_⟩
  simp [validStateShape, draft, copyVirtualPositionTransition, hprice]

theorem sound_censored {reason : KrVirtualPositionReason} {attempted : Option DateTime}
    (he : Follows sha r e) (hattempted : attempted.all DateTime.aware = true)
    (hreason : reason = .barGap ∨ reason = .divergentReplay) :
    Sound r { copyVirtualPositionTransition e .censored reason with attempted := attempted } := by
  obtain ⟨hevidence, hpos, -⟩ := he.evidence
  obtain ⟨-, -, -, -, -, -, ⟨-, haccepted⟩, ⟨hfill, -⟩, -⟩ := validateEvent_iff.1 he.valid
  refine ⟨hattempted, haccepted, hfill, rfl, hevidence, hpos, fun _ _ _ => ?_⟩
  simpa [validStateShape, draft, copyVirtualPositionTransition] using hreason

/-! ## The events of the bars -/

/-- The evidence of a position after some more bars. -/
def evidenceAfter (e : KrVirtualPositionEvent) (bars : List KrCompletedMinuteBar) : List String :=
  sortedSet (e.evidenceRefs ++ bars.map (·.evidenceRef.canonicalId))

/-- The events of the bars that a position lives through, if none of them is too long. -/
def follow (sha : Sha256) (r : KrTradeRecommendation) (now : DateTime) :
    KrVirtualPositionEvent → List KrCompletedMinuteBar → List KrVirtualPositionEvent
  | _, [] => []
  | current, bar :: bars =>
    if current.terminal then []
    else
      let e := draft sha r (some current) (applyBar r current bar) now
      e :: follow sha r now e bars

theorem follow_cons (hopen : e.terminal = false) :
    follow sha r now e (bar :: bars) =
      draft sha r (some e) (applyBar r e bar) now ::
        follow sha r now (draft sha r (some e) (applyBar r e bar) now) bars := by
  rw [follow, hopen]
  rfl

theorem follow_of_terminal (h : e.terminal = true) : follow sha r now e bars = [] := by
  rcases bars with _ | ⟨bar, bars⟩
  · rfl
  · rw [follow, if_pos h]

theorem evidenceAfter_nil (he : Follows sha r e) : evidenceAfter e [] = e.evidenceRefs := by
  rw [evidenceAfter, List.map_nil, List.append_nil, ← he.evidence.1]

/-- The evidence of a bar and of those after it. -/
theorem evidenceAfter_cons {e' : KrVirtualPositionEvent}
    (h : e'.evidenceRefs = barEvidence e bar) :
    evidenceAfter e' bars = evidenceAfter e (bar :: bars) := by
  refine sortedSet_congr fun x => ?_
  rw [h, barEvidence]
  simp only [List.mem_append, mem_sortedSet, List.map_cons, List.mem_cons, List.not_mem_nil,
    or_false, or_assoc]

theorem barEvidence_le : (barEvidence e bar).length ≤ (evidenceAfter e (bar :: bars)).length := by
  refine length_sortedSet_le (List.append_subset.2 ⟨List.subset_append_left _ _, ?_⟩)
  intro x hx
  rw [List.mem_singleton.1 hx]
  exact List.mem_append_right _ List.mem_cons_self

section Bar

variable (hr : RecommendationFacts r) (he : Follows sha r e) (hopen : e.terminal = false)
  (hbar : bar.endAt.aware = true) (hnow : now.aware = true)
include hr he hopen hbar hnow

theorem event_applyBar :
    event sha r (some e) (applyBar r e bar) now =
      if (barEvidence e bar).length ≤ 512 then
        .ok (draft sha r (some e) (applyBar r e bar) now)
      else .error .validation := by
  have h := barSound_applyBar he hopen hbar
  rw [event_eq hr he.precedes_some h.sound hnow, h.evidence]

/-- A bar whose evidence fits leaves an event that the engine can follow. -/
theorem follows_applyBar (hle : (barEvidence e bar).length ≤ 512) :
    Follows sha r (draft sha r (some e) (applyBar r e bar) now) := by
  have h := barSound_applyBar he hopen hbar
  have hvalid : validateEvent sha (draft sha r (some e) (applyBar r e bar) now) = true ↔ _ :=
    validateEvent_draft hr he.precedes_some h.sound hnow
  exact follows_draft (hvalid.2 (h.evidence ▸ hle)) h.unfilled

end Bar

theorem state_applyBar (he : Follows sha r e) (hopen : e.terminal = false)
    (bar : KrCompletedMinuteBar) (now : DateTime) :
    (draft sha r (some e) (applyBar r e bar) now).state = (barOutcome r e.state bar).state :=
  congrArg Outcome.state (outcome_applyBar he hopen)

/-- Bars are applied without an error exactly if the evidence fits. -/
theorem applyBars_eq (hr : RecommendationFacts r) (he : Follows sha r e)
    (hopen : e.terminal = false) (hbars : ∀ bar ∈ bars, bar.endAt.aware = true)
    (hnow : now.aware = true) :
    applyBars sha r now e bars =
      if (evidenceAfter e (lived r e.state bars)).length ≤ 512 then .ok (follow sha r now e bars)
      else .error .validation := by
  induction bars generalizing e with
  | nil =>
    rw [lived, evidenceAfter_nil he, if_pos he.evidence.2.2]
    rfl
  | cons bar bars ih =>
    have hbar := hbars bar List.mem_cons_self
    have hbars := fun b hb => hbars b (List.mem_cons_of_mem bar hb)
    have hevidence : (draft sha r (some e) (applyBar r e bar) now).evidenceRefs =
        barEvidence e bar := (barSound_applyBar he hopen hbar).evidence
    rw [applyBars, event_applyBar hr he hopen hbar hnow, lived_cons hopen, follow_cons hopen]
    by_cases hle : (barEvidence e bar).length ≤ 512
    · have hnext := follows_applyBar hr he hopen hbar hnow hle
      have hstate := state_applyBar he hopen bar now
      rw [if_pos hle, Except.ok_bind, ← evidenceAfter_cons hevidence, ← hstate]
      by_cases hterminal : (draft sha r (some e) (applyBar r e bar) now).terminal = true
      · rw [if_pos hterminal, lived_of_terminal hterminal, evidenceAfter_nil hnext,
          if_pos hnext.evidence.2.2, follow_of_terminal hterminal]
        rfl
      · rw [if_neg hterminal, ih hnext (Bool.not_eq_true _ ▸ hterminal) hbars]
        split_ifs
        · rfl
        · rfl
    · rw [if_neg hle, if_neg fun h => hle (barEvidence_le.trans h)]
      rfl

end TradingAgent.Kr
