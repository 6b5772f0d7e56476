import TradingAgent.Kr.Events

/-!
# What a call comes to

A call on a position that is open either makes the events that it would make if nothing was
validated (`advanceEvents`), or fails because the evidence of the bars that it applies
(`appliedBars`) does not fit into an event (`advance_eq`).
-/

namespace TradingAgent.Kr

variable {sha : Sha256} {r : KrTradeRecommendation} {e : KrVirtualPositionEvent}
  {bars : List KrCompletedMinuteBar} {now : DateTime}

/-- What the bars of a call and its time have to satisfy. -/
structure CallFacts (r : KrTradeRecommendation) (bars : List KrCompletedMinuteBar)
    (now : DateTime) : Prop where
  valid : ∀ bar ∈ bars, validateBar bar = true
  aware : now.aware = true
  notBefore : r.timestamp ≤ now
  ended : ∀ bar ∈ bars, bar.endAt ≤ now
  observed : ∀ bar ∈ bars, bar.observedAt ≤ now
  date : ∀ bar ∈ bars, (bar.endAt.astimezone KST).date = sessionDate r
  ordered : areInOrder bars = true

theorem completedBars_eq_ok : completedBars r bars now = .ok () ↔ CallFacts r bars now := by
  rw [completedBars, Except.bind_eq_ok]
  simp only [Except.raiseIf_eq_ok, exists_const, not_or, not_not, DateTime.not_lt,
    List.all_eq_true, List.any_eq_true, decide_eq_true_eq, not_exists, not_and,
    Bool.decide_or, Bool.or_eq_true]
  constructor
  · rintro ⟨hvalid, haware, hnow, hbars, hordered⟩
    exact ⟨hvalid, haware, hnow, fun bar hbar => (hbars bar hbar).1,
      fun bar hbar => (hbars bar hbar).2.1, fun bar hbar => (hbars bar hbar).2.2, hordered⟩
  · intro h
    exact ⟨h.valid, h.aware, h.notBefore, fun bar hbar =>
      ⟨h.ended bar hbar, h.observed bar hbar, h.date bar hbar⟩, h.ordered⟩

/-- The bars of a call that the position has seen, and those that are new to it. -/
def replayedBars (r : KrTradeRecommendation) (e : KrVirtualPositionEvent)
    (bars : List KrCompletedMinuteBar) : List KrCompletedMinuteBar :=
  (partitionBars e.acceptedCompletedBarCursor (bars.filter (isFuture r))).1

def freshBars (r : KrTradeRecommendation) (e : KrVirtualPositionEvent)
    (bars : List KrCompletedMinuteBar) : List KrCompletedMinuteBar :=
  (partitionBars e.acceptedCompletedBarCursor (bars.filter (isFuture r))).2

/-- Whether a call applies its new bars. -/
def applies (r : KrTradeRecommendation) (e : KrVirtualPositionEvent)
    (bars : List KrCompletedMinuteBar) : Bool :=
  virtualPositionReplayIsExact e (replayedBars r e bars) ∧
    barsAreContinuous r e.acceptedCompletedBarCursor (freshBars r e bars)

/-- The bars that a call applies. -/
def appliedBars (r : KrTradeRecommendation) (e : KrVirtualPositionEvent)
    (bars : List KrCompletedMinuteBar) : List KrCompletedMinuteBar :=
  if applies r e bars then lived r e.state (freshBars r e bars) else []

/-- The event of a position that is held after the close. -/
def closing (sha : Sha256) (r : KrTradeRecommendation) (e : KrVirtualPositionEvent)
    (now : DateTime) : List KrVirtualPositionEvent :=
  if e.state = .active ∧ sessionClose r ≤ now then
    [draft sha r (some e) { copyVirtualPositionTransition e .censored .barGap with
      attempted := some (sessionClose r) } now]
  else []

/-- The events of a call, if none of them is too long. -/
def advanceEvents (sha : Sha256) (r : KrTradeRecommendation) (e : KrVirtualPositionEvent)
    (bars : List KrCompletedMinuteBar) (now : DateTime) : List KrVirtualPositionEvent :=
  if e.terminal then []
  else if ¬ virtualPositionReplayIsExact e (replayedBars r e bars) then
    [draft sha r (some e) { copyVirtualPositionTransition e .censored .divergentReplay with
      attempted := bars.getLast?.map (·.endAt) } now]
  else if freshBars r e bars = [] ∧ e.state = .armed ∧ r.validUntil ≤ now then
    [draft sha r (some e) (copyVirtualPositionTransition e .expired .entryExpired) now]
  else if ¬ barsAreContinuous r e.acceptedCompletedBarCursor (freshBars r e bars) then
    [draft sha r (some e) { copyVirtualPositionTransition e .censored .barGap with
      attempted := (freshBars r e bars).getLast?.map (·.endAt) } now]
  else
    let events := follow sha r now e (freshBars r e bars)
    events ++ closing sha r (events.getLast?.getD e) now

theorem event_of_sound {t : KrVirtualPositionTransition} (hr : RecommendationFacts r)
    (he : Follows sha r e) (ht : Sound r t) (hevidence : t.evidenceRefs = e.evidenceRefs)
    (hnow : now.aware = true) :
    event sha r (some e) t now = .ok (draft sha r (some e) t now) := by
  rw [event_eq hr he.precedes_some ht hnow, hevidence,
    if_pos he.evidence.2.2]

theorem censored_eq {reason : KrVirtualPositionReason} {attempted : Option DateTime}
    (hr : RecommendationFacts r) (he : Follows sha r e)
    (hattempted : attempted.all DateTime.aware = true)
    (hreason : reason = .barGap ∨ reason = .divergentReplay) (hnow : now.aware = true) :
    censored sha r e attempted reason now = .ok (draft sha r (some e)
      { copyVirtualPositionTransition e .censored reason with attempted := attempted } now) :=
  event_of_sound hr he (sound_censored he hattempted hreason) rfl hnow

theorem aware_sessionClose : (some (sessionClose r)).all DateTime.aware = true := rfl

theorem afterCloseOrEmpty_eq (hr : RecommendationFacts r) (he : Follows sha r e)
    (hnow : now.aware = true) :
    afterCloseOrEmpty sha r e now = .ok (closing sha r e now) := by
  rw [afterCloseOrEmpty, closing]
  by_cases h : e.state = .active ∧ sessionClose r ≤ now
  · have hclose : ¬ (e.state ≠ .active ∨ now < sessionClose r) := by
      rw [not_or, not_not, DateTime.not_lt]
      exact h
    rw [if_pos h, censored_eq hr he aware_sessionClose (.inl rfl) hnow]
    simp only [hclose, if_false]
    rfl
  · have hclose : e.state ≠ .active ∨ now < sessionClose r := by
      rw [← DateTime.not_lt, not_and_or, not_not] at h
      exact h
    rw [if_neg h]
    simp only [hclose, if_true]
    rfl

/-- The events of the bars are those of one position, each of which follows the one before. -/
theorem follows_follow (hr : RecommendationFacts r) (he : Follows sha r e)
    (hbars : ∀ bar ∈ bars, bar.endAt.aware = true) (hnow : now.aware = true)
    (hle : (evidenceAfter e (lived r e.state bars)).length ≤ 512) :
    ∀ e' ∈ follow sha r now e bars, Follows sha r e' := by
  induction bars generalizing e with
  | nil => exact fun _ h => absurd h List.not_mem_nil
  | cons bar bars ih =>
    by_cases hterminal : e.terminal = true
    · rw [follow_of_terminal hterminal]
      exact fun _ h => absurd h List.not_mem_nil
    · rw [Bool.not_eq_true] at hterminal
      have hbar := hbars bar List.mem_cons_self
      have hevidence : (draft sha r (some e) (applyBar r e bar) now).evidenceRefs =
          barEvidence e bar := (barSound_applyBar he hterminal hbar).evidence
      rw [lived_cons hterminal] at hle
      have hnext := follows_applyBar hr he hterminal hbar hnow (barEvidence_le.trans hle)
      rw [follow_cons hterminal, List.forall_mem_cons]
      refine ⟨hnext, ih hnext (fun b hb => hbars b (List.mem_cons_of_mem bar hb)) ?_⟩
      rwa [evidenceAfter_cons hevidence, state_applyBar he hterminal bar now]

/-- What the events of some bars, the last one of which is `last`, tell of the position. -/
structure Followed (r : KrTradeRecommendation) (e : KrVirtualPositionEvent)
    (bars : List KrCompletedMinuteBar) (events : List KrVirtualPositionEvent)
    (last : KrVirtualPositionEvent) : Prop where
  outcomes : events.map KrVirtualPositionEvent.outcome = livedOutcomes r e.state bars
  state : last.state = stateAfter r e.state bars
  cursor : last.acceptedCompletedBarCursor =
    ((lived r e.state bars).getLast?.map (·.endAt)).or e.acceptedCompletedBarCursor
  evidence : last.evidenceRefs = evidenceAfter e (lived r e.state bars)

theorem followed_follow (hr : RecommendationFacts r) (he : Follows sha r e)
    (hbars : ∀ bar ∈ bars, bar.endAt.aware = true) (hnow : now.aware = true)
    (hle : (evidenceAfter e (lived r e.state bars)).length ≤ 512) :
    Followed r e bars (follow sha r now e bars) ((follow sha r now e bars).getLast?.getD e) := by
  induction bars generalizing e with
  | nil => exact ⟨rfl, rfl, rfl, (evidenceAfter_nil he).symm⟩
  | cons bar bars ih =>
    by_cases hterminal : e.terminal = true
    · rw [follow_of_terminal hterminal]
      refine ⟨(livedOutcomes_of_terminal hterminal).symm, (stateAfter_of_terminal hterminal).symm,
        ?_, ?_⟩
      · rw [lived_of_terminal hterminal]
        rfl
      · rw [lived_of_terminal hterminal, evidenceAfter_nil he]
        rfl
    · rw [Bool.not_eq_true] at hterminal
      have hbar := hbars bar List.mem_cons_self
      have hsound := barSound_applyBar he hterminal hbar
      have hevidence : (draft sha r (some e) (applyBar r e bar) now).evidenceRefs =
          barEvidence e bar := hsound.evidence
      rw [lived_cons hterminal] at hle
      have hnext := follows_applyBar hr he hterminal hbar hnow (barEvidence_le.trans hle)
      have hstate := state_applyBar he hterminal bar now
      rw [← hstate, ← evidenceAfter_cons hevidence] at hle
      have hrest := ih hnext (fun b hb => hbars b (List.mem_cons_of_mem bar hb)) hle
      have hlast : (follow sha r now e (bar :: bars)).getLast?.getD e =
          (follow sha r now (draft sha r (some e) (applyBar r e bar) now) bars).getLast?.getD
            (draft sha r (some e) (applyBar r e bar) now) := by
        rw [follow_cons hterminal, List.getLast?_cons, Option.getD_some]
      rw [hlast]
      refine ⟨?_, ?_, ?_, ?_⟩
      · rw [follow_cons hterminal, List.map_cons, hrest.outcomes, livedOutcomes_cons hterminal,
          hstate]
        exact congrArg (· :: _) (outcome_applyBar he hterminal)
      · rw [hrest.state, stateAfter_cons hterminal, hstate]
      · have haccepted : (draft sha r (some e) (applyBar r e bar) now).acceptedCompletedBarCursor =
            some bar.endAt := hsound.accepted
        rw [hrest.cursor, haccepted, lived_cons hterminal, hstate, List.getLast?_cons]
        cases (lived r (barOutcome r e.state bar).state bars).getLast? <;> rfl
      · rw [hrest.evidence, lived_cons hterminal, evidenceAfter_cons hevidence, hstate]

theorem follows_last {events : List KrVirtualPositionEvent} (he : Follows sha r e)
    (h : ∀ e' ∈ events, Follows sha r e') : Follows sha r (events.getLast?.getD e) := by
  cases hlast : events.getLast? with
  | none => exact he
  | some last => exact h last (List.mem_of_getLast? hlast)

theorem mem_freshBars {bar : KrCompletedMinuteBar} (h : bar ∈ freshBars r e bars) :
    bar ∈ bars ∧ isFuture r bar = true ∧
      ∀ cursor ∈ e.acceptedCompletedBarCursor, cursor < bar.endAt := by
  rw [freshBars] at h
  cases hcursor : e.acceptedCompletedBarCursor with
  | none =>
    rw [hcursor] at h
    exact ⟨(List.mem_filter.1 h).1, (List.mem_filter.1 h).2, nofun⟩
  | some cursor =>
    rw [hcursor] at h
    obtain ⟨h, hlt⟩ := List.mem_filter.1 h
    refine ⟨(List.mem_filter.1 h).1, (List.mem_filter.1 h).2, fun c hc => ?_⟩
    rw [← Option.some.inj hc]
    exact of_decide_eq_true hlt

theorem aware_endAt {bar : KrCompletedMinuteBar} (h : validateBar bar = true) :
    bar.endAt.aware = true := by
  simp only [validateBar, Bool.decide_and, Bool.and_eq_true, decide_eq_true_eq] at h
  exact h.2.1.2.1

/-- The new bars of a call are applied, and a position that is held after the close is censored. -/
theorem applyFresh_eq {fresh : List KrCompletedMinuteBar} (hr : RecommendationFacts r)
    (he : Follows sha r e) (hopen : e.terminal = false)
    (haware : ∀ bar ∈ fresh, bar.endAt.aware = true) (hnow : now.aware = true) :
    (do
      let events ← applyBars sha r now e fresh
      if (events.getLast?.getD e).terminal then
        return events
      return events ++ (← afterCloseOrEmpty sha r (events.getLast?.getD e) now)) =
    if (evidenceAfter e (lived r e.state fresh)).length ≤ 512 then
      .ok (follow sha r now e fresh ++
        closing sha r ((follow sha r now e fresh).getLast?.getD e) now)
    else .error .validation := by
  rw [applyBars_eq hr he hopen haware hnow]
  by_cases hle : (evidenceAfter e (lived r e.state fresh)).length ≤ 512
  · have hcurrent := follows_last he (follows_follow hr he haware hnow hle)
    rw [if_pos hle, if_pos hle, Except.ok_bind]
    split_ifs with hterminal
    · -- The position has ended: there is nothing to censor.
      have hclosing : closing sha r ((follow sha r now e fresh).getLast?.getD e) now = [] :=
        if_neg fun h => by
          rw [KrVirtualPositionEvent.terminal, h.1] at hterminal
          cases hterminal
      rw [hclosing, List.append_nil]
      rfl
    · rw [afterCloseOrEmpty_eq hr hcurrent hnow]
      rfl
  · rw [if_neg hle, if_neg hle]
    rfl

/-- A call makes the events that it would make if nothing was validated, or fails because the
    evidence of its bars does not fit. -/
theorem advance_eq (hr : validateRecommendation sha r = true) (he : Follows sha r e)
    (hcall : CallFacts r bars now) (hopen : e.terminal = false) :
    advanceKrVirtualPosition sha r e bars now =
      if (evidenceAfter e (appliedBars r e bars)).length ≤ 512 then
        .ok (advanceEvents sha r e bars now)
      else .error .validation := by
  have hr' := recommendationFacts hr
  have hnow := hcall.aware
  have hlineage : validateVirtualPositionLineage sha r e = .ok () := by
    rw [validateVirtualPositionLineage, Except.raiseIf_eq_ok]
    simp only [he.positionId, he.recommendationId, he.taskId, ne_eq, not_true, or_self,
      not_false_iff]
  have hfits : (evidenceAfter e []).length ≤ 512 := evidenceAfter_nil he ▸ he.evidence.2.2
  rw [advanceKrVirtualPosition, Except.raiseIf, if_neg (not_not.2 hr), Except.ok_bind,
    Except.raiseIf, if_neg (not_not.2 he.valid), Except.ok_bind, hlineage, Except.ok_bind,
    completedBars_eq_ok.2 hcall, Except.ok_bind, if_neg (Bool.eq_false_iff.1 hopen)]
  have haware : ∀ bar ∈ freshBars r e bars, bar.endAt.aware = true := fun bar hbar =>
    aware_endAt (hcall.valid bar (mem_freshBars hbar).1)
  have hlast : ∀ {bars' : List KrCompletedMinuteBar},
      (∀ bar ∈ bars', bar.endAt.aware = true) →
        (bars'.getLast?.map (·.endAt)).all DateTime.aware = true := by
    intro bars' hbars'
    cases hlast : bars'.getLast? with
    | none => rfl
    | some last => exact hbars' last (List.mem_of_getLast? hlast)
  rw [appliedBars, applies, advanceEvents, if_neg (Bool.eq_false_iff.1 hopen)]
  obtain ⟨replayed, fresh, hparts⟩ :
      ∃ replayed fresh, partitionBars e.acceptedCompletedBarCursor (bars.filter (isFuture r)) =
        (replayed, fresh) := ⟨_, _, rfl⟩
  have hreplayed : replayedBars r e bars = replayed := congrArg Prod.fst hparts
  have hfresh : freshBars r e bars = fresh := congrArg Prod.snd hparts
  rw [hfresh] at haware
  rw [hparts, hreplayed, hfresh]
  dsimp only
  by_cases hexact : virtualPositionReplayIsExact e replayed = true
  · rw [if_neg fun h => h.2 hexact, if_neg (not_not.2 hexact)]
    by_cases hnil : fresh = []
    · subst hnil
      have happlied : (if decide (virtualPositionReplayIsExact e replayed = true ∧
          barsAreContinuous r e.acceptedCompletedBarCursor [] = true) = true
          then lived r e.state [] else []) = [] := ite_self _
      rw [if_pos rfl, happlied, if_pos hfits]
      by_cases hexpired : e.state = .armed ∧ r.validUntil ≤ now
      · rw [if_pos hexpired, if_pos ⟨rfl, hexpired⟩,
          event_of_sound hr' he (sound_expired he hexpired.1) rfl hnow]
        rfl
      · rw [if_neg hexpired, if_neg fun h => hexpired h.2, afterCloseOrEmpty_eq hr' he hnow]
        rfl
    · have hnot : ¬ (fresh = [] ∧ e.state = .armed ∧ r.validUntil ≤ now) := fun h => hnil h.1
      rw [if_neg hnil, if_neg hnot]
      by_cases hcontinuous : barsAreContinuous r e.acceptedCompletedBarCursor fresh = true
      · rw [if_neg (not_not.2 hcontinuous), if_pos (decide_eq_true ⟨hexact, hcontinuous⟩),
          if_neg (not_not.2 hcontinuous)]
        exact applyFresh_eq hr' he hopen haware hnow
      · have hnot : ¬ decide (virtualPositionReplayIsExact e replayed = true ∧
            barsAreContinuous r e.acceptedCompletedBarCursor fresh = true) = true :=
          fun h => hcontinuous (of_decide_eq_true h).2
        rw [if_pos hcontinuous, if_neg hnot, if_pos hcontinuous, if_pos hfits,
          censored_eq hr' he (hlast haware) (.inl rfl) hnow]
        rfl
  · have hne : replayed ≠ [] := by
      rintro rfl
      exact hexact rfl
    have hnot : ¬ decide (virtualPositionReplayIsExact e replayed = true ∧
        barsAreContinuous r e.acceptedCompletedBarCursor fresh = true) = true :=
      fun h => hexact (of_decide_eq_true h).1
    rw [if_pos ⟨hne, hexact⟩, if_neg hnot, if_pos hexact, if_pos hfits,
      censored_eq hr' he (hlast fun bar hbar => aware_endAt (hcall.valid bar hbar)) (.inr rfl) hnow]
    rfl

/-- On a position that has ended, a call makes no event. -/
theorem advance_of_terminal (hr : validateRecommendation sha r = true) (he : Follows sha r e)
    (hcall : CallFacts r bars now) (hterminal : e.terminal = true) :
    advanceKrVirtualPosition sha r e bars now = .ok [] := by
  have hlineage : validateVirtualPositionLineage sha r e = .ok () := by
    rw [validateVirtualPositionLineage, Except.raiseIf_eq_ok]
    simp only [he.positionId, he.recommendationId, he.taskId, ne_eq, not_true, or_self,
      not_false_iff]
  rw [advanceKrVirtualPosition, Except.raiseIf, if_neg (not_not.2 hr), Except.ok_bind,
    Except.raiseIf, if_neg (not_not.2 he.valid), Except.ok_bind, hlineage, Except.ok_bind,
    completedBars_eq_ok.2 hcall, Except.ok_bind, if_pos hterminal]
  rfl

/-- A recommendation can always be armed. -/
theorem arm_eq (hr : validateRecommendation sha r = true) (hnow : now.aware = true) :
    armKrVirtualPosition sha r now = .ok (draft sha r none
      ⟨.armed, .armed, none, none, none, none, none, none, r.evidenceRefs⟩ now) := by
  have hr' := recommendationFacts hr
  have hsound : Sound r ⟨.armed, .armed, none, none, none, none, none, none, r.evidenceRefs⟩ :=
    ⟨rfl, rfl, rfl, rfl, hr'.evidence, hr'.evidence_pos, fun _ _ _ => by
      simp [validStateShape, draft]⟩
  have hle : r.evidenceRefs.length ≤ 512 := hr'.evidence_le.trans (by decide)
  rw [armKrVirtualPosition, Except.raiseIf, if_neg (not_not.2 hr), Except.ok_bind,
    event_eq hr' (fun _ hp => absurd hp (Option.not_mem_none _)) hsound hnow, if_pos hle]

end TradingAgent.Kr
