import TradingAgent.Kr.Session

/-!
# Polling a position

A position is polled any number of times, each time with some part of the bars of the session up to
those that are completed by then (`Poll`). What comes of it (`runPolls`) is what the bars make of
the recommendation (`outcomes`), however they are passed, as long as each poll is timely (`Timely`):

* a position that is armed is not polled without new bars when its entry is no longer valid, unless
  the next bar lets it expire as well;
* a position that is held is not left at or after the close without the last bar of the session;
* no bar is missing among the new ones.

The polls that are not timely end the position otherwise than the bars do. So of two schedules of
which one is timely, both give the same outcomes exactly if the other one is timely as well
(`outcomes_eq_iff_timely`).
-/

namespace TradingAgent.Kr

/-- A call with the bars from one place in the session to another one. -/
structure Poll where
  start : ℕ
  stop : ℕ
  now : DateTime
  deriving DecidableEq, Repr

def Poll.bars (L : List KrCompletedMinuteBar) (poll : Poll) : List KrCompletedMinuteBar :=
  (L.take poll.stop).drop poll.start

/-- The events of some polls, one after the other. -/
def runPolls (sha : Sha256) (r : KrTradeRecommendation) (L : List KrCompletedMinuteBar) :
    KrVirtualPositionEvent → List Poll → Except KrVirtualPositionError (List KrVirtualPositionEvent)
  | _, [] => return []
  | e, poll :: polls => do
    let events ← advanceKrVirtualPosition sha r e (poll.bars L) poll.now
    return events ++ (← runPolls sha r L (events.getLast?.getD e) polls)

/-- The polls pass the bars from place `n` up to place `m`: none skips a bar, and none is earlier
    than what it passes. -/
def Passes (r : KrTradeRecommendation) (L : List KrCompletedMinuteBar) :
    ℕ → List Poll → ℕ → Prop
  | n, [], m => n = m
  | n, poll :: polls, m =>
    poll.start ≤ n ∧ poll.stop ≤ L.length ∧ poll.now.aware = true ∧ r.timestamp ≤ poll.now ∧
      (∀ bar ∈ poll.bars L, bar.endAt ≤ poll.now ∧ bar.observedAt ≤ poll.now) ∧
      Passes r L (max n poll.stop) polls m

/-- Whether a position that is armed expires at the next bar. -/
def ExpiresNext (r : KrTradeRecommendation) (bars : List KrCompletedMinuteBar) : Prop :=
  ∃ bar ∈ bars.head?, reachesEntry r bar = false ∧ r.validUntil ≤ bar.endAt

/-- Whether each of the polls that pass the bars from place `n` up to place `m` leaves it to the
    bars what becomes of a position in a state. -/
def Timely (r : KrTradeRecommendation) (L : List KrCompletedMinuteBar) (m : ℕ) :
    ℕ → KrVirtualPositionState → List Poll → Prop
  | _, _, [] => True
  | n, state, poll :: polls =>
    let new := newBars r L n poll.stop
    state.terminal = true ∨
      if new = [] ∧ state = .armed ∧ r.validUntil ≤ poll.now then ExpiresNext r (newBars r L n m)
      else
        barsAreContinuous r (cursorAt r L n) new = true ∧
          if stateAfter r state new = .active ∧ sessionClose r ≤ poll.now then
            new.getLast?.any isClosingBar = true
          else Timely r L m (max n poll.stop) (stateAfter r state new) polls

instance (r : KrTradeRecommendation) (bars : List KrCompletedMinuteBar) :
    Decidable (ExpiresNext r bars) :=
  inferInstanceAs (Decidable (∃ _ ∈ _, _))

instance decidableTimely (r : KrTradeRecommendation) (L : List KrCompletedMinuteBar) (m : ℕ) :
    ∀ n state polls, Decidable (Timely r L m n state polls)
  | _, _, [] => .isTrue trivial
  | n, state, poll :: polls =>
    have := decidableTimely r L m (max n poll.stop)
      (stateAfter r state (newBars r L n poll.stop)) polls
    let new := newBars r L n poll.stop
    inferInstanceAs (Decidable (state.terminal = true ∨
      if new = [] ∧ state = .armed ∧ r.validUntil ≤ poll.now then ExpiresNext r (newBars r L n m)
      else
        barsAreContinuous r (cursorAt r L n) new = true ∧
          if stateAfter r state new = .active ∧ sessionClose r ≤ poll.now then
            new.getLast?.any isClosingBar = true
          else Timely r L m (max n poll.stop) (stateAfter r state new) polls))

variable {sha : Sha256} {r : KrTradeRecommendation} {e : KrVirtualPositionEvent}
  {L bars : List KrCompletedMinuteBar} {now : DateTime} {n m : ℕ}

/-! ## The outcomes of more bars -/

theorem outcomes_of_terminal {state : KrVirtualPositionState} (h : state.terminal = true) :
    outcomes r state bars = [] := by
  have hactive : ¬ (state = .active ∧ bars.getLast?.any isClosingBar = true) := by
    rintro ⟨rfl, -⟩
    cases h
  rw [outcomes, livedOutcomes_of_terminal h, stateAfter_of_terminal h, if_neg hactive]
  rfl

/-- Unless they end with an entry at the close, some bars leave it to the others what becomes of
    the position. -/
theorem outcomes_append {state : KrVirtualPositionState} {new rest : List KrCompletedMinuteBar}
    (h : rest ≠ [] ∨ ¬ (stateAfter r state new = .active ∧
      new.getLast?.any isClosingBar = true)) :
    outcomes r state (new ++ rest) =
      livedOutcomes r state new ++ outcomes r (stateAfter r state new) rest := by
  rw [outcomes, outcomes, livedOutcomes_append, stateAfter_append, List.append_assoc]
  by_cases hrest : rest = []
  · have hactive := (or_iff_right (not_not.2 hrest)).1 h
    subst hrest
    rw [List.append_nil, stateAfter, if_neg hactive]
    simp
  · rw [List.getLast?_append_of_ne_nil _ hrest]

/-- The first outcome of some bars is not that of a censored position. -/
theorem outcomes_ne_censored {state : KrVirtualPositionState} {bar : KrCompletedMinuteBar}
    {o : Outcome} {os : List Outcome} (ho : o.state = .censored) :
    outcomes r state (bar :: bars) ≠ o :: os := by
  intro h
  by_cases hterminal : state.terminal = true
  · rw [outcomes_of_terminal hterminal] at h
    cases h
  · rw [Bool.not_eq_true] at hterminal
    rw [outcomes, livedOutcomes_cons hterminal, List.cons_append] at h
    rw [← (List.cons.inj h).1] at ho
    exact barOutcome_ne_censored ho

/-- The entry of an armed position expires with its next bar exactly if that is all that becomes
    of it. -/
theorem outcomes_eq_expired_iff :
    outcomes r .armed bars = [⟨.expired, .entryExpired, none, none⟩] ↔ ExpiresNext r bars := by
  rcases bars with _ | ⟨bar, bars⟩
  · simp [outcomes, livedOutcomes, stateAfter, ExpiresNext]
  · have hexpires : ExpiresNext r (bar :: bars) ↔
        reachesEntry r bar = false ∧ r.validUntil ≤ bar.endAt := by
      simp [ExpiresNext]
    rw [hexpires, outcomes, livedOutcomes_cons rfl, stateAfter_cons rfl]
    constructor
    · intro h
      have hbar : barOutcome r .armed bar = ⟨.expired, .entryExpired, none, none⟩ :=
        (List.cons.inj h).1
      rw [barOutcome, if_pos rfl, filledOutcome] at hbar
      split_ifs at hbar with hreaches _ _ hexpired
      · cases hbar
      · cases hbar
      · cases hbar
      · exact ⟨Bool.not_eq_true _ ▸ hreaches, hexpired⟩
      · cases hbar
    · rintro ⟨hreaches, hexpired⟩
      have hbar : barOutcome r .armed bar = ⟨.expired, .entryExpired, none, none⟩ := by
        rw [barOutcome, if_pos rfl, hreaches, if_neg Bool.false_ne_true, if_pos hexpired]
      have hterminal : KrVirtualPositionState.expired.terminal = true := rfl
      rw [hbar, livedOutcomes_of_terminal hterminal, stateAfter_of_terminal hterminal]
      rfl

/-! ## The calls of a schedule -/

theorem Passes.le {polls : List Poll} (h : Passes r L n polls m) : n ≤ m := by
  induction polls generalizing n with
  | nil => exact Nat.le_of_eq h
  | cons poll polls ih => exact (Nat.le_max_left n poll.stop).trans (ih h.2.2.2.2.2)

theorem callFacts_poll {poll : Poll} (hL : Session r L) (haware : poll.now.aware = true)
    (hnow : r.timestamp ≤ poll.now)
    (hbars : ∀ bar ∈ poll.bars L, bar.endAt ≤ poll.now ∧ bar.observedAt ≤ poll.now) :
    CallFacts r (poll.bars L) poll.now := by
  have hsession : Session r (poll.bars L) := (hL.take poll.stop).drop poll.start
  exact ⟨hsession.valid, haware, hnow, fun bar hbar => (hbars bar hbar).1,
    fun bar hbar => (hbars bar hbar).2, hsession.date, hsession.ordered⟩

/-- Nothing more comes of a position that has ended. -/
theorem runPolls_of_terminal {polls : List Poll} (hr : validateRecommendation sha r = true)
    (hL : Session r L) (he : Follows sha r e) (hterminal : e.terminal = true)
    (hpass : Passes r L n polls m) : runPolls sha r L e polls = .ok [] := by
  induction polls generalizing n with
  | nil => rfl
  | cons poll polls ih =>
    obtain ⟨-, -, haware, hnow, hbars, hrest⟩ := hpass
    rw [runPolls, advance_of_terminal hr he (callFacts_poll hL haware hnow hbars) hterminal,
      Except.ok_bind, List.getLast?_nil, Option.getD_none, ih hrest]
    rfl

/-- A call that ends the position is the last one to make events. -/
theorem runPolls_of_end {poll : Poll} {polls : List Poll} {events : List KrVirtualPositionEvent}
    (hr : validateRecommendation sha r = true) (hL : Session r L)
    (hpass : Passes r L n polls m)
    (hadvance : advanceKrVirtualPosition sha r e (poll.bars L) poll.now = .ok events)
    (hlast : Follows sha r (events.getLast?.getD e))
    (hterminal : (events.getLast?.getD e).terminal = true) :
    runPolls sha r L e (poll :: polls) = .ok events := by
  rw [runPolls, hadvance, Except.ok_bind, runPolls_of_terminal hr hL hlast hterminal hpass]
  exact congrArg Except.ok (List.append_nil events)

theorem evidenceAfter_le (h : bars ⊆ L) :
    (evidenceAfter e bars).length ≤ (evidenceAfter e L).length :=
  length_sortedSet_le (List.append_subset.2 ⟨List.subset_append_left _ _,
    List.subset_append_of_subset_right _ (List.map_subset _ h)⟩)

theorem follows_censored {reason : KrVirtualPositionReason} {attempted : Option DateTime}
    (hr : RecommendationFacts r) (he : Follows sha r e)
    (hattempted : attempted.all DateTime.aware = true)
    (hreason : reason = .barGap ∨ reason = .divergentReplay) (hnow : now.aware = true) :
    Follows sha r (draft sha r (some e)
      { copyVirtualPositionTransition e .censored reason with attempted := attempted } now) :=
  follows_draft ((validateEvent_draft hr he.precedes_some
    (sound_censored he hattempted hreason) hnow).2 he.evidence.2.2) nofun

theorem follows_expired (hr : RecommendationFacts r) (he : Follows sha r e)
    (hstate : e.state = .armed) (hnow : now.aware = true) :
    Follows sha r
      (draft sha r (some e) (copyVirtualPositionTransition e .expired .entryExpired) now) :=
  follows_draft ((validateEvent_draft hr he.precedes_some
    (sound_expired he hstate) hnow).2 he.evidence.2.2) nofun

theorem timely_cons_iff {state : KrVirtualPositionState} {poll : Poll} {polls : List Poll}
    (hopen : state.terminal = false) :
    Timely r L m n state (poll :: polls) ↔
      if newBars r L n poll.stop = [] ∧ state = .armed ∧ r.validUntil ≤ poll.now then
        ExpiresNext r (newBars r L n m)
      else
        barsAreContinuous r (cursorAt r L n) (newBars r L n poll.stop) = true ∧
          if stateAfter r state (newBars r L n poll.stop) = .active ∧
              sessionClose r ≤ poll.now then
            (newBars r L n poll.stop).getLast?.any isClosingBar = true
          else
            Timely r L m (max n poll.stop) (stateAfter r state (newBars r L n poll.stop)) polls := by
  rw [Timely, hopen]
  exact or_iff_right Bool.false_ne_true

theorem timely_of_terminal {state : KrVirtualPositionState} {polls : List Poll}
    (h : state.terminal = true) : Timely r L m n state polls := by
  rcases polls with _ | ⟨poll, polls⟩
  · exact trivial
  · exact .inl h

/-- The bars that a position lives through, as long as it is open after them. -/
theorem lived_eq_self {state : KrVirtualPositionState}
    (h : (stateAfter r state bars).terminal = false) : lived r state bars = bars := by
  induction bars generalizing state with
  | nil => rfl
  | cons bar bars ih =>
    by_cases hterminal : state.terminal = true
    · rw [stateAfter_of_terminal hterminal, hterminal] at h
      cases h
    · rw [Bool.not_eq_true] at hterminal
      rw [stateAfter_cons hterminal] at h
      rw [lived_cons hterminal, ih h]

/-- What is known of a position when the first `n` bars of the session were passed to it. -/
structure SeenUpTo (sha : Sha256) (r : KrTradeRecommendation) (L : List KrCompletedMinuteBar)
    (n : ℕ) (e : KrVirtualPositionEvent) : Prop where
  follows : Follows sha r e
  isOpen : e.terminal = false
  cursor : e.acceptedCompletedBarCursor = cursorAt r L n
  evidence : ∀ bar ∈ passedBars r L n, bar.evidenceRef.canonicalId ∈ e.evidenceRefs

/-- A poll either lets the entry expire, or finds a gap, or applies the new bars. -/
theorem advance_poll (poll : Poll) (hr : validateRecommendation sha r = true) (hL : Session r L)
    (he : SeenUpTo sha r L n e) (hstart : poll.start ≤ n)
    (hcall : CallFacts r (poll.bars L) poll.now)
    (hle : (evidenceAfter e (lived r e.state (newBars r L n poll.stop))).length ≤ 512) :
    advanceKrVirtualPosition sha r e (poll.bars L) poll.now = .ok
      (if newBars r L n poll.stop = [] ∧ e.state = .armed ∧ r.validUntil ≤ poll.now then
        [draft sha r (some e) (copyVirtualPositionTransition e .expired .entryExpired) poll.now]
      else if ¬ barsAreContinuous r (cursorAt r L n) (newBars r L n poll.stop) then
        [draft sha r (some e) { copyVirtualPositionTransition e .censored .barGap with
          attempted := (newBars r L n poll.stop).getLast?.map (·.endAt) } poll.now]
      else
        follow sha r poll.now e (newBars r L n poll.stop) ++
          closing sha r ((follow sha r poll.now e (newBars r L n poll.stop)).getLast?.getD e)
            poll.now) := by
  obtain ⟨hreplayed, hfresh⟩ := replayed_and_fresh poll.stop hL hstart he.cursor
  have hexact : virtualPositionReplayIsExact e (replayedBars r e (poll.bars L)) = true :=
    List.all_eq_true.2 fun bar hbar => decide_eq_true (he.evidence bar (hreplayed bar hbar))
  have hfits : (evidenceAfter e (appliedBars r e (poll.bars L))).length ≤ 512 := by
    refine le_trans (evidenceAfter_le ?_) hle
    rw [appliedBars]
    split_ifs
    · exact hfresh ▸ List.Subset.refl _
    · exact List.nil_subset _
  have hopen := Bool.eq_false_iff.1 he.isOpen
  rw [advance_eq hr he.follows hcall he.isOpen, if_pos hfits, advanceEvents, if_neg hopen,
    if_neg (not_not.2 hexact), he.cursor]
  exact hfresh ▸ rfl

/-- The next head of a position that is still open after the new bars. -/
theorem seenUpTo_follow {poll : Poll} (hr : RecommendationFacts r) (hL : Session r L)
    (he : SeenUpTo sha r L n e) (hnow : poll.now.aware = true)
    (hle : (evidenceAfter e (lived r e.state (newBars r L n poll.stop))).length ≤ 512)
    (hopen : (stateAfter r e.state (newBars r L n poll.stop)).terminal = false) :
    SeenUpTo sha r L (max n poll.stop)
      ((follow sha r poll.now e (newBars r L n poll.stop)).getLast?.getD e) := by
  have haware : ∀ bar ∈ newBars r L n poll.stop, bar.endAt.aware = true := fun bar hbar =>
    aware_endAt (hL.valid bar (List.mem_of_mem_take
      (List.mem_of_mem_drop (List.mem_filter.1 hbar).1)))
  have hfollowed := followed_follow hr he.follows haware hnow hle
  have hlived := lived_eq_self hopen
  refine ⟨follows_last he.follows (follows_follow hr he.follows haware hnow hle), ?_, ?_, ?_⟩
  · rw [KrVirtualPositionEvent.terminal, hfollowed.state, hopen]
  · rw [hfollowed.cursor, hlived, he.cursor, cursorAt, cursorAt, passedBars_max,
      List.getLast?_append]
    cases (newBars r L n poll.stop).getLast? <;> rfl
  · intro bar hbar
    rw [hfollowed.evidence, hlived, evidenceAfter, mem_sortedSet, List.mem_append]
    rw [passedBars_max] at hbar
    rcases List.mem_append.1 hbar with hbar | hbar
    · exact .inl (he.evidence bar hbar)
    · exact .inr (List.mem_map_of_mem hbar)

theorem evidenceAfter_append {last : KrVirtualPositionEvent}
    {new rest : List KrCompletedMinuteBar} (h : last.evidenceRefs = evidenceAfter e new) :
    evidenceAfter last rest = evidenceAfter e (new ++ rest) := by
  refine sortedSet_congr fun x => ?_
  rw [h, evidenceAfter]
  simp only [List.mem_append, mem_sortedSet, List.map_append, or_assoc]

/-- A position that is left held after the close gets the outcomes of the bars exactly if the last
    one of the session was passed. -/
theorem outcomes_late_iff {state : KrVirtualPositionState} {new rest : List KrCompletedMinuteBar}
    (hsession : Session r (new ++ rest)) (hactive : stateAfter r state new = .active) :
    livedOutcomes r state new ++ [censoredOutcome r] = outcomes r state (new ++ rest) ↔
      new.getLast?.any isClosingBar = true := by
  by_cases hrest : rest = []
  · subst hrest
    rw [List.append_nil, outcomes, List.append_cancel_left_eq]
    by_cases hclosing : new.getLast?.any isClosingBar = true
    · rw [if_pos ⟨hactive, hclosing⟩]
      exact iff_of_true rfl hclosing
    · rw [if_neg fun h => hclosing h.2]
      exact iff_of_false nofun hclosing
  · obtain ⟨bar, bars, rfl⟩ := List.exists_cons_of_ne_nil hrest
    rw [outcomes_append (.inl hrest), List.append_cancel_left_eq]
    refine iff_of_false (fun h => outcomes_ne_censored rfl h.symm) fun h => ?_
    obtain ⟨last, hlast, hclosing⟩ := (Option.any_eq_true _ _).1 h
    exact hsession.not_isClosingBar hrest (List.mem_of_getLast? hlast) hclosing

/-- The last bar of the session is not passed before the close. -/
theorem close_le_now {poll : Poll} (hL : Session r L) (hstart : poll.start ≤ n)
    (hbars : ∀ bar ∈ poll.bars L, bar.endAt ≤ poll.now)
    (h : (newBars r L n poll.stop).getLast?.any isClosingBar = true) :
    sessionClose r ≤ poll.now := by
  obtain ⟨last, hlast, hclosing⟩ := (Option.any_eq_true _ _).1 h
  have hmem := List.mem_of_getLast? hlast
  have hbatch : last ∈ poll.bars L := by
    rw [Poll.bars, drop_eq_append hstart]
    exact List.mem_append_right _ (List.mem_filter.1 hmem).1
  have hend := hbars last hbatch
  rw [DateTime.le_def, instant_of_isClosingBar hclosing ((hL.newBars n poll.stop).date last hmem)]
    at hend
  exact hend

/-- Of the schedules that pass some bars, just the timely ones give the outcomes of the bars. -/
theorem runPolls_outcomes {polls : List Poll} (hr : validateRecommendation sha r = true)
    (hL : Session r L) (he : SeenUpTo sha r L n e)
    (hle : (evidenceAfter e (lived r e.state (newBars r L n m))).length ≤ 512)
    (hpass : Passes r L n polls m) :
    ∃ events, runPolls sha r L e polls = .ok events ∧
      (events.map KrVirtualPositionEvent.outcome = outcomes r e.state (newBars r L n m) ↔
        Timely r L m n e.state polls) := by
  induction polls generalizing n e with
  | nil =>
    have hn : n = m := hpass
    subst hn
    have hnil : newBars r L n n = [] := by
      rw [newBars, List.drop_eq_nil_of_le (L.length_take_le n)]
      rfl
    rw [hnil]
    exact ⟨[], rfl, iff_of_true (by simp [outcomes, livedOutcomes]) trivial⟩
  | cons poll polls ih =>
    obtain ⟨hstart, -, haware, hnow, hbars, hrest⟩ := hpass
    have hr' := recommendationFacts hr
    have hcall := callFacts_poll hL haware hnow hbars
    have hsplit : newBars r L n m =
        newBars r L n poll.stop ++ newBars r L (max n poll.stop) m :=
      newBars_append ((Nat.le_max_right n poll.stop).trans hrest.le)
    have hsession := hL.newBars n m
    rw [hsplit] at hle hsession
    have hlenew : (evidenceAfter e (lived r e.state (newBars r L n poll.stop))).length ≤ 512 :=
      le_trans (evidenceAfter_le (by
        rw [lived_append]
        exact List.subset_append_left _ _)) hle
    have hadvance := advance_poll poll hr hL he hstart hcall hlenew
    rw [timely_cons_iff he.isOpen, hsplit]
    by_cases hexpires : newBars r L n poll.stop = [] ∧ e.state = .armed ∧ r.validUntil ≤ poll.now
    · -- The entry is no longer valid, and the position expires.
      obtain ⟨hprice, -⟩ := he.follows.unfilled hexpires.2.1
      rw [if_pos hexpires] at hadvance ⊢
      refine ⟨_, runPolls_of_end hr hL hrest hadvance
        (follows_expired hr' he.follows hexpires.2.1 haware) rfl, ?_⟩
      rw [hexpires.1, List.nil_append, hexpires.2.1, ← outcomes_eq_expired_iff, eq_comm]
      have houtcome : [(draft sha r (some e) (copyVirtualPositionTransition e .expired
          .entryExpired) poll.now).outcome] = [⟨.expired, .entryExpired, none, none⟩] := by
        simp [KrVirtualPositionEvent.outcome, draft, copyVirtualPositionTransition, hprice]
      rw [List.map_cons, List.map_nil, houtcome]
    rw [if_neg hexpires] at hadvance ⊢
    have haware' : ∀ bar ∈ newBars r L n poll.stop, bar.endAt.aware = true := fun bar hbar =>
      aware_endAt ((hL.newBars n poll.stop).valid bar hbar)
    by_cases hcontinuous : barsAreContinuous r (cursorAt r L n) (newBars r L n poll.stop) = true
    · rw [if_neg (not_not.2 hcontinuous)] at hadvance
      rw [and_iff_right hcontinuous]
      have hfollowed := followed_follow hr' he.follows haware' haware hlenew
      have hlast := follows_last he.follows
        (follows_follow hr' he.follows haware' haware hlenew)
      rw [closing, hfollowed.state] at hadvance
      by_cases hlate : stateAfter r e.state (newBars r L n poll.stop) = .active ∧
          sessionClose r ≤ poll.now
      · -- The position is held after the close, and its exit is unknown.
        rw [if_pos hlate] at hadvance ⊢
        have hprice := (hlast.filled (hfollowed.state.trans hlate.1)).1
        have hcensored := follows_censored hr' hlast
          (aware_sessionClose (r := r)) (.inl rfl) haware
        refine ⟨_, runPolls_of_end hr hL hrest hadvance ?_ ?_, ?_⟩
        · rw [List.getLast?_concat]
          exact hcensored
        · rw [List.getLast?_concat]
          rfl
        · rw [List.map_append, hfollowed.outcomes, ← outcomes_late_iff hsession hlate.1,
            List.map_cons, List.map_nil, censoredOutcome, ← hprice]
          exact Iff.rfl
      rw [if_neg hlate, List.append_nil] at hadvance
      rw [if_neg hlate]
      have hends : newBars r L (max n poll.stop) m ≠ [] ∨
          ¬ (stateAfter r e.state (newBars r L n poll.stop) = .active ∧
            (newBars r L n poll.stop).getLast?.any isClosingBar = true) := by
        exact .inr fun h => hlate ⟨h.1, close_le_now hL hstart (fun b hb => (hbars b hb).1) h.2⟩
      rw [outcomes_append hends]
      by_cases hopen : (stateAfter r e.state (newBars r L n poll.stop)).terminal = true
      · -- The position has ended with one of the bars.
        rw [outcomes_of_terminal hopen, List.append_nil]
        refine ⟨_, runPolls_of_end hr hL hrest hadvance hlast ?_, ?_⟩
        · rw [KrVirtualPositionEvent.terminal, hfollowed.state, hopen]
        · exact iff_of_true hfollowed.outcomes (timely_of_terminal hopen)
      · rw [Bool.not_eq_true] at hopen
        have hnext := seenUpTo_follow hr' hL he haware hlenew hopen
        have hevidence : (evidenceAfter ((follow sha r poll.now e
            (newBars r L n poll.stop)).getLast?.getD e) (lived r (stateAfter r e.state
              (newBars r L n poll.stop)) (newBars r L (max n poll.stop) m))).length ≤ 512 := by
          rw [evidenceAfter_append hfollowed.evidence, ← lived_append]
          exact hle
        rw [← hfollowed.state] at hevidence
        obtain ⟨events, hrun, hiff⟩ := ih hnext hevidence hrest
        rw [hfollowed.state] at hiff
        refine ⟨_, by rw [runPolls, hadvance, Except.ok_bind, hrun]; rfl, ?_⟩
        rw [List.map_append, hfollowed.outcomes, List.append_cancel_left_eq, hiff]
    · -- A bar is missing.
      rw [if_pos hcontinuous] at hadvance
      have hnew : newBars r L n poll.stop ≠ [] := by
        intro hnil
        rw [hnil] at hcontinuous
        exact hcontinuous rfl
      obtain ⟨bar, bars, hcons⟩ := List.exists_cons_of_ne_nil hnew
      have hlast : ((newBars r L n poll.stop).getLast?.map (·.endAt)).all DateTime.aware = true := by
        cases h : (newBars r L n poll.stop).getLast? with
        | none => rfl
        | some last => exact haware' last (List.mem_of_getLast? h)
      refine ⟨_, runPolls_of_end hr hL hrest hadvance
        (follows_censored hr' he.follows hlast (.inl rfl) haware) rfl, ?_⟩
      refine iff_of_false (fun h => ?_) fun h => hcontinuous h.1
      rw [hcons, List.cons_append] at h
      exact outcomes_ne_censored rfl h.symm

/-- A position that was just armed has seen no bar. -/
theorem arm_eq_ok (hr : validateRecommendation sha r = true)
    (h : armKrVirtualPosition sha r now = .ok e) :
    SeenUpTo sha r L 0 e ∧ e.state = .armed ∧ e.evidenceRefs = r.evidenceRefs := by
  rw [armKrVirtualPosition, Except.raiseIf, if_neg (not_not.2 hr), Except.ok_bind, event,
    Except.bind_eq_ok] at h
  obtain ⟨u, hvalid, h⟩ := h
  rw [Except.raiseIf_eq_ok, not_not] at hvalid
  have he := Except.pure_eq_ok.1 h
  subst he
  exact ⟨⟨⟨hvalid, rfl, rfl, rfl, rfl, rfl, rfl, fun _ => ⟨rfl, rfl⟩⟩, rfl, rfl,
    fun _ hbar => absurd hbar List.not_mem_nil⟩, rfl, rfl⟩

/-- Polling a position does not change what becomes of it, as long as the polls are timely: of two
    schedules that pass the same bars of a session, one of which is timely, both give the same
    outcomes exactly if the other one is timely as well. -/
theorem outcomes_eq_iff_timely {armed armed' : KrVirtualPositionEvent} {now now' : DateTime}
    {polls polls' : List Poll} (hr : validateRecommendation sha r = true) (hL : Session r L)
    (hfits : (sortedSet (r.evidenceRefs ++
      (lived r .armed (newBars r L 0 m)).map (·.evidenceRef.canonicalId))).length ≤ 512)
    (harmed : armKrVirtualPosition sha r now = .ok armed)
    (harmed' : armKrVirtualPosition sha r now' = .ok armed')
    (hpolls : Passes r L 0 polls m) (hpolls' : Passes r L 0 polls' m)
    (htimely : Timely r L m 0 .armed polls) :
    ∃ events events', runPolls sha r L armed polls = .ok events ∧
      runPolls sha r L armed' polls' = .ok events' ∧
      events.map KrVirtualPositionEvent.outcome = outcomes r .armed (newBars r L 0 m) ∧
      (events'.map KrVirtualPositionEvent.outcome = events.map KrVirtualPositionEvent.outcome ↔
        Timely r L m 0 .armed polls') := by
  obtain ⟨hseen, hstate, hevidence⟩ := arm_eq_ok (L := L) hr harmed
  obtain ⟨hseen', hstate', hevidence'⟩ := arm_eq_ok (L := L) hr harmed'
  rw [← hevidence, ← hstate] at hfits
  obtain ⟨events, hrun, hiff⟩ := runPolls_outcomes hr hL hseen hfits hpolls
  rw [hevidence, hstate, ← hevidence', ← hstate'] at hfits
  obtain ⟨events', hrun', hiff'⟩ := runPolls_outcomes hr hL hseen' hfits hpolls'
  rw [hstate] at hiff
  rw [hstate'] at hiff'
  have houtcomes := hiff.2 htimely
  exact ⟨events, events', hrun, hrun', houtcomes, by rw [houtcomes, hiff']⟩

namespace PollingSample

/-- A digest that tells the events of positions that are held from all other texts. -/
def digest : Sha256 where
  hexdigest material :=
    String.ofList (List.replicate 64 (if .str "ACTIVE" ∈ material then '1' else '0'))
  isHex64_hexdigest material := by split <;> decide +kernel

def identity : String := digest.hexdigest []

/-- A time of the session, by the clocks of Seoul. -/
def clock (hour minute second : ℤ) : DateTime :=
  DateTime.combine (Date.ofCivil 2026 8 27) hour minute (TimeDelta.hours 9) +
    TimeDelta.seconds second

def verdict : KrAutonomousCriticVerdict :=
  ⟨identity, some identity, identity, .approved, [.approved]⟩

/-- A recommendation to enter at 103, which is valid for two minutes. -/
def recommendation : KrTradeRecommendation where
  eventId := identity
  planId := identity
  timestamp := clock 9 59 30
  taskId := identity
  thesisId := identity
  proposalId := identity
  socialSignalId := identity
  marketCorroborationId := identity
  evidenceRefs := ["social:1"]
  symbol := "005930"
  theme := "memory"
  entry := 103
  stop := 101
  targets := (105, 107)
  quantity := 10
  rationale := "reclaim"
  counterevidence := ["crowded"]
  verificationState := .unverifiedSocial
  criticVerdictId := identity
  criticVerdict := verdict
  validUntil := clock 10 1 30

/-- The first minute after the recommendation, which reaches the entry. -/
def bar : KrCompletedMinuteBar where
  symbol := "005930"
  startAt := clock 10 0 0
  endAt := clock 10 1 0
  observedAt := clock 10 1 1
  open_ := 103
  high := 104
  low := 102
  close := 103
  volume := 100
  tradingValueKrw := 10300
  evidenceRef := ⟨"kr/virtual_bar", "1", clock 10 1 1⟩

/-- The bar is passed as soon as it was observed. -/
def prompt : List Poll := [⟨0, 1, clock 10 1 1⟩]

/-- The position is polled twice without a new bar, and once again with the same bar. -/
def often : List Poll :=
  [⟨0, 0, clock 10 0 30⟩, ⟨0, 0, clock 10 1 0⟩, ⟨0, 1, clock 10 1 20⟩, ⟨0, 1, clock 10 2 0⟩]

/-- The position is polled without the bar when the entry is no longer valid. -/
def late : List Poll := [⟨0, 0, clock 10 1 30⟩, ⟨0, 1, clock 10 1 31⟩]

theorem isHex64_identity : isHex64 identity = true := digest.isHex64_hexdigest []

theorem valid : validateRecommendation digest recommendation = true := by
  have h := isHex64_identity
  have hverdict : validateVerdict digest verdict = true := by
    simp only [validateVerdict, Bool.decide_and, Bool.and_eq_true, decide_eq_true_eq]
    exact ⟨h, h, h, by decide, by decide, by decide +kernel⟩
  simp only [validateRecommendation, Bool.decide_and, Bool.and_eq_true, decide_eq_true_eq,
    List.all_cons]
  exact ⟨⟨h, h, h, h, h, h, h, h, rfl⟩, rfl, rfl, rfl, by decide, by decide, hverdict,
    by decide +kernel, by decide +kernel, by decide +kernel, rfl, rfl, rfl, rfl,
    by decide +kernel, by decide +kernel⟩

theorem session : Session recommendation [bar] :=
  ⟨by decide +kernel, by decide +kernel, by decide +kernel⟩

def armed : KrVirtualPositionEvent :=
  draft digest recommendation none
    ⟨.armed, .armed, none, none, none, none, none, none, recommendation.evidenceRefs⟩
    recommendation.timestamp

theorem armed_eq :
    armKrVirtualPosition digest recommendation recommendation.timestamp = .ok armed :=
  arm_eq valid rfl

theorem passes_prompt : Passes recommendation [bar] 0 prompt 1 :=
  ⟨by decide, by decide, rfl, by decide, by decide +kernel, rfl⟩

theorem passes_often : Passes recommendation [bar] 0 often 1 :=
  ⟨by decide, by decide, rfl, by decide, by decide +kernel, by decide, by decide, rfl, by decide,
    by decide +kernel, by decide, by decide, rfl, by decide, by decide +kernel, by decide,
    by decide, rfl, by decide, by decide +kernel, rfl⟩

theorem passes_late : Passes recommendation [bar] 0 late 1 :=
  ⟨by decide, by decide, rfl, by decide, by decide +kernel, by decide, by decide, rfl, by decide,
    by decide +kernel, rfl⟩

end PollingSample

open PollingSample in
/-- Polling more often, and passing the bar again, makes no difference. -/
theorem outcomes_eq_iff_timely_sample :
    ∃ events events', runPolls digest recommendation [bar] armed prompt = .ok events ∧
      runPolls digest recommendation [bar] armed often = .ok events' ∧
      events'.map KrVirtualPositionEvent.outcome = events.map KrVirtualPositionEvent.outcome := by
  obtain ⟨events, events', hrun, hrun', -, hiff⟩ := outcomes_eq_iff_timely (m := 1) valid session
    (by decide +kernel) armed_eq armed_eq passes_prompt passes_often (by decide +kernel)
  exact ⟨events, events', hrun, hrun', hiff.2 (by decide +kernel)⟩

open PollingSample in
/-- A poll without new bars lets the entry expire, although a bar that ended before was going to
    fill it. -/
theorem late_poll_changes_outcome :
    ∃ events events', Passes recommendation [bar] 0 prompt 1 ∧
      Passes recommendation [bar] 0 late 1 ∧ bar.endAt ≤ recommendation.validUntil ∧
      armKrVirtualPosition digest recommendation recommendation.timestamp = .ok armed ∧
      runPolls digest recommendation [bar] armed prompt = .ok events ∧
      runPolls digest recommendation [bar] armed late = .ok events' ∧
      events.map KrVirtualPositionEvent.outcome = [⟨.active, .entry, some 103, none⟩] ∧
      events'.map KrVirtualPositionEvent.outcome = [⟨.expired, .entryExpired, none, none⟩] := by
  obtain ⟨events, hrun, hiff⟩ := runPolls_outcomes (m := 1) valid session
    (arm_eq_ok valid armed_eq).1 (by decide +kernel) passes_prompt
  have hevents := hiff.2 (by decide +kernel)
  have hrun' : runPolls digest recommendation [bar] armed late = .ok
      [draft digest recommendation (some armed)
        (copyVirtualPositionTransition armed .expired .entryExpired) (clock 10 1 30)] := by
    have hseen := (arm_eq_ok (L := [bar]) valid armed_eq).1
    have hadvance := advance_poll ⟨0, 0, clock 10 1 30⟩ valid session hseen (by decide)
      (callFacts_poll session rfl (by decide) fun _ hbar => absurd hbar List.not_mem_nil)
      hseen.follows.evidence.2.2
    have hexpires : newBars recommendation [bar] 0 0 = [] ∧ armed.state = .armed ∧
        recommendation.validUntil ≤ clock 10 1 30 := ⟨rfl, rfl, by decide⟩
    rw [if_pos hexpires] at hadvance
    exact runPolls_of_end valid session passes_late.2.2.2.2.2 hadvance
      (follows_expired (recommendationFacts valid) hseen.follows rfl rfl) rfl
  exact ⟨events, _, passes_prompt, passes_late, by decide, armed_eq, hrun, hrun',
    hevents.trans (by decide +kernel), rfl⟩

end TradingAgent.Kr
