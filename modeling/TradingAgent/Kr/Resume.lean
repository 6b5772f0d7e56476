import TradingAgent.Kr.Polling

/-!
# Advancing again after a crash

A call may be interrupted after it has stored some of its events, and is then made again, on the last
event that was stored. It finds the bars of these events among those that it has seen, and applies
the other ones (`advanceEvents_resume`). What it adds is what the interrupted call would have added,
but for the time at which it occurs, and the identities that depend on it (`SameEvent`).
-/

namespace TradingAgent.Kr

variable {sha : Sha256} {r : KrTradeRecommendation} {e e' : KrVirtualPositionEvent}
  {bars : List KrCompletedMinuteBar} {bar : KrCompletedMinuteBar} {now now' : DateTime}

/-- Two events that differ at most in the time at which they occur, and in their identities. -/
def SameEvent (e e' : KrVirtualPositionEvent) : Prop :=
  { e' with
    eventId := e.eventId, previousEventId := e.previousEventId, occurredAt := e.occurredAt } = e

theorem SameEvent.refl (e : KrVirtualPositionEvent) : SameEvent e e := rfl

/-- Events that are the same go on in the same way. -/
theorem sameEvent_draft (sha : Sha256) (r : KrTradeRecommendation)
    (t : KrVirtualPositionTransition) (now now' : DateTime) (h : SameEvent e e') :
    SameEvent (draft sha r (some e) t now) (draft sha r (some e') t now') := by
  rw [SameEvent] at h
  have hsequence : e'.sequence = e.sequence := congrArg (·.sequence) h
  simp only [SameEvent, draft, Option.map_some, Option.getD_some, hsequence]

theorem SameEvent.state (h : SameEvent e e') : e'.state = e.state := by
  rw [← h]

theorem SameEvent.terminal (h : SameEvent e e') : e'.terminal = e.terminal :=
  congrArg KrVirtualPositionState.terminal h.state

theorem SameEvent.applyBar (h : SameEvent e e') : applyBar r e' bar = applyBar r e bar := by
  rw [← h]
  rfl

theorem SameEvent.copy {state : KrVirtualPositionState} {reason : KrVirtualPositionReason}
    (h : SameEvent e e') :
    copyVirtualPositionTransition e' state reason = copyVirtualPositionTransition e state reason :=
  by
  rw [← h]
  rfl

theorem sameEvent_follow (h : SameEvent e e') :
    (follow sha r now e bars).Forall₂ SameEvent (follow sha r now' e' bars) := by
  induction bars generalizing e e' with
  | nil => exact .nil
  | cons bar bars ih =>
    by_cases hterminal : e.terminal = true
    · rw [follow_of_terminal hterminal, follow_of_terminal (h.terminal.trans hterminal)]
      exact .nil
    · rw [Bool.not_eq_true] at hterminal
      have hnext := sameEvent_draft sha r (applyBar r e bar) now now' h
      rw [follow_cons hterminal, follow_cons (h.terminal.trans hterminal), h.applyBar]
      exact .cons hnext (ih hnext)

/-! ## The events of a part of the bars -/

theorem follow_append {bars' : List KrCompletedMinuteBar} :
    follow sha r now e (bars ++ bars') = follow sha r now e bars ++
      follow sha r now ((follow sha r now e bars).getLast?.getD e) bars' := by
  induction bars generalizing e with
  | nil => rfl
  | cons bar bars ih =>
    rw [List.cons_append]
    by_cases hterminal : e.terminal = true
    · simp only [follow_of_terminal hterminal, List.getLast?_nil, Option.getD_none, List.append_nil]
    · rw [Bool.not_eq_true] at hterminal
      rw [follow_cons hterminal, follow_cons hterminal, ih, List.getLast?_cons, Option.getD_some,
        List.cons_append]

theorem length_follow_le : (follow sha r now e bars).length ≤ bars.length := by
  induction bars generalizing e with
  | nil => exact Nat.le_refl 0
  | cons bar bars ih =>
    by_cases hterminal : e.terminal = true
    · rw [follow_of_terminal hterminal]
      exact Nat.zero_le _
    · rw [Bool.not_eq_true] at hterminal
      rw [follow_cons hterminal, List.length_cons, List.length_cons]
      exact Nat.succ_le_succ ih

theorem follow_take (k : ℕ) :
    follow sha r now e (bars.take k) = (follow sha r now e bars).take k := by
  induction bars generalizing e k with
  | nil => rw [List.take_nil, follow, List.take_nil]
  | cons bar bars ih =>
    rcases k with _ | k
    · rfl
    · rw [List.take_succ_cons]
      by_cases hterminal : e.terminal = true
      · rw [follow_of_terminal hterminal, follow_of_terminal hterminal, List.take_nil]
      · rw [Bool.not_eq_true] at hterminal
        rw [follow_cons hterminal, follow_cons hterminal, List.take_succ_cons, ih]

/-! ## Continuous bars -/

theorem barsAreContinuous_iff {cursor : Option DateTime} :
    barsAreContinuous r cursor bars = true ↔
      ∀ (i : ℕ) (bar : KrCompletedMinuteBar), bars[i]? = some bar →
        bar.symbol = r.symbol ∧
          bar.startAt.instant = ((cursor.getD (firstStart r)) + TimeDelta.minutes i).instant ∧
          (bar.startAt.astimezone KST).date = sessionDate r := by
  rw [barsAreContinuous, List.all_eq_true]
  constructor
  · intro h i bar hbar
    exact of_decide_eq_true (h (bar, i) (List.mem_zipIdx_iff_getElem?.2 hbar))
  · rintro h ⟨bar, i⟩ hbar
    exact decide_eq_true (h i bar (List.mem_zipIdx_iff_getElem?.1 hbar))

/-- Bars that are continuous are so after some of them as well. -/
theorem barsAreContinuous_append {cursor : Option DateTime} {last : KrCompletedMinuteBar}
    {before after : List KrCompletedMinuteBar} (hvalid : validateBar last = true)
    (h : barsAreContinuous r cursor (before ++ last :: after) = true) :
    barsAreContinuous r (some last.endAt) after = true := by
  rw [barsAreContinuous_iff] at h ⊢
  intro i bar hbar
  have hlast := (h before.length last (by simp)).2.1
  have hindex : (before ++ last :: after)[before.length + 1 + i]? = some bar := by
    rw [List.getElem?_append_right (by omega)]
    have hsub : before.length + 1 + i - before.length = i + 1 := by omega
    rw [hsub, List.getElem?_cons_succ, hbar]
  obtain ⟨hsymbol, hstart, hdate⟩ := h _ bar hindex
  refine ⟨hsymbol, ?_, hdate⟩
  rw [hstart, Option.getD_some, DateTime.instant_add, DateTime.instant_add,
    ← instant_startAt hvalid, hlast, DateTime.instant_add]
  push_cast
  simp only [TimeDelta.minutes, TimeDelta.seconds]
  omega

/-! ## The bars of a call that is made again -/

theorem CallFacts.session (h : CallFacts r bars now) : Session r bars :=
  ⟨h.valid, h.date, h.ordered⟩

/-- A bar that counts is seen or new. -/
theorem mem_replayedBars_or_freshBars (h : bar ∈ bars.filter (isFuture r)) :
    bar ∈ replayedBars r e bars ∨ bar ∈ freshBars r e bars := by
  rw [replayedBars, freshBars]
  cases e.acceptedCompletedBarCursor with
  | none => exact .inr h
  | some cursor =>
    by_cases hle : bar.endAt ≤ cursor
    · exact .inl (List.mem_filter.2 ⟨h, decide_eq_true hle⟩)
    · exact .inr (List.mem_filter.2 ⟨h, decide_eq_true (DateTime.not_le.1 hle)⟩)

section Resume

variable {before after : List KrCompletedMinuteBar} {last : KrCompletedMinuteBar}
  (hsession : Session r bars) (hfresh : freshBars r e bars = before ++ last :: after)
include hsession hfresh

theorem pairwise_fresh : (before ++ last :: after).Pairwise fun a b => a.endAt < b.endAt := by
  have hsub : (freshBars r e bars).Sublist bars := by
    rw [freshBars]
    cases e.acceptedCompletedBarCursor with
    | none => exact List.filter_sublist
    | some cursor => exact List.filter_sublist.trans List.filter_sublist
  have hpairwise := (hsession.pairwise.sublist hsub)
  rw [← hfresh]
  refine hpairwise.imp_of_mem fun {a b} _ hb h => ?_
  exact lt_of_le_of_lt (α := ℤ) h (startAt_lt_endAt (hsession.valid b (hsub.subset hb)))

theorem filter_after : (before ++ last :: after).filter (last.endAt < ·.endAt) = after := by
  obtain ⟨-, hlast, hcross⟩ := List.pairwise_append.1 (pairwise_fresh hsession hfresh)
  have hbefore : before.filter (last.endAt < ·.endAt) = [] :=
    List.filter_eq_nil_iff.2 fun b hb => by
      rw [decide_eq_true_eq]
      exact lt_asymm (α := ℤ) (hcross b hb last List.mem_cons_self)
  have hafter : after.filter (last.endAt < ·.endAt) = after :=
    List.filter_eq_self.2 fun b hb => decide_eq_true ((List.pairwise_cons.1 hlast).1 b hb)
  rw [List.filter_append, hbefore, List.nil_append, List.filter_cons_of_neg, hafter]
  rw [decide_eq_true_eq]
  exact lt_irrefl (α := ℤ) _

/-- On the event of a bar, the call finds that bar and those before it among the ones that it has
    seen. -/
theorem resumed_bars {head : KrVirtualPositionEvent}
    (hcursor : head.acceptedCompletedBarCursor = some last.endAt) :
    freshBars r head bars = after ∧
      ∀ b ∈ replayedBars r head bars, b ∈ replayedBars r e bars ∨ b ∈ before ++ [last] := by
  have hlast : last ∈ freshBars r e bars := hfresh ▸ List.mem_append_right _ List.mem_cons_self
  have hafter := filter_after hsession hfresh
  have hhead : freshBars r head bars = (bars.filter (isFuture r)).filter (last.endAt < ·.endAt) :=
    by rw [freshBars, hcursor]; rfl
  constructor
  · rw [hhead]
    cases hold : e.acceptedCompletedBarCursor with
    | none =>
      have hall : freshBars r e bars = bars.filter (isFuture r) := by
        rw [freshBars, hold]
        rfl
      rw [← hall, hfresh, hafter]
    | some cursor =>
      have hlt : cursor < last.endAt := (mem_freshBars hlast).2.2 cursor hold
      have hold : freshBars r e bars = (bars.filter (isFuture r)).filter (cursor < ·.endAt) := by
        rw [freshBars, hold]
        rfl
      have himp : ((bars.filter (isFuture r)).filter (cursor < ·.endAt)).filter
          (last.endAt < ·.endAt) = (bars.filter (isFuture r)).filter (last.endAt < ·.endAt) := by
        rw [List.filter_filter]
        refine List.filter_congr fun b _ => ?_
        rw [Bool.and_eq_left_iff_imp]
        intro h
        exact decide_eq_true (lt_trans (α := ℤ) hlt (of_decide_eq_true h))
      rw [← himp, ← hold, hfresh, hafter]
  · intro b hb
    have hmem : b ∈ bars.filter (isFuture r) ∧ b.endAt ≤ last.endAt := by
      rw [replayedBars, hcursor] at hb
      exact ⟨(List.mem_filter.1 hb).1, of_decide_eq_true (List.mem_filter.1 hb).2⟩
    refine (mem_replayedBars_or_freshBars hmem.1).imp_right fun hnew => ?_
    rw [hfresh, ← List.singleton_append, ← List.append_assoc] at hnew
    rcases List.mem_append.1 hnew with hnew | hnew
    · exact hnew
    · have hlt : last.endAt < b.endAt :=
        (List.pairwise_cons.1 (List.pairwise_append.1
          (pairwise_fresh hsession hfresh)).2.1).1 b hnew
      exact absurd hmem.2 (DateTime.not_le.2 hlt)

end Resume

/-! ## Events after the end of a position -/

/-- Nothing follows an event that ends the position. -/
def EndsOnce (events : List KrVirtualPositionEvent) : Prop :=
  ∀ before e after, events = before ++ e :: after → e.terminal = true → after = []

theorem endsOnce_nil : EndsOnce [] := by
  intro before e after h
  simp at h

theorem endsOnce_singleton (e : KrVirtualPositionEvent) : EndsOnce [e] := by
  intro before e' after h
  rcases before with _ | ⟨b, before⟩
  · exact fun _ => (List.cons.inj h).2.symm
  · simp at h

theorem endsOnce_cons {events : List KrVirtualPositionEvent}
    (h : e.terminal = true → events = []) (hevents : EndsOnce events) : EndsOnce (e :: events) := by
  intro before e' after heq hterminal
  rcases before with _ | ⟨b, before⟩
  · obtain ⟨rfl, rfl⟩ := List.cons.inj heq
    exact h hterminal
  · exact hevents before e' after (List.cons.inj heq).2 hterminal

theorem endsOnce_follow : EndsOnce (follow sha r now e bars) := by
  induction bars generalizing e with
  | nil => exact endsOnce_nil
  | cons bar bars ih =>
    by_cases hterminal : e.terminal = true
    · rw [follow_of_terminal hterminal]
      exact endsOnce_nil
    · rw [Bool.not_eq_true] at hterminal
      rw [follow_cons hterminal]
      exact endsOnce_cons follow_of_terminal ih

theorem closing_of_terminal (h : e.terminal = true) : closing sha r e now = [] := by
  refine if_neg ?_
  rintro ⟨hstate, -⟩
  rw [KrVirtualPositionEvent.terminal, hstate] at h
  cases h

theorem endsOnce_closing : EndsOnce (closing sha r e now) := by
  rw [closing]
  split_ifs
  · exact endsOnce_singleton _
  · exact endsOnce_nil

/-- The events of the bars and the one of the close. -/
def followAndClose (sha : Sha256) (r : KrTradeRecommendation) (now : DateTime)
    (e : KrVirtualPositionEvent) (bars : List KrCompletedMinuteBar) :
    List KrVirtualPositionEvent :=
  follow sha r now e bars ++ closing sha r ((follow sha r now e bars).getLast?.getD e) now

theorem followAndClose_cons (hopen : e.terminal = false) :
    followAndClose sha r now e (bar :: bars) =
      draft sha r (some e) (applyBar r e bar) now ::
        followAndClose sha r now (draft sha r (some e) (applyBar r e bar) now) bars := by
  rw [followAndClose, follow_cons hopen, List.getLast?_cons, Option.getD_some]
  rfl

theorem followAndClose_of_terminal (h : e.terminal = true) :
    followAndClose sha r now e bars = [] := by
  rw [followAndClose, follow_of_terminal h]
  exact closing_of_terminal h

theorem endsOnce_followAndClose : EndsOnce (followAndClose sha r now e bars) := by
  induction bars generalizing e with
  | nil => exact endsOnce_closing
  | cons bar bars ih =>
    by_cases hterminal : e.terminal = true
    · rw [followAndClose_of_terminal hterminal]
      exact endsOnce_nil
    · rw [Bool.not_eq_true] at hterminal
      rw [followAndClose_cons hterminal]
      exact endsOnce_cons followAndClose_of_terminal ih

theorem endsOnce_advanceEvents : EndsOnce (advanceEvents sha r e bars now) := by
  rw [advanceEvents]
  split_ifs
  all_goals first
    | exact endsOnce_nil
    | exact endsOnce_singleton _
    | exact endsOnce_followAndClose

/-- After some bars, the rest of them is followed from the last event. -/
theorem followAndClose_append {bars' : List KrCompletedMinuteBar} :
    followAndClose sha r now e (bars ++ bars') = follow sha r now e bars ++
      followAndClose sha r now ((follow sha r now e bars).getLast?.getD e) bars' := by
  induction bars generalizing e with
  | nil => rfl
  | cons bar bars ih =>
    rw [List.cons_append]
    by_cases hterminal : e.terminal = true
    · simp only [followAndClose_of_terminal hterminal, follow_of_terminal hterminal,
        List.getLast?_nil, Option.getD_none, List.append_nil]
    · rw [Bool.not_eq_true] at hterminal
      rw [followAndClose_cons hterminal, follow_cons hterminal, ih, List.getLast?_cons,
        Option.getD_some, List.cons_append]

/-- Later, the same events come of the bars, if they end the position. -/
theorem sameEvent_followAndClose (h : SameEvent e e') (hnow : now ≤ now')
    (hend : ((followAndClose sha r now e bars).getLast?.getD e).terminal = true) :
    (followAndClose sha r now e bars).Forall₂ SameEvent (followAndClose sha r now' e' bars) := by
  induction bars generalizing e e' with
  | nil =>
    have hnil : ∀ (now : DateTime) (e : KrVirtualPositionEvent),
        followAndClose sha r now e [] = closing sha r e now := fun _ _ => rfl
    rw [hnil] at hend ⊢
    rw [hnil, closing, closing, h.state, h.copy]
    by_cases hclose : e.state = .active ∧ sessionClose r ≤ now
    · rw [if_pos hclose, if_pos ⟨hclose.1, le_trans (α := ℤ) hclose.2 hnow⟩]
      exact .cons (sameEvent_draft sha r _ now now' h) .nil
    · rw [closing, if_neg hclose] at hend
      have hactive : e.state ≠ .active := by
        intro hstate
        have hterminal : e.state.terminal = true := hend
        rw [hstate] at hterminal
        cases hterminal
      rw [if_neg fun h => hactive h.1, if_neg fun h => hactive h.1]
      exact .nil
  | cons bar bars ih =>
    by_cases hterminal : e.terminal = true
    · rw [followAndClose_of_terminal hterminal,
        followAndClose_of_terminal (h.terminal.trans hterminal)]
      exact .nil
    · rw [Bool.not_eq_true] at hterminal
      have hnext := sameEvent_draft sha r (applyBar r e bar) now now' h
      rw [followAndClose_cons hterminal, List.getLast?_cons, Option.getD_some] at hend
      rw [followAndClose_cons hterminal, followAndClose_cons (h.terminal.trans hterminal),
        h.applyBar]
      exact .cons hnext (ih hnext hend)

/-! ## The call is made again -/

theorem callFacts_later (h : CallFacts r bars now) (hnow : now ≤ now')
    (haware : now'.aware = true) : CallFacts r bars now' :=
  ⟨h.valid, haware, le_trans (α := ℤ) h.notBefore hnow,
    fun bar hbar => le_trans (α := ℤ) (h.ended bar hbar) hnow,
    fun bar hbar => le_trans (α := ℤ) (h.observed bar hbar) hnow, h.date, h.ordered⟩

/-- The events of a call that ends the position are the same at a later time. -/
theorem sameEvent_advanceEvents (hnow : now ≤ now')
    (hend : ((advanceEvents sha r e bars now).getLast?.getD e).terminal = true) :
    (advanceEvents sha r e bars now).Forall₂ SameEvent (advanceEvents sha r e bars now') := by
  rw [advanceEvents] at hend ⊢
  rw [advanceEvents]
  by_cases hterminal : e.terminal = true
  · rw [if_pos hterminal, if_pos hterminal]
    exact .nil
  rw [if_neg hterminal] at hend ⊢
  rw [if_neg hterminal]
  by_cases hexact : virtualPositionReplayIsExact e (replayedBars r e bars) = true
  · rw [if_neg (not_not.2 hexact)] at hend ⊢
    rw [if_neg (not_not.2 hexact)]
    by_cases hexpires : freshBars r e bars = [] ∧ e.state = .armed ∧ r.validUntil ≤ now
    · rw [if_pos hexpires, if_pos ⟨hexpires.1, hexpires.2.1, le_trans (α := ℤ) hexpires.2.2 hnow⟩]
      exact .cons (sameEvent_draft sha r _ now now' (.refl e)) .nil
    · rw [if_neg hexpires] at hend ⊢
      have hexpires' : ¬ (freshBars r e bars = [] ∧ e.state = .armed ∧ r.validUntil ≤ now') := by
        -- An armed position without new bars would not have ended.
        rintro ⟨hnil, harmed, -⟩
        have hclosing : closing sha r e now = [] := if_neg fun h => by
          rw [harmed] at h
          cases h.1
        have hnone : ¬ ¬ barsAreContinuous r e.acceptedCompletedBarCursor [] = true := not_not.2 rfl
        rw [hnil, if_neg hnone] at hend
        have hend : ((closing sha r e now).getLast?.getD e).terminal = true := hend
        rw [hclosing] at hend
        exact hterminal hend
      rw [if_neg hexpires']
      by_cases hcontinuous :
          barsAreContinuous r e.acceptedCompletedBarCursor (freshBars r e bars) = true
      · rw [if_neg (not_not.2 hcontinuous)] at hend ⊢
        rw [if_neg (not_not.2 hcontinuous)]
        exact sameEvent_followAndClose (.refl e) hnow hend
      · rw [if_pos hcontinuous, if_pos hcontinuous]
        exact .cons (sameEvent_draft sha r _ now now' (.refl e)) .nil
  · rw [if_pos hexact, if_pos hexact]
    exact .cons (sameEvent_draft sha r _ now now' (.refl e)) .nil

/-- The events of a call are those of the position. -/
theorem follows_advanceEvents (hr : RecommendationFacts r) (he : Follows sha r e)
    (hcall : CallFacts r bars now)
    (hle : (evidenceAfter e (appliedBars r e bars)).length ≤ 512) :
    ∀ e' ∈ advanceEvents sha r e bars now, Follows sha r e' := by
  have hlast : ∀ {bars' : List KrCompletedMinuteBar}, bars' ⊆ bars →
      (bars'.getLast?.map (·.endAt)).all DateTime.aware = true := by
    intro bars' hsub
    cases hlast : bars'.getLast? with
    | none => rfl
    | some last => exact aware_endAt (hcall.valid last (hsub (List.mem_of_getLast? hlast)))
  have hfresh : freshBars r e bars ⊆ bars := fun _ h => (mem_freshBars h).1
  rw [advanceEvents]
  by_cases hterminal : e.terminal = true
  · rw [if_pos hterminal]
    exact fun _ h => absurd h List.not_mem_nil
  rw [if_neg hterminal]
  by_cases hexact : virtualPositionReplayIsExact e (replayedBars r e bars) = true
  · rw [if_neg (not_not.2 hexact)]
    by_cases hexpires : freshBars r e bars = [] ∧ e.state = .armed ∧ r.validUntil ≤ now
    · rw [if_pos hexpires, List.forall_mem_singleton]
      exact follows_expired hr he hexpires.2.1 hcall.aware
    rw [if_neg hexpires]
    by_cases hcontinuous :
        barsAreContinuous r e.acceptedCompletedBarCursor (freshBars r e bars) = true
    · have happlies : applies r e bars = true := decide_eq_true ⟨hexact, hcontinuous⟩
      rw [appliedBars, if_pos happlies] at hle
      have hall := follows_follow hr he (fun bar hbar => aware_endAt (hcall.valid bar (hfresh hbar)))
        hcall.aware hle
      rw [if_neg (not_not.2 hcontinuous), List.forall_mem_append]
      refine ⟨hall, fun e' he' => ?_⟩
      rw [closing] at he'
      split_ifs at he'
      · rw [List.mem_singleton.1 he']
        exact follows_censored hr (follows_last he hall) aware_sessionClose (.inl rfl) hcall.aware
      · exact absurd he' List.not_mem_nil
    · rw [if_pos hcontinuous, List.forall_mem_singleton]
      exact follows_censored hr he (hlast hfresh) (.inl rfl) hcall.aware
  · rw [if_pos hexact, List.forall_mem_singleton]
    exact follows_censored hr he (hlast (List.Subset.refl _)) (.inr rfl) hcall.aware

/-- The call is made again on the event of one of its bars, which leaves the position open. -/
theorem advance_after {before after : List KrCompletedMinuteBar} {last : KrCompletedMinuteBar}
    (hr : validateRecommendation sha r = true) (he : Follows sha r e)
    (hcall : CallFacts r bars now) (happlies : applies r e bars = true)
    (hle : (evidenceAfter e (lived r e.state (freshBars r e bars))).length ≤ 512)
    (hfresh : freshBars r e bars = before ++ last :: after) (hnow : now ≤ now')
    (haware : now'.aware = true) {head : KrVirtualPositionEvent}
    (hhead : (follow sha r now e (before ++ [last])).getLast?.getD e = head)
    (hopen : head.terminal = false)
    (hend : ((followAndClose sha r now head after).getLast?.getD head).terminal = true) :
    advanceKrVirtualPosition sha r head bars now' = .ok (followAndClose sha r now' head after) := by
  have hr' := recommendationFacts hr
  have hsession := hcall.session
  obtain ⟨hexact, hcontinuous⟩ := of_decide_eq_true happlies
  have hsplit : freshBars r e bars = (before ++ [last]) ++ after := by
    rw [hfresh, List.append_assoc, List.singleton_append]
  have hseen : ∀ bar ∈ before ++ [last], bar ∈ freshBars r e bars := fun bar hbar =>
    hsplit ▸ List.mem_append_left after hbar
  have hbars : ∀ bar ∈ before ++ [last], bar.endAt.aware = true := fun bar hbar =>
    aware_endAt (hcall.valid bar (mem_freshBars (hseen bar hbar)).1)
  have hlast : validateBar last = true :=
    hcall.valid last (mem_freshBars (hseen last (by simp))).1
  rw [hsplit, lived_append] at hle
  have hlebefore : (evidenceAfter e (lived r e.state (before ++ [last]))).length ≤ 512 :=
    le_trans (evidenceAfter_le (List.subset_append_left _ _)) hle
  have hfollowed := followed_follow hr' he hbars hcall.aware hlebefore
  have hfollows := follows_last he (follows_follow hr' he hbars hcall.aware hlebefore)
  rw [hhead] at hfollowed hfollows
  have hlived : lived r e.state (before ++ [last]) = before ++ [last] := by
    refine lived_eq_self ?_
    rw [← hfollowed.state]
    exact hopen
  have hcursor : head.acceptedCompletedBarCursor = some last.endAt := by
    rw [hfollowed.cursor, hlived, List.getLast?_concat]
    rfl
  obtain ⟨hnew, hreplayed⟩ := resumed_bars hsession hfresh hcursor
  have hevidence : ∀ x, x ∈ e.evidenceRefs ∨
      (∃ b ∈ before ++ [last], b.evidenceRef.canonicalId = x) → x ∈ head.evidenceRefs := by
    intro x hx
    rw [hfollowed.evidence, hlived, evidenceAfter, mem_sortedSet, List.mem_append, List.mem_map]
    exact hx
  have hexact' : virtualPositionReplayIsExact head (replayedBars r head bars) = true := by
    refine List.all_eq_true.2 fun b hb => decide_eq_true (hevidence _ ?_)
    rcases hreplayed b hb with hb | hb
    · exact .inl (of_decide_eq_true (List.all_eq_true.1 hexact b hb))
    · exact .inr ⟨b, hb, rfl⟩
  have hcontinuous' : barsAreContinuous r head.acceptedCompletedBarCursor after = true := by
    rw [hcursor]
    rw [hfresh] at hcontinuous
    exact barsAreContinuous_append hlast hcontinuous
  have happlied : appliedBars r head bars = lived r head.state after := by
    rw [appliedBars, applies, hnew, if_pos (decide_eq_true ⟨hexact', hcontinuous'⟩)]
  have hfits : (evidenceAfter head (appliedBars r head bars)).length ≤ 512 := by
    rw [happlied, evidenceAfter_append hfollowed.evidence, hfollowed.state]
    exact hle
  have hexpires : ¬ (after = [] ∧ head.state = .armed ∧ r.validUntil ≤ now') := by
    rintro ⟨rfl, harmed, -⟩
    have hclosing : closing sha r head now = [] := if_neg fun h => by
      rw [harmed] at h
      cases h.1
    have hend : ((closing sha r head now).getLast?.getD head).terminal = true := hend
    rw [hclosing] at hend
    exact Bool.eq_false_iff.1 hopen hend
  rw [advance_eq hr hfollows (callFacts_later hcall hnow haware) hopen, if_pos hfits,
    advanceEvents, if_neg (Bool.eq_false_iff.1 hopen), if_neg (not_not.2 hexact'), hnew,
    if_neg hexpires, if_neg (not_not.2 hcontinuous')]
  rfl

theorem getLast?_getD_append (xs ys : List KrVirtualPositionEvent) :
    (xs ++ ys).getLast?.getD e = ys.getLast?.getD (xs.getLast?.getD e) := by
  rw [List.getLast?_append]
  cases ys.getLast? <;> rfl

/-- A call whose events leave the position open after some of them has applied bars. -/
theorem applies_of_open {k : ℕ} (hopen : e.terminal = false) (hk : 0 < k)
    (hle : k ≤ (advanceEvents sha r e bars now).length)
    (hhead : (((advanceEvents sha r e bars now).take k).getLast?.getD e).terminal = false) :
    applies r e bars = true ∧
      advanceEvents sha r e bars now = followAndClose sha r now e (freshBars r e bars) ∧
      k ≤ (follow sha r now e (freshBars r e bars)).length := by
  have hsingle : ∀ {d : KrVirtualPositionEvent}, d.terminal = true →
      ¬ advanceEvents sha r e bars now = [d] := by
    intro d hd heq
    rw [heq, List.take_of_length_le (by exact hk)] at hhead
    exact Bool.eq_false_iff.1 hhead hd
  have heq : advanceEvents sha r e bars now = followAndClose sha r now e (freshBars r e bars) ∧
      applies r e bars = true := by
    by_cases hexact : virtualPositionReplayIsExact e (replayedBars r e bars) = true
    · by_cases hexpires : freshBars r e bars = [] ∧ e.state = .armed ∧ r.validUntil ≤ now
      · refine absurd ?_ (hsingle (d := draft sha r (some e)
          (copyVirtualPositionTransition e .expired .entryExpired) now) rfl)
        rw [advanceEvents, if_neg (Bool.eq_false_iff.1 hopen), if_neg (not_not.2 hexact),
          if_pos hexpires]
      · by_cases hcontinuous :
            barsAreContinuous r e.acceptedCompletedBarCursor (freshBars r e bars) = true
        · rw [advanceEvents, if_neg (Bool.eq_false_iff.1 hopen), if_neg (not_not.2 hexact),
            if_neg hexpires, if_neg (not_not.2 hcontinuous)]
          exact ⟨rfl, decide_eq_true ⟨hexact, hcontinuous⟩⟩
        · refine absurd ?_ (hsingle (d := draft sha r (some e)
            { copyVirtualPositionTransition e .censored .barGap with
              attempted := (freshBars r e bars).getLast?.map (·.endAt) } now) rfl)
          rw [advanceEvents, if_neg (Bool.eq_false_iff.1 hopen), if_neg (not_not.2 hexact),
            if_neg hexpires, if_pos hcontinuous]
    · refine absurd ?_ (hsingle (d := draft sha r (some e)
        { copyVirtualPositionTransition e .censored .divergentReplay with
          attempted := bars.getLast?.map (·.endAt) } now) rfl)
      rw [advanceEvents, if_neg (Bool.eq_false_iff.1 hopen), if_pos hexact]
  refine ⟨heq.2, heq.1, ?_⟩
  rw [heq.1] at hle hhead
  by_contra hlt
  -- The last event would be that of the close, which ends the position.
  have hlength : (followAndClose sha r now e (freshBars r e bars)).length ≤ k := by
    rw [followAndClose, List.length_append]
    have hclosing : (closing sha r ((follow sha r now e (freshBars r e bars)).getLast?.getD e)
        now).length ≤ 1 := by
      rw [closing]
      split_ifs <;> simp
    omega
  rw [List.take_of_length_le hlength, followAndClose, getLast?_getD_append] at hhead
  rw [followAndClose, List.length_append] at hle
  rw [closing] at hle hhead
  split_ifs at hle hhead
  · cases hhead
  · exact hlt (by simpa using hle)

/-- A call that ends the position, and was interrupted after some of its events, adds the other ones
    when it is made again. -/
theorem advance_resume {k : ℕ} (hr : validateRecommendation sha r = true)
    (he : Follows sha r e) (hcall : CallFacts r bars now)
    (hle : (evidenceAfter e (appliedBars r e bars)).length ≤ 512) (hnow : now ≤ now')
    (haware : now'.aware = true)
    (hend : ((advanceEvents sha r e bars now).getLast?.getD e).terminal = true)
    (hk : k ≤ (advanceEvents sha r e bars now).length) :
    ∃ rest, advanceKrVirtualPosition sha r
        (((advanceEvents sha r e bars now).take k).getLast?.getD e) bars now' = .ok rest ∧
      ((advanceEvents sha r e bars now).drop k).Forall₂ SameEvent rest ∧
      (now' = now → rest = (advanceEvents sha r e bars now).drop k) := by
  have hr' := recommendationFacts hr
  have hcall' := callFacts_later hcall hnow haware
  have hhead : Follows sha r (((advanceEvents sha r e bars now).take k).getLast?.getD e) :=
    follows_last he fun e' he' =>
      follows_advanceEvents hr' he hcall hle e' (List.mem_of_mem_take he')
  by_cases hterminal : (((advanceEvents sha r e bars now).take k).getLast?.getD e).terminal = true
  · -- The position has ended: there is nothing left to add.
    have hrest : (advanceEvents sha r e bars now).drop k = [] := by
      cases hlast : ((advanceEvents sha r e bars now).take k).getLast? with
      | none =>
        rw [hlast, Option.getD_none] at hterminal
        rw [advanceEvents, if_pos hterminal, List.drop_nil]
      | some last =>
        obtain ⟨before, heq⟩ := List.getLast?_eq_some_iff.1 hlast
        rw [hlast, Option.getD_some] at hterminal
        have hends : EndsOnce (advanceEvents sha r e bars now) := endsOnce_advanceEvents
        refine hends before last _ ?_ hterminal
        rw [← List.singleton_append, ← List.append_assoc, ← heq, List.take_append_drop]
    rw [hrest]
    exact ⟨[], advance_of_terminal hr hhead hcall' hterminal, .nil, fun _ => rfl⟩
  rw [Bool.not_eq_true] at hterminal
  rcases Nat.eq_zero_or_pos k with rfl | hpos
  · rw [List.take_zero, List.getLast?_nil, Option.getD_none] at hterminal ⊢
    refine ⟨_, ?_, sameEvent_advanceEvents hnow hend, fun h => by rw [h]; rfl⟩
    rw [advance_eq hr he hcall' hterminal, if_pos hle]
  have hopen : e.terminal = false := by
    rw [Bool.eq_false_iff]
    intro h
    have hnil : advanceEvents sha r e bars now = [] := if_pos h
    rw [hnil] at hk
    exact absurd hk (Nat.not_le.2 hpos)
  obtain ⟨happlies, hevents, hkfollow⟩ := applies_of_open hopen hpos hk hterminal
  rw [appliedBars, if_pos happlies] at hle
  have hlength : k ≤ (freshBars r e bars).length := hkfollow.trans length_follow_le
  have hne : (freshBars r e bars).take k ≠ [] := by
    rw [Ne, List.take_eq_nil_iff]
    rintro (h | h)
    · exact absurd h hpos.ne'
    · rw [h] at hlength
      exact absurd hlength (Nat.not_le.2 hpos)
  obtain ⟨before, last, htake⟩ : ∃ before last, (freshBars r e bars).take k = before ++ [last] :=
    ⟨_, _, (List.dropLast_append_getLast hne).symm⟩
  have hfresh : freshBars r e bars = before ++ last :: (freshBars r e bars).drop k := by
    rw [← List.singleton_append, ← List.append_assoc, ← htake, List.take_append_drop]
  have hfollow : follow sha r now e ((freshBars r e bars).take k) =
      (follow sha r now e (freshBars r e bars)).take k := follow_take k
  rw [htake] at hfollow
  have hsplit : advanceEvents sha r e bars now = follow sha r now e (before ++ [last]) ++
      followAndClose sha r now ((follow sha r now e (before ++ [last])).getLast?.getD e)
        ((freshBars r e bars).drop k) := by
    rw [hevents, ← followAndClose_append, ← htake, List.take_append_drop]
  have hklength : (follow sha r now e (before ++ [last])).length = k := by
    rw [hfollow, List.length_take, Nat.min_eq_left hkfollow]
  rw [hsplit, getLast?_getD_append] at hend
  rw [hsplit, List.take_left' hklength] at hterminal
  rw [hsplit, List.take_left' hklength, List.drop_left' hklength]
  exact ⟨_, advance_after hr he hcall happlies hle hfresh hnow haware rfl hterminal hend,
    sameEvent_followAndClose (.refl _) hnow hend, fun h => by rw [h]⟩

end TradingAgent.Kr
