import Mathlib.Data.List.Chain
import TradingAgent.Kr.Advance

/-!
# The bars of a session

The bars of one session, in order (`Session`), and what is passed of them when a position is polled:
the first bars of the session, of which only those count that start after the recommendation
(`passedBars`).

* The bars end one after the other, and none ends after the close (`Session.endAt_le_close`).
* A position that has accepted the last one of the bars that were passed takes just the other ones
  of a batch as new (`replayed_and_fresh`).
-/

namespace TradingAgent.Kr

variable {sha : Sha256} {r : KrTradeRecommendation} {e : KrVirtualPositionEvent}
  {L bars : List KrCompletedMinuteBar} {a b bar : KrCompletedMinuteBar} {now : DateTime}

/-- The completed bars of the session of a recommendation, or some of them. -/
structure Session (r : KrTradeRecommendation) (L : List KrCompletedMinuteBar) : Prop where
  valid : ∀ bar ∈ L, validateBar bar = true
  date : ∀ bar ∈ L, (bar.endAt.astimezone KST).date = sessionDate r
  ordered : areInOrder L = true

/-! ## Times of a bar -/

theorem instant_startAt (h : validateBar bar = true) :
    bar.startAt.instant + TimeDelta.minutes 1 = bar.endAt.instant := by
  simp only [validateBar, Bool.decide_and, Bool.and_eq_true, decide_eq_true_eq] at h
  have hminute : bar.endAt.instant - bar.startAt.instant = TimeDelta.minutes 1 := h.2.2.1
  omega

theorem startAt_lt_endAt (h : validateBar bar = true) : bar.startAt < bar.endAt := by
  rw [DateTime.lt_def, ← instant_startAt h]
  exact Int.lt_add_of_pos_right _ (by decide)

/-- An instant, by what the clocks of Seoul show. -/
theorem instant_eq (t : DateTime) :
    t.instant = (t.astimezone KST).date.start + (t.astimezone KST).timeOfDay - TimeDelta.hours 9
    := by
  have hwall : (t.astimezone KST).date.start + (t.astimezone KST).timeOfDay =
      t.instant + TimeDelta.hours 9 := by
    have hdays : ∀ n : ℤ, TimeDelta.days n = n * TimeDelta.days 1 := by
      intro n
      show n * 24 * 60 * 60 * 1000000 = n * (1 * 24 * 60 * 60 * 1000000)
      omega
    rw [Date.start, DateTime.date, DateTime.timeOfDay, Int.add_sub_cancel, hdays]
    exact Int.ediv_mul_add_emod (t.instant + TimeDelta.hours 9) (TimeDelta.days 1)
  rw [hwall]
  exact (Int.add_sub_cancel t.instant (TimeDelta.hours 9)).symm

theorem instant_sessionClose :
    (sessionClose r).instant =
      (sessionDate r).start + (TimeDelta.hours 15 + TimeDelta.minutes 30) - TimeDelta.hours 9 :=
  congrArg (· - TimeDelta.hours 9) (Int.add_assoc _ _ _)

/-- No bar ends after the close of its day. -/
theorem endAt_le_close (h : validateBar bar = true)
    (hdate : (bar.endAt.astimezone KST).date = sessionDate r) : bar.endAt ≤ sessionClose r := by
  simp only [validateBar, Bool.decide_and, Bool.and_eq_true, decide_eq_true_eq] at h
  have htime := h.2.2.2.2.2.2.2.1
  rw [DateTime.le_def, instant_eq, instant_sessionClose, hdate]
  exact Int.sub_le_sub_right (Int.add_le_add_left htime _) _

/-- A bar ends at the close of its day if that is what the clock shows. -/
theorem instant_of_isClosingBar (h : isClosingBar bar = true)
    (hdate : (bar.endAt.astimezone KST).date = sessionDate r) :
    bar.endAt.instant = (sessionClose r).instant := by
  have htime : (bar.endAt.astimezone KST).timeOfDay = TimeDelta.hours 15 + TimeDelta.minutes 30 :=
    of_decide_eq_true h
  rw [instant_eq, instant_sessionClose, hdate, htime]

/-! ## The order of the bars -/

theorem areInOrder_iff : areInOrder bars = true ↔ bars.IsChain fun a b => a.endAt ≤ b.startAt := by
  induction bars with
  | nil => exact iff_of_true rfl .nil
  | cons a bars ih =>
    cases bars with
    | nil => exact iff_of_true rfl (.singleton a)
    | cons b bars =>
      have hcons : areInOrder (a :: b :: bars) = true ↔
          a.endAt ≤ b.startAt ∧ areInOrder (b :: bars) = true := by
        simp [areInOrder, DateTime.not_lt]
      rw [hcons, List.isChain_cons_cons, ih]

/-- The bars of a session end one after the other. -/
theorem Session.pairwise (h : Session r L) : L.Pairwise fun a b => a.endAt ≤ b.startAt := by
  have hchain := areInOrder_iff.1 h.ordered
  have hvalid := h.valid
  clear h
  induction L with
  | nil => exact .nil
  | cons a L ih =>
    have hrest := ih hchain.tail fun b hb => hvalid b (List.mem_cons_of_mem a hb)
    refine List.pairwise_cons.2 ⟨fun b hb => ?_, hrest⟩
    cases L with
    | nil => exact absurd hb List.not_mem_nil
    | cons c L =>
      have hac : a.endAt ≤ c.startAt := (List.isChain_cons_cons.1 hchain).1
      rcases List.mem_cons.1 hb with rfl | hb
      · exact hac
      · have hc := startAt_lt_endAt (hvalid c (List.mem_cons_of_mem a List.mem_cons_self))
        have hcb := (List.pairwise_cons.1 hrest).1 b hb
        exact le_trans (α := ℤ) hac (le_trans (α := ℤ) (le_of_lt (α := ℤ) hc) hcb)

theorem Session.sublist (h : Session r L) (hbars : bars.Sublist L) : Session r bars :=
  ⟨fun b hb => h.valid b (hbars.subset hb), fun b hb => h.date b (hbars.subset hb),
    areInOrder_iff.2 (h.pairwise.sublist hbars).isChain⟩

theorem Session.take (h : Session r L) (n : ℕ) : Session r (L.take n) :=
  h.sublist (List.take_sublist n L)

theorem Session.drop (h : Session r L) (n : ℕ) : Session r (L.drop n) :=
  h.sublist (List.drop_sublist n L)

/-- No bar of a session follows the one that ends at the close. -/
theorem Session.not_isClosingBar (h : Session r (bars ++ L)) (hne : L ≠ []) (hbar : bar ∈ bars) :
    ¬ isClosingBar bar = true := by
  intro hclosing
  obtain ⟨next, hnext⟩ := List.exists_mem_of_ne_nil L hne
  have hinstant := instant_of_isClosingBar hclosing (h.date bar (List.mem_append_left L hbar))
  have hvalid := h.valid next (List.mem_append_right bars hnext)
  have hle := endAt_le_close hvalid (h.date next (List.mem_append_right bars hnext))
  have hlt := startAt_lt_endAt hvalid
  have hafter : bar.endAt ≤ next.startAt := (List.pairwise_append.1 h.pairwise).2.2 bar hbar next
    hnext
  rw [DateTime.le_def] at hle hafter
  rw [DateTime.lt_def] at hlt
  omega

/-! ## Passing the bars -/

/-- The first bars of a session that count. -/
def passedBars (r : KrTradeRecommendation) (L : List KrCompletedMinuteBar) (n : ℕ) :
    List KrCompletedMinuteBar :=
  (L.take n).filter (isFuture r)

/-- The bars from one place in a session to another one that count. -/
def newBars (r : KrTradeRecommendation) (L : List KrCompletedMinuteBar) (n stop : ℕ) :
    List KrCompletedMinuteBar :=
  ((L.take stop).drop n).filter (isFuture r)

/-- The end of the last bar that was passed. -/
def cursorAt (r : KrTradeRecommendation) (L : List KrCompletedMinuteBar) (n : ℕ) :
    Option DateTime :=
  (passedBars r L n).getLast?.map (·.endAt)

theorem passedBars_max (n stop : ℕ) :
    passedBars r L (max n stop) = passedBars r L n ++ newBars r L n stop := by
  rw [passedBars, passedBars, newBars, ← List.filter_append, take_max]

theorem newBars_append {n stop m : ℕ} (h : stop ≤ m) :
    newBars r L n m = newBars r L n stop ++ newBars r L (max n stop) m := by
  rw [newBars, newBars, newBars, ← List.filter_append, drop_take_max h]

section Cursor

variable {n : ℕ} {cursor : DateTime} (hL : Session r L) (hcursor : cursorAt r L n = some cursor)
include hL hcursor

omit hL in
theorem exists_last :
    ∃ before last, passedBars r L n = before ++ [last] ∧ last.endAt = cursor ∧ last ∈ L.take n := by
  obtain ⟨last, hlast, hend⟩ := Option.map_eq_some_iff.1 hcursor
  obtain ⟨before, heq⟩ := List.getLast?_eq_some_iff.1 hlast
  exact ⟨before, last, heq, hend, (List.mem_filter.1 (List.mem_of_getLast? hlast)).1⟩

theorem endAt_le_cursor (ha : a ∈ passedBars r L n) : a.endAt ≤ cursor := by
  obtain ⟨before, last, heq, rfl, hlast⟩ := exists_last hcursor
  have hpairwise : (passedBars r L n).Pairwise fun a b => a.endAt ≤ b.startAt :=
    (hL.take n).pairwise.sublist List.filter_sublist
  rw [heq] at ha hpairwise
  rcases List.mem_append.1 ha with ha | ha
  · have hle := (List.pairwise_append.1 hpairwise).2.2 a ha last (List.mem_singleton_self last)
    have hlt := startAt_lt_endAt (hL.valid last (List.mem_of_mem_take hlast))
    exact le_trans (α := ℤ) hle (le_of_lt (α := ℤ) hlt)
  · rw [List.mem_singleton.1 ha]
    exact le_refl (α := ℤ) _

theorem cursor_lt_endAt (hb : b ∈ L.drop n) : cursor < b.endAt := by
  obtain ⟨before, last, -, rfl, hlast⟩ := exists_last hcursor
  have hpairwise := hL.pairwise
  rw [← L.take_append_drop n] at hpairwise
  have hle := (List.pairwise_append.1 hpairwise).2.2 last hlast b hb
  exact lt_of_le_of_lt (α := ℤ) hle (startAt_lt_endAt (hL.valid b (List.mem_of_mem_drop hb)))

end Cursor

theorem Session.newBars (h : Session r L) (n stop : ℕ) : Session r (newBars r L n stop) :=
  ((h.take stop).drop n).sublist List.filter_sublist

/-- Of a batch that starts among the bars that were passed, the position has seen just these. -/
theorem replayed_and_fresh {n start : ℕ} (stop : ℕ) (hL : Session r L) (hstart : start ≤ n)
    (hcursor : e.acceptedCompletedBarCursor = cursorAt r L n) :
    (∀ bar ∈ replayedBars r e ((L.take stop).drop start), bar ∈ passedBars r L n) ∧
      freshBars r e ((L.take stop).drop start) = newBars r L n stop := by
  have hbatch : ((L.take stop).drop start).filter (isFuture r) =
      (((L.take stop).take n).drop start).filter (isFuture r) ++ newBars r L n stop := by
    rw [newBars, ← List.filter_append, ← drop_eq_append hstart]
  have hseen : ∀ bar ∈ (((L.take stop).take n).drop start).filter (isFuture r),
      bar ∈ passedBars r L n := by
    intro bar hbar
    obtain ⟨hbar, hfuture⟩ := List.mem_filter.1 hbar
    have hmem := List.mem_of_mem_drop hbar
    rw [List.take_take] at hmem
    exact List.mem_filter.2 ⟨List.take_subset_take_left L (Nat.min_le_left n stop) hmem, hfuture⟩
  have hnew : ∀ bar ∈ newBars r L n stop, bar ∈ L.drop n := by
    intro bar hbar
    have hmem := (List.mem_filter.1 hbar).1
    rw [List.drop_take] at hmem
    exact List.mem_of_mem_take hmem
  rw [replayedBars, freshBars, hbatch, hcursor]
  cases h : cursorAt r L n with
  | none =>
    -- No bar that counts was passed.
    have hnil : passedBars r L n = [] := by
      rw [cursorAt, Option.map_eq_none_iff, List.getLast?_eq_none_iff] at h
      exact h
    have hnone : (((L.take stop).take n).drop start).filter (isFuture r) = [] :=
      List.eq_nil_iff_forall_not_mem.2 fun bar hbar =>
        absurd (hnil ▸ hseen bar hbar) List.not_mem_nil
    rw [hnone]
    exact ⟨fun _ hbar => absurd hbar List.not_mem_nil, rfl⟩
  | some cursor =>
    have hle : ∀ bar ∈ (((L.take stop).take n).drop start).filter (isFuture r),
        bar.endAt ≤ cursor := fun bar hbar => endAt_le_cursor hL h (hseen bar hbar)
    have hlt : ∀ bar ∈ newBars r L n stop, cursor < bar.endAt := fun bar hbar =>
      cursor_lt_endAt hL h (hnew bar hbar)
    refine ⟨fun bar hbar => ?_, ?_⟩
    · obtain ⟨hmem, hbar⟩ := List.mem_filter.1 hbar
      rcases List.mem_append.1 hmem with hmem | hmem
      · exact hseen bar hmem
      · exact absurd (of_decide_eq_true hbar) (DateTime.not_le.2 (hlt bar hmem))
    · have hnone : (((L.take stop).take n).drop start |>.filter (isFuture r)).filter
          (cursor < ·.endAt) = [] :=
        List.filter_eq_nil_iff.2 fun bar hbar => by
          rw [decide_eq_true_eq, DateTime.not_lt]
          exact hle bar hbar
      have hall : (newBars r L n stop).filter (cursor < ·.endAt) = newBars r L n stop :=
        List.filter_eq_self.2 fun bar hbar => decide_eq_true (hlt bar hbar)
      show ((_ ++ newBars r L n stop).filter (cursor < ·.endAt)) = _
      rw [List.filter_append, hnone, hall, List.nil_append]

end TradingAgent.Kr
