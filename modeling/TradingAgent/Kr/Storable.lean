import TradingAgent.Kr.Polling
import TradingAgent.Kr.Store

/-!
# Every call makes events that can be stored

From every store that is reached, a call on the head of the position makes events that the store
accepts, exactly if the evidence of the bars that it applies fits into an event
(`advance_is_storable_iff`). With as much evidence as a recommendation can have, that of a long
session does not fit (`long_session_is_not_storable`).
-/

namespace TradingAgent.Kr

open Transition

variable {sha : Sha256} {r : KrTradeRecommendation} {e : KrVirtualPositionEvent}
  {rows : List KrVirtualPositionEvent} {bars : List KrCompletedMinuteBar} {now : DateTime}

/-- An event tells of a bar, which stops the position if it reaches the stop and the target. -/
def TellsOf (r : KrTradeRecommendation) (bar : KrCompletedMinuteBar)
    (e : KrVirtualPositionEvent) : Prop :=
  e.acceptedCompletedBarCursor = some bar.endAt ∧
    (bar.low ≤ r.stop → r.targets.1 ≤ bar.high → e.state = .stopped)

theorem tellsOf_follow (hr : RecommendationFacts r) (he : Follows sha r e)
    (hbars : ∀ bar ∈ bars, bar.endAt.aware = true) (hnow : now.aware = true)
    (hle : (evidenceAfter e (lived r e.state bars)).length ≤ 512) :
    (lived r e.state bars).Forall₂ (TellsOf r) (follow sha r now e bars) := by
  induction bars generalizing e with
  | nil => exact .nil
  | cons bar bars ih =>
    by_cases hterminal : e.terminal = true
    · rw [follow_of_terminal hterminal, lived_of_terminal hterminal]
      exact .nil
    · rw [Bool.not_eq_true] at hterminal
      have hbar := hbars bar List.mem_cons_self
      have hsound := barSound_applyBar he hterminal hbar
      have hevidence : (draft sha r (some e) (applyBar r e bar) now).evidenceRefs =
          barEvidence e bar := hsound.evidence
      rw [lived_cons hterminal] at hle
      have hnext := follows_applyBar hr he hterminal hbar hnow (barEvidence_le.trans hle)
      have hstate := state_applyBar he hterminal bar now
      rw [← hstate, ← evidenceAfter_cons hevidence] at hle
      rw [lived_cons hterminal, follow_cons hterminal, ← hstate]
      refine .cons ⟨hsound.accepted, fun hstop htarget => ?_⟩
        (ih hnext (fun b hb => hbars b (List.mem_cons_of_mem bar hb)) hle)
      obtain ⟨hstopentry, hentrytarget, -⟩ := of_decide_eq_true hr.levels
      rw [hstate, barOutcome_stopped ⟨hstopentry, hentrytarget⟩ hstop htarget]

/-- The events of a call tell of the bars that it applies, and perhaps of how the position ends
    otherwise. -/
theorem tellsOf_advanceEvents (hr : RecommendationFacts r) (he : Follows sha r e)
    (hcall : CallFacts r bars now)
    (hle : (evidenceAfter e (appliedBars r e bars)).length ≤ 512) :
    ∃ barEvents rest, advanceEvents sha r e bars now = barEvents ++ rest ∧
      (appliedBars r e bars).Forall₂ (TellsOf r) barEvents ∧
      ∀ e' ∈ rest, e'.state ≠ .targeted := by
  by_cases hterminal : e.terminal = true
  · rw [advanceEvents, if_pos hterminal, appliedBars, lived_of_terminal hterminal, ite_self]
    exact ⟨[], [], rfl, .nil, fun _ h => absurd h List.not_mem_nil⟩
  by_cases happlies : applies r e bars = true
  · obtain ⟨hexact, hcontinuous⟩ := of_decide_eq_true happlies
    rw [appliedBars, if_pos happlies] at hle ⊢
    rw [advanceEvents, if_neg hterminal, if_neg (not_not.2 hexact)]
    by_cases hexpires : freshBars r e bars = [] ∧ e.state = .armed ∧ r.validUntil ≤ now
    · rw [if_pos hexpires, hexpires.1]
      refine ⟨[], _, rfl, .nil, fun e' he' => ?_⟩
      rw [List.mem_singleton.1 he']
      exact fun heq => by cases heq
    · have hbars : ∀ bar ∈ freshBars r e bars, bar.endAt.aware = true := fun bar hbar =>
        aware_endAt (hcall.valid bar (mem_freshBars hbar).1)
      rw [if_neg hexpires, if_neg (not_not.2 hcontinuous)]
      refine ⟨_, _, rfl, tellsOf_follow hr he hbars hcall.aware hle, fun e' he' => ?_⟩
      rw [closing] at he'
      split_ifs at he'
      · rw [List.mem_singleton.1 he']
        exact fun heq => by cases heq
      · exact absurd he' List.not_mem_nil
  · rw [appliedBars, if_neg happlies]
    refine ⟨[], advanceEvents sha r e bars now, rfl, .nil, fun e' he' => ?_⟩
    rw [advanceEvents, if_neg hterminal] at he'
    split_ifs at he' with hexact hexpires hcontinuous
    · rw [List.mem_singleton.1 he']
      exact fun heq => by cases heq
    · exact absurd (decide_eq_true ⟨hexact, hcontinuous⟩) happlies
    · rw [List.mem_singleton.1 he']
      exact fun heq => by cases heq
    · rw [List.mem_singleton.1 he']
      exact fun heq => by cases heq

/-- What is expected of the events that a call makes of the stored head of a position. -/
structure Storable (sha : Sha256) (r : KrTradeRecommendation) (rows : List KrVirtualPositionEvent)
    (head : KrVirtualPositionEvent) (bars : List KrCompletedMinuteBar) (now : DateTime)
    (events : List KrVirtualPositionEvent) : Prop where
  valid : ∀ e ∈ events, validateEvent sha e = true
  /-- The store accepts them in order. -/
  stored : appendAll sha rows events = .ok (rows ++ events)
  chained : Chained head events
  readable : allEvents sha (rows ++ events) = .ok (rows ++ events)
  /-- Nothing follows an event that ends the position. -/
  ends : EndsOnce (head :: events)
  /-- Each applied bar has its event, and stops the position if it reaches both levels. -/
  stopFirst : ∃ barEvents rest, events = barEvents ++ rest ∧
    (appliedBars r head bars).Forall₂ (TellsOf r) barEvents ∧ ∀ e ∈ rest, e.state ≠ .targeted
  /-- After a crash, the call that is made again ends the position in the same way. -/
  resumes : ∀ k now', k ≤ events.length → now ≤ now' → now'.aware = true →
    (events.getLast?.getD head).terminal = true →
      ∃ rest, advanceKrVirtualPosition sha r ((events.take k).getLast?.getD head) bars now' =
          .ok rest ∧
        (events.drop k).Forall₂ SameEvent rest ∧ (now' = now → rest = events.drop k)

/-- From every store that is reached, a call on the head of the position makes events that the store
    accepts, exactly if the evidence of the bars that it applies fits into an event. -/
theorem advance_is_storable_iff {head : KrVirtualPositionEvent}
    (hr : validateRecommendation sha r = true) (hrows : (positionSystem sha r).Reachable rows)
    (hhead : (eventsOf rows (virtualPositionId sha r)).getLast? = some head)
    (hcall : completedBars r bars now = .ok ())
    (hsha : ∀ events, advanceKrVirtualPosition sha r head bars now = .ok events →
      sha.Separates {m | ∃ e ∈ rows ++ events, e.material = m}) :
    (∃ events, advanceKrVirtualPosition sha r head bars now = .ok events ∧
        Storable sha r rows head bars now events) ↔
      (sortedSet (head.evidenceRefs ++
        (appliedBars r head bars).map (·.evidenceRef.canonicalId))).length ≤ 512 := by
  have hinv := positionInv_of_reachable hr hrows
  have he := hinv.follows head (mem_eventsOf_last hhead)
  have hr' := recommendationFacts hr
  have hcall := completedBars_eq_ok.1 hcall
  constructor
  · rintro ⟨events, hadvance, -⟩
    exact (advance_cases hr hinv hhead hadvance).2.2
  · intro hle
    have hle : (evidenceAfter head (appliedBars r head bars)).length ≤ 512 := hle
    have hadvance : advanceKrVirtualPosition sha r head bars now =
        .ok (advanceEvents sha r head bars now) := by
      by_cases hterminal : head.terminal = true
      · rw [advance_of_terminal hr he hcall hterminal, advanceEvents, if_pos hterminal]
      · rw [advance_eq hr he hcall (Bool.not_eq_true _ ▸ hterminal), if_pos hle]
    have hfollows := follows_advanceEvents hr' he hcall hle
    have hstored := appendAll_new hinv hhead chained_advanceEvents hfollows endsOnce_call
      (hsha _ hadvance)
    have hnext := (appendAll_eq_append hinv hhead chained_advanceEvents hfollows endsOnce_call
      hstored).2
    exact ⟨_, hadvance, fun e he => (hfollows e he).valid, hstored, chained_advanceEvents,
      allEvents_eq hnext.toStoreInv, endsOnce_call, tellsOf_advanceEvents hr' he hcall hle,
      fun k now' hk hnow haware hend => advance_resume hr he hcall hle hnow haware hend hk⟩

namespace StoreSample

open PollingSample

/-- The position, entered at the first bar. -/
def active : KrVirtualPositionEvent :=
  draft digest PollingSample.recommendation (some armed)
    (applyBar PollingSample.recommendation armed bar) (clock 10 1 1)

theorem reachable_armed : (positionSystem digest PollingSample.recommendation).Reachable [armed] :=
  reachable_arm valid armed_eq

theorem digests_ne : digest.hexdigest armed.material ≠ digest.hexdigest active.material := by
  decide +kernel

/-- A text of one letter, which is repeated. -/
def letters (k : ℕ) : String := String.ofList (List.replicate (k + 1) 'a')

theorem toList_letters (k : ℕ) : (letters k).toList = List.replicate (k + 1) 'a' :=
  String.toList_ofList

theorem letters_lt {j k : ℕ} (h : j < k) : letters j < letters k := by
  rw [String.lt_iff_toList_lt, toList_letters, toList_letters]
  induction j generalizing k with
  | zero =>
    obtain ⟨k, rfl⟩ := Nat.exists_eq_add_one.2 h
    exact List.cons_lt_cons_self.2 (List.nil_lt_cons _ _)
  | succ j ih =>
    obtain ⟨k, rfl⟩ := Nat.exists_eq_add_one.2 (Nat.zero_lt_of_lt h)
    exact List.cons_lt_cons_self.2 (ih (Nat.lt_of_succ_lt_succ h))

theorem letters_injective : Function.Injective letters := by
  intro j k h
  rcases Nat.lt_trichotomy j k with hlt | heq | hlt
  · exact absurd h (letters_lt hlt).ne
  · exact heq
  · exact absurd h.symm (letters_lt hlt).ne

/-- The recommendation, before the session and until its close, with as much evidence as it can
    have. -/
def fullDraft : KrTradeRecommendation :=
  { PollingSample.recommendation with
    timestamp := clock 8 59 30
    evidenceRefs := (List.range 128).map letters
    validUntil := clock 15 30 0 }

/-- The bar of a minute of the session, which does not reach the entry. -/
def quietBar (k : ℕ) : KrCompletedMinuteBar :=
  { bar with
    startAt := clock 9 k 0
    endAt := clock 9 (k + 1) 0
    observedAt := clock 9 (k + 1) 0
    open_ := 102
    high := 102
    close := 102
    tradingValueKrw := 10200
    evidenceRef := ⟨"kr/virtual_bar", letters k, clock 9 (k + 1) 0⟩ }

def quietBars : List KrCompletedMinuteBar := (List.range 385).map quietBar

theorem full_valid : validateRecommendation digest fullDraft = true := by
  have h := isHex64_identity
  have hverdict : validateVerdict digest verdict = true := by
    simp only [validateVerdict, Bool.decide_and, Bool.and_eq_true, decide_eq_true_eq]
    exact ⟨h, h, h, by decide, by decide, by decide +kernel⟩
  have hevidence : fullDraft.evidenceRefs.Pairwise (· < ·) :=
    List.pairwise_map.2 (List.pairwise_lt_range.imp fun h => letters_lt h)
  simp only [validateRecommendation, Bool.decide_and, Bool.and_eq_true, decide_eq_true_eq,
    List.all_cons]
  exact ⟨⟨h, h, h, h, h, h, h, h, rfl⟩, rfl, rfl, rfl, by decide +kernel, by decide, hverdict,
    by decide +kernel, by decide +kernel, (sortedSet_eq_self_iff.2 hevidence).symm, rfl, rfl, rfl, rfl,
    by decide +kernel, by decide +kernel⟩

/-- The clocks of Seoul show the times of the session. -/
theorem clock_astimezone (hour minute second : ℤ) :
    (clock hour minute second).astimezone KST = clock hour minute second := by
  have hwall : ∀ w : ℤ, (⟨w, some (TimeDelta.hours 9)⟩ : DateTime).astimezone KST =
      ⟨w, some (TimeDelta.hours 9)⟩ := fun w =>
    congrArg (DateTime.mk · _) (Int.sub_add_cancel w _)
  exact hwall _

theorem instant_clock (minute : ℤ) :
    (clock 9 minute 0).instant = (clock 9 0 0).instant + TimeDelta.minutes minute := by
  simp only [clock, DateTime.combine, DateTime.instant_add]
  simp only [DateTime.instant, TimeDelta.minutes, TimeDelta.seconds]
  omega

theorem clock_le {m n : ℤ} (h : m ≤ n) : clock 9 m 0 ≤ clock 9 n 0 := by
  have hle : ∀ i : ℤ, i + m * 60 * 1000000 ≤ i + n * 60 * 1000000 := by omega
  rw [DateTime.le_def, instant_clock, instant_clock n]
  exact hle _

theorem clock_lt {m n : ℤ} (h : m < n) : clock 9 m 0 < clock 9 n 0 := by
  have hlt : ∀ i : ℤ, i + m * 60 * 1000000 < i + n * 60 * 1000000 := by omega
  rw [DateTime.lt_def, instant_clock, instant_clock n]
  exact hlt _

theorem quiet_times {k : ℕ} (h : k < 390) :
    (clock 9 k 0).date = Date.ofCivil 2026 8 27 ∧
      (clock 9 k 0).timeOfDay = TimeDelta.hours 9 + TimeDelta.minutes k := by
  have hwall : (clock 9 k 0).wall = (Date.ofCivil 2026 8 27).start + TimeDelta.hours 9 +
      TimeDelta.minutes k := Int.add_zero _
  have hday : ∀ n : ℤ, 0 ≤ n → n < 390 →
      (739854 * 86400000000 + 32400000000 + n * 60 * 1000000) / 86400000000 + 1 = 739855 ∧
        (739854 * 86400000000 + 32400000000 + n * 60 * 1000000) % 86400000000 =
          32400000000 + n * 60 * 1000000 := by omega
  rw [DateTime.date, DateTime.timeOfDay, hwall]
  exact hday k (by omega) (by omega)

theorem quiet_valid {k : ℕ} (h : k < 385) : validateBar (quietBar k) = true := by
  have hstart : (quietBar k).startAt.astimezone KST = clock 9 k 0 := clock_astimezone 9 k 0
  have hend : (quietBar k).endAt.astimezone KST = clock 9 (k + 1 : ℕ) 0 :=
    clock_astimezone 9 (k + 1) 0
  obtain ⟨hdate, htime⟩ := quiet_times (k := k) (by omega)
  obtain ⟨hdate', htime'⟩ := quiet_times (k := k + 1) (by omega)
  have hminutes : ∀ n : ℤ, 0 ≤ n → n < 390 →
      (32400000000 + n * 60 * 1000000) % 60000000 = 0 ∧
        32400000000 ≤ 32400000000 + n * 60 * 1000000 ∧
        32400000000 + n * 60 * 1000000 ≤ 55800000000 := by omega
  have htimes := hminutes k (by omega) (by omega)
  have htimes' := hminutes (k + 1 : ℕ) (by omega) (by omega)
  have hduration : (quietBar k).endAt - (quietBar k).startAt = TimeDelta.minutes 1 := by
    have hminute : ∀ n i : ℤ, i + (n + 1) * 60 * 1000000 - (i + n * 60 * 1000000) = 60000000 := by
      omega
    show (clock 9 (k + 1) 0).instant - (clock 9 k 0).instant = _
    rw [instant_clock, instant_clock k]
    exact hminute k _
  have hrecord : canonicalText (letters k) 512 = true := by
    have hempty : letters k ≠ "" := fun hnil => by
      have := toList_letters k
      rw [hnil] at this
      cases this
    have hstripped : isStripped (letters k) = true := by
      simp [isStripped, toList_letters, List.getLast?_replicate, List.head?_replicate]
    simp only [canonicalText, toList_letters, List.length_replicate, Bool.decide_and,
      Bool.and_eq_true, decide_eq_true_eq]
    exact ⟨hempty, hstripped, by omega, by simp⟩
  have hvalid : validateEvidence (quietBar k).evidenceRef = true := by
    simp only [validateEvidence, Bool.decide_and, Bool.and_eq_true, decide_eq_true_eq]
    have hname : isNamespace "kr/virtual_bar" = true ∧ ¬ hasDouble '.' "kr/virtual_bar" = true ∧
        ¬ hasDouble '/' "kr/virtual_bar" = true := by decide +kernel
    exact ⟨hname.1, hname.2.1, hname.2.2, hrecord, rfl⟩
  have haverage : (quietBar k).averagePrice = (10200 / 100 : Decimal).rounded := rfl
  have hends : clock 9 (k + 1) 0 ≤ clock 9 (k + 1) 0 := Int.le_refl _
  simp only [validateBar, Bool.decide_and, Bool.and_eq_true, decide_eq_true_eq, hstart, hend, hdate,
    htime, hdate', htime', haverage]
  -- Nothing else of a bar depends on its minute.
  refine ⟨?_, ⟨rfl, rfl, rfl⟩, hduration, hends, htimes.1, trivial, htimes.2.1, htimes'.2.2,
    ?_, ?_, ?_, ?_, ?_, ?_, hvalid, rfl⟩
  all_goals
    dsimp only [quietBar]
    decide +kernel

theorem forall_quiet {p : KrCompletedMinuteBar → Prop} (h : ∀ k < 385, p (quietBar k)) :
    ∀ bar ∈ quietBars, p bar := by
  intro bar hbar
  obtain ⟨k, hk, rfl⟩ := List.mem_map.1 hbar
  exact h k (List.mem_range.1 hk)

theorem quiet_called : CallFacts fullDraft quietBars (clock 15 25 0) := by
  have hclose : clock 15 25 0 = clock 9 385 0 := by decide
  have hended : ∀ k < 385, clock 9 ((k : ℕ) + 1) 0 ≤ clock 15 25 0 := by
    intro k hk
    rw [hclose]
    exact clock_le (by omega)
  refine ⟨forall_quiet fun k hk => quiet_valid hk, rfl, by decide, forall_quiet hended,
    forall_quiet hended, forall_quiet fun k hk => ?_, ?_⟩
  · have hend : (quietBar k).endAt.astimezone KST = clock 9 (k + 1 : ℕ) 0 :=
      clock_astimezone 9 (k + 1) 0
    have hdate : sessionDate fullDraft = Date.ofCivil 2026 8 27 := by decide
    rw [hend, hdate]
    exact (quiet_times (k := k + 1) (by omega)).1
  · rw [areInOrder_iff]
    refine (List.pairwise_map.2 (List.pairwise_lt_range.imp fun {j k} h => ?_)).isChain
    have hle : clock 9 (j + 1) 0 ≤ clock 9 k 0 := clock_le (by omega)
    exact hle

theorem quiet_continuous : barsAreContinuous fullDraft none quietBars = true := by
  rw [barsAreContinuous, List.all_eq_true]
  rintro ⟨bar, i⟩ hbar
  have hbar : quietBars[i]? = some bar := List.mem_zipIdx_iff_getElem?.1 hbar
  rw [quietBars, List.getElem?_map, Option.map_eq_some_iff] at hbar
  obtain ⟨k, hk, rfl⟩ := hbar
  obtain ⟨hi, hget⟩ := List.getElem?_eq_some_iff.1 hk
  rw [List.getElem_range] at hget
  rw [List.length_range] at hi
  subst hget
  have hfirst : firstStart fullDraft = clock 9 0 0 := by decide
  have hstart : (quietBar i).startAt = clock 9 i 0 := rfl
  rw [Option.getD_none, hfirst, hstart, clock_astimezone, (quiet_times (by omega)).1]
  refine decide_eq_true ⟨rfl, ?_, by decide⟩
  rw [instant_clock, DateTime.instant_add]

theorem quiet_unreached (k : ℕ) : reachesEntry fullDraft (quietBar k) = false := by
  have h : decide (fullDraft.entry ≤ 102 ∧ (102 : Decimal) ≤ fullDraft.entry) = false := by
    decide +kernel
  exact h

/-- The position of the recommendation. -/
def fullArmed : KrVirtualPositionEvent :=
  draft digest fullDraft none
    ⟨.armed, .armed, none, none, none, none, none, none, fullDraft.evidenceRefs⟩
    fullDraft.timestamp

theorem fullArmed_eq : armKrVirtualPosition digest fullDraft fullDraft.timestamp = .ok fullArmed :=
  arm_eq full_valid rfl

theorem reachable_fullArmed : (positionSystem digest fullDraft).Reachable [fullArmed] :=
  reachable_arm full_valid fullArmed_eq

/-- Each of the bars is new, and leaves the position armed. -/
theorem appliedBars_quiet : appliedBars fullDraft fullArmed quietBars = quietBars := by
  have hfuture : quietBars.filter (isFuture fullDraft) = quietBars := by
    refine List.filter_eq_self.2 (forall_quiet fun k hk => decide_eq_true ?_)
    have hfirst : firstStart fullDraft = clock 9 0 0 := by decide
    have hle : clock 9 0 0 ≤ clock 9 k 0 := clock_le (by omega)
    exact hfirst ▸ hle
  have hfresh : freshBars fullDraft fullArmed quietBars = quietBars := hfuture
  have hreplayed : replayedBars fullDraft fullArmed quietBars = [] := rfl
  have happlies : applies fullDraft fullArmed quietBars = true := by
    rw [applies, hreplayed, hfresh]
    exact decide_eq_true ⟨rfl, quiet_continuous⟩
  rw [appliedBars, if_pos happlies, hfresh]
  refine lived_of_quiet (forall_quiet fun k hk => ⟨quiet_unreached k, ?_⟩)
  have hclose : fullDraft.validUntil = clock 9 390 0 := by decide
  have hlt : clock 9 (k + 1) 0 < clock 9 390 0 := clock_lt (by omega)
  exact hclose ▸ hlt

/-- The evidence of the recommendation and of the bars is one piece too many. -/
theorem length_evidence :
    (evidenceAfter fullArmed quietBars).length = 513 := by
  have hrefs : fullArmed.evidenceRefs = (List.range 128).map letters := rfl
  have hids : quietBars.map (·.evidenceRef.canonicalId) =
      (List.range 385).map fun k => "kr/virtual_bar" ++ ":" ++ letters k := by
    rw [quietBars, List.map_map]
    rfl
  have hnodup : (fullArmed.evidenceRefs ++ quietBars.map (·.evidenceRef.canonicalId)).Nodup := by
    rw [hrefs, hids]
    refine List.Nodup.append (List.nodup_range.map letters_injective)
      (List.nodup_range.map fun j k h => letters_injective ?_) ?_
    · exact String.append_right_inj _ |>.1 h
    · intro x hx hx'
      obtain ⟨j, -, rfl⟩ := List.mem_map.1 hx
      obtain ⟨k, -, h⟩ := List.mem_map.1 hx'
      have hcolon : ':' ∈ (letters j).toList := by
        rw [← h]
        simp
      rw [toList_letters] at hcolon
      exact absurd (List.eq_of_mem_replicate hcolon) (by decide)
  rw [evidenceAfter, (perm_sortedSet _).length_eq, hnodup.dedup, List.length_append, hrefs, hids]
  simp only [List.length_map, List.length_range]

end StoreSample

open PollingSample StoreSample in
theorem advance_is_storable_sample :
    ∃ events,
      advanceKrVirtualPosition digest PollingSample.recommendation armed [bar] (clock 10 1 1) =
        .ok events ∧
      Storable digest PollingSample.recommendation [armed] armed [bar] (clock 10 1 1) events := by
  have hcall : completedBars PollingSample.recommendation [bar] (clock 10 1 1) = .ok () := by
    decide +kernel
  have hinv := positionInv_of_reachable valid reachable_armed
  have hhead : (eventsOf [armed]
      (virtualPositionId digest PollingSample.recommendation)).getLast? = some armed := rfl
  refine (advance_is_storable_iff valid reachable_armed hhead hcall fun events hadvance => ?_).2
    (by decide +kernel)
  have hevents : events = [active] := by
    rw [(advance_cases valid hinv hhead hadvance).2.1]
    decide +kernel
  rw [hevents]
  rintro m ⟨e, he, rfl⟩ m' ⟨e', he', rfl⟩ heq
  rcases List.mem_pair.1 he with rfl | rfl <;> rcases List.mem_pair.1 he' with rfl | rfl
  · rfl
  · exact absurd heq digests_ne
  · exact absurd heq.symm digests_ne
  · rfl

open PollingSample StoreSample in
/-- A recommendation with 128 pieces of evidence that stays armed for 385 minutes: the call fails. -/
theorem long_session_is_not_storable :
    validateRecommendation digest fullDraft = true ∧
      (positionSystem digest fullDraft).Reachable [fullArmed] ∧
      (eventsOf [fullArmed] (virtualPositionId digest fullDraft)).getLast? = some fullArmed ∧
      completedBars fullDraft quietBars (clock 15 25 0) = .ok () ∧
      barsAreContinuous fullDraft none quietBars = true ∧
      advanceKrVirtualPosition digest fullDraft fullArmed quietBars (clock 15 25 0) =
        .error .validation := by
  have hseen := (arm_eq_ok (L := []) full_valid fullArmed_eq).1
  refine ⟨full_valid, reachable_fullArmed, rfl, completedBars_eq_ok.2 quiet_called, quiet_continuous, ?_⟩
  rw [advance_eq full_valid hseen.follows quiet_called rfl, appliedBars_quiet, length_evidence]
  exact if_neg (by decide)

end TradingAgent.Kr
