import Mathlib.Tactic.Linarith
import TradingAgent.Recommendation.Engine
import TradingAgent.Recommendation.Orb

/-!
# Whether simulated fills are achievable

A price that a simulator records for a bar is achievable if the bar has traded at it, and an exit
at the stop is no better than the open of a bar that opens below the stop.

* For the engine, this is so exactly as long as no position is held into a bar that opens below
  its stop (`fillsAreAchievable_iff`): a position that is stopped then exits at the stop, at which
  the bar may not even have traded.
* The simulator of the opening range enters at the entry and exits at the target also where the
  bar has opened above them (`orbFillsAreAchievable_iff`).
-/

namespace TradingAgent

/-! ## The engine -/

structure BarInput.Valid (bar : BarInput) : Prop where
  low_le_open : bar.low ≤ bar.openPrice
  open_le_high : bar.openPrice ≤ bar.high
  low_le_close : bar.low ≤ bar.close
  close_le_high : bar.close ≤ bar.high

structure Recommendation.Ordered (r : Recommendation) : Prop where
  stop_lt : r.stop < r.entry
  entry_lt : r.entry < r.target1r
  target1r_lt : r.target1r < r.target2r

def FILL_STATES : List RecommendationState := [.active, .stopped, .target1r, .target2r]

/-- The price of a transition is one that could have been traded at. -/
structure IsAchievable (bar : BarInput) (r : Recommendation) (transition : StateTransition) :
    Prop where
  low_le : bar.low ≤ transition.price
  le_high : transition.price ≤ bar.high
  gap : transition.state = .stopped → bar.openPrice < r.stop → transition.price ≤ bar.openPrice

/-- All fills of a bar are achievable. -/
def FillsAreAchievable (env : Environment) (bar : BarInput) (store : PaperStore) : Prop :=
  ∀ r ∈ store.recommendations, ∀ transition ∈ transitions env bar r,
    transition.state ∈ FILL_STATES → IsAchievable bar r transition

/-- A bar is followed with a position: one is held, or opened at the bar. -/
def IsHeldAt (bar : BarInput) (r : Recommendation) : Prop :=
  r.state = .active ∨ r.state = .target1r ∨ r.state = .setup ∧ r.entry ≤ bar.high

/-- No position that a bar stops has its stop above the open of the bar. -/
def OpensAboveStops (env : Environment) (bar : BarInput) (store : PaperStore) : Prop :=
  ∀ r ∈ store.recommendations, r.symbol = bar.symbol → isEligible env.newYork bar r = true →
    IsHeldAt bar r → bar.low ≤ r.stop → r.stop ≤ bar.openPrice

/-- What is held is stopped, if the bar reaches the stop. -/
theorem exists_stopped {bar : BarInput} {r : Recommendation} (hheld : IsHeldAt bar r)
    (hlow : bar.low ≤ r.stop) :
    ⟨.stopped, r.stop, "손절가 도달"⟩ ∈ barTransitions bar r := by
  have hstopped : ∀ state, ⟨.stopped, r.stop, "손절가 도달"⟩ ∈ heldTransitions bar r state := by
    intro state
    rw [heldTransitions, if_pos hlow]
    exact List.mem_singleton_self _
  rcases hheld with hstate | hstate | ⟨hstate, hhigh⟩
  · simp only [barTransitions, hstate]
    exact hstopped .active
  · simp only [barTransitions, hstate]
    exact hstopped .target1r
  · simp only [barTransitions, hstate, if_neg hhigh.not_gt]
    exact List.mem_cons_of_mem _ (hstopped .active)

/-- A fill is at the entry or a target, or better if the bar opens there; or it is at the stop of
    a position that is held. -/
theorem fill_cases {bar : BarInput} {r : Recommendation} {transition : StateTransition}
    (h : transition ∈ barTransitions bar r) (hfill : transition.state ∈ FILL_STATES) :
    (∃ price, price ≤ bar.high ∧ transition.state ≠ .stopped
        ∧ transition.price = max price bar.openPrice)
      ∨ IsHeldAt bar r ∧ bar.low ≤ r.stop ∧ transition.price = r.stop := by
  have hheld : ∀ state, transition ∈ heldTransitions bar r state →
      (∃ price, price ≤ bar.high ∧ transition.state ≠ .stopped
          ∧ transition.price = max price bar.openPrice)
        ∨ bar.low ≤ r.stop ∧ transition.price = r.stop := by
    intro state hmem
    rw [heldTransitions] at hmem
    split_ifs at hmem with hstop htarget2r htarget1r
    · cases List.mem_singleton.1 hmem
      exact .inr ⟨hstop, rfl⟩
    · cases List.mem_singleton.1 hmem
      exact .inl ⟨r.target2r, htarget2r, nofun, rfl⟩
    · cases List.mem_singleton.1 hmem
      exact .inl ⟨r.target1r, htarget1r.2, nofun, rfl⟩
    · exact absurd hmem List.not_mem_nil
  rw [barTransitions] at h
  split at h
  next hstate =>
    split_ifs at h with hhigh hlow
    · cases List.mem_singleton.1 h
      simp [FILL_STATES] at hfill
    · exact absurd h List.not_mem_nil
    · rcases List.mem_cons.1 h with rfl | h
      · exact .inl ⟨r.entry, not_lt.1 hhigh, nofun, rfl⟩
      · exact (hheld .active h).imp_right fun hstop => ⟨.inr (.inr ⟨hstate, not_lt.1 hhigh⟩), hstop⟩
  next hstate => exact (hheld .active h).imp_right fun hstop => ⟨.inl hstate, hstop⟩
  next hstate => exact (hheld .target1r h).imp_right fun hstop => ⟨.inr (.inl hstate), hstop⟩
  next => exact absurd h List.not_mem_nil

/-- The fills of a bar are achievable exactly if no position that it stops has its stop above the
    open. -/
theorem fillsAreAchievable_iff_opensAboveStops {env : Environment} {bar : BarInput}
    (hbar : bar.Valid) {store : PaperStore} :
    FillsAreAchievable env bar store ↔ OpensAboveStops env bar store := by
  constructor
  · intro hfills r hr hsymbol heligible hheld hlow
    by_contra hgap
    have hmem : ⟨.stopped, r.stop, "손절가 도달"⟩ ∈ transitions env bar r := by
      rw [transitions, if_pos ⟨hsymbol, heligible⟩]
      exact exists_stopped hheld hlow
    exact hgap ((hfills r hr _ hmem (by simp [FILL_STATES])).gap rfl (not_le.1 hgap))
  · intro hopens r hr transition hmem hfill
    rw [transitions] at hmem
    split_ifs at hmem with heligible
    · rcases fill_cases hmem hfill with ⟨price, hprice, hne, heq⟩ | ⟨hheld, hlow, heq⟩
      · exact
          { low_le := heq ▸ hbar.low_le_open.trans (le_max_right price bar.openPrice)
            le_high := heq ▸ max_le hprice hbar.open_le_high
            gap := fun hstopped => absurd hstopped hne }
      · have hopen := hopens r hr heligible.1 heligible.2 hheld hlow
        exact
          { low_le := heq ▸ hlow
            le_high := heq ▸ hopen.trans hbar.open_le_high
            gap := fun _ hgap => absurd hopen hgap.not_ge }
    · exact absurd hmem List.not_mem_nil

/-- A property of every bar that is followed, with the store it is followed from. -/
def EveryBar (env : Environment) (P : BarInput → PaperStore → Prop) :
    List BarInput → PaperStore → Prop
  | [], _ => True
  | bar :: bars, store => P bar store
      ∧ EveryBar env P bars ((updateOpenRecommendations env bar store).foldl (.commit env) store)

/-- Over any bars, all fills are achievable exactly if no position is stopped by a bar that opens
    below its stop. -/
theorem fillsAreAchievable_iff {env : Environment} {bars : List BarInput}
    (hbars : ∀ bar ∈ bars, bar.Valid) {store : PaperStore} :
    EveryBar env (FillsAreAchievable env) bars store
      ↔ EveryBar env (OpensAboveStops env) bars store := by
  induction bars generalizing store with
  | nil => exact Iff.rfl
  | cons bar bars ih =>
    exact and_congr (fillsAreAchievable_iff_opensAboveStops (hbars bar List.mem_cons_self))
      (ih fun b hb => hbars b (List.mem_cons_of_mem bar hb))

/-! ## The opening range -/

structure OrbBar.Valid (bar : OrbBar) : Prop where
  low_le_open : bar.low ≤ bar.openPrice
  open_le_high : bar.openPrice ≤ bar.high
  low_le_close : bar.low ≤ bar.close
  close_le_high : bar.close ≤ bar.high

/-- The time that an outcome has for an exit at a bar: a session ends when its last bar does. -/
def exitTime (status : OrbOutcomeStatus) (bar : OrbBar) : DateTime :=
  if status = .timeExit then bar.timestamp + TimeDelta.minutes 1 else bar.timestamp

/-- The prices of an outcome are ones at which the bars of its times could have been traded. -/
structure OrbFillsAreAchievable (bars : List OrbBar) (outcome : OrbOutcome) : Prop where
  entry : ∀ bar ∈ bars, outcome.entryAt = some bar.timestamp → ∀ price ∈ outcome.entry,
    bar.low ≤ price ∧ price ≤ bar.high
  exit : ∀ bar ∈ bars, outcome.exitAt = some (exitTime outcome.status bar) →
    ∀ price ∈ outcome.exitPrice, bar.low ≤ price ∧ price ≤ bar.high
      ∧ (outcome.status = .stopped → ∀ stop ∈ outcome.stop, bar.openPrice < stop →
          price ≤ bar.openPrice)

/-- The bar of the entry trades at the entry, and that of the exit at the target, or it opens
    above the stop. -/
def OrbBarsMeetPrices (bars : List OrbBar) (entry stop target : ℚ) : Prop :=
  ∀ entered ∈ entryBar bars entry stop, entered.low ≤ entry
    ∧ ∀ exited ∈ exitBar bars entered stop target,
        if exited.low ≤ stop then stop ≤ exited.openPrice else exited.low ≤ target

section

variable {selection : OrbSelection} {bars : List OrbBar} {config : OrbTestConfig}
  {entry stop target : ℚ}

theorem eq_of_timestamp (hordered : bars.Pairwise (·.timestamp < ·.timestamp)) {a b : OrbBar}
    (ha : a ∈ bars) (hb : b ∈ bars) (heq : a.timestamp = b.timestamp) : a = b := by
  have hnodup : (bars.map (·.timestamp)).Nodup := by
    rw [List.Nodup, List.pairwise_map]
    refine hordered.imp fun hlt heq => ?_
    rw [heq, DateTime.lt_def] at hlt
    exact lt_irrefl _ hlt
  exact List.inj_on_of_nodup_map hnodup ha hb heq

theorem exitTime_inj {status : OrbOutcomeStatus} {a b : OrbBar}
    (h : exitTime status a = exitTime status b) : a.timestamp = b.timestamp := by
  rw [exitTime, exitTime] at h
  split_ifs at h
  · exact DateTime.add_timeDelta_inj h
  · exact h

/-- The prices of a trade are achievable exactly if the bars of its times have them. -/
theorem tradeOutcome_isAchievable_iff (hordered : bars.Pairwise (·.timestamp < ·.timestamp))
    {status : OrbOutcomeStatus} {entered exited : OrbBar} {price : ℚ} (hentered : entered ∈ bars)
    (hexited : exited ∈ bars) :
    OrbFillsAreAchievable bars (tradeOutcome selection config entry stop target status
        entered.timestamp (exitTime status exited) price)
      ↔ (entered.low ≤ entry ∧ entry ≤ entered.high) ∧ exited.low ≤ price ∧ price ≤ exited.high
        ∧ (status = .stopped → exited.openPrice < stop → price ≤ exited.openPrice) := by
  constructor
  · intro h
    obtain ⟨hlow, hhigh, hgap⟩ := h.exit exited hexited rfl price rfl
    exact ⟨h.entry entered hentered rfl entry rfl, hlow, hhigh,
      fun hstatus => hgap hstatus stop rfl⟩
  · rintro ⟨hentry, hlow, hhigh, hgap⟩
    constructor
    · intro bar hbar htime p hp
      cases Option.mem_some_iff.1 hp
      cases eq_of_timestamp hordered hentered hbar (Option.some.inj htime)
      exact hentry
    · intro bar hbar htime p hp
      cases Option.mem_some_iff.1 hp
      cases eq_of_timestamp hordered hexited hbar (exitTime_inj (Option.some.inj htime))
      refine ⟨hlow, hhigh, fun hstatus s hs => ?_⟩
      cases Option.mem_some_iff.1 hs
      exact hgap hstatus

/-- An outcome without a trade has no fill. -/
theorem setupOutcome_isAchievable {status : OrbOutcomeStatus} :
    OrbFillsAreAchievable bars (setupOutcome selection config entry stop target status) where
  entry _ _ htime := absurd htime nofun
  exit _ _ htime := absurd htime nofun

theorem mem_entryPath {entered bar : OrbBar} (h : bar ∈ entryPath bars entered) : bar ∈ bars :=
  (List.mem_filter.1 h).1

theorem afterEntry_isAchievable_iff (hordered : bars.Pairwise (·.timestamp < ·.timestamp))
    (hbars : ∀ bar ∈ bars, bar.Valid) {entered : OrbBar} (hentered : entered ∈ bars)
    (hhigh : entry ≤ entered.high) :
    OrbFillsAreAchievable bars (afterEntry selection bars config entry stop target entered)
      ↔ entered.low ≤ entry ∧ ∀ exited ∈ exitBar bars entered stop target,
        if exited.low ≤ stop then stop ≤ exited.openPrice else exited.low ≤ target := by
  rw [afterEntry]
  cases hexit : exitBar bars entered stop target with
  | none =>
    -- The session ends: the last bar of the path is at least that of the entry.
    have hpath : ∃ last ∈ bars, (entryPath bars entered).getLast?.getD entered = last := by
      cases hlast : (entryPath bars entered).getLast? with
      | none => exact ⟨entered, hentered, rfl⟩
      | some last => exact ⟨last, mem_entryPath (List.mem_of_getLast? hlast), rfl⟩
    obtain ⟨last, hmem, hlast⟩ := hpath
    dsimp only
    rw [hlast, show last.timestamp + TimeDelta.minutes 1 = exitTime .timeExit last from rfl,
      tradeOutcome_isAchievable_iff hordered hentered hmem]
    have hvalid := hbars last hmem
    simp [hhigh, hvalid.low_le_close, hvalid.close_le_high]
  | some exited =>
    have hmem := mem_entryPath (List.mem_of_find?_eq_some hexit)
    have hvalid := hbars exited hmem
    have hreached : exited.low ≤ stop ∨ target ≤ exited.high := of_decide_eq_true
      (List.find?_some (p := fun bar : OrbBar => decide (bar.low ≤ stop ∨ target ≤ bar.high)) hexit)
    dsimp only
    by_cases hstop : exited.low ≤ stop
    · rw [if_pos hstop, show exited.timestamp = exitTime .stopped exited from rfl,
        tradeOutcome_isAchievable_iff hordered hentered hmem]
      simp only [Option.mem_some_iff, forall_eq', hhigh, hstop, true_and, and_true]
      refine and_congr_right fun _ => ⟨fun ⟨_, hgap⟩ => ?_, fun hopen => ⟨?_, fun _ hlt => ?_⟩⟩
      · by_contra hlt
        exact hlt (hgap trivial (not_le.1 hlt))
      · exact hopen.trans hvalid.open_le_high
      · exact absurd hopen hlt.not_ge
    · rw [if_neg hstop, show exited.timestamp = exitTime .target exited from rfl,
        tradeOutcome_isAchievable_iff hordered hentered hmem]
      simp [hstop, hhigh, hreached.resolve_left hstop]

/-- The prices of the simulation are achievable exactly if the bars meet them. -/
theorem orbFillsAreAchievable_iff (hordered : bars.Pairwise (·.timestamp < ·.timestamp))
    (hbars : ∀ bar ∈ bars, bar.Valid) :
    OrbFillsAreAchievable bars (simulateEntry selection bars config entry stop target)
      ↔ OrbBarsMeetPrices bars entry stop target := by
  rw [simulateEntry, OrbBarsMeetPrices, entryBar]
  cases hfind : bars.find? fun bar => entry ≤ bar.high ∨ bar.low ≤ stop with
  | none => exact iff_of_true setupOutcome_isAchievable nofun
  | some entered =>
    have hmem := List.mem_of_find?_eq_some hfind
    dsimp only
    by_cases hhigh : entered.high < entry
    · rw [if_pos hhigh, Option.filter_some_neg (by simpa using hhigh)]
      exact iff_of_true setupOutcome_isAchievable nofun
    · rw [if_neg hhigh, Option.filter_some_pos (by simpa using hhigh)]
      simpa using afterEntry_isAchievable_iff hordered hbars hmem (not_lt.1 hhigh)

end

/-- Both simulators: the fills are achievable exactly as long as the bars allow for them. -/
theorem simulatedFills_achievable_iff (env : Environment) :
    (∀ (bars : List BarInput) (store : PaperStore), (∀ bar ∈ bars, bar.Valid) →
      (EveryBar env (FillsAreAchievable env) bars store
        ↔ EveryBar env (OpensAboveStops env) bars store))
    ∧ ∀ (selection : OrbSelection) (bars : List OrbBar) (config : OrbTestConfig)
        (entry stop target : ℚ), bars.Pairwise (·.timestamp < ·.timestamp) →
        (∀ bar ∈ bars, bar.Valid) →
      (OrbFillsAreAchievable bars (simulateEntry selection bars config entry stop target)
        ↔ OrbBarsMeetPrices bars entry stop target) :=
  ⟨fun _ _ hbars => fillsAreAchievable_iff hbars,
    fun _ _ _ _ _ _ hordered hbars => orbFillsAreAchievable_iff hordered hbars⟩

/-! ## A gap below the stop -/

namespace GapSample

def env : Environment := ⟨⟨fun _ => .hours (-4)⟩, fun _ => .hours (-4), fun _ => ""⟩

def minute (n : ℤ) : DateTime := .combine (.ofCivil 2026 7 15) 10 n (.hours (-4))

/-- A position in AAA from 10, with its stop at 9. -/
def position : Recommendation where
  recommendationId := "recommendation-1"
  symbol := "AAA"
  strategy := "orb"
  createdAt := minute 0
  entry := 10
  stop := 9
  target1r := 11
  target2r := 12
  state := .active
  rationale := ""

def store : PaperStore := { recommendations := [position] }

/-- A bar that opens at a price, and then trades down to one below it. -/
def bar (openPrice low : ℚ) : BarInput where
  symbol := "AAA"
  timestamp := minute 1
  openPrice
  high := openPrice
  low
  close := low
  volume := 100
  priorClose := 9
  averageDailyVolume := 10000
  spreadBps := 10

theorem bar_valid {openPrice low : ℚ} (h : low ≤ openPrice) : (bar openPrice low).Valid :=
  ⟨h, le_rfl, le_rfl, h⟩

/-- The bar opens at 8, below the stop: the position is stopped at 9, at which the bar has never
    traded. -/
theorem gap_is_filled_at_stop :
    position.Ordered ∧ (bar 8 7).Valid
      ∧ transitions env (bar 8 7) position = [⟨.stopped, 9, "손절가 도달"⟩]
      ∧ (bar 8 7).high < 9 :=
  ⟨⟨by decide +kernel, by decide +kernel, by decide +kernel⟩, bar_valid (by decide +kernel),
    by decide +kernel, by decide +kernel⟩

def orbBar (openPrice low : ℚ) : OrbBar := ⟨minute 1, openPrice, openPrice, low, low⟩

/-- A bar that opens above the stop is filled where it trades, by both simulators. -/
theorem stop_in_bar_isAchievable :
    EveryBar env (FillsAreAchievable env) [bar 10 8] store
      ∧ OrbFillsAreAchievable [orbBar 10 8] (simulateEntry ⟨minute 0, "NAS", "AAA", 0, 0, 0⟩
          [orbBar 10 8] ⟨5, 0, 1, 1, 1, 1, 100⟩ 10 9 12) := by
  constructor
  · refine ((simulatedFills_achievable_iff env).1 [bar 10 8] store ?_).2 ⟨?_, trivial⟩
    · exact List.forall_mem_singleton.2 (bar_valid (by decide +kernel))
    · intro r hr _ _ _ _
      rw [List.mem_singleton.1 hr]
      decide +kernel
  · refine ((simulatedFills_achievable_iff env).2 _ _ _ _ _ _ (List.pairwise_singleton _ _) ?_).2 ?_
    · refine List.forall_mem_singleton.2 ⟨?_, le_rfl, le_rfl, ?_⟩ <;> decide +kernel
    · have hentered : entryBar [orbBar 10 8] 10 9 = some (orbBar 10 8) := by decide +kernel
      have hexited : exitBar [orbBar 10 8] (orbBar 10 8) 9 12 = some (orbBar 10 8) := by
        decide +kernel
      rintro entered h
      cases hentered.symm.trans h
      refine ⟨by decide +kernel, fun exited h => ?_⟩
      cases hexited.symm.trans h
      decide +kernel

end GapSample

end TradingAgent
