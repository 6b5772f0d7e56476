import Mathlib.Algebra.Order.Field.Basic
import TradingAgent.Systematic.Engine

/-!
# Decisions look back

* A decision depends on the bars up to its session alone, and an observation on those up to its
  target session (`decision_congr`, `replayObservation_congr`).
* If the bars of the universe have the same sessions, both are made without an error, for each
  session from the 200th on (`exists_decision`, `exists_replayObservation`).
-/

namespace TradingAgent.Systematic

open Except
open Swing (SwingDailyBar)

/-! ## What is looked at -/

section

variable {bars : List SwingDailyBar} {histories histories' : Histories} {sessions sessions' : List Date}
  {start index : ℤ} {n : ℕ}

theorem closeAt_take (h : index < n) : closeAt (bars.take n) index = closeAt bars index := by
  rw [closeAt, closeAt, getAt_take h]

theorem isAboveMean_take (h : index < n) :
    isAboveMean (bars.take n) start index = isAboveMean bars start index := by
  rw [isAboveMean, isAboveMean, closeAt_take h, window_take (by omega)]

theorem isMomentumPositive_take (hstart : start < n) (h : index < n) :
    isMomentumPositive (bars.take n) start index = isMomentumPositive bars start index := by
  rw [isMomentumPositive, isMomentumPositive, closeAt_take h, closeAt_take hstart]

theorem rankKey_take (h : index < n) :
    rankKey (fun symbol => (histories symbol).take n) index = rankKey histories index := by
  funext symbol
  rw [rankKey, rankKey, closeAt_take h, closeAt_take (by omega)]

/-- A decision looks at the bars up to its session. -/
theorem decision_take (h : index < n) :
    decision (fun symbol => (histories symbol).take n) index = decision histories index := by
  have hstart : index - 20 < n := by omega
  simp only [decision, isAboveMean_take h, isMomentumPositive_take hstart h, rankKey_take h]

/-- An observation looks at the bars up to the session after that of its decision. -/
theorem replayObservation_take (h : index + 1 < n) :
    replayObservation (sessions.take n) (fun symbol => (histories symbol).take n) index =
      replayObservation sessions histories index := by
  have hindex : index < n := by omega
  have hreturn : ∀ symbol, barReturn ((histories symbol).take n) (index + 1) =
      barReturn (histories symbol) (index + 1) := fun symbol => by
    rw [barReturn, barReturn, getAt_take h]
  simp only [replayObservation, decision_take hindex, hreturn, getAt_take h, getAt_take hindex]

theorem decision_congr (h : ∀ symbol, (histories symbol).take n = (histories' symbol).take n)
    (hindex : index < n) : decision histories index = decision histories' index := by
  rw [← decision_take hindex, funext h, decision_take hindex]

theorem replayObservation_congr (hsessions : sessions.take n = sessions'.take n)
    (h : ∀ symbol, (histories symbol).take n = (histories' symbol).take n)
    (hindex : index + 1 < n) :
    replayObservation sessions histories index = replayObservation sessions' histories' index := by
  rw [← replayObservation_take hindex, funext h, hsessions, replayObservation_take hindex]

end

/-! ## What is decided -/

/-- The bars of the universe have the same sessions, and prices that are positive. -/
structure IsAligned (sessions : List Date) (histories : Histories) : Prop where
  dates : ∀ symbol ∈ SYSTEMATIC_REGIME_UNIVERSE,
    (histories symbol).map (·.sessionDate) = sessions
  prices : ∀ symbol, ∀ bar ∈ histories symbol, 0 < bar.close.toRat ∧ 0 < bar.open_.toRat

/-- Two candidates for a regime, and none without one. -/
structure Decision.IsProper (decision : Decision) : Prop where
  breadth : decision.breadth ≤ 3
  count : decision.candidateSymbols.length = if decision.regime = .mixed then 0 else 2
  nodup : decision.candidateSymbols.Nodup
  members : decision.candidateSymbols ⊆ SYSTEMATIC_REGIME_UNIVERSE

section

variable {bars : List SwingDailyBar} {histories : Histories} {sessions : List Date}
  {start index : ℤ}

theorem exists_closeAt (hzero : 0 ≤ index) (h : index < bars.length)
    (hprices : ∀ bar ∈ bars, 0 < bar.close.toRat) :
    ∃ close, closeAt bars index = .ok close ∧ 0 < close := by
  obtain ⟨bar, hbar, hget⟩ := exists_getAt hzero h
  refine ⟨bar.close.toRat, ?_, hprices bar hbar⟩
  rw [closeAt, hget]
  rfl

theorem exists_isAboveMean (hzero : 0 ≤ start) (hle : start ≤ index) (h : index < bars.length)
    (hprices : ∀ bar ∈ bars, 0 < bar.close.toRat) :
    ∃ above, isAboveMean bars start index = .ok above := by
  obtain ⟨close, hclose, -⟩ := exists_closeAt (hzero.trans hle) h hprices
  obtain ⟨w, hw, hlength, -⟩ := @exists_window _ bars start (index + 1) hzero (by omega) (by omega)
  have hne : (w.length : ℚ) ≠ 0 := by
    have hpos : w.length ≠ 0 := by omega
    exact_mod_cast hpos
  rw [isAboveMean, hclose, ok_bind, hw, found, ok_bind, meanClose, divide, if_neg hne, ok_bind]
  exact ⟨_, rfl⟩

theorem exists_isMomentumPositive (hzero : 0 ≤ start) (hle : start ≤ index)
    (h : index < bars.length) (hprices : ∀ bar ∈ bars, 0 < bar.close.toRat) :
    ∃ positive, isMomentumPositive bars start index = .ok positive := by
  obtain ⟨close, hclose, -⟩ := exists_closeAt (hzero.trans hle) h hprices
  obtain ⟨previous, hprevious, -⟩ := exists_closeAt hzero (by omega) hprices
  rw [isMomentumPositive, hclose, ok_bind, hprevious, ok_bind]
  exact ⟨_, rfl⟩

theorem exists_rankKey {symbol : String} (hzero : 60 ≤ index)
    (h : index < (histories symbol).length)
    (hprices : ∀ bar ∈ histories symbol, 0 < bar.close.toRat) :
    ∃ ratio : ℚ, rankKey histories index symbol = .ok (toLex (ratio, symbol)) := by
  obtain ⟨close, hclose, -⟩ := exists_closeAt (by omega) h hprices
  obtain ⟨previous, hprevious, hpos⟩ := exists_closeAt (by omega : 0 ≤ index - 60) (by omega) hprices
  rw [rankKey, hclose, ok_bind, hprevious, ok_bind, divide, if_neg hpos.ne', ok_bind]
  exact ⟨_, rfl⟩

theorem rankKey_symbol {symbol : String} {key : Lex (ℚ × String)}
    (h : rankKey histories index symbol = .ok key) : symbol = (ofLex key).2 := by
  rw [rankKey] at h
  obtain ⟨close, -, h⟩ := bind_eq_ok.1 h
  obtain ⟨previous, -, h⟩ := bind_eq_ok.1 h
  obtain ⟨ratio, -, h⟩ := bind_eq_ok.1 h
  rw [← pure_eq_ok.1 h]
  rfl

/-- The two best of some symbols are two of them. -/
theorem bestTwo_spec {sleeve : List String} {keys : List (Lex (ℚ × String))}
    (h : keys.map (fun key => (ofLex key).2) = sleeve) (hnodup : sleeve.Nodup)
    (hlength : 2 ≤ sleeve.length) :
    (bestTwo keys).length = 2 ∧ (bestTwo keys).Nodup ∧ bestTwo keys ⊆ sleeve := by
  have hperm : ((keys.insertionSort (· ≥ ·)).map fun key => (ofLex key).2).Perm sleeve :=
    h ▸ (List.perm_insertionSort _ keys).map _
  refine ⟨?_, (hperm.nodup_iff.2 hnodup).sublist (List.take_sublist _ _), fun symbol hsymbol => ?_⟩
  · rw [bestTwo, List.length_take, hperm.length_eq, min_eq_left hlength]
  · exact hperm.subset (List.mem_of_mem_take hsymbol)

/-- The candidates of a sleeve of the universe. -/
theorem exists_bestTwo {sleeve : List String} (h : IsAligned sessions histories)
    (hsleeve : sleeve ⊆ SYSTEMATIC_REGIME_UNIVERSE) (hnodup : sleeve.Nodup)
    (hlength : 2 ≤ sleeve.length) (hstart : 199 ≤ index) (hindex : index < sessions.length) :
    ∃ keys, sleeve.mapM (rankKey histories index) = .ok keys ∧ (bestTwo keys).length = 2 ∧
      (bestTwo keys).Nodup ∧ bestTwo keys ⊆ SYSTEMATIC_REGIME_UNIVERSE := by
  have hkey : ∀ symbol ∈ sleeve, ∃ ratio : ℚ,
      rankKey histories index symbol = .ok (toLex (ratio, symbol)) := fun symbol hsymbol => by
    have hlength := congrArg List.length (h.dates symbol (hsleeve hsymbol))
    rw [List.length_map] at hlength
    exact exists_rankKey (by omega) (hlength ▸ hindex) fun bar hbar => (h.prices symbol bar hbar).1
  obtain ⟨keys, hkeys⟩ := exists_mapM_eq_ok.2 fun symbol hsymbol =>
    (hkey symbol hsymbol).imp' (fun ratio => toLex (ratio, symbol)) fun _ heq => heq
  have hsymbols : keys.map (fun key => (ofLex key).2) = sleeve := by
    have hmap : sleeve.map id = keys.map fun key => (ofLex key).2 :=
      map_eq_of_forall₂ (forall₂_of_mapM_eq_ok hkeys) fun symbol key hkey => rankKey_symbol hkey
    rw [← hmap, List.map_id]
  obtain ⟨htwo, hdistinct, hsubset⟩ := bestTwo_spec hsymbols hnodup hlength
  exact ⟨keys, hkeys, htwo, hdistinct, fun _ hmem => hsleeve (hsubset hmem)⟩

/-- From the 200th session on, there is a decision. -/
theorem exists_decision (h : IsAligned sessions histories) (hstart : 199 ≤ index)
    (hindex : index < sessions.length) :
    ∃ d, decision histories index = .ok d ∧ d.IsProper := by
  have hlength : ∀ symbol ∈ SYSTEMATIC_REGIME_UNIVERSE,
      index < (histories symbol).length := fun symbol hsymbol => by
    have hdates := congrArg List.length (h.dates symbol hsymbol)
    rw [List.length_map] at hdates
    exact hdates ▸ hindex
  have hclose : ∀ symbol, ∀ bar ∈ histories symbol, 0 < bar.close.toRat :=
    fun symbol bar hbar => (h.prices symbol bar hbar).1
  have hspy : "SPY" ∈ SYSTEMATIC_REGIME_UNIVERSE := by decide
  have hon : RISK_ON ⊆ SYSTEMATIC_REGIME_UNIVERSE := by decide
  have hoff : RISK_OFF ⊆ SYSTEMATIC_REGIME_UNIVERSE := by decide
  obtain ⟨mean, hmean⟩ := exists_isAboveMean (by omega : 0 ≤ index - 199) (by omega)
    (hlength _ hspy) (hclose _)
  obtain ⟨momentum, hmomentum⟩ := exists_isMomentumPositive (by omega : 0 ≤ index - 20) (by omega)
    (hlength _ hspy) (hclose _)
  obtain ⟨above, habove⟩ := exists_mapM_eq_ok.2 fun symbol hsymbol =>
    exists_isAboveMean (by omega : 0 ≤ index - 49) (by omega) (hlength symbol (hon hsymbol))
      (hclose symbol)
  have hbreadth : above.count true ≤ 3 :=
    List.count_le_length.trans_eq (forall₂_of_mapM_eq_ok habove).length_eq.symm
  obtain ⟨keysOn, hkeysOn, hon⟩ := exists_bestTwo h hon (by decide) (by decide) hstart hindex
  obtain ⟨keysOff, hkeysOff, hoff⟩ := exists_bestTwo h hoff (by decide) (by decide) hstart hindex
  rw [decision]
  dsimp only
  rw [hmean, ok_bind, hmomentum, ok_bind, habove, ok_bind]
  split_ifs
  · rw [hkeysOn, ok_bind]
    exact ⟨_, rfl, hbreadth, hon.1, hon.2.1, hon.2.2⟩
  · rw [hkeysOff, ok_bind]
    exact ⟨_, rfl, hbreadth, hoff.1, hoff.2.1, hoff.2.2⟩
  · exact ⟨_, rfl, hbreadth, rfl, List.nodup_nil, List.nil_subset _⟩

theorem exists_barReturn {bars : List SwingDailyBar} (hzero : 0 ≤ index) (h : index < bars.length)
    (hprices : ∀ bar ∈ bars, 0 < bar.open_.toRat) : ∃ bps, barReturn bars index = .ok bps := by
  obtain ⟨bar, hbar, hget⟩ := exists_getAt hzero h
  rw [barReturn, hget, found, ok_bind, divide, if_neg (hprices bar hbar).ne', ok_bind]
  exact ⟨_, rfl⟩

theorem exists_netReturn (returns : List ℚ) :
    ∃ bps, netReturn returns = .ok bps ∧ (bps = none ↔ returns = []) := by
  by_cases hreturns : returns = []
  · exact ⟨none, if_pos hreturns, iff_of_true rfl hreturns⟩
  · have hne : (returns.length : ℚ) ≠ 0 := by
      exact_mod_cast fun h => hreturns (List.length_eq_zero_iff.1 h)
    rw [netReturn, if_neg hreturns, divide, if_neg hne, ok_bind]
    exact ⟨_, rfl, iff_of_false (by simp) hreturns⟩

/-- What an observation is made of. -/
theorem replayObservation_spec {observation : SystematicReplayObservation}
    (h : replayObservation sessions histories index = .ok observation) :
    ∃ d, decision histories index = .ok d ∧ observation.regime = d.regime ∧
      observation.candidateSymbols = d.candidateSymbols.insertionSort (· ≤ ·) ∧
      getAt sessions index = some observation.decisionSession ∧
      getAt sessions (index + 1) = some observation.targetSession := by
  have hfound : ∀ {α : Type} {o : Option α} {a : α}, found o = .ok a → o = some a := by
    intro α o a ha
    cases o with
    | none => cases ha
    | some b =>
      cases ha
      rfl
  rw [replayObservation] at h
  obtain ⟨d, hd, h⟩ := bind_eq_ok.1 h
  obtain ⟨returns, -, h⟩ := bind_eq_ok.1 h
  obtain ⟨bps, -, h⟩ := bind_eq_ok.1 h
  obtain ⟨day, hday, h⟩ := bind_eq_ok.1 h
  obtain ⟨target, htarget, h⟩ := bind_eq_ok.1 h
  obtain ⟨_, -, h⟩ := bind_eq_ok.1 h
  obtain rfl := pure_eq_ok.1 h
  exact ⟨d, hd, rfl, rfl, hfound hday, hfound htarget⟩

/-- From the 200th session to the one before the last, there is an observation. -/
theorem exists_replayObservation (h : IsAligned sessions histories)
    (hascending : sessions.Pairwise (· < ·)) (hstart : 199 ≤ index)
    (hindex : index + 1 < sessions.length) :
    ∃ observation, replayObservation sessions histories index = .ok observation := by
  obtain ⟨d, hd, hproper⟩ := exists_decision h hstart (by omega)
  obtain ⟨returns, hreturns⟩ := exists_mapM_eq_ok.2 fun symbol hsymbol => by
    have hdates := congrArg List.length (h.dates symbol (hproper.members hsymbol))
    rw [List.length_map] at hdates
    exact exists_barReturn (by omega : 0 ≤ index + 1) (hdates ▸ hindex)
      fun bar hbar => (h.prices symbol bar hbar).2
  have hcount : returns.length = if d.regime = .mixed then 0 else 2 := by
    rw [← hproper.count, (forall₂_of_mapM_eq_ok hreturns).length_eq]
  obtain ⟨bps, hbps, hnone⟩ := exists_netReturn returns
  obtain ⟨n, rfl⟩ := Int.eq_ofNat_of_zero_le (by omega : 0 ≤ index)
  have hlt : n + 1 < sessions.length := by exact_mod_cast hindex
  have hsession : getAt sessions (n : ℤ) = some sessions[n] := by
    rw [getAt_natCast, List.getElem?_eq_getElem (Nat.lt_of_succ_lt hlt)]
  have htarget : getAt sessions ((n : ℤ) + 1) = some sessions[n + 1] := by
    have hcast : (n : ℤ) + 1 = (n + 1 : ℕ) := (Nat.cast_succ n).symm
    rw [hcast, getAt_natCast, List.getElem?_eq_getElem hlt]
  have hsorted : d.candidateSymbols.insertionSort (· ≤ ·) =
      sortedSet (d.candidateSymbols.insertionSort (· ≤ ·)) := by
    have hset : d.candidateSymbols.insertionSort (· ≤ ·) = sortedSet d.candidateSymbols := by
      rw [sortedSet, hproper.nodup.dedup]
    rw [hset, sortedSet_sortedSet]
  rw [replayObservation, hd, ok_bind, hreturns, ok_bind, hbps, ok_bind, hsession, found, ok_bind,
    htarget, found, ok_bind]
  dsimp only
  rw [raiseIf_bind, if_neg]
  · exact ⟨_, rfl⟩
  · rw [Bool.not_eq_false, SystematicReplayObservation.validateObservation, decide_eq_true_eq]
    refine ⟨List.pairwise_iff_getElem.1 hascending n (n + 1) _ _ (Nat.lt_succ_self n), ?_, ?_,
      hsorted⟩
    · rw [List.length_insertionSort, hproper.count]
      by_cases hmixed : d.regime = .mixed <;>
        simp [SystematicReplayObservation.isRecommendation, hmixed]
    · have hempty : returns = [] ↔ d.regime = .mixed := by
        rw [← List.length_eq_zero_iff, hcount]
        by_cases hmixed : d.regime = .mixed <;> simp [hmixed]
      rw [SystematicReplayObservation.isRecommendation]
      cases bps with
      | none => simp [hempty.1 (hnone.1 rfl)]
      | some value => simp [mt (fun h => hnone.2 (hempty.2 h)) (by simp)]

end

end TradingAgent.Systematic
