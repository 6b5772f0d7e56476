import TradingAgent.Systematic.Decisions

/-!
# Replays and cards agree

* A source that is checked has the same ascending sessions for each symbol of the universe
  (`IsChecked`). It is replayed without an error.
* Of two sources that are the same up to a day (`AgreeUpTo`), the replays have the same observations
  up to it, and what is decided for each session up to it, by a replay or by a card, is the same
  (`Decides`).
* So a source is replayed as the initial part of a longer one, whose replay has what the card of the
  source decides (`replaySystematicRegime_looksBack`).
-/

namespace TradingAgent.Systematic

open Except
open Swing (SwingDailyBar SwingDailySource)

/-- What `checkedSource` checks. -/
structure IsChecked (env : SystematicEnvironment) (source : SwingDailySource)
    (sessions : List Date) : Prop where
  valid : source.validateSource env.newYork = true
  symbols : source.symbols = SYSTEMATIC_REGIME_UNIVERSE
  count : 201 ≤ sessions.length
  dates : ∀ symbol ∈ SYSTEMATIC_REGIME_UNIVERSE,
    (source.barsFor symbol).map (·.sessionDate) = sessions
  chain : sessions.IsChain (follows env · ·)
  last : sessions.getLast? = some source.sessionDate

section

variable {env : SystematicEnvironment} {source : SwingDailySource} {sessions : List Date}

theorem isChain_of_zip {α : Type*} {r : α → α → Bool} {l : List α}
    (h : ∀ pair ∈ l.zip l.tail, r pair.1 pair.2 = true) : l.IsChain (r · ·) := by
  induction l with
  | nil => exact .nil
  | cons a l ih =>
    cases l with
    | nil => exact .singleton a
    | cons b l =>
      refine List.isChain_cons_cons.2 ⟨h (a, b) List.mem_cons_self, ih fun pair hpair => ?_⟩
      exact h pair (List.mem_cons_of_mem _ hpair)

theorem isChecked_of_eq_ok (h : checkedSource env source = .ok sessions) :
    IsChecked env source sessions := by
  rw [checkedSource] at h
  obtain ⟨_, hvalid, h⟩ := bind_eq_ok.1 h
  obtain ⟨_, hchecks, h⟩ := bind_eq_ok.1 h
  obtain rfl := pure_eq_ok.1 h
  have hvalid := raiseIf_eq_ok.1 hvalid
  have hchecks := raiseIf_eq_ok.1 hchecks
  simp only [not_or, not_not, not_lt, Bool.not_eq_true, List.any_eq_false] at hchecks
  obtain ⟨hsymbols, hcount, hdates, hchain, hlast⟩ := hchecks
  refine ⟨Bool.not_eq_false _ ▸ hvalid, hsymbols, hcount, fun symbol hsymbol => ?_,
    isChain_of_zip fun pair hpair => ?_, hlast⟩
  · simpa using hdates symbol (hsymbols ▸ hsymbol)
  · simpa using hchain pair hpair

theorem le_of_nextSessionFrom {n : ℕ} {current day : Date} {closes : DateTime}
    (h : nextSessionFrom env n current = .ok (day, closes)) : current ≤ day := by
  induction n generalizing current with
  | zero => cases h
  | succ n ih =>
    rw [nextSessionFrom] at h
    split at h
    · cases h
      exact le_rfl
    · exact (Int.le_add_one le_rfl).trans (ih h)

theorem lt_of_follows {current following : Date} (h : follows env current following = true) :
    current < following := by
  rw [follows, nextSession] at h
  split at h
  · next day closes hday =>
    obtain rfl := of_decide_eq_true h
    exact Int.lt_of_add_one_le (le_of_nextSessionFrom hday)
  · cases h

namespace IsChecked

theorem ascending (h : IsChecked env source sessions) : sessions.Pairwise (· < ·) :=
  List.isChain_iff_pairwise.1 (h.chain.imp fun _ _ hnext => lt_of_follows hnext)

theorem aligned (h : IsChecked env source sessions) : IsAligned sessions source.barsFor := by
  refine ⟨h.dates, fun symbol bar hbar => ?_⟩
  have hvalid := h.valid
  simp only [SwingDailySource.validateSource, decide_eq_true_eq] at hvalid
  have hbar := List.all_eq_true.1 hvalid.1 bar (List.mem_of_mem_filter hbar)
  simp only [Swing.validateBar, decide_eq_true_eq, List.all_cons, Bool.and_eq_true,
    Swing.isPositiveFinite] at hbar
  obtain ⟨-, -, -, ⟨⟨hopen, hopenPos⟩, -, -, ⟨hclose, hclosePos⟩, -⟩, -⟩ := hbar
  rw [← Decimal.finite_toRat hclose] at hclosePos
  rw [← Decimal.finite_toRat hopen] at hopenPos
  exact ⟨hclosePos, hopenPos⟩

/-- The bars of each symbol are in the order of their sessions. -/
theorem pairwise (h : IsChecked env source sessions) {symbol : String}
    (hsymbol : symbol ∈ SYSTEMATIC_REGIME_UNIVERSE) :
    (source.barsFor symbol).Pairwise fun a b => a.sessionDate < b.sessionDate :=
  List.pairwise_map.1 (h.dates symbol hsymbol ▸ h.ascending)

/-- There are no bars of other symbols. -/
theorem barsFor_eq_nil (h : IsChecked env source sessions) {symbol : String}
    (hsymbol : symbol ∉ SYSTEMATIC_REGIME_UNIVERSE) : source.barsFor symbol = [] := by
  have hvalid := h.valid
  simp only [SwingDailySource.validateSource, decide_eq_true_eq] at hvalid
  obtain ⟨-, -, -, -, -, -, -, -, -, -, hbars, -⟩ := hvalid
  rw [SwingDailySource.barsFor, List.filter_eq_nil_iff]
  intro bar hbar hname
  have hmem := (of_decide_eq_true (List.all_eq_true.1 hbars bar hbar)).1
  rw [of_decide_eq_true hname, h.symbols] at hmem
  exact hsymbol hmem

end IsChecked

/-! ## Replays -/

theorem observations_of_eq_ok {replay : SystematicReplayResult}
    (h : replaySystematicRegime env source = .ok replay) : ∃ sessions,
      IsChecked env source sessions ∧ replay.sourceKey = env.sourceKey source ∧
      (List.range' 199 (sessions.length - 1 - 199)).mapM (fun (index : ℕ) =>
        replayObservation sessions source.barsFor index) = .ok replay.observations := by
  rw [replaySystematicRegime] at h
  obtain ⟨sessions, hsessions, h⟩ := bind_eq_ok.1 h
  obtain ⟨observations, hobservations, h⟩ := bind_eq_ok.1 h
  obtain ⟨_, -, h⟩ := bind_eq_ok.1 h
  obtain rfl := pure_eq_ok.1 h
  exact ⟨sessions, isChecked_of_eq_ok hsessions, rfl, hobservations⟩

/-- The observations of a replay are those of its sessions. -/
theorem mem_observations_iff {replay : SystematicReplayResult}
    (hchecked : IsChecked env source sessions)
    (h : (List.range' 199 (sessions.length - 1 - 199)).mapM (fun (index : ℕ) =>
      replayObservation sessions source.barsFor index) = .ok replay.observations)
    {observation : SystematicReplayObservation} : observation ∈ replay.observations ↔
      ∃ n : ℕ, 199 ≤ n ∧ n + 1 < sessions.length ∧
        replayObservation sessions source.barsFor n = .ok observation := by
  have hcount := hchecked.count
  have hforall := forall₂_of_mapM_eq_ok h
  constructor
  · intro hmem
    obtain ⟨n, hn, hobservation⟩ := exists_left_of_forall₂ hforall hmem
    rw [List.mem_range'_1] at hn
    exact ⟨n, by omega, by omega, hobservation⟩
  · rintro ⟨n, hle, hlt, hobservation⟩
    obtain ⟨other, hmem, hother⟩ := exists_right_of_forall₂ hforall
      (List.mem_range'_1.2 ⟨hle, by omega⟩ : n ∈ List.range' 199 (sessions.length - 1 - 199))
    obtain rfl := Except.ok.inj (hobservation.symm.trans hother)
    exact hmem

/-- The pairs of the observations increase with their sessions. -/
theorem pairwise_observations {l : List ℕ} {observations : List SystematicReplayObservation}
    (hchecked : IsChecked env source sessions) (hl : l.Pairwise (· < ·))
    (h : l.mapM (fun (index : ℕ) => replayObservation sessions source.barsFor index) =
      .ok observations) :
    observations.Pairwise fun a b => a.decisionSession < b.decisionSession := by
  have hforall := forall₂_of_mapM_eq_ok h
  rw [List.pairwise_iff_getElem] at hl ⊢
  intro i j hi hj hij
  have hday : ∀ k (hk : k < observations.length), ∃ hk' : k < l.length,
      sessions[l[k]]? = some observations[k].decisionSession := by
    intro k hk
    obtain ⟨d, -, -, -, hget, -⟩ := replayObservation_spec
      (hforall.get (hforall.length_eq ▸ hk) hk)
    exact ⟨hforall.length_eq ▸ hk, by simpa [getAt_natCast] using hget⟩
  obtain ⟨hi', hdayI⟩ := hday i hi
  obtain ⟨hj', hdayJ⟩ := hday j hj
  obtain ⟨hltI, hdayI⟩ := List.getElem?_eq_some_iff.1 hdayI
  obtain ⟨hltJ, hdayJ⟩ := List.getElem?_eq_some_iff.1 hdayJ
  rw [← hdayI, ← hdayJ]
  exact List.pairwise_iff_getElem.1 hchecked.ascending _ _ hltI hltJ (hl i j hi' hj' hij)

/-- A source that is checked is replayed. -/
theorem exists_replay (hchecked : IsChecked env source sessions)
    (hsessions : checkedSource env source = .ok sessions) :
    ∃ replay, replaySystematicRegime env source = .ok replay := by
  have hcount := hchecked.count
  obtain ⟨observations, hobservations⟩ := exists_mapM_eq_ok.2
    fun (index : ℕ) (hindex : index ∈ List.range' 199 (sessions.length - 1 - 199)) => by
      rw [List.mem_range'_1] at hindex
      exact exists_replayObservation hchecked.aligned hchecked.ascending
        (by omega : (199 : ℤ) ≤ index) (by omega)
  have hlength := (forall₂_of_mapM_eq_ok hobservations).length_eq
  rw [List.length_range'] at hlength
  have haware : source.observedAt.aware = true := by
    have hvalid := hchecked.valid
    simp only [SwingDailySource.validateSource, decide_eq_true_eq] at hvalid
    exact hvalid.2.1
  have hkey : (env.sourceKey source).toList.length = 64 := by
    have hhex := env.isHex64_sourceKey source
    rw [isHex64, decide_eq_true_eq] at hhex
    exact hhex.1
  rw [replaySystematicRegime, hsessions, ok_bind, hobservations, ok_bind]
  dsimp only
  rw [raiseIf_bind, if_neg]
  · exact ⟨_, rfl⟩
  · rw [Bool.not_eq_false, SystematicReplayResult.validateReplay, decide_eq_true_eq]
    refine ⟨hkey, haware, rfl, List.ne_nil_of_length_pos (by dsimp only; omega), ?_⟩
    rw [eq_comm, sortedSet_eq_self_iff, SystematicReplayResult.pairs, List.pairwise_map]
    refine (pairwise_observations hchecked ?_ hobservations).imp fun hlt => ?_
    · exact List.pairwise_lt_range'
    · exact Prod.Lex.toLex_lt_toLex.2 (.inl hlt)

/-! ## Sources that are the same up to a day -/

/-- The sources have the same bars up to a day. -/
def AgreeUpTo (day : Date) (a b : SwingDailySource) : Prop :=
  a.bars.filter (·.sessionDate ≤ day) = b.bars.filter (·.sessionDate ≤ day)

section

variable {a b : SwingDailySource} {sessionsA sessionsB : List Date} {day : Date}

theorem AgreeUpTo.symm (h : AgreeUpTo day a b) : AgreeUpTo day b a := Eq.symm h

theorem AgreeUpTo.barsFor (h : AgreeUpTo day a b) (symbol : String) :
    (a.barsFor symbol).filter (·.sessionDate ≤ day) =
      (b.barsFor symbol).filter (·.sessionDate ≤ day) := by
  rw [SwingDailySource.barsFor, SwingDailySource.barsFor, List.filter_comm, h, List.filter_comm]

/-- Up to a session on or before the day, the sources have the same sessions and bars. -/
theorem AgreeUpTo.take_eq (h : AgreeUpTo day a b) (ha : IsChecked env a sessionsA)
    (hb : IsChecked env b sessionsB) {n : ℕ} (hn : n < sessionsA.length)
    (hday : sessionsA[n] ≤ day) :
    (∀ symbol, (a.barsFor symbol).take (n + 1) = (b.barsFor symbol).take (n + 1)) ∧
      sessionsA.take (n + 1) = sessionsB.take (n + 1) := by
  have hbars : ∀ symbol ∈ SYSTEMATIC_REGIME_UNIVERSE,
      (a.barsFor symbol).take (n + 1) = (b.barsFor symbol).take (n + 1) := by
    intro symbol hsymbol
    have hdates := ha.dates symbol hsymbol
    have hlt : n < (a.barsFor symbol).length := by
      rw [← hdates, List.length_map] at hn
      exact hn
    have hsession : (a.barsFor symbol)[n].sessionDate ≤ day := by
      simp only [← hdates, List.getElem_map] at hday
      exact hday
    refine take_eq_of_filter_eq (ha.pairwise hsymbol) (hb.pairwise hsymbol) (fun x y hlt hle => ?_)
      (h.barsFor symbol) hlt (decide_eq_true hsession)
    exact decide_eq_true (hlt.le.trans (of_decide_eq_true hle))
  refine ⟨fun symbol => ?_, ?_⟩
  · by_cases hsymbol : symbol ∈ SYSTEMATIC_REGIME_UNIVERSE
    · exact hbars symbol hsymbol
    · rw [ha.barsFor_eq_nil hsymbol, hb.barsFor_eq_nil hsymbol]
  · have hspy : "SPY" ∈ SYSTEMATIC_REGIME_UNIVERSE := by decide
    rw [← ha.dates _ hspy, ← hb.dates _ hspy, ← List.map_take, ← List.map_take, hbars _ hspy]

/-- An observation up to the day is made of both sources. -/
theorem AgreeUpTo.mem_observations (h : AgreeUpTo day a b) {replayA replayB : SystematicReplayResult}
    (ha : replaySystematicRegime env a = .ok replayA)
    (hb : replaySystematicRegime env b = .ok replayB) {observation : SystematicReplayObservation}
    (hday : observation.targetSession ≤ day) (hmem : observation ∈ replayA.observations) :
    observation ∈ replayB.observations := by
  obtain ⟨sessionsA, hcheckedA, -, hobservationsA⟩ := observations_of_eq_ok ha
  obtain ⟨sessionsB, hcheckedB, -, hobservationsB⟩ := observations_of_eq_ok hb
  obtain ⟨n, hle, hlt, hobservation⟩ := (mem_observations_iff hcheckedA hobservationsA).1 hmem
  have htarget : sessionsA[n + 1] = observation.targetSession := by
    obtain ⟨d, -, -, -, -, hget⟩ := replayObservation_spec hobservation
    have hcast : (n : ℤ) + 1 = (n + 1 : ℕ) := (Nat.cast_succ n).symm
    rw [hcast, getAt_natCast] at hget
    exact (List.getElem?_eq_some_iff.1 hget).2
  obtain ⟨hbars, hsessions⟩ := h.take_eq hcheckedA hcheckedB hlt (htarget ▸ hday)
  refine (mem_observations_iff hcheckedB hobservationsB).2 ⟨n, hle, ?_, ?_⟩
  · have hlength := congrArg List.length hsessions
    rw [List.length_take, List.length_take] at hlength
    omega
  · have hlook : (n : ℤ) + 1 < (n + 1 + 1 : ℕ) := by
      push_cast
      omega
    rw [← hobservation]
    exact (replayObservation_congr hsessions hbars hlook).symm

end

/-! ## Cards -/

/-- What is decided for a session: by the replay of a source, or by the card of its last session. -/
inductive Decides (env : SystematicEnvironment) (source : SwingDailySource) :
    Date → RegimeLabel → List String → Prop
  | replayed {replay : SystematicReplayResult} {observation : SystematicReplayObservation}
      (hreplay : replaySystematicRegime env source = .ok replay)
      (hmem : observation ∈ replay.observations) :
      Decides env source observation.decisionSession observation.regime
        observation.candidateSymbols
  | live {replay : SystematicReplayResult} {strategyVersion : String}
      {card : SystematicRecommendationCard}
      (hcard : buildSystematicCard env source replay strategyVersion = .ok card) :
      Decides env source source.sessionDate card.context.regime card.candidateSymbols

theorem regime_of_context {d : Decision} {validUntil : DateTime} {c : SystematicMarketContext}
    (h : context env source d validUntil = .ok c) : c.regime = d.regime := by
  rw [context] at h
  obtain ⟨_, -, h⟩ := bind_eq_ok.1 h
  rw [← pure_eq_ok.1 h]

/-- What a card is made of. -/
theorem buildSystematicCard_spec {replay : SystematicReplayResult} {strategyVersion : String}
    {card : SystematicRecommendationCard}
    (h : buildSystematicCard env source replay strategyVersion = .ok card) : ∃ sessions d,
      IsChecked env source sessions ∧
      decision source.barsFor ((sessions.length : ℤ) - 1) = .ok d ∧
      card.context.regime = d.regime ∧
      card.candidateSymbols = d.candidateSymbols.insertionSort (· ≤ ·) := by
  rw [buildSystematicCard] at h
  obtain ⟨sessions, hsessions, h⟩ := bind_eq_ok.1 h
  obtain ⟨_, -, h⟩ := bind_eq_ok.1 h
  obtain ⟨d, hd, h⟩ := bind_eq_ok.1 h
  obtain ⟨next, -, h⟩ := bind_eq_ok.1 h
  obtain ⟨c, hc, h⟩ := bind_eq_ok.1 h
  obtain ⟨signals, -, h⟩ := bind_eq_ok.1 h
  obtain ⟨_, -, h⟩ := bind_eq_ok.1 h
  obtain rfl := pure_eq_ok.1 h
  exact ⟨sessions, d, isChecked_of_eq_ok hsessions, hd, regime_of_context hc, rfl⟩

/-- Whatever is decided for a session is the decision at its index. -/
theorem Decides.exists_decision {day : Date} {regime : RegimeLabel} {candidates : List String}
    (h : Decides env source day regime candidates) : ∃ (sessions : List Date) (n : ℕ) (d : Decision),
      IsChecked env source sessions ∧ sessions[n]? = some day ∧
      decision source.barsFor n = .ok d ∧ regime = d.regime ∧
      candidates = d.candidateSymbols.insertionSort (· ≤ ·) := by
  rcases h with ⟨hreplay, hmem⟩ | ⟨hcard⟩
  · obtain ⟨sessions, hchecked, -, hobservations⟩ := observations_of_eq_ok hreplay
    obtain ⟨n, -, -, hobservation⟩ := (mem_observations_iff hchecked hobservations).1 hmem
    obtain ⟨d, hd, hregime, hcandidates, hday, -⟩ := replayObservation_spec hobservation
    exact ⟨sessions, n, d, hchecked, getAt_natCast sessions n ▸ hday, hd, hregime, hcandidates⟩
  · obtain ⟨sessions, d, hchecked, hd, hregime, hcandidates⟩ := buildSystematicCard_spec hcard
    have hcount := hchecked.count
    have hindex : (sessions.length : ℤ) - 1 = (sessions.length - 1 : ℕ) := by omega
    refine ⟨sessions, sessions.length - 1, d, hchecked, ?_, hindex ▸ hd, hregime, hcandidates⟩
    rw [← List.getLast?_eq_getElem?]
    exact hchecked.last

/-- Sources that are the same up to a day decide the same for it. -/
theorem AgreeUpTo.decides_unique {a b : SwingDailySource} {day : Date} (h : AgreeUpTo day a b)
    {regime regime' : RegimeLabel} {candidates candidates' : List String}
    (ha : Decides env a day regime candidates) (hb : Decides env b day regime' candidates') :
    regime = regime' ∧ candidates = candidates' := by
  obtain ⟨sessionsA, i, d, hcheckedA, hdayA, hdecisionA, rfl, rfl⟩ := ha.exists_decision
  obtain ⟨sessionsB, j, d', hcheckedB, hdayB, hdecisionB, rfl, rfl⟩ := hb.exists_decision
  obtain ⟨hi, hgetA⟩ := List.getElem?_eq_some_iff.1 hdayA
  obtain ⟨hbars, hsessions⟩ := h.take_eq hcheckedA hcheckedB hi hgetA.le
  -- The day is the same session of both sources, as no session occurs twice.
  have hgetB : sessionsB[i]? = some day := by
    have htake := congrArg (fun sessions => sessions[i]?) hsessions
    simp only [List.getElem?_take_of_lt (Nat.lt_succ_self i)] at htake
    exact htake.symm.trans hdayA
  have hnodup : sessionsB.Nodup := hcheckedB.ascending.imp fun hlt => hlt.ne
  have hsame : i = j := by
    obtain ⟨hi', hgetB⟩ := List.getElem?_eq_some_iff.1 hgetB
    obtain ⟨hj, hgetJ⟩ := List.getElem?_eq_some_iff.1 hdayB
    exact (hnodup.getElem_inj_iff).1 (hgetB.trans hgetJ.symm)
  have hlook : (i : ℤ) < (i + 1 : ℕ) := by
    push_cast
    exact Int.lt_succ i
  rw [← hsame, ← decision_congr hbars hlook, hdecisionA] at hdecisionB
  obtain rfl := Except.ok.inj hdecisionB
  exact ⟨rfl, rfl⟩

/-! ## Initial parts -/

/-- A source has the bars of a longer one up to its session. -/
def IsInitial (source whole : SwingDailySource) : Prop :=
  source.symbols = whole.symbols ∧
    source.bars = whole.bars.filter (·.sessionDate ≤ source.sessionDate)

section

variable {whole : SwingDailySource} {sessionsW : List Date}

theorem IsInitial.agreeUpTo (h : IsInitial source whole) :
    AgreeUpTo source.sessionDate source whole := by
  rw [AgreeUpTo, h.2, List.filter_filter]
  simp only [Bool.and_self]

/-- The sessions and the bars of a source are the first ones of the longer one. -/
theorem IsInitial.take_eq (h : IsInitial source whole) (hsource : IsChecked env source sessions)
    (hwhole : IsChecked env whole sessionsW) :
    (∀ symbol, (source.barsFor symbol).take sessions.length =
        (whole.barsFor symbol).take sessions.length) ∧
      sessions = sessionsW.take sessions.length := by
  have hcount := hsource.count
  have hlast := hsource.last
  rw [List.getLast?_eq_getElem?] at hlast
  obtain ⟨hlt, hsession⟩ := List.getElem?_eq_some_iff.1 hlast
  have htake := h.agreeUpTo.take_eq hsource hwhole hlt hsession.le
  have hlength : sessions.length - 1 + 1 = sessions.length := by omega
  rw [hlength, List.take_length] at htake
  exact htake

/-- The replay of a source is the initial part of that of the longer one. -/
theorem IsInitial.observations_isPrefix (h : IsInitial source whole)
    {replay replayW : SystematicReplayResult}
    (hsource : replaySystematicRegime env source = .ok replay)
    (hwhole : replaySystematicRegime env whole = .ok replayW) :
    replay.observations <+: replayW.observations := by
  obtain ⟨sessions, hchecked, -, hobservations⟩ := observations_of_eq_ok hsource
  obtain ⟨sessionsW, hcheckedW, -, hobservationsW⟩ := observations_of_eq_ok hwhole
  obtain ⟨hbars, hsessions⟩ := h.take_eq hchecked hcheckedW
  have hcount := hchecked.count
  have hle : sessions.length ≤ sessionsW.length := by
    have hlength := congrArg List.length hsessions
    rw [List.length_take] at hlength
    omega
  obtain ⟨k, hk⟩ := Nat.exists_eq_add_of_le hle
  have hnumber : sessionsW.length - 1 - 199 = sessions.length - 1 - 199 + k := by omega
  have hrange : List.range' 199 (sessionsW.length - 1 - 199) =
      List.range' 199 (sessions.length - 1 - 199) ++
        List.range' (199 + (sessions.length - 1 - 199)) k := by
    rw [List.range'_append_1, hnumber]
  have hsame : ∀ index ∈ List.range' 199 (sessions.length - 1 - 199),
      replayObservation sessions source.barsFor (index : ℕ) =
        replayObservation sessionsW whole.barsFor (index : ℕ) := by
    intro index hindex
    rw [List.mem_range'_1] at hindex
    refine replayObservation_congr ?_ hbars (by omega)
    rw [List.take_length]
    exact hsessions
  rw [mapM_congr hsame] at hobservations
  rw [hrange] at hobservationsW
  exact isPrefix_of_mapM_append hobservations hobservationsW

/-- The replay of a longer source has an observation for the last session of a source. -/
theorem IsInitial.exists_observation (h : IsInitial source whole)
    (hlonger : source.sessionDate < whole.sessionDate) (hsource : IsChecked env source sessions)
    {replayW : SystematicReplayResult}
    (hwhole : replaySystematicRegime env whole = .ok replayW) :
    ∃ observation ∈ replayW.observations, observation.decisionSession = source.sessionDate := by
  obtain ⟨sessionsW, hcheckedW, -, hobservationsW⟩ := observations_of_eq_ok hwhole
  obtain ⟨-, hsessions⟩ := h.take_eq hsource hcheckedW
  have hcount := hsource.count
  have hlast := hsource.last
  have hlt : sessions.length < sessionsW.length := by
    -- Otherwise the sources have the same last session.
    by_contra hge
    rw [List.take_of_length_le (not_lt.1 hge)] at hsessions
    rw [hsessions, hcheckedW.last] at hlast
    exact hlonger.ne' (Option.some.inj hlast)
  obtain ⟨n, hn⟩ : ∃ n, sessions.length = n + 1 := ⟨sessions.length - 1, by omega⟩
  obtain ⟨observation, hobservation⟩ := exists_replayObservation hcheckedW.aligned
    hcheckedW.ascending (by omega : (199 : ℤ) ≤ n) (by omega)
  refine ⟨observation, (mem_observations_iff hcheckedW hobservationsW).2
    ⟨n, by omega, by omega, hobservation⟩, ?_⟩
  obtain ⟨d, -, -, -, hday, -⟩ := replayObservation_spec hobservation
  rw [getAt_natCast] at hday
  rw [hsessions, hn, List.getLast?_eq_getElem?, List.length_take, ← hn, min_eq_left hlt.le, hn,
    Nat.add_sub_cancel, List.getElem?_take_of_lt (Nat.lt_succ_self n), hday] at hlast
  exact Option.some.inj hlast

end

/-! ## Errors -/

theorem error_of_checkedSource {e : SystematicError} (h : checkedSource env source = .error e) :
    e = .invalidSource := by
  rw [checkedSource] at h
  rcases bind_eq_error.1 h with h | ⟨_, -, h⟩
  · exact (raiseIf_eq_error.1 h).2.symm
  rcases bind_eq_error.1 h with h | ⟨_, -, h⟩
  · exact (raiseIf_eq_error.1 h).2.symm
  · cases h

theorem error_of_nextSessionFrom {n : ℕ} {current : Date} {e : SystematicError}
    (h : nextSessionFrom env n current = .error e) : e = .invalidSource := by
  induction n generalizing current with
  | zero =>
    cases h
    rfl
  | succ n ih =>
    rw [nextSessionFrom] at h
    split at h
    · cases h
    · exact ih h

theorem error_of_signal {c : SystematicMarketContext} {strategyVersion symbol : String}
    {validUntil : DateTime} {e : SystematicError} (hbars : source.barsFor symbol ≠ [])
    (h : signal env source c strategyVersion symbol validUntil = .error e) :
    e = .invalidModel := by
  rw [signal, List.getLast?_eq_getLast_of_ne_nil hbars, found, ok_bind] at h
  rcases bind_eq_error.1 h with h | ⟨_, -, h⟩
  · exact (raiseIf_eq_error.1 h).2.symm
  · cases h

/-- A card is refused for its source or for a record, and not for an index or a division. -/
theorem error_of_buildSystematicCard {replay : SystematicReplayResult} {strategyVersion : String}
    {e : SystematicError} (h : buildSystematicCard env source replay strategyVersion = .error e) :
    e = .invalidSource ∨ e = .invalidModel := by
  rw [buildSystematicCard] at h
  rcases bind_eq_error.1 h with h | ⟨sessions, hsessions, h⟩
  · exact .inl (error_of_checkedSource h)
  have hchecked := isChecked_of_eq_ok hsessions
  have hcount := hchecked.count
  obtain ⟨d, hd, hproper⟩ := exists_decision hchecked.aligned
    (by omega : 199 ≤ (sessions.length : ℤ) - 1) (by omega)
  rcases bind_eq_error.1 h with h | ⟨_, -, h⟩
  · exact .inl (raiseIf_eq_error.1 h).2.symm
  rw [hd, ok_bind] at h
  rcases bind_eq_error.1 h with h | ⟨next, -, h⟩
  · exact .inl (error_of_nextSessionFrom h)
  rcases bind_eq_error.1 h with h | ⟨c, -, h⟩
  · rw [context] at h
    rcases bind_eq_error.1 h with h | ⟨_, -, h⟩
    · exact .inr (raiseIf_eq_error.1 h).2.symm
    · cases h
  rcases bind_eq_error.1 h with h | ⟨signals, -, h⟩
  · -- Each candidate has the bars of the sessions, so it has a last one.
    obtain ⟨symbol, hsymbol, hsignal⟩ := exists_of_mapM_eq_error h
    have hdates := congrArg List.length (hchecked.dates symbol (hproper.members hsymbol))
    rw [List.length_map] at hdates
    exact .inr (error_of_signal (List.ne_nil_of_length_pos (by omega)) hsignal)
  rcases bind_eq_error.1 h with h | ⟨_, -, h⟩
  · exact .inr (raiseIf_eq_error.1 h).2.symm
  · cases h

/-- A source is replayed exactly if it is checked. -/
theorem replay_or_error (source : SwingDailySource) :
    (∃ replay, replaySystematicRegime env source = .ok replay) ∨
      checkedSource env source = .error .invalidSource ∧
        replaySystematicRegime env source = .error .invalidSource := by
  cases hsessions : checkedSource env source with
  | error e =>
    obtain rfl := error_of_checkedSource hsessions
    refine .inr ⟨rfl, ?_⟩
    rw [replaySystematicRegime, hsessions]
    rfl
  | ok sessions => exact .inl (exists_replay (isChecked_of_eq_ok hsessions) hsessions)

end

/-- The replay and the card of a source decide by the bars up to a session, and no index is out of
    the list and no divisor zero. So a source is replayed as the initial part of a longer one, and
    its card decides what the replay of a longer one observes for its last session. -/
theorem replaySystematicRegime_looksBack (env : SystematicEnvironment) :
    (∀ source, (∃ replay, replaySystematicRegime env source = .ok replay) ∨
      checkedSource env source = .error .invalidSource ∧
        replaySystematicRegime env source = .error .invalidSource) ∧
    (∀ source replay strategyVersion error,
      buildSystematicCard env source replay strategyVersion = .error error →
        error = .invalidSource ∨ error = .invalidModel) ∧
    (∀ source whole, IsInitial source whole → ∀ replay replayW,
      replaySystematicRegime env source = .ok replay →
      replaySystematicRegime env whole = .ok replayW →
      replay.observations <+: replayW.observations ∧
      ∀ strategyVersion card, buildSystematicCard env source replay strategyVersion = .ok card →
        source.sessionDate < whole.sessionDate →
        (∃ observation ∈ replayW.observations,
          observation.decisionSession = source.sessionDate) ∧
        ∀ observation ∈ replayW.observations, observation.decisionSession = source.sessionDate →
          card.context.regime = observation.regime ∧
            card.candidateSymbols = observation.candidateSymbols) ∧
    (∀ a b day, AgreeUpTo day a b →
      (∀ replayA replayB, replaySystematicRegime env a = .ok replayA →
        replaySystematicRegime env b = .ok replayB →
        ∀ observation, observation.targetSession ≤ day →
          (observation ∈ replayA.observations ↔ observation ∈ replayB.observations)) ∧
      ∀ regime regime' candidates candidates', Decides env a day regime candidates →
        Decides env b day regime' candidates' → regime = regime' ∧ candidates = candidates') := by
  refine ⟨replay_or_error, fun source replay strategyVersion error => error_of_buildSystematicCard,
    ?_, ?_⟩
  · intro source whole h replay replayW hreplay hreplayW
    refine ⟨h.observations_isPrefix hreplay hreplayW, fun strategyVersion card hcard hlonger => ?_⟩
    obtain ⟨sessions, -, hchecked, -⟩ := buildSystematicCard_spec hcard
    refine ⟨h.exists_observation hlonger hchecked hreplayW, fun observation hmem hday => ?_⟩
    exact h.agreeUpTo.decides_unique (.live hcard) (hday ▸ .replayed hreplayW hmem)
  · intro a b day h
    refine ⟨fun replayA replayB hreplayA hreplayB observation hday => ?_,
      fun regime regime' candidates candidates' => h.decides_unique⟩
    exact ⟨h.mem_observations hreplayA hreplayB hday,
      h.symm.mem_observations hreplayB hreplayA hday⟩

namespace RegimeSample

theorem isHex64_sourceKey : isHex64 (String.ofList (List.replicate 64 'a')) = true := by
  decide +kernel

theorem isHex64_digest : isHex64 (String.ofList (List.replicate 64 'b')) = true := by
  decide +kernel

def env : SystematicEnvironment where
  newYork := ⟨fun _ => .hours (-4)⟩
  sourceKey _ := String.ofList (List.replicate 64 'a')
  isHex64_sourceKey _ := isHex64_sourceKey
  newYorkOffset _ := .hours (-4)
  dateText _ := "20251022"
  sha := ⟨fun _ => String.ofList (List.replicate 64 'b'), fun _ => isHex64_digest⟩

/-- The first day of the bars. -/
def firstDay : Date := .ofCivil 2025 1 2

/-- The sessions of some days from the first one on. -/
def sessionsOf (days : ℕ) : List Date :=
  ((List.range days).map fun (n : ℕ) => firstDay + (n : ℤ)).filter fun day =>
    (regularSessionBounds day).isSome

/-- A bar at a price that grows by the day. -/
def bar (symbol : String) (day : Date) : SwingDailyBar where
  symbol
  sessionDate := day
  observedAt := .combine day 16 5 (.hours (-4))
  open_ := .finite (day : ℤ)
  high := .finite (day : ℤ)
  low := .finite (day : ℤ)
  close := .finite (day : ℤ)
  volume := 1000

def sourceOf (days : ℕ) (sessionDate : Date) : SwingDailySource where
  sessionDate
  observedAt := .combine sessionDate 16 30 (.hours (-4))
  provider := "alpaca"
  feed := "sip"
  universeId := "regime"
  symbols := SYSTEMATIC_REGIME_UNIVERSE
  bars := SYSTEMATIC_REGIME_UNIVERSE.flatMap fun symbol => (sessionsOf days).map (bar symbol)

theorem mem_sessionsOf {days : ℕ} {day : Date} : day ∈ sessionsOf days ↔
    (∃ n < days, firstDay + (n : ℤ) = day) ∧ (regularSessionBounds day).isSome = true := by
  simp [sessionsOf]

theorem pairwise_sessionsOf (days : ℕ) : (sessionsOf days).Pairwise (· < ·) := by
  refine List.Pairwise.filter _ (List.pairwise_map.2 (List.pairwise_lt_range.imp fun h => ?_))
  exact Int.add_lt_add_left (by exact_mod_cast h) _

/-- A session is over a few minutes after 16:00. -/
theorem isAfterClose_combine {day : Date} (h : (regularSessionBounds day).isSome = true)
    {minute : ℤ} (hminute : 0 ≤ minute) :
    Swing.isAfterClose env.newYork day (.combine day 16 minute (.hours (-4))) = true := by
  obtain ⟨bounds, hbounds⟩ := Option.isSome_iff_exists.1 h
  have hcloses : bounds.closes ≤ day.start + REGULAR_CLOSE := by
    rw [regularSessionBounds] at hbounds
    split_ifs at hbounds
    all_goals
      cases hbounds
      simp only [REGULAR_CLOSE, EARLY_CLOSE, TimeDelta.hours, TimeDelta.minutes, TimeDelta.seconds]
      omega
  have hwall : ((DateTime.combine day 16 minute (.hours (-4))).astimezone env.newYork).wall =
      day.start + TimeDelta.hours 16 + TimeDelta.minutes minute := by
    simp only [DateTime.astimezone, DateTime.combine, DateTime.instant, env, Option.getD_some]
    omega
  rw [Swing.isAfterClose, hbounds, Option.any_some, decide_eq_true_eq, hwall]
  simp only [REGULAR_CLOSE, TimeDelta.hours, TimeDelta.minutes, TimeDelta.seconds] at hcloses ⊢
  omega

theorem validateBar_bar {days : ℕ} {symbol : String} (hsymbol : Swing.isUsSymbol symbol = true)
    {day : Date} (hday : day ∈ sessionsOf days) :
    Swing.validateBar env.newYork (bar symbol day) = true := by
  obtain ⟨⟨n, -, rfl⟩, hsession⟩ := mem_sessionsOf.1 hday
  have hprice : (0 : ℚ) < ((firstDay + (n : ℤ) : ℤ) : ℚ) := by
    have hfirst : firstDay = 739253 := by decide
    rw [hfirst]
    positivity
  have hpositive : Swing.isPositiveFinite (.finite ((firstDay + (n : ℤ) : ℤ) : ℚ)) = true :=
    decide_eq_true ⟨rfl, hprice⟩
  rw [Swing.validateBar, decide_eq_true_eq]
  refine ⟨hsymbol, rfl, isAfterClose_combine hsession (by decide), ?_, ?_, ?_,
    (by decide : (0 : ℤ) ≤ 1000)⟩
  · simp only [bar, List.all_cons, List.all_nil, hpositive, Bool.and_self]
  · exact (Decimal.min_finite _ _).symm ▸ Decimal.finite_le_finite.2 (le_inf le_rfl le_rfl)
  · exact (Decimal.max_finite _ _).symm ▸ Decimal.finite_le_finite.2 (sup_le le_rfl le_rfl)

theorem barsFor_sourceOf {days : ℕ} {sessionDate : Date} {symbol : String}
    (hsymbol : symbol ∈ SYSTEMATIC_REGIME_UNIVERSE) :
    (sourceOf days sessionDate).barsFor symbol = (sessionsOf days).map (bar symbol) := by
  have hnodup : (SYSTEMATIC_REGIME_UNIVERSE.map id).Nodup := by decide
  have hfilter := @filter_flatMap_key _ _ _ id _ symbol _ (·.symbol)
    (fun symbol => (sessionsOf days).map (bar symbol)) hnodup (fun name _ b hb => by
      obtain ⟨day, -, rfl⟩ := List.mem_map.1 hb
      rfl) hsymbol
  exact hfilter

/-- The sessions of the symbols come one symbol after the other. -/
theorem barKeys_sourceOf (days : ℕ) (sessionDate : Date) :
    (sourceOf days sessionDate).barKeys.Pairwise (· < ·) := by
  rw [SwingDailySource.barKeys, List.pairwise_map, sourceOf, List.pairwise_flatMap]
  refine ⟨fun symbol _ => List.pairwise_map.2 ((pairwise_sessionsOf days).imp fun hlt => ?_), ?_⟩
  · exact Prod.Lex.toLex_lt_toLex.2 (.inr ⟨rfl, hlt⟩)
  · have hsymbols : SYSTEMATIC_REGIME_UNIVERSE.Pairwise (· < ·) := by decide
    refine hsymbols.imp fun hlt x hx y hy => ?_
    obtain ⟨day, -, rfl⟩ := List.mem_map.1 hx
    obtain ⟨day', -, rfl⟩ := List.mem_map.1 hy
    exact Prod.Lex.toLex_lt_toLex.2 (.inl hlt)

theorem targetSymbols_sourceOf {days : ℕ} {sessionDate : Date} (h : sessionDate ∈ sessionsOf days) :
    (sourceOf days sessionDate).targetSymbols = SYSTEMATIC_REGIME_UNIVERSE := by
  have hnodup : ((sessionsOf days).map id).Nodup := by
    rw [List.map_id]
    exact (pairwise_sessionsOf days).imp fun hlt => hlt.ne
  have hbar : ∀ symbol, ((sessionsOf days).map (bar symbol)).filter (·.sessionDate = sessionDate) =
      [bar symbol sessionDate] := by
    intro symbol
    have hday := filter_key_eq_singleton hnodup h
    simp only [id] at hday
    have hkey : (fun b : SwingDailyBar => decide (b.sessionDate = sessionDate)) ∘ bar symbol =
        fun day => decide (day = sessionDate) := rfl
    rw [List.filter_map, hkey, hday, List.map_singleton]
  have hsymbols : ((SYSTEMATIC_REGIME_UNIVERSE.flatMap fun symbol => [bar symbol sessionDate]).map
      (·.symbol)) = SYSTEMATIC_REGIME_UNIVERSE := rfl
  rw [SwingDailySource.targetSymbols, sourceOf, List.filter_flatMap]
  simp only [hbar, hsymbols]
  decide

/-- The sessions of the first days are those of a source. -/
theorem checkedSource_sourceOf {days : ℕ} {sessionDate : Date}
    (hlast : (sessionsOf days).getLast? = some sessionDate) (hcount : 201 ≤ (sessionsOf days).length)
    (hchain : ((sessionsOf days).zip (sessionsOf days).tail).any (fun (current, following) =>
      ¬ follows env current following) = false) :
    checkedSource env (sourceOf days sessionDate) = .ok (sessionsOf days) := by
  have hmem : sessionDate ∈ sessionsOf days := List.mem_of_getLast? hlast
  have hsession := (mem_sessionsOf.1 hmem).2
  have hdates : ∀ symbol ∈ SYSTEMATIC_REGIME_UNIVERSE,
      ((sourceOf days sessionDate).barsFor symbol).map (·.sessionDate) = sessionsOf days := by
    intro symbol hsymbol
    rw [barsFor_sourceOf hsymbol, List.map_map]
    exact List.map_id _
  have hbars : ∀ b ∈ (sourceOf days sessionDate).bars, ∃ symbol ∈ SYSTEMATIC_REGIME_UNIVERSE,
      ∃ day ∈ sessionsOf days, bar symbol day = b := by
    intro b hb
    obtain ⟨symbol, hsymbol, hb⟩ := List.mem_flatMap.1 hb
    obtain ⟨day, hday, hb⟩ := List.mem_map.1 hb
    exact ⟨symbol, hsymbol, day, hday, hb⟩
  have hle : ∀ day ∈ sessionsOf days, day ≤ sessionDate := by
    intro day hday
    obtain ⟨init, hinit⟩ := List.getLast?_eq_some_iff.1 hlast
    have hpairwise := pairwise_sessionsOf days
    rw [hinit, List.pairwise_append] at hpairwise
    rw [hinit] at hday
    rcases List.mem_append.1 hday with hday | hday
    · exact (hpairwise.2.2 day hday sessionDate List.mem_cons_self).le
    · exact (List.mem_singleton.1 hday).le
  have husSymbol : ∀ symbol ∈ SYSTEMATIC_REGIME_UNIVERSE, Swing.isUsSymbol symbol = true := by
    decide +kernel
  have hidentifier : Swing.isIdentifier "regime" = true := by decide +kernel
  have hsymbols : SYSTEMATIC_REGIME_UNIVERSE ≠ [] ∧
      SYSTEMATIC_REGIME_UNIVERSE = sortedSet SYSTEMATIC_REGIME_UNIVERSE ∧ True := by
    decide +kernel
  have hvalid : (sourceOf days sessionDate).validateSource env.newYork = true := by
    rw [SwingDailySource.validateSource, decide_eq_true_eq]
    refine ⟨?_, rfl, isAfterClose_combine hsession (by decide), ?_, hidentifier, hsymbols.1,
      hsymbols.2.1, List.all_eq_true.2 husSymbol, ?_,
      (sortedSet_eq_self_iff.2 (barKeys_sourceOf days sessionDate)).symm, ?_,
      targetSymbols_sourceOf hmem⟩
    · refine List.all_eq_true.2 fun b hb => ?_
      obtain ⟨symbol, hsymbol, day, hday, rfl⟩ := hbars b hb
      exact validateBar_bar (husSymbol symbol hsymbol) hday
    · simp only [sourceOf, DateTime.astimezone, DateTime.combine, DateTime.instant, DateTime.date,
        env, Option.getD_some, Date.start, TimeDelta.days, TimeDelta.hours, TimeDelta.minutes,
        TimeDelta.seconds]
      change @Eq ℤ _ _
      omega
    · intro hnil
      have hlength := congrArg List.length (hdates "SPY" (by decide))
      rw [SwingDailySource.barsFor, hnil] at hlength
      simp only [List.filter_nil, List.map_nil, List.length_nil] at hlength
      omega
    · refine List.all_eq_true.2 fun b hb => decide_eq_true ?_
      obtain ⟨symbol, hsymbol, day, hday, rfl⟩ := hbars b hb
      refine ⟨hsymbol, hle day hday, ?_⟩
      have hday : @LE.le ℤ _ day sessionDate := hle day hday
      simp only [DateTime.le_def, sourceOf, bar, DateTime.combine, DateTime.instant,
        Option.getD_some, Date.start, TimeDelta.days, TimeDelta.hours, TimeDelta.minutes,
        TimeDelta.seconds]
      change @LE.le ℤ _ _ _
      omega
  have hsame : ((sourceOf days sessionDate).symbols.any fun symbol =>
      ((sourceOf days sessionDate).barsFor symbol).map (·.sessionDate) ≠ sessionsOf days) =
        false := by
    refine List.any_eq_false.2 fun symbol hsymbol => ?_
    rw [hdates symbol hsymbol]
    simp
  rw [checkedSource, raiseIf_bind, if_neg (by simp [hvalid])]
  dsimp only
  rw [hdates "SPY" (by decide), raiseIf_bind, if_neg]
  · rfl
  · rw [hsame, hchain]
    simp only [not_or, not_not, not_lt]
    exact ⟨rfl, hcount, by simp, by simp, hlast⟩

/-- The sources of the sessions up to the 21st of October 2025, and up to the next day. -/
def first : SwingDailySource := sourceOf 293 (.ofCivil 2025 10 21)
def second : SwingDailySource := sourceOf 294 (.ofCivil 2025 10 22)

/-- Whether each of some sessions is the next one after that before it. -/
def areConsecutive (sessions : List Date) : Bool :=
  (sessions.zip sessions.tail).any (fun (current, following) =>
    ¬ follows env current following) = false

theorem sessionsOf_facts :
    ((sessionsOf 293).getLast? = some (.ofCivil 2025 10 21) ∧ 201 ≤ (sessionsOf 293).length ∧
      areConsecutive (sessionsOf 293)) ∧
    ((sessionsOf 294).getLast? = some (.ofCivil 2025 10 22) ∧ 201 ≤ (sessionsOf 294).length ∧
      areConsecutive (sessionsOf 294)) ∧
    (sessionsOf 294).filter (· ≤ .ofCivil 2025 10 21) = sessionsOf 293 := by
  decide +kernel

theorem checkedSource_first : checkedSource env first = .ok (sessionsOf 293) :=
  checkedSource_sourceOf sessionsOf_facts.1.1 sessionsOf_facts.1.2.1
    (of_decide_eq_true sessionsOf_facts.1.2.2)

theorem checkedSource_second : checkedSource env second = .ok (sessionsOf 294) :=
  checkedSource_sourceOf sessionsOf_facts.2.1.1 sessionsOf_facts.2.1.2.1
    (of_decide_eq_true sessionsOf_facts.2.1.2.2)

theorem isInitial_first : IsInitial first second := by
  refine ⟨rfl, ?_⟩
  have hbars : ∀ symbol, ((sessionsOf 294).map (bar symbol)).filter
      (·.sessionDate ≤ .ofCivil 2025 10 21) = (sessionsOf 293).map (bar symbol) := by
    intro symbol
    have hday : (fun b : SwingDailyBar => decide (b.sessionDate ≤ .ofCivil 2025 10 21)) ∘
        bar symbol = fun day => decide (day ≤ .ofCivil 2025 10 21) := rfl
    rw [List.filter_map, hday, sessionsOf_facts.2.2]
  rw [second, sourceOf, List.filter_flatMap]
  exact congrArg (SYSTEMATIC_REGIME_UNIVERSE.flatMap ·) (funext fun symbol => (hbars symbol).symm)

/-- The replay of the sessions up to the 21st of October is the initial part of that up to the next
    day. -/
theorem first_is_initial_part : ∃ replay replayW, replaySystematicRegime env first = .ok replay ∧
    replaySystematicRegime env second = .ok replayW ∧
    replay.observations <+: replayW.observations := by
  obtain ⟨hreplayed, -, hinitial, -⟩ := replaySystematicRegime_looksBack env
  obtain ⟨replay, hreplay⟩ := (hreplayed first).resolve_right fun h => by
    rw [checkedSource_first] at h
    cases h.1
  obtain ⟨replayW, hreplayW⟩ := (hreplayed second).resolve_right fun h => by
    rw [checkedSource_second] at h
    cases h.1
  exact ⟨replay, replayW, hreplay, hreplayW,
    (hinitial first second isInitial_first replay replayW hreplay hreplayW).1⟩

end RegimeSample

end TradingAgent.Systematic
