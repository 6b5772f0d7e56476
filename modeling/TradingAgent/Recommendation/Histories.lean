import Mathlib.Data.List.Chain
import TradingAgent.Library.Fold
import TradingAgent.Recommendation.History
import TradingAgent.Recommendation.Sessions

/-!
# Histories in the order of time

In the regular session, and with bars in the order of time, the events of a recommendation are in
that order too (`IsHistory`): a bar is followed only if it is not before the recommendation and
after the last bar that was followed, and the close of the session is after all of them.

* The states of a history lead to one another (`RecommendationState.next`).
* The store keeps the histories of all its recommendations, and the time of the last bar of each
  symbol (`Tracked`); what a bar, a new recommendation and the close do to it is `Tracked.update`,
  `Tracked.create` and `Tracked.finalize`.
-/

namespace TradingAgent

open Transition

/-- The states to which the engine takes a recommendation. -/
def RecommendationState.next : RecommendationState → List RecommendationState
  | setup => [active, invalidated, timeExit]
  | active => [target1r, target2r, stopped, timeExit]
  | target1r => [target2r, stopped, timeExit]
  | _ => []

/-- What may come after an event. -/
def Follows (e f : RecommendationEvent) : Prop :=
  f.state ∈ e.state.next ∧ e.occurredAt ≤ f.occurredAt

/-- The events of a recommendation in a state, from its creation on. -/
structure IsHistory (r : Recommendation) (events : List RecommendationEvent) : Prop where
  created : events.head? = some (creationEvent { r with state := .setup })
  ids : ∀ e ∈ events, e.recommendationId = r.recommendationId
  aware : ∀ e ∈ events, e.occurredAt.aware = true
  follows : events.IsChain Follows
  current : events.getLast?.map (·.state) = some r.state

/-! ## Histories -/

section

variable {env : Environment} {bar : BarInput} {r : Recommendation}
  {events : List RecommendationEvent}

theorem isHistory_creation (hsetup : r.state = .setup) (haware : r.createdAt.aware = true) :
    IsHistory r [creationEvent r] where
  created := by rw [← hsetup]; rfl
  ids := List.forall_mem_singleton.2 rfl
  aware := List.forall_mem_singleton.2 haware
  follows := List.isChain_singleton _
  current := rfl

/-- One more event. -/
theorem IsHistory.append (h : IsHistory r events) (event : RecommendationEvent)
    (hid : event.recommendationId = r.recommendationId) (haware : event.occurredAt.aware = true)
    (hnext : event.state ∈ r.state.next) (htime : ∀ e ∈ events, e.occurredAt ≤ event.occurredAt) :
    IsHistory { r with state := event.state } (events ++ [event]) where
  created := by
    rw [List.head?_append, h.created]
    rfl
  ids := List.forall_mem_append.2 ⟨h.ids, List.forall_mem_singleton.2 hid⟩
  aware := List.forall_mem_append.2 ⟨h.aware, List.forall_mem_singleton.2 haware⟩
  follows := by
    refine h.follows.append (List.isChain_singleton _) fun e he f hf => ?_
    rw [List.head?_singleton, Option.mem_some_iff] at hf
    subst hf
    refine ⟨?_, htime e (List.mem_of_getLast? he)⟩
    have hstate := h.current
    rw [he, Option.map_some, Option.some.injEq] at hstate
    rwa [hstate]
  current := by rw [List.getLast?_concat, Option.map_some]

/-- The transitions of a bar lead from the state of a recommendation to one another. -/
theorem isChain_transitions :
    (r.state :: (transitions env bar r).map (·.state)).IsChain fun s t => t ∈ s.next := by
  rw [transitions]
  split_ifs
  swap
  · exact List.isChain_singleton _
  have hheld : ∀ state, state = RecommendationState.active ∨ state = .target1r →
      (state :: (heldTransitions bar r state).map (·.state)).IsChain fun s t => t ∈ s.next := by
    intro state hstate
    rw [heldTransitions]
    split_ifs with hstop htarget2r htarget1r
    · rcases hstate with rfl | rfl <;> exact List.isChain_pair.2 (by simp [RecommendationState.next])
    · rcases hstate with rfl | rfl <;> exact List.isChain_pair.2 (by simp [RecommendationState.next])
    · rw [htarget1r.1]
      exact List.isChain_pair.2 (by simp [RecommendationState.next])
    · exact List.isChain_singleton _
  cases hstate : r.state with
  | setup =>
    simp only [barTransitions, hstate]
    split_ifs
    · exact List.isChain_pair.2 (by simp [RecommendationState.next])
    · exact List.isChain_singleton _
    · exact List.IsChain.cons_cons (by simp [RecommendationState.next]) (hheld .active (.inl rfl))
  | active =>
    simp only [barTransitions, hstate]
    exact hheld .active (.inl rfl)
  | target1r =>
    simp only [barTransitions, hstate]
    exact hheld .target1r (.inr rfl)
  | invalidated | causalityExcluded | stopped | target2r | timeExit =>
    simp only [barTransitions, hstate]
    exact List.isChain_singleton _

/-- The events of a bar that is not before the others. -/
theorem IsHistory.append_transitions (h : IsHistory r events)
    {ts : List StateTransition} (haware : bar.timestamp.aware = true)
    (hnext : (r.state :: ts.map (·.state)).IsChain fun s t => t ∈ s.next)
    (htime : ts ≠ [] → ∀ e ∈ events, e.occurredAt ≤ bar.timestamp) :
    IsHistory { r with state := ts.foldl (fun _ t => t.state) r.state }
      (events ++ ts.map (transitionEvent bar r)) := by
  induction ts generalizing r events with
  | nil => simpa using h
  | cons t ts ih =>
    rw [List.map_cons, List.isChain_cons_cons] at hnext
    have htime := htime (List.cons_ne_nil t ts)
    have hone : IsHistory { r with state := t.state } (events ++ [transitionEvent bar r t]) :=
      h.append (transitionEvent bar r t) rfl haware hnext.1 htime
    have hrest := ih hone hnext.2 fun _ => List.forall_mem_append.2
      ⟨htime, List.forall_mem_singleton.2 (DateTime.le_refl _)⟩
    rw [List.append_assoc] at hrest
    exact hrest

end

/-! ## Clocks -/

/-- Whether a regular session is open at a time. -/
def regularSessionIsOpen (env : Environment) (time : DateTime) : Bool :=
  let current := time.astimezone env.newYork
  (regularSessionBounds current.date).any fun bounds =>
    bounds.opens ≤ current.wall ∧ current.wall < bounds.closes

/-- What is known of the clocks of New York: they are four or five hours behind UTC, and are not
    set while a regular session is open. -/
structure NewYorkClocks (env : Environment) : Prop where
  offset : ∀ i, .hours (-5) ≤ env.newYork.utcoffset i ∧ env.newYork.utcoffset i ≤ .hours (-4)
  regular : ∀ time : DateTime, regularSessionIsOpen env time = true →
    ∀ closes ∈ sessionClose env time,
      env.newYork.utcoffset time.instant = env.newYorkOffset closes

section

variable {env : Environment} {s t : DateTime} {bar : BarInput} {r : Recommendation}

theorem regularSessionIsOpen_iff : regularSessionIsOpen env t = true ↔
    ∃ bounds, regularSessionBounds (env.date t) = some bounds ∧
      bounds.opens ≤ (t.astimezone env.newYork).wall ∧
      (t.astimezone env.newYork).wall < bounds.closes := by
  rw [regularSessionIsOpen, Option.any_eq_true]
  simp only [decide_eq_true_eq]
  rfl

/-- A session opens more than an hour after the one of another day has closed. -/
theorem closes_add_hours_lt_opens {d e : Date} {before after : SessionBounds}
    (hbefore : regularSessionBounds d = some before) (hafter : regularSessionBounds e = some after)
    (hlt : d < e) : before.closes + TimeDelta.hours 1 < after.opens := by
  have hopens : after.opens = e.start + REGULAR_OPEN := by
    rw [regularSessionBounds] at hafter
    split_ifs at hafter
    all_goals
      cases hafter
      rfl
  have hcloses := (regularSessionBounds_within hbefore).2.2
  have hlt : @LT.lt ℤ _ d e := hlt
  rw [hopens]
  simp only [Date.start, REGULAR_OPEN, TimeDelta.days, TimeDelta.hours, TimeDelta.minutes,
    TimeDelta.seconds] at hcloses ⊢
  omega

/-- In regular sessions, what is later on the clocks of New York is later. -/
theorem le_of_wall_le (hclocks : NewYorkClocks env) (hs : regularSessionIsOpen env s = true)
    (ht : regularSessionIsOpen env t = true)
    (hwall : (s.astimezone env.newYork).wall ≤ (t.astimezone env.newYork).wall) : s ≤ t := by
  obtain ⟨sbounds, hsbounds, hsopens, hscloses⟩ := regularSessionIsOpen_iff.1 hs
  obtain ⟨tbounds, htbounds, htopens, htcloses⟩ := regularSessionIsOpen_iff.1 ht
  have hsinstant : (s.astimezone env.newYork).wall =
      s.instant + env.newYork.utcoffset s.instant := rfl
  have htinstant : (t.astimezone env.newYork).wall =
      t.instant + env.newYork.utcoffset t.instant := rfl
  rw [DateTime.le_def]
  rcases lt_or_ge (env.date s) (env.date t) with hnight | hday
  · -- There is a night between them.
    have hgap := closes_add_hours_lt_opens hsbounds htbounds hnight
    have hsoffset : @LE.le ℤ _ (TimeDelta.hours (-5)) (env.newYork.utcoffset s.instant) :=
      (hclocks.offset s.instant).1
    have htoffset : @LE.le ℤ _ (env.newYork.utcoffset t.instant) (TimeDelta.hours (-4)) :=
      (hclocks.offset t.instant).2
    simp only [TimeDelta.hours, TimeDelta.minutes, TimeDelta.seconds] at hgap hsoffset htoffset
    omega
  · -- The clocks are not set between the two times.
    have hle : env.date s ≤ env.date t :=
      Int.add_le_add_right (Int.ediv_le_ediv (by decide) hwall) 1
    have hsame : env.newYork.utcoffset s.instant = env.newYork.utcoffset t.instant := by
      rw [hclocks.regular s hs tbounds.closes, hclocks.regular t ht tbounds.closes]
      · simp [sessionClose, htbounds]
      · simp [sessionClose, le_antisymm hle hday, htbounds]
    rw [hsame] at hsinstant
    omega

end

/-! ## Stores -/

/-- A store that has the histories of its recommendations. No event of one that is open is later
    than its creation and the last bar of its symbol that was followed. -/
structure Tracked (env : Environment) (latest : String → Option DateTime) (store : PaperStore) :
    Prop where
  keyed : store.Keyed
  known : ∀ event ∈ store.events, ∃ r ∈ store.recommendations,
    r.recommendationId = event.recommendationId
  histories : ∀ r ∈ store.recommendations, IsHistory r (store.eventsOf r.recommendationId)
  regular : ∀ r ∈ store.recommendations, regularSessionIsOpen env r.createdAt = true
  before : ∀ r ∈ store.recommendations, r.state.isOpen = true →
    ∀ e ∈ store.eventsOf r.recommendationId,
      e.occurredAt ≤ r.createdAt ∨ ∃ t ∈ latest r.symbol, e.occurredAt ≤ t

section

variable {env : Environment} {latest : String → Option DateTime} {store : PaperStore}
  {bar : BarInput} {r : Recommendation}

/-- The history of a recommendation after each of them has had some events. -/
theorem eventsOf_append_flatMap (hkeyed : store.Keyed)
    {events : Recommendation → List RecommendationEvent}
    (hown : ∀ s ∈ store.recommendations, ∀ e ∈ events s, e.recommendationId = s.recommendationId)
    (hr : r ∈ store.recommendations) (recommendations : List Recommendation) :
    PaperStore.eventsOf { store with
        recommendations, events := store.events ++ store.recommendations.flatMap events }
        r.recommendationId = store.eventsOf r.recommendationId ++ events r := by
  rw [PaperStore.eventsOf, List.filter_append, filter_flatMap_key hkeyed hown hr]
  rfl

/-- A bar that is followed is not before the creation of the recommendation. -/
theorem createdAt_le_of_isEligible (hclocks : NewYorkClocks env)
    (hcreated : regularSessionIsOpen env r.createdAt = true)
    (hbar : regularSessionIsOpen env bar.timestamp = true)
    (heligible : isEligible env.newYork bar r = true) : r.createdAt ≤ bar.timestamp := by
  refine le_of_wall_le hclocks hcreated hbar ?_
  have hfirst : (r.createdAt.astimezone env.newYork).wall ≤
      (firstEligibleBarAt env.newYork r.createdAt).wall := by
    rw [firstEligibleBarAt]
    split_ifs with heq
    · exact (congrArg DateTime.wall heq).le
    · change _ ≤ (r.createdAt.astimezone env.newYork).wall -
        (r.createdAt.astimezone env.newYork).wall % TimeDelta.minutes 1 + TimeDelta.minutes 1
      simp only [TimeDelta.minutes, TimeDelta.seconds]
      omega
  have hnot := of_decide_eq_true heligible
  omega

/-- Each recommendation has some events, and a new state. -/
theorem Tracked.record {latest' : String → Option DateTime} (h : Tracked env latest store)
    (state : Recommendation → RecommendationState)
    (events : Recommendation → List RecommendationEvent)
    (hown : ∀ s ∈ store.recommendations, ∀ e ∈ events s, e.recommendationId = s.recommendationId)
    (hhistory : ∀ s ∈ store.recommendations, IsHistory { s with state := state s }
      (store.eventsOf s.recommendationId ++ events s))
    (hbefore : ∀ s ∈ store.recommendations, (state s).isOpen = true →
      ∀ e ∈ store.eventsOf s.recommendationId ++ events s,
        e.occurredAt ≤ s.createdAt ∨ ∃ t ∈ latest' s.symbol, e.occurredAt ≤ t) :
    Tracked env latest'
      { store with
        recommendations := store.recommendations.map fun s => { s with state := state s }
        events := store.events ++ store.recommendations.flatMap events } := by
  refine ⟨?_, fun event hevent => ?_, fun s' hs' => ?_, fun s' hs' => ?_, fun s' hs' => ?_⟩
  · rw [PaperStore.Keyed, List.map_map]
    exact h.keyed
  · have hknown : ∃ s ∈ store.recommendations, s.recommendationId = event.recommendationId := by
      rcases List.mem_append.1 hevent with hold | hnew
      · exact h.known event hold
      · obtain ⟨s, hs, hmem⟩ := List.mem_flatMap.1 hnew
        exact ⟨s, hs, (hown s hs event hmem).symm⟩
    obtain ⟨s, hs, heq⟩ := hknown
    exact ⟨_, List.mem_map_of_mem hs, heq⟩
  · obtain ⟨s, hs, rfl⟩ := List.mem_map.1 hs'
    rw [eventsOf_append_flatMap h.keyed hown hs]
    exact hhistory s hs
  · obtain ⟨s, hs, rfl⟩ := List.mem_map.1 hs'
    exact h.regular s hs
  · obtain ⟨s, hs, rfl⟩ := List.mem_map.1 hs'
    rw [eventsOf_append_flatMap h.keyed hown hs]
    exact hbefore s hs

/-- A bar in a regular session, after the last one of its symbol. -/
theorem Tracked.update (h : Tracked env latest store) (hclocks : NewYorkClocks env)
    (haware : bar.timestamp.aware = true)
    (hopen : regularSessionIsOpen env bar.timestamp = true)
    (hlatest : ∀ t ∈ latest bar.symbol, t ≤ bar.timestamp) :
    Tracked env (Function.update latest bar.symbol (some bar.timestamp))
      ((updateOpenRecommendations env bar store).foldl (PaperStore.commit env) store) := by
  rw [update_spec h.keyed]
  have hevents : ∀ s ∈ store.recommendations, transitions env bar s ≠ [] →
      s.symbol = bar.symbol ∧
        ∀ e ∈ store.eventsOf s.recommendationId, e.occurredAt ≤ bar.timestamp := by
    intro s hs hne
    have hstate : s.state.isOpen = true := by
      by_contra hclosed
      exact hne (transitions_of_closed (Bool.not_eq_true _ ▸ hclosed))
    rw [transitions] at hne
    split_ifs at hne with heligible
    swap
    · exact absurd rfl hne
    refine ⟨heligible.1, fun e he => ?_⟩
    rcases h.before s hs hstate e he with hcreated | ⟨t, ht, hle⟩
    · exact DateTime.le_trans hcreated
        (createdAt_le_of_isEligible hclocks (h.regular s hs) hopen heligible.2)
    · exact DateTime.le_trans hle (hlatest t (heligible.1 ▸ ht))
  refine h.record (stateAfterBar env bar) _ (fun s _ e he => ?_) (fun s hs => ?_)
    fun s hs hs' e he => ?_
  · obtain ⟨t, -, rfl⟩ := List.mem_map.1 he
    rfl
  · exact (h.histories s hs).append_transitions haware isChain_transitions
      fun hne => (hevents s hs hne).2
  · have hsopen : s.state.isOpen = true := by
      by_contra hclosed
      rw [Bool.not_eq_true] at hclosed
      rw [stateAfterBar_of_closed hclosed, hclosed] at hs'
      cases hs'
    rcases List.mem_append.1 he with hold | hnew
    · refine (h.before s hs hsopen e hold).imp_right ?_
      rintro ⟨t, ht, hle⟩
      by_cases hsymbol : s.symbol = bar.symbol
      · rw [hsymbol] at ht ⊢
        refine ⟨bar.timestamp, ?_, DateTime.le_trans hle (hlatest t ht)⟩
        rw [Function.update_self]
        rfl
      · exact ⟨t, by rwa [Function.update_of_ne hsymbol], hle⟩
    · obtain ⟨t, ht, rfl⟩ := List.mem_map.1 hnew
      have hsymbol := (hevents s hs (List.ne_nil_of_mem ht)).1
      refine .inr ⟨bar.timestamp, ?_, DateTime.le_refl _⟩
      rw [hsymbol, Function.update_self]
      rfl

/-- The history of an identity that is not taken is empty. -/
theorem Tracked.eventsOf_new (h : Tracked env latest store)
    (hnew : store.recommendations.any (·.recommendationId = r.recommendationId) = false) :
    store.eventsOf r.recommendationId = [] := by
  rw [PaperStore.eventsOf, List.filter_eq_nil_iff]
  intro event hevent hid
  obtain ⟨s, hs, heq⟩ := h.known event hevent
  exact List.any_eq_false.1 hnew s hs (decide_eq_true (heq.trans (of_decide_eq_true hid)))

/-- A recommendation of a new identity, made in a regular session. -/
theorem Tracked.create (h : Tracked env latest store) (hsetup : r.state = .setup)
    (haware : r.createdAt.aware = true) (hopen : regularSessionIsOpen env r.createdAt = true)
    (hnew : store.recommendations.any (·.recommendationId = r.recommendationId) = false) :
    Tracked env latest ([.insertRecommendation r, .setState (creationEvent r)].foldl
      (PaperStore.commit env) store) := by
  have hevents : ∀ id, ([.insertRecommendation r, .setState (creationEvent r)].foldl
      (PaperStore.commit env) store).eventsOf id =
        store.eventsOf id ++ if r.recommendationId = id then [creationEvent r] else [] :=
    fun id => @eventsOf_setState env (store.commit env (.insertRecommendation r)) (creationEvent r) id
  have hself : ([.insertRecommendation r, .setState (creationEvent r)].foldl
      (PaperStore.commit env) store).eventsOf r.recommendationId = [creationEvent r] := by
    rw [hevents, if_pos rfl, h.eventsOf_new hnew, List.nil_append]
  have hother : ∀ s : Recommendation, s.recommendationId ≠ r.recommendationId →
      ([.insertRecommendation r, .setState (creationEvent r)].foldl
        (PaperStore.commit env) store).eventsOf s.recommendationId =
          store.eventsOf s.recommendationId := by
    intro s hne
    rw [hevents, if_neg hne.symm, List.append_nil]
  refine ⟨@PaperStore.Keyed.setState env _ (@PaperStore.Keyed.insert env _ h.keyed r hnew) _,
    fun e he => ?_, fun s hs => ?_, fun s hs => ?_, fun s hs hs' e he => ?_⟩
  · rcases List.mem_append.1 he with hold | hown
    · obtain ⟨s, hs, heq⟩ := h.known e hold
      exact ⟨s, mem_create hnew hs, heq⟩
    · rw [List.mem_singleton.1 hown]
      exact ⟨r, mem_create_self, rfl⟩
  · rcases mem_create_cases hnew hs with rfl | ⟨hs, hne⟩
    · rw [hself]
      exact isHistory_creation hsetup haware
    · rw [hother s hne]
      exact h.histories s hs
  · rcases mem_create_cases hnew hs with rfl | ⟨hs, -⟩
    · exact hopen
    · exact h.regular s hs
  · rcases mem_create_cases hnew hs with rfl | ⟨hs, hne⟩
    · rw [hself, List.mem_singleton] at he
      rw [he]
      exact .inl (DateTime.le_refl _)
    · rw [hother s hne] at he
      exact h.before s hs hs' e he

theorem Tracked.setCheckpoint (h : Tracked env latest store) (checkpoint : BarCheckpoint) :
    Tracked env latest (store.commit env (.setCheckpoint checkpoint)) :=
  ⟨h.keyed, h.known, h.histories, h.regular, h.before⟩

/-- Bars in the order of time, from the last one of their symbol on. -/
theorem Tracked.afterBars (h : Tracked env latest store) (hclocks : NewYorkClocks env)
    {symbol : String} {bars : List BarInput} (hsymbol : ∀ bar ∈ bars, bar.symbol = symbol)
    (haware : ∀ bar ∈ bars, bar.timestamp.aware = true)
    (hopen : ∀ bar ∈ bars, regularSessionIsOpen env bar.timestamp = true)
    (hlatest : ∀ bar ∈ bars, ∀ t ∈ latest symbol, t ≤ bar.timestamp)
    (hascending : bars.Pairwise fun a b => a.timestamp ≤ b.timestamp) :
    Tracked env (bars.foldl (fun latest bar =>
      Function.update latest symbol (some bar.timestamp)) latest) (afterBars env bars store) := by
  induction bars generalizing latest store with
  | nil => exact h
  | cons bar bars ih =>
    rw [List.forall_mem_cons] at hsymbol haware hopen hlatest
    rw [List.pairwise_cons] at hascending
    have hone := h.update hclocks haware.1 hopen.1 (hsymbol.1.symm ▸ hlatest.1)
    rw [hsymbol.1] at hone
    refine ih hone hsymbol.2 haware.2 hopen.2 (fun later hlater t ht => ?_) hascending.2
    have heq : bar.timestamp = t := by simpa using ht
    exact heq ▸ hascending.1 later hlater

/-! ## The close -/

theorem dueClose_eq_some {observedAt : DateTime} {closes : ℤ} {checkpoint : DateTime}
    {lastClose : ℚ} (h : dueClose env store observedAt r = some (closes, checkpoint, lastClose)) :
    sessionClose env r.createdAt = some closes ∧ store.lastProcessedBar r.symbol = some checkpoint ∧
      r.state.isOpen = true ∧ env.date checkpoint = env.date r.createdAt := by
  simp only [dueClose, Option.bind_eq_bind, Option.bind_eq_some_iff] at h
  obtain ⟨_, hcloses, _, hcheckpoint, _, -, hdue⟩ := h
  split_ifs at hdue with hcond
  obtain ⟨rfl, rfl, rfl⟩ : _ = closes ∧ _ = checkpoint ∧ _ = lastClose := by simpa using hdue
  exact ⟨hcloses, hcheckpoint, hcond.1, hcond.2.2⟩

/-- A time of a regular session is not after its close. -/
theorem le_close (hclocks : NewYorkClocks env) (hopen : regularSessionIsOpen env t = true)
    {closes : ℤ} (hcloses : sessionClose env t = some closes) :
    t ≤ ⟨closes, some (env.newYorkOffset closes)⟩ := by
  obtain ⟨bounds, hbounds, -, hbefore⟩ := regularSessionIsOpen_iff.1 hopen
  have heq : bounds.closes = closes := by
    simpa [sessionClose, hbounds] using hcloses
  have hoffset := hclocks.regular t hopen closes hcloses
  have hwall : (t.astimezone env.newYork).wall =
      t.instant + env.newYork.utcoffset t.instant := rfl
  have hinstant : (⟨closes, some (env.newYorkOffset closes)⟩ : DateTime).instant =
      closes - env.newYorkOffset closes := rfl
  rw [DateTime.le_def, hinstant, ← hoffset]
  omega

/-- Recommendations that are finalized at the close of their session. -/
theorem Tracked.finalize (h : Tracked env store.lastProcessedBar store)
    (hclocks : NewYorkClocks env)
    (hcheckpoints : ∀ c ∈ store.checkpoints, regularSessionIsOpen env c.processedAt = true)
    (observedAt : DateTime) :
    Tracked env store.lastProcessedBar
      ((finalizeTransactions env observedAt store).foldl (PaperStore.commit env) store) := by
  rw [finalize_spec h.keyed]
  refine h.record _ _ (fun s _ e he => ?_) (fun s hs => ?_) fun s hs hs' e he => ?_
  · obtain ⟨due, -, rfl⟩ := Option.map_eq_some_iff.1 (Option.mem_toList.1 he)
    rfl
  · rw [closeEvents]
    cases hdue : dueClose env store observedAt s with
    | none => simpa using h.histories s hs
    | some due =>
      obtain ⟨closes, checkpoint, lastClose⟩ := due
      obtain ⟨hcloses, hcheckpoint, hsopen, hday⟩ := dueClose_eq_some hdue
      have hnext : RecommendationState.timeExit ∈ s.state.next := by
        cases hstate : s.state <;> simp_all [RecommendationState.isOpen, RecommendationState.next]
      refine (h.histories s hs).append (closeEvent env s closes checkpoint lastClose) rfl rfl hnext
        fun e he => ?_
      rcases h.before s hs hsopen e he with hcreated | ⟨t, ht, hle⟩
      · exact DateTime.le_trans hcreated (le_close hclocks (h.regular s hs) hcloses)
      · obtain ⟨c, hc, rfl⟩ := Option.map_eq_some_iff.1 hcheckpoint
        obtain rfl : c.processedAt = t := Option.some.inj (hcheckpoint.symm.trans ht)
        have hregular := hcheckpoints c (List.mem_of_find?_eq_some hc)
        refine DateTime.le_trans hle (le_close hclocks hregular ?_)
        rwa [sessionClose, hday]
  · cases hdue : dueClose env store observedAt s with
    | some due =>
      rw [hdue] at hs'
      cases hs'
    | none =>
      rw [hdue] at hs'
      rw [closeEvents, hdue, Option.map_none, Option.toList_none, List.append_nil] at he
      exact h.before s hs hs' e he

end

end TradingAgent
