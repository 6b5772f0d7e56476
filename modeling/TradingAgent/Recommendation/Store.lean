import Mathlib.Data.List.Sort
import Mathlib.Algebra.Order.Ring.Rat
import TradingAgent.Library.Time

/-!
# The store of recommendations

The tables of the recommendations, of their events and of the last bar that was processed of each
symbol (`PaperStore`), and the transactions that change them (`Transaction`). Each transaction is
committed on its own: saving a recommendation takes two of them (`saveTransactions`).

* Prices are rational numbers. The rows are kept in the order in which they are read: the
  recommendations by the text of their creation time and by their symbol (`createdBefore`), the
  events by their number.
* What the clocks of New York show, and the text of a time, is that of an `Environment`.
-/

namespace TradingAgent

/-- What the program takes from its environment. -/
structure Environment where
  newYork : ZoneInfo
  /-- How much the clocks of New York are ahead of UTC, where they show a time. -/
  newYorkOffset : ℤ → TimeDelta
  isoformat : DateTime → String

/-- The day in New York. -/
def Environment.date (env : Environment) (time : DateTime) : Date :=
  (time.astimezone env.newYork).date

inductive RecommendationState
  | setup
  | active
  | invalidated
  | causalityExcluded
  | stopped
  | target1r
  | target2r
  | timeExit
  deriving DecidableEq, Repr

/-- Whether a recommendation in a state is still followed. -/
def RecommendationState.isOpen : RecommendationState → Bool
  | setup | active | target1r => true
  | _ => false

structure BarInput where
  symbol : String
  timestamp : DateTime
  openPrice : ℚ
  high : ℚ
  low : ℚ
  close : ℚ
  volume : ℤ
  priorClose : ℚ
  averageDailyVolume : ℤ
  spreadBps : ℚ
  catalyst : String := ""
  deriving DecidableEq, Repr

structure Recommendation where
  recommendationId : String
  symbol : String
  strategy : String
  createdAt : DateTime
  entry : ℚ
  stop : ℚ
  target1r : ℚ
  target2r : ℚ
  state : RecommendationState
  rationale : String
  deriving DecidableEq, Repr

structure RecommendationEvent where
  recommendationId : String
  occurredAt : DateTime
  state : RecommendationState
  price : Option ℚ
  note : String
  deriving DecidableEq, Repr

/-- A row of the checkpoints. One that an older version has written has no close. -/
structure BarCheckpoint where
  symbol : String
  processedAt : DateTime
  lastClose : Option ℚ
  deriving DecidableEq, Repr

structure PaperStore where
  recommendations : List Recommendation := []
  events : List RecommendationEvent := []
  checkpoints : List BarCheckpoint := []
  deriving DecidableEq, Repr

/-- The order in which recommendations are read. -/
def createdBefore (env : Environment) (a b : Recommendation) : Prop :=
  env.isoformat a.createdAt < env.isoformat b.createdAt
    ∨ env.isoformat a.createdAt = env.isoformat b.createdAt ∧ a.symbol ≤ b.symbol

instance (env : Environment) : DecidableRel (createdBefore env) :=
  fun _ _ => inferInstanceAs (Decidable (_ ∨ _))

inductive Transaction
  | insertRecommendation (recommendation : Recommendation)
  | setState (event : RecommendationEvent)
  | setCheckpoint (checkpoint : BarCheckpoint)
  deriving DecidableEq, Repr

namespace PaperStore

/-- The store after a transaction. -/
def commit (env : Environment) (store : PaperStore) : Transaction → PaperStore
  | .insertRecommendation recommendation =>
    { store with
      recommendations := store.recommendations.orderedInsert (createdBefore env) recommendation }
  | .setState event =>
    { store with
      recommendations := store.recommendations.map fun r =>
        if r.recommendationId = event.recommendationId then { r with state := event.state } else r
      events := store.events ++ [event] }
  | .setCheckpoint checkpoint =>
    { store with
      checkpoints := checkpoint :: store.checkpoints.filter (·.symbol ≠ checkpoint.symbol) }

def lastProcessed (store : PaperStore) (symbol : String) : Option BarCheckpoint :=
  store.checkpoints.find? (·.symbol = symbol)

def lastProcessedBar (store : PaperStore) (symbol : String) : Option DateTime :=
  (store.lastProcessed symbol).map (·.processedAt)

def lastProcessedClose (store : PaperStore) (symbol : String) : Option ℚ :=
  (store.lastProcessed symbol).bind (·.lastClose)

def openRecommendations (store : PaperStore) (symbol : String) : List Recommendation :=
  store.recommendations.filter fun r => r.symbol = symbol ∧ r.state.isOpen

/-- The transactions of `save`, or none if the identity is taken: an integrity error. -/
def saveTransactions (store : PaperStore) (recommendation : Recommendation) :
    Option (List Transaction) :=
  if store.recommendations.any (·.recommendationId = recommendation.recommendationId) then
    none
  else
    some [.insertRecommendation recommendation,
      .setState
        { recommendationId := recommendation.recommendationId
          occurredAt := recommendation.createdAt
          state := recommendation.state
          price := none
          note := "추천 생성" }]

/-- The transactions of `set_last_processed_bar`. -/
def setLastProcessedBar (store : PaperStore) (symbol : String) (timestamp : DateTime) (close : ℚ) :
    List Transaction :=
  if (store.lastProcessedBar symbol).any (timestamp ≤ ·) then
    []
  else
    [.setCheckpoint ⟨symbol, timestamp, some close⟩]

/-- The identities of the recommendations are different: the primary key of the table. -/
def Keyed (store : PaperStore) : Prop := (store.recommendations.map (·.recommendationId)).Nodup

section

variable {env : Environment} {store : PaperStore}

/-- The recommendations of other identities are not changed by a new state. -/
theorem commit_setState_recommendations (event : RecommendationEvent) :
    (store.commit env (.setState event)).recommendations =
      store.recommendations.map fun r =>
        if r.recommendationId = event.recommendationId then { r with state := event.state }
        else r := rfl

@[simp] theorem commit_setState_events (event : RecommendationEvent) :
    (store.commit env (.setState event)).events = store.events ++ [event] := rfl

@[simp] theorem commit_setState_checkpoints (event : RecommendationEvent) :
    (store.commit env (.setState event)).checkpoints = store.checkpoints := rfl

@[simp] theorem commit_insert_events (r : Recommendation) :
    (store.commit env (.insertRecommendation r)).events = store.events := rfl

@[simp] theorem commit_insert_checkpoints (r : Recommendation) :
    (store.commit env (.insertRecommendation r)).checkpoints = store.checkpoints := rfl

@[simp] theorem commit_setCheckpoint_recommendations (checkpoint : BarCheckpoint) :
    (store.commit env (.setCheckpoint checkpoint)).recommendations = store.recommendations := rfl

@[simp] theorem commit_setCheckpoint_events (checkpoint : BarCheckpoint) :
    (store.commit env (.setCheckpoint checkpoint)).events = store.events := rfl

theorem mem_commit_insert {r s : Recommendation} :
    s ∈ (store.commit env (.insertRecommendation r)).recommendations
      ↔ s = r ∨ s ∈ store.recommendations :=
  List.mem_orderedInsert _

theorem map_id_setState (event : RecommendationEvent) :
    (store.commit env (.setState event)).recommendations.map (·.recommendationId) =
      store.recommendations.map (·.recommendationId) := by
  rw [commit_setState_recommendations, List.map_map]
  refine List.map_congr_left fun r _ => ?_
  rw [Function.comp_apply]
  split_ifs <;> rfl

theorem Keyed.setState (h : store.Keyed) (event : RecommendationEvent) :
    (store.commit env (.setState event)).Keyed := by
  rwa [Keyed, map_id_setState]

theorem Keyed.insert (h : store.Keyed) {r : Recommendation}
    (hnew : store.recommendations.any (·.recommendationId = r.recommendationId) = false) :
    (store.commit env (.insertRecommendation r)).Keyed := by
  have hperm : (store.commit env (.insertRecommendation r)).recommendations.Perm
      (r :: store.recommendations) := List.perm_orderedInsert _ r _
  rw [Keyed, (hperm.map _).nodup_iff, List.map_cons, List.nodup_cons]
  refine ⟨fun hmem => ?_, h⟩
  obtain ⟨s, hs, heq⟩ := List.mem_map.1 hmem
  exact List.any_eq_false.1 hnew s hs (decide_eq_true heq)

theorem Keyed.eq_of_id (h : store.Keyed) {r s : Recommendation} (hr : r ∈ store.recommendations)
    (hs : s ∈ store.recommendations) (heq : r.recommendationId = s.recommendationId) : r = s :=
  List.inj_on_of_nodup_map h hr hs heq

theorem lastProcessed_setCheckpoint (checkpoint : BarCheckpoint) (symbol : String) :
    (store.commit env (.setCheckpoint checkpoint)).lastProcessed symbol =
      if checkpoint.symbol = symbol then some checkpoint else store.lastProcessed symbol := by
  rw [lastProcessed, commit, List.find?_cons]
  by_cases h : checkpoint.symbol = symbol
  · simp [h]
  · simp only [h, decide_false, if_false, lastProcessed, List.find?_filter]
    congr 1
    funext other
    by_cases hother : other.symbol = symbol
    · simp [hother, Ne.symm h]
    · simp [hother]

end

end PaperStore

end TradingAgent
