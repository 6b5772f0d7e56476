import Mathlib.Algebra.Order.Field.Rat
import TradingAgent.Calendar
import TradingAgent.Library.Resume
import TradingAgent.Recommendation.Store

/-!
# The recommendation engine

The engine follows recommendations through the bars of their symbol (`barTransitions`), and makes
new ones from the signals of a strategy (`creationTransactions`). Bars come in batches; of each
batch, only the bars after the last one that was processed are pending (`pendingBars`).

* What a batch does is the sequence of transactions that it commits (`submit`), after which the
  engine has a new state. The scanner and the strategy are an `Observer` of any states.
* At the close, the recommendations that are still open are finalized
  (`finalizeDueRecommendations`).
-/

namespace TradingAgent

/-! ## Following a recommendation -/

/-- The first minute that starts when the recommendation exists. -/
def firstEligibleBarAt (newYork : ZoneInfo) (createdAt : DateTime) : DateTime :=
  let localCreatedAt := createdAt.astimezone newYork
  let minuteStart : DateTime :=
    { localCreatedAt with wall := localCreatedAt.wall - localCreatedAt.wall % TimeDelta.minutes 1 }
  if localCreatedAt = minuteStart then minuteStart else minuteStart + TimeDelta.minutes 1

/-- Whether a bar starts when a recommendation exists, by the clocks of New York. -/
def isEligible (newYork : ZoneInfo) (bar : BarInput) (r : Recommendation) : Bool :=
  ¬ (bar.timestamp.astimezone newYork).wall < (firstEligibleBarAt newYork r.createdAt).wall

/-- A change of the state of a recommendation, at a price. -/
structure StateTransition where
  state : RecommendationState
  price : ℚ
  note : String
  deriving DecidableEq, Repr

/-- What a bar does to a position that is held in a state. -/
def heldTransitions (bar : BarInput) (r : Recommendation) (state : RecommendationState) :
    List StateTransition :=
  if bar.low ≤ r.stop then
    [⟨.stopped, r.stop, "손절가 도달"⟩]
  else if r.target2r ≤ bar.high then
    [⟨.target2r, max r.target2r bar.openPrice, "2R 목표가 도달"⟩]
  else if state = .active ∧ r.target1r ≤ bar.high then
    [⟨.target1r, max r.target1r bar.openPrice, "1R 목표가 도달"⟩]
  else
    []

/-- What a bar does to a recommendation that is eligible for it. -/
def barTransitions (bar : BarInput) (r : Recommendation) : List StateTransition :=
  match r.state with
  | .setup =>
    if bar.high < r.entry then
      if bar.low ≤ r.stop then [⟨.invalidated, bar.close, "진입 전 무효화 가격 도달"⟩] else []
    else
      ⟨.active, max r.entry bar.openPrice, "조건부 진입가 도달"⟩ :: heldTransitions bar r .active
  | .active => heldTransitions bar r .active
  | .target1r => heldTransitions bar r .target1r
  | _ => []

/-- What a bar does to a recommendation. -/
def transitions (env : Environment) (bar : BarInput) (r : Recommendation) : List StateTransition :=
  if r.symbol = bar.symbol ∧ isEligible env.newYork bar r then barTransitions bar r else []

def transitionEvent (bar : BarInput) (r : Recommendation) (transition : StateTransition) :
    RecommendationEvent where
  recommendationId := r.recommendationId
  occurredAt := bar.timestamp
  state := transition.state
  price := some transition.price
  note := transition.note

/-- The transactions of `_update_open_recommendations`. -/
def updateOpenRecommendations (env : Environment) (bar : BarInput) (store : PaperStore) :
    List Transaction :=
  store.recommendations.flatMap fun r =>
    (transitions env bar r).map fun transition => .setState (transitionEvent bar r transition)

/-! ## New recommendations -/

structure StrategySignal where
  symbol : String
  timestamp : DateTime
  strategy : String
  entry : ℚ
  stop : ℚ
  rationale : String
  deriving DecidableEq, Repr

structure TradePlan where
  entry : ℚ
  stop : ℚ
  target1r : ℚ
  target2r : ℚ
  riskPerShare : ℚ
  deriving DecidableEq, Repr

structure RiskConfig where
  maxSpreadBps : ℚ := 100
  maxRiskPct : ℚ := 5 / 100
  target2rMultiple : ℚ := 2
  deriving DecidableEq, Repr

def buildTradePlan (entry stop spreadBps : ℚ) (config : RiskConfig) : Option TradePlan :=
  let risk := entry - stop
  if risk ≤ 0 ∨ config.maxSpreadBps < spreadBps ∨ config.maxRiskPct < risk / entry then
    none
  else
    some ⟨entry, stop, entry + risk, entry + risk * config.target2rMultiple, risk⟩

/-- The scanner and the strategy, with what they have seen so far as their state. -/
structure Observer (σ κ : Type*) where
  scan : σ → BarInput → σ × Option κ
  observe : σ → BarInput → Option κ → σ × Option StrategySignal

namespace Observer

variable {σ κ : Type*} (observer : Observer σ κ)

/-- A bar is seen, but not evaluated. -/
def warmup (s : σ) (bar : BarInput) : σ :=
  let (s, _) := observer.scan s bar
  (observer.observe s bar none).1

/-- A bar is evaluated. -/
def evaluate (s : σ) (bar : BarInput) : σ × Option StrategySignal :=
  let (s, candidate) := observer.scan s bar
  observer.observe s bar candidate

end Observer

/-- Whether the strategy has made a recommendation for the symbol on the day of the signal. -/
def hasRecommendation (env : Environment) (store : PaperStore) (signal : StrategySignal) : Bool :=
  store.recommendations.any fun r =>
    r.symbol = signal.symbol
      ∧ r.strategy = signal.strategy
      ∧ env.date r.createdAt = env.date signal.timestamp

/-- The later of two times, the first one if they are the same: the builtin `max`. -/
def laterOf (a b : DateTime) : DateTime := if a < b then b else a

def signalCreatedAt (env : Environment) (signal : StrategySignal) (availableAt : Option DateTime) :
    DateTime :=
  match availableAt with
  | none => signal.timestamp
  | some availableAt => laterOf signal.timestamp (availableAt.astimezone env.newYork)

/-- The recommendation for a signal, if it is worth one. -/
def signalRecommendation (env : Environment) (risk : RiskConfig) (bar : BarInput)
    (availableAt : Option DateTime) (signal : StrategySignal) : Option Recommendation :=
  (buildTradePlan signal.entry signal.stop bar.spreadBps risk).map fun plan =>
    let createdAt := signalCreatedAt env signal availableAt
    { recommendationId :=
        env.isoformat createdAt ++ ":" ++ signal.symbol ++ ":" ++ signal.strategy
      symbol := signal.symbol
      strategy := signal.strategy
      createdAt
      entry := plan.entry
      stop := plan.stop
      target1r := plan.target1r
      target2r := plan.target2r
      state := .setup
      rationale := signal.rationale }

/-- The transactions that make a recommendation of a signal, or none if its identity is taken. -/
def creationTransactions (env : Environment) (risk : RiskConfig) (store : PaperStore)
    (bar : BarInput) (availableAt : Option DateTime) (signal : Option StrategySignal) :
    Option (List Transaction) :=
  match signal with
  | none => some []
  | some signal =>
    if hasRecommendation env store signal then
      some []
    else
      match signalRecommendation env risk bar availableAt signal with
      | none => some []
      | some recommendation => store.saveTransactions recommendation

/-! ## Batches -/

/-- How a batch is submitted: by `process_forward`, with the time at which it is available, or by
    `advance_forward`. -/
inductive Submission
  | process (availableAt : Option DateTime)
  | advance
  deriving DecidableEq, Repr

/-- The time at which a batch is available, if one is passed. -/
def Submission.availableAt : Submission → Option DateTime
  | process availableAt => availableAt
  | advance => none

structure Batch where
  bars : List BarInput
  submission : Submission
  deriving DecidableEq, Repr

/-- The symbol of a batch: that of its last bar. -/
def Batch.symbol (batch : Batch) : String := (batch.bars.getLast?.map (·.symbol)).getD ""

def historyBars (store : PaperStore) (batch : Batch) : List BarInput :=
  batch.bars.filter fun bar => (store.lastProcessedBar batch.symbol).any (bar.timestamp ≤ ·)

def pendingBars (store : PaperStore) (batch : Batch) : List BarInput :=
  batch.bars.filter fun bar => ¬ (store.lastProcessedBar batch.symbol).any (bar.timestamp ≤ ·)

section

variable {σ κ : Type*} (env : Environment) (risk : RiskConfig) (observer : Observer σ κ)

/-- The signal of the newest of the pending bars, and the engine after them. -/
def observePending (engine : σ) (store : PaperStore) (batch : Batch) : σ × Option StrategySignal :=
  let warm := (historyBars store batch).foldl observer.warmup engine
  let pending := pendingBars store batch
  match batch.submission, pending.getLast? with
  | .process _, some newest => observer.evaluate (pending.dropLast.foldl observer.warmup warm) newest
  | _, _ => (pending.foldl observer.warmup warm, none)

/-- The transactions that follow the open recommendations through the pending bars. -/
def updateTransactions (store : PaperStore) (batch : Batch) : List Transaction :=
  writesOf (PaperStore.commit env)
    ((pendingBars store batch).map (updateOpenRecommendations env)) store

/-- The transactions after the newest of the pending bars has been followed. -/
def finalTransactions (store : PaperStore) (batch : Batch) (newest : BarInput)
    (signal : Option StrategySignal) : List Transaction :=
  match creationTransactions env risk store newest batch.submission.availableAt signal with
  | none => []
  | some created =>
    created ++ store.setLastProcessedBar batch.symbol newest.timestamp newest.close

/-- The transactions of a batch, in the order in which they are committed. -/
def submissionTransactions (engine : σ) (store : PaperStore) (batch : Batch) :
    List Transaction :=
  match (pendingBars store batch).getLast? with
  | none => []
  | some newest =>
    let updates := updateTransactions env store batch
    updates ++ finalTransactions env risk (updates.foldl (PaperStore.commit env) store) batch
      newest (observePending observer engine store batch).2

/-- The engine and the store after a batch. -/
def submit (state : σ × PaperStore) (batch : Batch) : σ × PaperStore :=
  ((observePending observer state.1 state.2 batch).1,
    (submissionTransactions env risk observer state.1 state.2 batch).foldl
      (PaperStore.commit env) state.2)

end

/-! ## The close -/

/-- What the clocks of New York show when the session closes, on the day of a time. -/
def sessionClose (env : Environment) (time : DateTime) : Option ℤ :=
  (regularSessionBounds (env.date time)).map (·.closes)

/-- The close at which a recommendation is finalized, with the price, if it is due. -/
def dueClose (env : Environment) (store : PaperStore) (observedAt : DateTime) (r : Recommendation) :
    Option (ℤ × DateTime × ℚ) := do
  let closes ← sessionClose env r.createdAt
  let checkpoint ← store.lastProcessedBar r.symbol
  let lastClose ← store.lastProcessedClose r.symbol
  if r.state.isOpen
      ∧ closes ≤ (observedAt.astimezone env.newYork).wall
      ∧ env.date checkpoint = env.date r.createdAt then
    some (closes, checkpoint, lastClose)
  else
    none

/-- The transactions of `finalize_due_recommendations`. -/
def finalizeTransactions (env : Environment) (observedAt : DateTime) (store : PaperStore) :
    List Transaction :=
  store.recommendations.filterMap fun r =>
    (dueClose env store observedAt r).map fun (closes, checkpoint, lastClose) =>
      .setState
        { recommendationId := r.recommendationId
          occurredAt := ⟨closes, some (env.newYorkOffset closes)⟩
          state := .timeExit
          price := some lastClose
          note := "장 마감 paper 종료 · 마지막 완료 봉 " ++ env.isoformat checkpoint ++ " 가격" }

end TradingAgent
