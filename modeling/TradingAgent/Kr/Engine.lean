import TradingAgent.Kr.Models
import TradingAgent.Library.Except

/-!
# The engine of virtual positions

A recommendation is followed as a virtual position, by events (`KrVirtualPositionEvent`): it is
armed (`armKrVirtualPosition`), and then advanced through the completed minute bars
(`advanceKrVirtualPosition`), of which only those are applied that come after the last one that the
position has accepted.

* An event is validated when it is made (`validateEvent`), which fails if it refers to more than
  512 pieces of evidence.
* What a bar does to a position is `applyBar`. A position also ends without a bar: when the entry is
  no longer valid, when bars are missing, and when bars that are replayed have other evidence.
-/

namespace TradingAgent.Kr

inductive KrVirtualPositionState
  | armed
  | active
  | stopped
  | targeted
  | expired
  | censored
  deriving DecidableEq, Repr

def KrVirtualPositionState.value : KrVirtualPositionState → String
  | armed => "ARMED"
  | active => "ACTIVE"
  | stopped => "STOPPED"
  | targeted => "TARGETED"
  | expired => "EXPIRED"
  | censored => "CENSORED"

inductive KrVirtualPositionReason
  | armed
  | entry
  | stopFirst
  | target
  | entryExpired
  | sessionClose
  | barGap
  | divergentReplay
  deriving DecidableEq, Repr

def KrVirtualPositionReason.value : KrVirtualPositionReason → String
  | armed => "armed"
  | entry => "entry"
  | stopFirst => "stop_first"
  | target => "target"
  | entryExpired => "entry_expired"
  | sessionClose => "session_close"
  | barGap => "bar_gap"
  | divergentReplay => "divergent_replay"

/-- The errors of the engine: that of its own checks, and that of the validation of a record. -/
inductive KrVirtualPositionError
  | invalidKrVirtualPosition
  | validation
  deriving DecidableEq, Repr

structure KrVirtualPositionTransition where
  state : KrVirtualPositionState
  reason : KrVirtualPositionReason
  attempted : Option DateTime
  accepted : Option DateTime
  fillPrice : Option Decimal
  fillTime : Option DateTime
  exitPrice : Option Decimal
  exitTime : Option DateTime
  evidenceRefs : List String
  deriving DecidableEq, Repr

structure KrVirtualPositionEvent where
  eventId : String
  positionId : String
  recommendationId : String
  taskId : String
  symbol : String
  theme : String
  sequence : ℤ
  previousEventId : Option String := none
  state : KrVirtualPositionState
  reason : KrVirtualPositionReason
  attemptedCompletedBarCursor : Option DateTime
  acceptedCompletedBarCursor : Option DateTime
  entry : Decimal
  stop : Decimal
  targets : Decimal × Decimal
  quantity : ℤ
  fillPrice : Option Decimal := none
  fillTime : Option DateTime := none
  exitPrice : Option Decimal := none
  exitTime : Option DateTime := none
  occurredAt : DateTime
  evidenceRefs : List String
  deriving DecidableEq, Repr

/-! ## The events -/

/-- The JSON text of an event, without its identity. -/
def KrVirtualPositionEvent.material (e : KrVirtualPositionEvent) : List JsonAtom :=
  [.ofOption .time e.acceptedCompletedBarCursor, .ofOption .time e.attemptedCompletedBarCursor,
    .decimal e.entry] ++ texts e.evidenceRefs ++
  [.ofOption .decimal e.exitPrice, .ofOption .time e.exitTime, .ofOption .decimal e.fillPrice,
    .ofOption .time e.fillTime, .time e.occurredAt, .str e.positionId,
    .ofOption .str e.previousEventId, .int e.quantity, .str e.reason.value,
    .str e.recommendationId, .int 1, .int e.sequence, .str e.state.value, .decimal e.stop,
    .str e.symbol, .decimal e.targets.1, .decimal e.targets.2, .str e.taskId, .str e.theme,
    .bool false, .bool true]

def virtualPositionEventId (sha : Sha256) (e : KrVirtualPositionEvent) : String :=
  sha.hexdigest e.material

def virtualPositionId (sha : Sha256) (recommendation : KrTradeRecommendation) : String :=
  sha.hexdigest [.str recommendation.eventId, .str recommendation.taskId]

def KrVirtualPositionState.terminal : KrVirtualPositionState → Bool
  | stopped | targeted | expired | censored => true
  | armed | active => false

def KrVirtualPositionEvent.terminal (e : KrVirtualPositionEvent) : Bool := e.state.terminal

def validStateShape (e : KrVirtualPositionEvent) : Bool :=
  let filled : Prop := e.fillPrice = some e.entry ∧ e.fillTime.isSome
  let exited : Prop := e.exitTime.isSome
  match e.state with
  | .armed => e.reason = .armed ∧ ¬ filled ∧ ¬ exited
  | .active => e.reason = .entry ∧ filled ∧ ¬ exited
  | .stopped => e.reason = .stopFirst ∧ filled ∧ exited ∧ e.exitPrice = some e.stop
  | .targeted => e.reason = .target ∧ filled ∧ exited ∧ e.exitPrice = some e.targets.1
  | .expired =>
    (e.reason = .entryExpired ∧ ¬ filled ∧ ¬ exited) ∨
      (e.reason = .sessionClose ∧ filled ∧ exited ∧ e.exitPrice.isSome)
  | .censored => (e.reason = .barGap ∨ e.reason = .divergentReplay) ∧ ¬ exited

/-- The validation of a `KrVirtualPositionEvent`. -/
def validateEvent (sha : Sha256) (e : KrVirtualPositionEvent) : Bool :=
  ([e.eventId, e.positionId, e.recommendationId, e.taskId].all isHex64) ∧ 1 ≤ e.sequence ∧
    e.previousEventId.all isHex64 ∧ 0 < e.quantity ∧
    (1 ≤ e.evidenceRefs.length ∧ e.evidenceRefs.length ≤ 512) ∧
    e.occurredAt.aware ∧
    ([e.attemptedCompletedBarCursor, e.acceptedCompletedBarCursor].all (·.all DateTime.aware)) ∧
    ([e.fillTime, e.exitTime].all (·.all DateTime.aware)) ∧
    levelsAreOrdered e.stop e.entry e.targets ∧
    e.evidenceRefs = sortedSet e.evidenceRefs ∧
    e.eventId = virtualPositionEventId sha e ∧ validStateShape e

/-- The event of a transition, before it is validated. -/
def draft (sha : Sha256) (recommendation : KrTradeRecommendation)
    (previous : Option KrVirtualPositionEvent) (transition : KrVirtualPositionTransition)
    (now : DateTime) : KrVirtualPositionEvent :=
  let draft : KrVirtualPositionEvent :=
    { eventId := ""
      positionId := virtualPositionId sha recommendation
      recommendationId := recommendation.eventId
      taskId := recommendation.taskId
      symbol := recommendation.symbol
      theme := recommendation.theme
      sequence := (previous.map (·.sequence + 1)).getD 1
      previousEventId := previous.map (·.eventId)
      state := transition.state
      reason := transition.reason
      attemptedCompletedBarCursor := transition.attempted
      acceptedCompletedBarCursor := transition.accepted
      entry := recommendation.entry
      stop := recommendation.stop
      targets := recommendation.targets
      quantity := recommendation.quantity
      fillPrice := transition.fillPrice
      fillTime := transition.fillTime
      exitPrice := transition.exitPrice
      exitTime := transition.exitTime
      occurredAt := now
      evidenceRefs := transition.evidenceRefs }
  { draft with eventId := virtualPositionEventId sha draft }

/-- The event of a transition, which is validated. -/
def event (sha : Sha256) (recommendation : KrTradeRecommendation)
    (previous : Option KrVirtualPositionEvent) (transition : KrVirtualPositionTransition)
    (now : DateTime) : Except KrVirtualPositionError KrVirtualPositionEvent := do
  let e := draft sha recommendation previous transition now
  Except.raiseIf (¬ validateEvent sha e) .validation
  return e

def armKrVirtualPosition (sha : Sha256) (recommendation : KrTradeRecommendation)
    (now : DateTime) : Except KrVirtualPositionError KrVirtualPositionEvent := do
  Except.raiseIf (¬ validateRecommendation sha recommendation) .validation
  event sha recommendation none
    ⟨.armed, .armed, none, none, none, none, none, none, recommendation.evidenceRefs⟩ now

/-! ## The bars of a call -/

/-- The day of a recommendation in Seoul. -/
def sessionDate (recommendation : KrTradeRecommendation) : Date :=
  (recommendation.timestamp.astimezone KST).date

/-- The close of the session of a recommendation. -/
def sessionClose (recommendation : KrTradeRecommendation) : DateTime :=
  .combine (sessionDate recommendation) 15 30 (TimeDelta.hours 9)

/-- The start of the first minute after a recommendation. -/
def firstStart (recommendation : KrTradeRecommendation) : DateTime :=
  let localTime := recommendation.timestamp.astimezone KST
  { localTime with wall := localTime.wall - localTime.wall % TimeDelta.minutes 1 } +
    TimeDelta.minutes 1

/-- Whether a bar starts only after the recommendation was made. -/
def isFuture (recommendation : KrTradeRecommendation) (bar : KrCompletedMinuteBar) : Bool :=
  firstStart recommendation ≤ bar.startAt

/-- Whether no two adjacent bars overlap. -/
def areInOrder (bars : List KrCompletedMinuteBar) : Bool :=
  (bars.zip bars.tail).all fun pair => ¬ pair.2.startAt < pair.1.endAt

/-- The checks of `_completed_bars`. -/
def completedBars (recommendation : KrTradeRecommendation) (bars : List KrCompletedMinuteBar)
    (now : DateTime) : Except KrVirtualPositionError Unit := do
  Except.raiseIf (¬ bars.all validateBar) .invalidKrVirtualPosition
  Except.raiseIf
    (¬ now.aware ∨ now < recommendation.timestamp ∨
      (bars.any fun bar => now < bar.endAt ∨ now < bar.observedAt ∨
        (bar.endAt.astimezone KST).date ≠ sessionDate recommendation) ∨
      ¬ areInOrder bars) .invalidKrVirtualPosition

def validateVirtualPositionLineage (sha : Sha256) (recommendation : KrTradeRecommendation)
    (e : KrVirtualPositionEvent) : Except KrVirtualPositionError Unit :=
  Except.raiseIf
    (e.positionId ≠ virtualPositionId sha recommendation ∨
      e.recommendationId ≠ recommendation.eventId ∨ e.taskId ≠ recommendation.taskId)
    .invalidKrVirtualPosition

/-- The bars up to a cursor, and those after it. -/
def partitionBars (cursor : Option DateTime) (bars : List KrCompletedMinuteBar) :
    List KrCompletedMinuteBar × List KrCompletedMinuteBar :=
  match cursor with
  | none => ([], bars)
  | some cursor => (bars.filter (·.endAt ≤ cursor), bars.filter (cursor < ·.endAt))

def virtualPositionReplayIsExact (e : KrVirtualPositionEvent) (bars : List KrCompletedMinuteBar) :
    Bool :=
  bars.all fun bar => bar.evidenceRef.canonicalId ∈ e.evidenceRefs

/-- Whether bars follow each other minute by minute, from a cursor or the first minute. -/
def barsAreContinuous (recommendation : KrTradeRecommendation) (cursor : Option DateTime)
    (bars : List KrCompletedMinuteBar) : Bool :=
  let expected := cursor.getD (firstStart recommendation)
  bars.zipIdx.all fun pair =>
    pair.1.symbol = recommendation.symbol ∧
      pair.1.startAt.instant = (expected + TimeDelta.minutes pair.2).instant ∧
      (pair.1.startAt.astimezone KST).date = sessionDate recommendation

/-! ## The transitions -/

/-- What ends a position, or leaves it armed or held. The prices and the cursors are kept. -/
def copyVirtualPositionTransition (e : KrVirtualPositionEvent) (state : KrVirtualPositionState)
    (reason : KrVirtualPositionReason) : KrVirtualPositionTransition :=
  ⟨state, reason, e.attemptedCompletedBarCursor, e.acceptedCompletedBarCursor, e.fillPrice,
    e.fillTime, none, none, e.evidenceRefs⟩

def censored (sha : Sha256) (recommendation : KrTradeRecommendation)
    (previous : KrVirtualPositionEvent) (attempted : Option DateTime)
    (reason : KrVirtualPositionReason) (now : DateTime) :
    Except KrVirtualPositionError KrVirtualPositionEvent :=
  event sha recommendation (some previous)
    { copyVirtualPositionTransition previous .censored reason with attempted := attempted } now

/-- The reason of the transition of a bar to a state. -/
def barReason : KrVirtualPositionState → KrVirtualPositionReason
  | .armed => .armed
  | .active => .entry
  | .stopped => .stopFirst
  | .targeted => .target
  | .expired => .entryExpired
  | .censored => .barGap

def barTransition (previous : KrVirtualPositionEvent) (bar : KrCompletedMinuteBar)
    (evidence : List String) (state : KrVirtualPositionState) : KrVirtualPositionTransition :=
  let fillPrice :=
    if previous.fillPrice = none ∧ (state = .active ∨ state = .stopped ∨ state = .targeted) then
      some previous.entry
    else
      previous.fillPrice
  let exitPrice :=
    if state = .stopped then some previous.stop
    else if state = .targeted then some previous.targets.1
    else none
  { state := state
    reason := barReason state
    attempted := some bar.endAt
    accepted := some bar.endAt
    fillPrice := fillPrice
    fillTime := if previous.fillTime = none ∧ fillPrice ≠ none then some bar.endAt
      else previous.fillTime
    exitPrice := exitPrice
    exitTime := if exitPrice ≠ none then some bar.endAt else none
    evidenceRefs := evidence }

/-- Whether a bar ends at the close of the session. -/
def isClosingBar (bar : KrCompletedMinuteBar) : Bool :=
  (bar.endAt.astimezone KST).timeOfDay = TimeDelta.hours 15 + TimeDelta.minutes 30

/-- The evidence of a position after a bar. -/
def barEvidence (previous : KrVirtualPositionEvent) (bar : KrCompletedMinuteBar) : List String :=
  sortedSet (previous.evidenceRefs ++ [bar.evidenceRef.canonicalId])

def applyBar (recommendation : KrTradeRecommendation) (previous : KrVirtualPositionEvent)
    (bar : KrCompletedMinuteBar) : KrVirtualPositionTransition :=
  let evidence := barEvidence previous bar
  if previous.state = .armed then
    if recommendation.entry ≤ bar.high ∧ bar.low ≤ recommendation.entry then
      if bar.low ≤ recommendation.stop then barTransition previous bar evidence .stopped
      else if recommendation.targets.1 ≤ bar.high then
        barTransition previous bar evidence .targeted
      else barTransition previous bar evidence .active
    else if recommendation.validUntil ≤ bar.endAt then
      barTransition previous bar evidence .expired
    else barTransition previous bar evidence .armed
  else if bar.low ≤ recommendation.stop then barTransition previous bar evidence .stopped
  else if recommendation.targets.1 ≤ bar.high then barTransition previous bar evidence .targeted
  else if isClosingBar bar then
    ⟨.expired, .sessionClose, some bar.endAt, some bar.endAt, previous.fillPrice,
      previous.fillTime, some bar.close, some bar.endAt, evidence⟩
  else barTransition previous bar evidence .active

/-! ## Advancing -/

def afterCloseOrEmpty (sha : Sha256) (recommendation : KrTradeRecommendation)
    (previous : KrVirtualPositionEvent) (now : DateTime) :
    Except KrVirtualPositionError (List KrVirtualPositionEvent) := do
  let close := sessionClose recommendation
  if previous.state ≠ .active ∨ now < close then
    return []
  return [← censored sha recommendation previous (some close) .barGap now]

/-- The events of the bars that are applied, up to the one that ends the position. -/
def applyBars (sha : Sha256) (recommendation : KrTradeRecommendation) (now : DateTime) :
    KrVirtualPositionEvent → List KrCompletedMinuteBar →
    Except KrVirtualPositionError (List KrVirtualPositionEvent)
  | _, [] => return []
  | current, bar :: bars => do
    let e ← event sha recommendation (some current) (applyBar recommendation current bar) now
    if e.terminal then
      return [e]
    return e :: (← applyBars sha recommendation now e bars)

def advanceKrVirtualPosition (sha : Sha256) (recommendation : KrTradeRecommendation)
    (previous : KrVirtualPositionEvent) (bars : List KrCompletedMinuteBar) (now : DateTime) :
    Except KrVirtualPositionError (List KrVirtualPositionEvent) := do
  Except.raiseIf (¬ validateRecommendation sha recommendation) .validation
  Except.raiseIf (¬ validateEvent sha previous) .validation
  validateVirtualPositionLineage sha recommendation previous
  completedBars recommendation bars now
  if previous.terminal then
    return []
  let (replayed, fresh) := partitionBars previous.acceptedCompletedBarCursor
    (bars.filter (isFuture recommendation))
  if replayed ≠ [] ∧ ¬ virtualPositionReplayIsExact previous replayed then
    return [← censored sha recommendation previous (bars.getLast?.map (·.endAt)) .divergentReplay
      now]
  if fresh = [] then
    if previous.state = .armed ∧ recommendation.validUntil ≤ now then
      return [← event sha recommendation (some previous)
        (copyVirtualPositionTransition previous .expired .entryExpired) now]
    return ← afterCloseOrEmpty sha recommendation previous now
  if ¬ barsAreContinuous recommendation previous.acceptedCompletedBarCursor fresh then
    return [← censored sha recommendation previous (fresh.getLast?.map (·.endAt)) .barGap now]
  let events ← applyBars sha recommendation now previous fresh
  let current := events.getLast?.getD previous
  if current.terminal then
    return events
  return events ++ (← afterCloseOrEmpty sha recommendation current now)

end TradingAgent.Kr
