import Mathlib.Data.String.Basic
import TradingAgent.Library.SortedSet
import TradingAgent.Library.Text
import TradingAgent.Swing.Models

/-!
# Forward trials and their events

A trial of a strategy on one session, registered before its first bar (`DayForwardTrial`), and what
is observed in it (`DayForwardTrialEvent`), with what each record validates about itself.

* The identity of a record is the digest of the JSON text of its other fields (`payload`).
* The times are aware, and Python compares aware times by their instants: here, they are instants.
-/

namespace TradingAgent.ForwardTrial

inductive ForwardExecutionLane
  | forwardProbe
  | shadow
  deriving DecidableEq, Repr

def ForwardExecutionLane.value : ForwardExecutionLane → String
  | forwardProbe => "forward_probe"
  | shadow => "shadow"

inductive DayForwardTrialEventKind
  | signal
  | entry
  | observed
  | exit
  | noSignal
  | blocked
  | failed
  | censored
  deriving DecidableEq, Repr

namespace DayForwardTrialEventKind

def value : DayForwardTrialEventKind → String
  | signal => "signal"
  | entry => "entry"
  | observed => "observed"
  | exit => "exit"
  | noSignal => "no_signal"
  | blocked => "blocked"
  | failed => "failed"
  | censored => "censored"

/-- The kinds that end a trial. -/
def terminal : DayForwardTrialEventKind → Bool
  | exit | failed | censored => true
  | signal | entry | observed | noSignal | blocked => false

end DayForwardTrialEventKind

inductive DayForwardExitReason
  | stop
  | target
  | sessionEnd
  deriving DecidableEq, Repr

def DayForwardExitReason.value : DayForwardExitReason → String
  | stop => "stop"
  | target => "target"
  | sessionEnd => "session_end"

def marketValue : Swing.MarketId → String
  | .usEquities => "us_equities"
  | .krEquities => "kr_equities"

/-! ## Texts -/

/-- A number, with zeros before it. -/
def padded (width n : ℕ) : String :=
  String.ofList (List.replicate (width - (toString n).length) '0') ++ toString n

/-- The year, the month and the day of the month. -/
def civil (d : Date) : ℤ × ℕ × ℤ :=
  let n400 := (d - 1) / 146097
  let n := (d - 1) % 146097
  let n100 := n / 36524
  let n4 := n % 36524 / 1461
  let n1 := n % 36524 % 1461 / 365
  let year := n400 * 400 + n100 * 100 + n4 * 4 + n1 + 1
  -- The last day of a leap year would else be the first one of a year that is not.
  if n1 = 4 ∨ n100 = 4 then (year - 1, 12, 31)
  else
    let month := ((List.range 12).filter fun m =>
      Date.daysBeforeYear year + Date.daysBeforeMonth year (m + 1) < d).length
    (year, month, d - Date.daysBeforeYear year - Date.daysBeforeMonth year month)

/-- The method `isoformat` of a day. -/
def isoformat (d : Date) : String :=
  let (year, month, day) := civil d
  padded 4 year.toNat ++ "-" ++ padded 2 month ++ "-" ++ padded 2 day.toNat

example : isoformat (Date.ofCivil 2026 8 20) = "2026-08-20" ∧
    isoformat (Date.ofCivil 2024 12 31) = "2024-12-31" := by decide +kernel

/-- The pattern `[a-z0-9][a-z0-9_]{0,127}`. -/
def isReason (s : String) : Bool :=
  match s.toList with
  | [] => false
  | c :: cs => (c.isLower || c.isDigit) ∧ cs.length ≤ 127 ∧
      cs.all fun c => c.isLower || c.isDigit || c = '_'

/-- The pattern `[A-Za-z0-9][A-Za-z0-9._:-]{0,127}`, of what follows the exchange in the name of a
    calendar. -/
def isCalendarName : List Char → Bool
  | [] => false
  | c :: cs => c.isAlphanum ∧ cs.length ≤ 127 ∧
      cs.all fun c => c.isAlphanum || c = '.' || c = '_' || c = ':' || c = '-'

/-! ## Trials -/

/-- The time zones that the markets have. -/
structure Zones where
  newYork : ZoneInfo
  seoul : ZoneInfo

def marketClock (zones : Zones) : Swing.MarketId → String × ZoneInfo
  | .usEquities => ("XNYS", zones.newYork)
  | .krEquities => ("XKRX", zones.seoul)

structure DayForwardTrial where
  trialId : String
  capsuleId : String
  hypothesisVersionId : String
  marketId : Swing.MarketId
  executionLane : ForwardExecutionLane
  sessionId : String
  sessionDate : Date
  calendarSnapshotId : String
  costModelSha256 : String
  sourceRefsSha256 : String
  evidenceSchemaSha256 : String
  preregisteredAt : Instant
  registrationCompletedBarAt : Instant
  firstEligibleCompletedBarAt : Instant
  deriving DecidableEq, Repr

namespace DayForwardTrial

/-- The text of what the identity is made of. -/
def payload (trial : DayForwardTrial) : List JsonAtom :=
  [.str trial.calendarSnapshotId, .str trial.capsuleId, .str trial.costModelSha256,
    .str trial.evidenceSchemaSha256, .str trial.executionLane.value,
    .time (.utc trial.firstEligibleCompletedBarAt), .str trial.hypothesisVersionId,
    .str (marketValue trial.marketId), .time (.utc trial.preregisteredAt), .bool false,
    .time (.utc trial.registrationCompletedBarAt), .str (isoformat trial.sessionDate),
    .str trial.sessionId, .str trial.sourceRefsSha256, .bool false]

def canonicalIdFor (sha : Sha256) (trial : DayForwardTrial) : String := sha.hexdigest trial.payload

def sessionIsValid (zones : Zones) (trial : DayForwardTrial) : Bool :=
  let (exchange, timezone) := marketClock zones trial.marketId
  trial.sessionId = exchange ++ "-" ++ isoformat trial.sessionDate ∧
    (List.isPrefixOf? ("calendar://official/" ++ exchange ++ "/").toList
      trial.calendarSnapshotId.toList).any isCalendarName ∧
    ((DateTime.utc trial.firstEligibleCompletedBarAt).astimezone timezone).date = trial.sessionDate

def validTrial (sha : Sha256) (zones : Zones) (trial : DayForwardTrial) : Bool :=
  isHex64 trial.trialId ∧ isHex64 trial.capsuleId ∧ isHex64 trial.hypothesisVersionId ∧
    isHex64 trial.costModelSha256 ∧ isHex64 trial.sourceRefsSha256 ∧
    isHex64 trial.evidenceSchemaSha256 ∧ trial.sessionIsValid zones ∧
    trial.registrationCompletedBarAt ≤ trial.preregisteredAt ∧
    trial.preregisteredAt < trial.firstEligibleCompletedBarAt ∧
    trial.registrationCompletedBarAt < trial.firstEligibleCompletedBarAt ∧
    trial.trialId = trial.canonicalIdFor sha

end DayForwardTrial

/-! ## Events -/

structure DayForwardOutcomeRef where
  outcomeId : String
  artifactRef : String
  artifactSha256 : String
  recordedAt : Instant
  deriving DecidableEq, Repr

namespace DayForwardOutcomeRef

def payload (ref : DayForwardOutcomeRef) : List JsonAtom :=
  [.str ref.artifactRef, .str ref.artifactSha256, .bool false, .time (.utc ref.recordedAt)]

def canonicalIdFor (sha : Sha256) (ref : DayForwardOutcomeRef) : String := sha.hexdigest ref.payload

def validOutcome (sha : Sha256) (ref : DayForwardOutcomeRef) : Bool :=
  isHex64 ref.outcomeId ∧ isHex64 ref.artifactSha256 ∧
    ref.artifactRef = "artifact://safe/" ++ ref.artifactSha256 ∧
    ref.outcomeId = ref.canonicalIdFor sha

end DayForwardOutcomeRef

structure DayForwardTrialEvent where
  eventId : String
  trialId : String
  marketId : Swing.MarketId
  sessionId : String
  sessionDate : Date
  sequence : ℤ
  previousEventId : Option String := none
  eventKind : DayForwardTrialEventKind
  completedBarId : String
  completedBarSequence : ℤ
  completedBarAt : Instant
  eventAt : Instant
  exitReason : Option DayForwardExitReason
  outcomeRef : Option DayForwardOutcomeRef
  reasonCodes : List String
  deriving DecidableEq, Repr

namespace DayForwardTrialEvent

/-- The text of what the identity is made of, where the nested values come last. -/
def payload (event : DayForwardTrialEvent) : List JsonAtom :=
  [.time (.utc event.completedBarAt), .str event.completedBarId, .int event.completedBarSequence,
    .time (.utc event.eventAt), .str event.eventKind.value,
    .ofOption (.str ·.value) event.exitReason, .str (marketValue event.marketId),
    .ofOption .str event.previousEventId, .bool false, .int event.sequence,
    .str (isoformat event.sessionDate), .str event.sessionId, .bool false, .str event.trialId] ++
    event.outcomeRef.elim [.null] (fun ref => .str ref.outcomeId :: ref.payload) ++
    event.reasonCodes.map .str

def canonicalIdFor (sha : Sha256) (event : DayForwardTrialEvent) : String :=
  sha.hexdigest event.payload

/-- What an event of each kind may carry. -/
def payloadIsValid (event : DayForwardTrialEvent) : Bool :=
  match event.eventKind with
  | .signal | .entry | .noSignal =>
    event.exitReason = none ∧ event.outcomeRef = none ∧ event.reasonCodes = []
  | .observed =>
    event.exitReason = none ∧ event.outcomeRef = none ∧
      (event.reasonCodes = [] ∨ event.reasonCodes = ["target_r1_reached"])
  | .exit => event.exitReason ≠ none ∧ event.outcomeRef ≠ none ∧ event.reasonCodes = []
  | .blocked | .failed =>
    event.exitReason = none ∧ event.outcomeRef = none ∧ event.reasonCodes ≠ []
  | .censored => event.exitReason = none ∧ event.reasonCodes ≠ []

def validEvent (sha : Sha256) (event : DayForwardTrialEvent) : Bool :=
  isHex64 event.eventId ∧ isHex64 event.trialId ∧ 1 ≤ event.sequence ∧
    event.previousEventId.all isHex64 ∧ isHex64 event.completedBarId ∧
    1 ≤ event.completedBarSequence ∧ event.outcomeRef.all (·.validOutcome sha) ∧
    event.completedBarAt ≤ event.eventAt ∧
    (event.sequence = 1 ↔ event.previousEventId = none) ∧
    event.reasonCodes = sortedSet event.reasonCodes ∧ event.reasonCodes.all isReason ∧
    event.payloadIsValid ∧ event.eventId = event.canonicalIdFor sha

variable {sha : Sha256} {event : DayForwardTrialEvent}

theorem eventId_of_validEvent (h : event.validEvent sha = true) :
    event.eventId = event.canonicalIdFor sha := by
  rw [validEvent, decide_eq_true_eq] at h
  exact h.2.2.2.2.2.2.2.2.2.2.2.2

theorem payloadIsValid_of_validEvent (h : event.validEvent sha = true) :
    event.payloadIsValid = true := by
  rw [validEvent, decide_eq_true_eq] at h
  exact h.2.2.2.2.2.2.2.2.2.2.2.1

end DayForwardTrialEvent

end TradingAgent.ForwardTrial
