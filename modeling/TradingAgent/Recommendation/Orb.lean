import Mathlib.Algebra.Order.Field.Rat
import TradingAgent.Library.Time

/-!
# The simulator of the opening range

What becomes of an entry at a price, with a stop below and a target above, over the bars of a
session (`simulateEntry`): the entry is made at the first bar that reaches it, unless one has
reached the stop before (`entryBar`), and the exit at the first bar from there that reaches the
stop or the target (`exitBar`), or at the end of the session.
-/

namespace TradingAgent

inductive OrbOutcomeStatus
  | censored
  | noSignal
  | riskRejected
  | noEntry
  | invalidated
  | stopped
  | target
  | timeExit
  deriving DecidableEq, Repr

structure OrbSelection where
  observedAt : DateTime
  exchange : String
  symbol : String
  changePct : ℚ
  dollarVolume : ℚ
  spreadBps : ℚ
  deriving DecidableEq, Repr

structure OrbBar where
  timestamp : DateTime
  openPrice : ℚ
  high : ℚ
  low : ℚ
  close : ℚ
  deriving DecidableEq, Repr

structure OrbTestConfig where
  rangeMinutes : ℤ
  breakoutBufferBps : ℚ
  volumeMultiplier : ℚ
  stopMultiple : ℚ
  targetR : ℚ
  maxRiskPct : ℚ := 5 / 100
  maxSpreadBps : ℚ := 100
  deriving DecidableEq, Repr

structure OrbOutcome where
  config : OrbTestConfig
  selection : OrbSelection
  complete : Bool
  status : OrbOutcomeStatus
  signalAt : Option DateTime := none
  entryAt : Option DateTime := none
  exitAt : Option DateTime := none
  entry : Option ℚ := none
  stop : Option ℚ := none
  target : Option ℚ := none
  exitPrice : Option ℚ := none
  grossReturn : Option ℚ := none
  portfolioSelected : Bool := false
  deriving DecidableEq, Repr

/-- The bar at which the entry is made, if one is: the first one that reaches the entry or the
    stop, if it reaches the entry. -/
def entryBar (bars : List OrbBar) (entry stop : ℚ) : Option OrbBar :=
  (bars.find? fun bar => entry ≤ bar.high ∨ bar.low ≤ stop).filter fun bar => entry ≤ bar.high

/-- The bars from the one of the entry on. -/
def entryPath (bars : List OrbBar) (entryBar : OrbBar) : List OrbBar :=
  bars.filter fun bar => entryBar.timestamp ≤ bar.timestamp

/-- The bar at which the stop or the target is reached, if one is. -/
def exitBar (bars : List OrbBar) (entryBar : OrbBar) (stop target : ℚ) : Option OrbBar :=
  (entryPath bars entryBar).find? fun bar => bar.low ≤ stop ∨ target ≤ bar.high

section

variable (selection : OrbSelection) (bars : List OrbBar) (config : OrbTestConfig)
  (entry stop target : ℚ)

def emptyOutcome (status : OrbOutcomeStatus) (complete : Bool) : OrbOutcome where
  config
  selection
  complete
  status

def setupOutcome (status : OrbOutcomeStatus) : OrbOutcome :=
  { emptyOutcome selection config status true with
    signalAt := some selection.observedAt
    entry := some entry
    stop := some stop
    target := some target }

def tradeOutcome (status : OrbOutcomeStatus) (entryAt exitAt : DateTime) (exitPrice : ℚ) :
    OrbOutcome :=
  { setupOutcome selection config entry stop target status with
    entryAt := some entryAt
    exitAt := some exitAt
    exitPrice := some exitPrice
    grossReturn := some (exitPrice / entry - 1) }

/-- What follows the entry. -/
def afterEntry (entered : OrbBar) : OrbOutcome :=
  let outcome := tradeOutcome selection config entry stop target
  match exitBar bars entered stop target with
  | some bar =>
    if bar.low ≤ stop then outcome .stopped entered.timestamp bar.timestamp stop
    else outcome .target entered.timestamp bar.timestamp target
  | none =>
    -- The path has at least the bar of the entry.
    let last := (entryPath bars entered).getLast?.getD entered
    outcome .timeExit entered.timestamp (last.timestamp + TimeDelta.minutes 1) last.close

def simulateEntry : OrbOutcome :=
  match bars.find? fun bar => entry ≤ bar.high ∨ bar.low ≤ stop with
  | none => setupOutcome selection config entry stop target .noEntry
  | some bar =>
    if bar.high < entry then setupOutcome selection config entry stop target .invalidated
    else afterEntry selection bars config entry stop target bar

end

end TradingAgent
