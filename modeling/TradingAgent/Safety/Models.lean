import TradingAgent.Paper.Models

/-!
# Safety plans

A safety plan takes risk out of the account: it cancels orders and closes positions. What it may
do depends on the phase of the session, which the planner determines.
-/

namespace TradingAgent

inductive PaperSafetyPhase
  | monitoring
  | entryCutoff
  | killSwitch
  | eodFlatten
  deriving DecidableEq, Repr

def PaperSafetyPhase.value : PaperSafetyPhase → String
  | monitoring => "monitoring"
  | entryCutoff => "entry_cutoff"
  | killSwitch => "kill_switch"
  | eodFlatten => "eod_flatten"

structure PaperCancelOrderAction where
  brokerOrderId : BrokerOrderId
  symbol : String
  protectiveOco : Bool
  deriving DecidableEq, Repr

structure PaperClosePositionAction where
  symbol : String
  side : PaperOrderSide
  quantity : Decimal
  deriving DecidableEq, Repr

inductive PaperSafetyAction
  | cancelOrder (action : PaperCancelOrderAction)
  | closePosition (action : PaperClosePositionAction)
  deriving DecidableEq, Repr

namespace PaperSafetyAction

def symbol : PaperSafetyAction → String
  | cancelOrder action => action.symbol
  | closePosition action => action.symbol

/-- The order to cancel. -/
def cancelId? : PaperSafetyAction → Option BrokerOrderId
  | cancelOrder action => some action.brokerOrderId
  | closePosition _ => none

/-- The symbol of the position to close. -/
def closeSymbol? : PaperSafetyAction → Option String
  | cancelOrder _ => none
  | closePosition action => some action.symbol

def isCancel : PaperSafetyAction → Bool
  | cancelOrder _ => true
  | closePosition _ => false

end PaperSafetyAction

structure PaperSafetyPlan where
  accountFingerprint : AccountFingerprint
  observedAt : DateTime
  sessionDate : Date
  phase : PaperSafetyPhase
  markToMarketDailyPnl : Decimal
  conservativeDailyPnl : Decimal
  actions : List PaperSafetyAction
  deriving DecidableEq, Repr

abbrev PaperSafetyPlanKey := String

structure StoredPaperSafetyPlan where
  planKey : PaperSafetyPlanKey
  actionsSha256 : String
  plan : PaperSafetyPlan
  deriving DecidableEq, Repr

/-- The safety planner's answer: a plan, or why there is none. -/
inductive PaperSafetyPlanDecision
  | plan (plan : PaperSafetyPlan)
  | blocked (reasons : List String)
  deriving DecidableEq, Repr

end TradingAgent
