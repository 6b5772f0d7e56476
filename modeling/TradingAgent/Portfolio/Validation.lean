import TradingAgent.Library.Fold
import TradingAgent.Portfolio.Models

/-!
# What the portfolio is built from

The tests that the account, its orders, its positions and the stored intents have to pass before
anything is computed from them.
-/

namespace TradingAgent

def ACTIVE_ENTRY_STATUSES : List String :=
  ["accepted", "accepted_for_bidding", "calculated", "new", "partially_filled", "pending_cancel",
    "pending_new", "pending_replace", "stopped", "suspended"]

/-- The quantity, with its sign, of a position that fills of an order of this side open. -/
def openedQuantity (side : PaperOrderSide) (quantity : Decimal) : Decimal :=
  match side with
  | .buy => quantity
  | .sell => -quantity

def validEntryOrder (order : PaperOrderSnapshot) (intent : StoredIntent) : Bool :=
  order.status ∈ ACTIVE_ENTRY_STATUSES
    ∧ order.symbol = intent.symbol
    ∧ order.side = intent.side
    ∧ order.quantity = (intent.quantity : Decimal)
    ∧ order.limitPrice.any (fun limit =>
        limit = intent.entryLimit ∧ limit.isFinite ∧ 0 < limit)
    ∧ order.filledQuantity.isFinite
    ∧ order.filledQuantity.isIntegral
    ∧ 0 ≤ order.filledQuantity ∧ order.filledQuantity < order.quantity
    ∧ order.timeInForce = "day"
    ∧ ¬ order.extendedHours

/-- Whether the report of a position cannot be used, next to the positions used so far. -/
def positionIsIncomplete (result : List PaperPositionSnapshot) (position : PaperPositionSnapshot) :
    Bool :=
  position.symbol ∈ result.map (·.symbol)
    ∨ position.symbol = ""
    ∨ ¬ isUpper position.symbol
    ∨ ¬ position.quantity.isFinite
    ∨ position.quantity = 0
    ∨ ¬ position.quantity.isIntegral
    ∨ ¬ position.marketValue.isFinite
    ∨ position.marketValue = 0
    ∨ decide (0 < position.quantity) ≠ decide (0 < position.marketValue)

/-- The positions by their symbols, with the reasons for which the others were left out. -/
structure PositionsBySymbol where
  reasons : List String
  result : List PaperPositionSnapshot

def positionsBySymbolPass : LoggedPass PositionsBySymbol PaperPositionSnapshot String where
  step acc position :=
    if positionIsIncomplete acc.result position then
      { acc with reasons := acc.reasons ++ ["포지션 응답이 불완전합니다: " ++ position.symbol] }
    else
      { acc with result := acc.result ++ [position] }
  log acc := acc.reasons
  log_step acc position := by
    split
    · exact List.subset_append_left _ _
    · exact List.Subset.refl _

def positionsBySymbol (positions : List PaperPositionSnapshot) (reasons : List String) :
    PositionsBySymbol :=
  positionsBySymbolPass.run ⟨reasons, []⟩ positions

/-- If there is no reason to leave one out, the positions by their symbols are the positions, each
    of another symbol, and all quantities and values are finite. -/
theorem positionsBySymbol_eq {positions : List PaperPositionSnapshot} {reasons : List String}
    (h : (positionsBySymbol positions reasons).reasons = []) :
    (positionsBySymbol positions reasons).result = positions
      ∧ (positions.map (·.symbol)).Nodup
      ∧ ∀ position ∈ positions,
          position.quantity.isFinite ∧ position.quantity ≠ 0 ∧ position.marketValue.isFinite := by
  refine positionsBySymbolPass.run_induction
    (I := fun l (acc : PositionsBySymbol) => acc.result = l ∧ (l.map (·.symbol)).Nodup ∧
      ∀ position ∈ l,
        position.quantity.isFinite ∧ position.quantity ≠ 0 ∧ position.marketValue.isFinite)
    (by simp) ?_ h
  rintro l acc position hlog ⟨hresult, hnodup, hfinite⟩
  by_cases hbad : positionIsIncomplete acc.result position
  · simp [positionsBySymbolPass, hbad] at hlog
  · have hstep : positionsBySymbolPass.step acc position =
        { acc with result := acc.result ++ [position] } := if_neg hbad
    rw [hstep, hresult]
    simp only [positionIsIncomplete, hresult, decide_eq_true_eq, not_or, not_not] at hbad
    obtain ⟨hnew, -, -, hquantity, hzero, -, hvalue, -⟩ := hbad
    refine ⟨rfl, ?_, ?_⟩
    · rw [List.map_append, List.map_singleton]
      exact List.nodup_append.2 ⟨hnodup, List.nodup_singleton _, by
        rintro a ha b hb rfl
        exact hnew (List.mem_singleton.1 hb ▸ ha)⟩
    · intro p hp
      rcases List.mem_append.1 hp with hp | hp
      · exact hfinite p hp
      · rw [List.mem_singleton.1 hp]
        exact ⟨hquantity, hzero, hvalue⟩

def positionMatchesFill (position : PaperPositionSnapshot) (order : PaperOrderSnapshot) : Bool :=
  position.quantity = openedQuantity order.side order.filledQuantity

def validAccountSnapshot (state : PaperBrokerState) : Bool :=
  let account := state.account
  let money := [account.equity, account.lastEquity, account.buyingPower]
  account.observedAt.aware
    ∧ (∀ value ∈ money, value.isFinite)
    ∧ 0 < account.equity
    ∧ 0 < account.lastEquity
    ∧ 0 ≤ account.buyingPower

section Intent

variable (newYork : ZoneInfo)

def validStoredIntent (intent : StoredIntent) (observedAt : DateTime) : Bool :=
  match intent.createdAt with
  | none => false
  | some createdAt =>
    let prices := [intent.entryLimit, intent.stop, intent.target1r, intent.target2r]
    if ¬ createdAt.aware
        ∨ ¬ observedAt.aware
        ∨ observedAt < createdAt
        ∨ (createdAt.astimezone newYork).date ≠ (observedAt.astimezone newYork).date
        ∨ intent.symbol = ""
        ∨ ¬ isUpper intent.symbol
        ∨ intent.quantity ≤ 0
        ∨ ¬ (∀ value ∈ prices, value.isFinite ∧ 0 < value) then
      false
    else
      match intent.side with
      | .buy =>
        intent.stop < intent.entryLimit ∧ intent.entryLimit < intent.target1r
          ∧ intent.target1r < intent.target2r
      | .sell =>
        intent.target2r < intent.target1r ∧ intent.target1r < intent.entryLimit
          ∧ intent.entryLimit < intent.stop

def positionMatchesCurrentIntent (position : PaperPositionSnapshot) (intent : StoredIntent)
    (observedAt : DateTime) : Bool :=
  if ¬ validStoredIntent newYork intent observedAt then
    false
  else
    position.symbol = intent.symbol
      ∧ position.quantity = openedQuantity intent.side (intent.quantity : Decimal)

variable {newYork}

/-- The entry and the stop of a valid intent are finite. -/
theorem isFinite_of_validStoredIntent {intent : StoredIntent} {observedAt : DateTime}
    (h : validStoredIntent newYork intent observedAt = true) :
    intent.entryLimit.isFinite ∧ intent.stop.isFinite := by
  rw [validStoredIntent] at h
  split at h
  · exact absurd h Bool.false_ne_true
  · dsimp only at h
    split_ifs at h with hbad
    simp only [not_or, not_not, List.forall_mem_cons] at hbad
    obtain ⟨-, -, -, -, -, -, -, hentry, hstop, -⟩ := hbad
    exact ⟨hentry.1, hstop.1⟩

end Intent

end TradingAgent
