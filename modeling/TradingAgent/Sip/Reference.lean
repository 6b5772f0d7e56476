import TradingAgent.Library.Renaming
import TradingAgent.Sip.TradeState

/-!
# What corrections and cancels mean

What the trade messages of a stream say about its trades, without a state that is updated:

* a correction renames a trade, from its original identifier to its corrected one, and a trade has
  all the names it was renamed to (`Renamed`), besides its own;
* a trade is cancelled by a cancel of any of its names (`IsCancelled`);
* the current figures of a trade are those of the last correction of any of its names, if there is
  one, and else its own (`current`).

The state of the trades agrees with this (`Agrees`), if each of its messages could be applied: a
name is never given twice, so that no two trades have a name in common.
-/

namespace TradingAgent.Sip

/-- An original trade: a projected message, with its text. -/
abbrev Original := ProjectedMarketMessage × TradeMessage

section Reference

variable (items : List TradeItem)

def originals : List Original :=
  items.filterMap fun item => match item.message with
    | .trade m => some (item.projected, m)
    | _ => none

def corrections : List (ProjectedMarketMessage × CorrectionMessage) :=
  items.filterMap fun item => match item.message with
    | .correction m => some (item.projected, m)
    | _ => none

def cancels : List CancelMessage :=
  items.filterMap fun item => match item.message with
    | .cancel m => some m
    | _ => none

/-- The renamings that the corrections are. -/
def renamings : List (Alias × Alias) :=
  (corrections items).map fun c => (c.2.originalAlias, c.2.correctedAlias)

/-- Whether a name is one of an original trade. -/
def Names (o : Original) (k : Alias) : Prop := Renamed (renamings items) o.2.alias k

def IsCancelled (o : Original) : Prop := ∃ c ∈ cancels items, Names items o c.alias

open Classical in
/-- The corrections of an original trade, by any of its names. -/
noncomputable def correctionsOf (o : Original) :
    List (ProjectedMarketMessage × CorrectionMessage) :=
  (corrections items).filter fun c => Names items o c.2.originalAlias

/-- The names of an original trade, as sorted identifiers. -/
noncomputable def aliasesOf (o : Original) : List ℤ :=
  sortedSet (o.2.tradeId :: (correctionsOf items o).map (·.2.correctedTradeId))

/-- The current figures of an original trade. -/
noncomputable def current (o : Original) : DynamicActiveTrade :=
  match (correctionsOf items o).getLast? with
  | none => originalTrade o.1 o.2
  | some (projected, m) =>
    { rootEventId := o.1.eventId
      currentEventId := projected.eventId
      currentConnectionEpoch := projected.connectionEpoch
      sourceSequence := projected.sequence
      sourceMessageIndex := projected.messageIndex
      instrumentId := o.1.instrumentId
      symbol := o.2.symbol
      providerRootTradeId := o.2.tradeId
      currentTradeId := m.correctedTradeId
      tradeIdAliases := aliasesOf items o
      exchange := m.exchange
      tape := m.tape
      price := m.correctedPrice
      size := m.correctedSize
      conditions := m.correctedConditions
      eventTime := m.timestamp
      receivedAt := projected.receivedAt }

end Reference

variable {items : List TradeItem} {o : Original} {k : Alias} {projected : ProjectedMarketMessage}

@[simp] theorem current_rootEventId : (current items o).rootEventId = o.1.eventId := by
  rw [current]
  split <;> rfl

@[simp] theorem current_instrumentId : (current items o).instrumentId = o.1.instrumentId := by
  rw [current]
  split <;> rfl

@[simp] theorem current_symbol : (current items o).symbol = o.2.symbol := by
  rw [current]
  split <;> rfl

@[simp] theorem current_providerRootTradeId :
    (current items o).providerRootTradeId = o.2.tradeId := by
  rw [current]
  split <;> rfl

@[simp] theorem current_tradeIdAliases : (current items o).tradeIdAliases = aliasesOf items o := by
  rw [current]
  split
  · rename_i hnone
    rw [aliasesOf, List.getLast?_eq_none_iff.1 hnone]
    rfl
  · rfl

theorem mem_correctionsOf {c : ProjectedMarketMessage × CorrectionMessage} :
    c ∈ correctionsOf items o ↔ c ∈ corrections items ∧ Names items o c.2.originalAlias := by
  simp only [correctionsOf, List.mem_filter, decide_eq_true_eq]

/-! ## One more message -/

section Concat

variable {trade : TradeMessage} {correction : CorrectionMessage} {cancel : CancelMessage}

@[simp] theorem originals_trade :
    originals (items ++ [⟨projected, .trade trade⟩]) = originals items ++ [(projected, trade)] := by
  simp [originals]

@[simp] theorem originals_correction :
    originals (items ++ [⟨projected, .correction correction⟩]) = originals items := by
  simp [originals]

@[simp] theorem originals_cancel :
    originals (items ++ [⟨projected, .cancel cancel⟩]) = originals items := by
  simp [originals]

@[simp] theorem corrections_trade :
    corrections (items ++ [⟨projected, .trade trade⟩]) = corrections items := by
  simp [corrections]

@[simp] theorem corrections_correction :
    corrections (items ++ [⟨projected, .correction correction⟩]) =
      corrections items ++ [(projected, correction)] := by
  simp [corrections]

@[simp] theorem corrections_cancel :
    corrections (items ++ [⟨projected, .cancel cancel⟩]) = corrections items := by
  simp [corrections]

@[simp] theorem cancels_trade :
    cancels (items ++ [⟨projected, .trade trade⟩]) = cancels items := by
  simp [cancels]

@[simp] theorem cancels_correction :
    cancels (items ++ [⟨projected, .correction correction⟩]) = cancels items := by
  simp [cancels]

@[simp] theorem cancels_cancel :
    cancels (items ++ [⟨projected, .cancel cancel⟩]) = cancels items ++ [cancel] := by
  simp [cancels]

/-- Only corrections change the names of the trades, and their figures. -/
theorem names_of_corrections {items' : List TradeItem}
    (h : corrections items' = corrections items) : Names items' = Names items := by
  funext o k
  rw [Names, Names, renamings, renamings, h]

theorem current_of_corrections {items' : List TradeItem}
    (h : corrections items' = corrections items) : current items' = current items := by
  funext o
  have hof : correctionsOf items' o = correctionsOf items o := by
    rw [correctionsOf, correctionsOf, h, names_of_corrections h]
  rw [current, current, aliasesOf, aliasesOf, hof]

end Concat

end TradingAgent.Sip
