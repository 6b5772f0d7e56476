import TradingAgent.Sip.Reference

/-!
# The state agrees with the messages

If each message of a list without repetitions could be applied, the state of the trades is the one
the messages mean (`Agrees`). Each of the three messages keeps this: an original trade has a name
that is new, a correction gives a new name to a trade that has one, and a cancel removes it under
all of them.
-/

namespace TradingAgent.Sip

variable {items : List TradeItem} {state state' : TradeState} {projected : ProjectedMarketMessage}

/-! ## What the methods do -/

theorem DynamicActiveTrade.sortedSet_tradeIdAliases {t : DynamicActiveTrade}
    (h : t.isValid = true) : sortedSet t.tradeIdAliases = t.tradeIdAliases := by
  simp only [isValid, decide_eq_true_eq, not_or, not_not] at h
  exact h.2.2.2.2.2.2.2.2.2.1.symm

namespace TradeState

theorem mem_setRoot {roots : List DynamicActiveTrade} {active a : DynamicActiveTrade} :
    a ∈ setRoot roots active ↔ a = active ∨ (a ∈ roots ∧ a.rootEventId ≠ active.rootEventId) := by
  rw [setRoot]
  split_ifs with h
  · obtain ⟨root, hroot, hid⟩ := List.mem_map.1 h
    rw [List.mem_map]
    constructor
    · rintro ⟨b, hb, rfl⟩
      split_ifs with hbid
      · exact .inl rfl
      · exact .inr ⟨hb, hbid⟩
    · rintro (rfl | ⟨ha, hne⟩)
      · exact ⟨root, hroot, if_pos hid⟩
      · exact ⟨a, ha, if_neg hne⟩
  · rw [List.mem_append, List.mem_singleton, or_comm]
    refine or_congr_right ⟨fun ha => ⟨ha, fun hid => h ?_⟩, And.left⟩
    exact List.mem_map.2 ⟨a, ha, hid⟩

theorem nodup_setRoot {roots : List DynamicActiveTrade} {active : DynamicActiveTrade}
    (h : (roots.map (·.rootEventId)).Nodup) :
    ((setRoot roots active).map (·.rootEventId)).Nodup := by
  rw [setRoot]
  split_ifs with hmem
  · have hmap : (roots.map fun root =>
        if root.rootEventId = active.rootEventId then active else root).map (·.rootEventId) =
        roots.map (·.rootEventId) := by
      rw [List.map_map]
      refine List.map_congr_left fun root _ => ?_
      rw [Function.comp_apply]
      split_ifs with hid
      · exact hid.symm
      · rfl
    rwa [hmap]
  · rw [List.map_append, List.map_singleton]
    exact List.nodup_append_comm.1 (List.nodup_cons.2 ⟨hmem, h⟩)

theorem original_eq_some {message : TradeMessage} :
    state.original projected message = some state' ↔ message.alias ∉ state.seen ∧
      (originalTrade projected message).isValid = true ∧
      state' = { state with
        aliases := fun k =>
          if k = message.alias then some (originalTrade projected message) else state.aliases k
        roots := setRoot state.roots (originalTrade projected message)
        seen := message.alias :: state.seen } := by
  rw [original, Option.ite_none_left_eq_some, Option.map_eq_some_iff]
  simp only [DynamicActiveTrade.make_eq_some, and_assoc, exists_and_left, exists_eq_left,
    eq_comm (b := state')]

theorem correction_eq_some {message : CorrectionMessage} :
    state.correction projected message = some state' ↔ ∃ target,
      state.aliases message.originalAlias = some target ∧
      values target = (message.exchange, message.tape, message.originalPrice,
        message.originalSize, message.originalConditions) ∧
      message.correctedAlias ∉ state.seen ∧
      (correctedTrade target projected message).isValid = true ∧
      state' = { state with
        aliases := fun k =>
          if k = message.correctedAlias then some (correctedTrade target projected message)
          else if state.aliases k = some target then
            some (correctedTrade target projected message)
          else state.aliases k
        roots := setRoot state.roots (correctedTrade target projected message)
        seen := message.correctedAlias :: state.seen } := by
  rw [correction, Option.bind_eq_some_iff]
  refine exists_congr fun target => and_congr_right fun _ => ?_
  rw [Option.ite_none_left_eq_some, Option.map_eq_some_iff, not_or, not_not]
  simp only [DynamicActiveTrade.make_eq_some, and_assoc, exists_and_left, exists_eq_left,
    eq_comm (b := state')]

theorem cancel_eq_some {message : CancelMessage} :
    state.cancel message = some state' ↔ ∃ target,
      state.aliases message.alias = some target ∧
      (target.exchange, target.tape, target.price, target.size) =
        (message.exchange, message.tape, message.price, message.size) ∧
      target.rootEventId ∈ state.roots.map (·.rootEventId) ∧
      state' = { state with
        aliases := fun k => if state.aliases k = some target then none else state.aliases k
        roots := state.roots.filter fun root => root.rootEventId ≠ target.rootEventId } := by
  rw [cancel, Option.bind_eq_some_iff]
  refine exists_congr fun target => and_congr_right fun _ => ?_
  rw [Option.ite_none_left_eq_some, not_or, not_not, not_not, Option.some_inj, and_assoc,
    eq_comm (b := state')]

end TradeState

/-! ## The invariant -/

/-- The state of the trades is what the messages mean, and each name is that of one trade. -/
structure Agrees (items : List TradeItem) (state : TradeState) : Prop where
  nodup_originals : ((originals items).map (·.1.eventId)).Nodup
  mem_seen : ∀ k, k ∈ state.seen ↔ ∃ o ∈ originals items, Names items o k
  aliases_eq_some : ∀ k a, state.aliases k = some a ↔
    ∃ o ∈ originals items, ¬ IsCancelled items o ∧ Names items o k ∧ current items o = a
  mem_roots : ∀ a, a ∈ state.roots ↔
    ∃ o ∈ originals items, ¬ IsCancelled items o ∧ current items o = a
  nodup_roots : (state.roots.map (·.rootEventId)).Nodup
  names_unique : ∀ o ∈ originals items, ∀ o' ∈ originals items, ∀ k,
    Names items o k → Names items o' k → o = o'
  corrections_seen : ∀ c ∈ corrections items, c.2.originalAlias ∈ state.seen
  cancels_seen : ∀ c ∈ cancels items, c.alias ∈ state.seen

theorem agrees_empty : Agrees [] TradeState.empty where
  nodup_originals := List.nodup_nil
  mem_seen _ := ⟨fun h => absurd h List.not_mem_nil, fun ⟨_, h, _⟩ => absurd h List.not_mem_nil⟩
  aliases_eq_some _ a :=
    ⟨fun h => absurd h (Option.some_ne_none a).symm, fun ⟨_, h, _⟩ => absurd h List.not_mem_nil⟩
  mem_roots _ := ⟨fun h => absurd h List.not_mem_nil, fun ⟨_, h, _⟩ => absurd h List.not_mem_nil⟩
  nodup_roots := List.nodup_nil
  names_unique _ h := absurd h List.not_mem_nil
  corrections_seen _ h := absurd h List.not_mem_nil
  cancels_seen _ h := absurd h List.not_mem_nil

namespace Agrees

variable (h : Agrees items state)
include h

/-- No renaming starts from a name that was not seen. -/
theorem renamings_ne {k : Alias} (hk : k ∉ state.seen) : ∀ r ∈ renamings items, r.1 ≠ k := by
  intro r hr hrk
  obtain ⟨c, hc, rfl⟩ := List.mem_map.1 hr
  exact hk (hrk ▸ h.corrections_seen c hc)

theorem original_eq {o o' : Original} (ho : o ∈ originals items) (ho' : o' ∈ originals items)
    (hid : o.1.eventId = o'.1.eventId) : o = o' :=
  List.inj_on_of_nodup_map h.nodup_originals ho ho' hid

/-- An original trade of a message whose event is new. -/
theorem original {message : TradeMessage}
    (hid : projected.eventId ∉ (originals items).map (·.1.eventId))
    (hstep : state.original projected message = some state') :
    Agrees (items ++ [⟨projected, .trade message⟩]) state' := by
  obtain ⟨hfresh, -, rfl⟩ := TradeState.original_eq_some.1 hstep
  have hnames : Names (items ++ [⟨projected, .trade message⟩]) = Names items :=
    names_of_corrections corrections_trade
  have hcurrent : current (items ++ [⟨projected, .trade message⟩]) = current items :=
    current_of_corrections corrections_trade
  have hcancelled : IsCancelled (items ++ [⟨projected, .trade message⟩]) = IsCancelled items := by
    funext o
    rw [IsCancelled, IsCancelled, cancels_trade, hnames]
  -- The new trade has no name but its own: no correction, and no cancel, concerns it.
  have hown : ∀ k, Names items (projected, message) k ↔ k = message.alias := fun k =>
    ⟨eq_of_renamed (h.renamings_ne hfresh), fun hk => hk ▸ Renamed.refl _⟩
  have hnew : current items (projected, message) = originalTrade projected message := by
    have hnone : correctionsOf items (projected, message) = [] := by
      refine List.eq_nil_iff_forall_not_mem.2 fun c hc => ?_
      obtain ⟨hc, hname⟩ := mem_correctionsOf.1 hc
      exact hfresh ((hown _).1 hname ▸ h.corrections_seen c hc)
    rw [current, hnone]
    rfl
  have hactive : ¬ IsCancelled items (projected, message) := by
    rintro ⟨c, hc, hname⟩
    exact hfresh ((hown _).1 hname ▸ h.cancels_seen c hc)
  have hold : ∀ o ∈ originals items, ¬ Names items o message.alias := fun o ho hname =>
    hfresh ((h.mem_seen _).2 ⟨o, ho, hname⟩)
  constructor
  · rw [originals_trade, List.map_append, List.map_singleton]
    exact List.nodup_append_comm.1 (List.nodup_cons.2 ⟨hid, h.nodup_originals⟩)
  · intro k
    rw [originals_trade, hnames, List.mem_cons, h.mem_seen, exists_mem_concat, hown,
      or_comm]
  · intro k a
    rw [originals_trade, hnames, hcurrent, hcancelled, exists_mem_concat, hown, hnew,
      ← h.aliases_eq_some]
    dsimp only
    split_ifs with hk
    · have hnone : state.aliases k ≠ some a := fun hsome => by
        obtain ⟨o, ho, -, hname, -⟩ := (h.aliases_eq_some k a).1 hsome
        exact hold o ho (hk ▸ hname)
      rw [Option.some_inj]
      exact ⟨fun ha => .inr ⟨hactive, hk, ha⟩, fun hor => (hor.resolve_left hnone).2.2⟩
    · exact ⟨.inl, fun hor => hor.resolve_right fun hand => hk hand.2.1⟩
  · intro a
    rw [originals_trade, hcurrent, hcancelled, exists_mem_concat, hnew,
      TradeState.mem_setRoot, or_comm, ← h.mem_roots]
    refine or_congr ⟨And.left, fun ha => ⟨ha, fun heq => hid ?_⟩⟩
      ⟨fun ha => ⟨hactive, ha.symm⟩, fun hand => hand.2.symm⟩
    obtain ⟨o, ho, -, rfl⟩ := (h.mem_roots a).1 ha
    exact List.mem_map.2 ⟨o, ho, current_rootEventId.symm.trans heq⟩
  · exact TradeState.nodup_setRoot h.nodup_roots
  · rw [originals_trade, hnames]
    intro o ho o' ho' k hok ho'k
    rcases List.mem_append.1 ho with ho | ho <;> rcases List.mem_append.1 ho' with ho' | ho'
    · exact h.names_unique o ho o' ho' k hok ho'k
    · rw [List.mem_singleton.1 ho', hown] at ho'k
      exact absurd (ho'k ▸ hok) (hold o ho)
    · rw [List.mem_singleton.1 ho, hown] at hok
      exact absurd (hok ▸ ho'k) (hold o' ho')
    · rw [List.mem_singleton.1 ho, List.mem_singleton.1 ho']
  · rw [corrections_trade]
    exact fun c hc => List.mem_cons_of_mem _ (h.corrections_seen c hc)
  · rw [cancels_trade]
    exact fun c hc => List.mem_cons_of_mem _ (h.cancels_seen c hc)

section Correction

variable {message : CorrectionMessage} (hfresh : message.correctedAlias ∉ state.seen)
include hfresh

/-- The new name is one of the corrected trade from now on, and of no other. -/
theorem names_correction (o : Original) (k : Alias) :
    Names (items ++ [⟨projected, .correction message⟩]) o k ↔
      Names items o k ∨ (Names items o message.originalAlias ∧ k = message.correctedAlias) := by
  rw [Names, renamings, corrections_correction, List.map_append, List.map_singleton]
  exact renamed_concat_iff (h.renamings_ne hfresh)

theorem names_correction_of_seen (o : Original) {k : Alias} (hk : k ∈ state.seen) :
    Names (items ++ [⟨projected, .correction message⟩]) o k ↔ Names items o k := by
  rw [h.names_correction hfresh]
  exact or_iff_left fun hand => hfresh (hand.2 ▸ hk)

theorem isCancelled_correction (o : Original) :
    IsCancelled (items ++ [⟨projected, .correction message⟩]) o ↔ IsCancelled items o := by
  rw [IsCancelled, IsCancelled, cancels_correction]
  exact exists_congr fun c => and_congr_right fun hc =>
    h.names_correction_of_seen hfresh o (h.cancels_seen c hc)

variable (hseen : message.originalAlias ∈ state.seen)
include hseen

open Classical in
theorem correctionsOf_correction (o : Original) :
    correctionsOf (items ++ [⟨projected, .correction message⟩]) o =
      correctionsOf items o ++
        if Names items o message.originalAlias then [(projected, message)] else [] := by
  have hold : ∀ c ∈ corrections items,
      decide (Names (items ++ [⟨projected, .correction message⟩]) o c.2.originalAlias) =
        decide (Names items o c.2.originalAlias) := fun c hc =>
    decide_eq_decide.2 (h.names_correction_of_seen hfresh o (h.corrections_seen c hc))
  rw [correctionsOf, corrections_correction, List.filter_append, List.filter_congr hold,
    List.filter_singleton, Bool.cond_decide]
  simp only [h.names_correction_of_seen hfresh o hseen]
  rfl

/-- A trade that is not the corrected one stays as it is. -/
theorem current_correction_of_not_names {o : Original}
    (ho : ¬ Names items o message.originalAlias) :
    current (items ++ [⟨projected, .correction message⟩]) o = current items o := by
  have hof : correctionsOf (items ++ [⟨projected, .correction message⟩]) o = _ :=
    h.correctionsOf_correction hfresh hseen o
  rw [if_neg ho, List.append_nil] at hof
  rw [current, current, aliasesOf, aliasesOf, hof]

theorem current_correction_of_names {o : Original} (ho : Names items o message.originalAlias)
    (hvalid : (correctedTrade (current items o) projected message).isValid = true) :
    current (items ++ [⟨projected, .correction message⟩]) o =
      correctedTrade (current items o) projected message := by
  have hof : correctionsOf (items ++ [⟨projected, .correction message⟩]) o = _ :=
    h.correctionsOf_correction hfresh hseen o
  rw [if_pos ho] at hof
  -- The names are sorted, as a trade with other names would not be valid.
  have haliases : aliasesOf (items ++ [⟨projected, .correction message⟩]) o =
      (correctedTrade (current items o) projected message).tradeIdAliases := by
    rw [← DynamicActiveTrade.sortedSet_tradeIdAliases hvalid, aliasesOf, hof]
    refine sortedSet_congr fun x => ?_
    simp only [correctedTrade, current_tradeIdAliases, aliasesOf, List.mem_insertionSort,
      List.map_append, List.map_singleton, List.mem_cons, List.mem_append, mem_sortedSet, or_assoc]
  rw [current, hof, List.getLast?_concat]
  dsimp only
  rw [haliases, correctedTrade, current_rootEventId, current_instrumentId, current_symbol,
    current_providerRootTradeId]

end Correction

/-- A correction, in which a trade gets a name that is new. -/
theorem correction {message : CorrectionMessage}
    (hstep : state.correction projected message = some state') :
    Agrees (items ++ [⟨projected, .correction message⟩]) state' := by
  obtain ⟨target, htarget, -, hfresh, hvalid, rfl⟩ := TradeState.correction_eq_some.1 hstep
  obtain ⟨root, hroot, hactive, hrootName, rfl⟩ := (h.aliases_eq_some _ _).1 htarget
  have hseen : message.originalAlias ∈ state.seen := (h.mem_seen _).2 ⟨root, hroot, hrootName⟩
  have hroot_iff : ∀ o ∈ originals items, Names items o message.originalAlias ↔ o = root :=
    fun o ho => ⟨fun hname => h.names_unique o ho root hroot _ hname hrootName,
      fun heq => heq ▸ hrootName⟩
  have hcurrent_root := h.current_correction_of_names hfresh hseen hrootName hvalid
  have hcurrent_old : ∀ o ∈ originals items, o ≠ root →
      current (items ++ [⟨projected, .correction message⟩]) o = current items o :=
    fun o ho hne => h.current_correction_of_not_names hfresh hseen
      fun hname => hne ((hroot_iff o ho).1 hname)
  have hcurrent_id : ∀ o ∈ originals items, current items o = current items root → o = root :=
    fun o ho heq => h.original_eq ho hroot
      (by simpa only [current_rootEventId] using congrArg (·.rootEventId) heq)
  constructor
  · rw [originals_correction]
    exact h.nodup_originals
  · intro k
    simp only [originals_correction, h.names_correction hfresh, List.mem_cons, h.mem_seen]
    constructor
    · rintro (rfl | ⟨o, ho, hname⟩)
      · exact ⟨root, hroot, .inr ⟨hrootName, rfl⟩⟩
      · exact ⟨o, ho, .inl hname⟩
    · rintro ⟨o, ho, hname | ⟨-, hk⟩⟩
      · exact .inr ⟨o, ho, hname⟩
      · exact .inl hk
  · intro k a
    simp only [originals_correction, h.isCancelled_correction hfresh, h.names_correction hfresh]
    split_ifs with hk htarget
    · -- The new name is one of the corrected trade only.
      subst hk
      have hnot : ∀ o ∈ originals items, ¬ Names items o message.correctedAlias :=
        fun o ho hname => hfresh ((h.mem_seen _).2 ⟨o, ho, hname⟩)
      constructor
      · intro ha
        exact ⟨root, hroot, hactive, .inr ⟨hrootName, rfl⟩,
          hcurrent_root.trans (Option.some_inj.1 ha)⟩
      · rintro ⟨o, ho, -, hname, rfl⟩
        rw [(hroot_iff o ho).1 (hname.resolve_left (hnot o ho)).1, hcurrent_root]
    · -- An older name of the corrected trade.
      obtain ⟨o', ho', -, hname', heq⟩ := (h.aliases_eq_some k _).1 htarget
      obtain rfl := hcurrent_id o' ho' heq
      constructor
      · intro ha
        exact ⟨o', ho', hactive, .inl hname', hcurrent_root.trans (Option.some_inj.1 ha)⟩
      · rintro ⟨o, ho, -, hname, rfl⟩
        have hname := hname.resolve_right fun hand => hk hand.2
        rw [h.names_unique o ho o' ho' k hname hname', hcurrent_root]
    · -- A name of another trade.
      rw [h.aliases_eq_some]
      refine exists_congr fun o => and_congr_right fun ho => and_congr_right fun hactive' => ?_
      rw [or_iff_left fun hand => hk hand.2]
      refine and_congr_right fun hname => ?_
      rw [hcurrent_old o ho]
      rintro rfl
      exact htarget ((h.aliases_eq_some _ _).2 ⟨o, ho, hactive, hname, rfl⟩)
  · intro a
    simp only [originals_correction, h.isCancelled_correction hfresh]
    rw [TradeState.mem_setRoot, h.mem_roots]
    constructor
    · rintro (rfl | ⟨⟨o, ho, hactive', rfl⟩, hne⟩)
      · exact ⟨root, hroot, hactive, hcurrent_root⟩
      · refine ⟨o, ho, hactive', hcurrent_old o ho ?_⟩
        rintro rfl
        exact hne rfl
    · rintro ⟨o, ho, hactive', rfl⟩
      by_cases heq : o = root
      · exact .inl (heq ▸ hcurrent_root)
      · rw [hcurrent_old o ho heq]
        refine .inr ⟨⟨o, ho, hactive', rfl⟩, fun hid => heq (h.original_eq ho hroot ?_)⟩
        rw [current_rootEventId] at hid
        exact hid.trans current_rootEventId
  · exact TradeState.nodup_setRoot h.nodup_roots
  · intro o ho o' ho' k hok ho'k
    rw [originals_correction] at ho ho'
    rw [h.names_correction hfresh] at hok ho'k
    have hnot : ∀ o ∈ originals items, Names items o k → k ≠ message.correctedAlias :=
      fun o ho hname heq => hfresh (heq ▸ (h.mem_seen _).2 ⟨o, ho, hname⟩)
    rcases hok with hok | ⟨hoName, hk⟩ <;> rcases ho'k with ho'k | ⟨ho'Name, hk'⟩
    · exact h.names_unique o ho o' ho' k hok ho'k
    · exact absurd hk' (hnot o ho hok)
    · exact absurd hk (hnot o' ho' ho'k)
    · exact ((hroot_iff o ho).1 hoName).trans ((hroot_iff o' ho').1 ho'Name).symm
  · rw [corrections_correction, List.forall_mem_append, List.forall_mem_singleton]
    exact ⟨fun c hc => List.mem_cons_of_mem _ (h.corrections_seen c hc),
      List.mem_cons_of_mem _ hseen⟩
  · rw [cancels_correction]
    exact fun c hc => List.mem_cons_of_mem _ (h.cancels_seen c hc)

/-- A cancel, by any name of a trade. -/
theorem cancel {message : CancelMessage} (hstep : state.cancel message = some state') :
    Agrees (items ++ [⟨projected, .cancel message⟩]) state' := by
  obtain ⟨target, htarget, -, -, rfl⟩ := TradeState.cancel_eq_some.1 hstep
  obtain ⟨root, hroot, hactive, hrootName, rfl⟩ := (h.aliases_eq_some _ _).1 htarget
  have hnames : Names (items ++ [⟨projected, .cancel message⟩]) = Names items :=
    names_of_corrections corrections_cancel
  have hcurrent : current (items ++ [⟨projected, .cancel message⟩]) = current items :=
    current_of_corrections corrections_cancel
  have hcancelled : ∀ o ∈ originals items,
      IsCancelled (items ++ [⟨projected, .cancel message⟩]) o ↔ IsCancelled items o ∨ o = root := by
    intro o ho
    rw [IsCancelled, cancels_cancel, exists_mem_concat, hnames]
    exact or_congr_right ⟨fun hname => h.names_unique o ho root hroot _ hname hrootName,
      fun heq => heq ▸ hrootName⟩
  have hcurrent_iff : ∀ o ∈ originals items,
      (current items o).rootEventId = (current items root).rootEventId ↔ o = root := by
    intro o ho
    rw [current_rootEventId, current_rootEventId]
    exact ⟨h.original_eq ho hroot, fun heq => heq ▸ rfl⟩
  constructor
  · rw [originals_cancel]
    exact h.nodup_originals
  · intro k
    rw [originals_cancel, hnames]
    exact h.mem_seen k
  · intro k a
    simp only [originals_cancel, hnames, hcurrent]
    split_ifs with htarget'
    · -- A name of the cancelled trade.
      obtain ⟨o', ho', -, hname', heq⟩ := (h.aliases_eq_some k _).1 htarget'
      obtain rfl := (hcurrent_iff o' ho').1 (heq ▸ rfl)
      refine ⟨False.elim, ?_⟩
      rintro ⟨o, ho, hactive', hname, -⟩
      have heq := h.names_unique o ho o' ho' k hname hname'
      exact absurd ((hcancelled o ho).2 (.inr heq)) hactive'
    · rw [h.aliases_eq_some]
      refine exists_congr fun o => and_congr_right fun ho => ?_
      rw [hcancelled o ho, not_or, and_assoc]
      refine and_congr_right fun hactive' => ⟨fun hand => ⟨?_, hand⟩, And.right⟩
      rintro rfl
      exact htarget' ((h.aliases_eq_some _ _).2 ⟨o, ho, hactive, hand.1, rfl⟩)
  · intro a
    simp only [originals_cancel, hcurrent]
    rw [List.mem_filter, h.mem_roots, decide_eq_true_eq]
    constructor
    · rintro ⟨⟨o, ho, hactive', rfl⟩, hne⟩
      refine ⟨o, ho, fun hc => ?_, rfl⟩
      rcases (hcancelled o ho).1 hc with hc | heq
      · exact hactive' hc
      · exact hne ((hcurrent_iff o ho).2 heq)
    · rintro ⟨o, ho, hactive', rfl⟩
      rw [hcancelled o ho, not_or] at hactive'
      exact ⟨⟨o, ho, hactive'.1, rfl⟩, fun hid => hactive'.2 ((hcurrent_iff o ho).1 hid)⟩
  · exact h.nodup_roots.sublist (List.filter_sublist.map _)
  · rw [originals_cancel, hnames]
    exact h.names_unique
  · rw [corrections_cancel]
    exact h.corrections_seen
  · rw [cancels_cancel, List.forall_mem_append, List.forall_mem_singleton]
    exact ⟨h.cancels_seen, (h.mem_seen _).2 ⟨root, hroot, hrootName⟩⟩

end Agrees

end TradingAgent.Sip
