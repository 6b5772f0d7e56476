import TradingAgent.Sip.Agreement

/-!
# The trades as of some time

What is reported of the trades as of some time is what the messages received until then mean, each
of them once (`materialize_reference`). The state of the trades is folded over all the messages.
But they are in the order of their receipt, and what is reported is read from the state only while
they are early enough.
-/

namespace TradingAgent.Sip

variable {validateJson : JsonReader} {asOf : DateTime}

/-! ## Messages applied one after the other -/

namespace TradeState

/-- The state after some messages. -/
def applyAll (state : TradeState) (items : List TradeItem) : Option TradeState :=
  items.foldlM (fun state item => (state.apply item).map (·.2)) state

variable {state state' : TradeState} {item : TradeItem} {items items' : List TradeItem}

theorem applyAll_append :
    state.applyAll (items ++ items') = (state.applyAll items).bind (·.applyAll items') :=
  List.foldlM_append

theorem applyAll_cons :
    state.applyAll (item :: items) = ((state.apply item).map (·.2)).bind (·.applyAll items) :=
  List.foldlM_cons

theorem applyAll_singleton : state.applyAll [item] = (state.apply item).map (·.2) := by
  rw [applyAll_cons]
  exact Option.bind_fun_some _

theorem apply_eq_some {applied : Bool} : state.apply item = some (applied, state') ↔
    (item.projected.contentSha256 ∈ state.seenPayloads ∧ applied = false ∧ state' = state) ∨
    (item.projected.contentSha256 ∉ state.seenPayloads ∧ applied = true ∧
      ({ state with seenPayloads := item.projected.contentSha256 :: state.seenPayloads } :
        TradeState).applyMessage item = some state') := by
  rw [apply]
  split_ifs with hseen
  · simp [hseen, eq_comm]
  · simp [hseen, eq_comm (a := true), and_comm]

theorem applyMessage_seenPayloads (h : state.applyMessage item = some state') :
    state'.seenPayloads = state.seenPayloads := by
  obtain ⟨projected, message⟩ := item
  cases message with
  | trade m =>
    obtain ⟨-, -, rfl⟩ := original_eq_some.1 h
    rfl
  | correction m =>
    obtain ⟨target, -, -, -, -, rfl⟩ := correction_eq_some.1 h
    rfl
  | cancel m =>
    obtain ⟨target, -, -, -, rfl⟩ := cancel_eq_some.1 h
    rfl

/-- The payloads seen are those of the messages. -/
theorem mem_seenPayloads (h : TradeState.empty.applyAll items = some state) (digest : String) :
    digest ∈ state.seenPayloads ↔ digest ∈ items.map (·.projected.contentSha256) := by
  induction items using List.reverseRecOn generalizing state with
  | nil =>
    obtain rfl := Option.some_inj.1 h
    rfl
  | append_singleton items item ih =>
    rw [applyAll_append, Option.bind_eq_some_iff] at h
    obtain ⟨before, hbefore, hstep⟩ := h
    rw [applyAll_singleton, Option.map_eq_some_iff] at hstep
    obtain ⟨⟨applied, after⟩, happly, rfl⟩ := hstep
    rw [List.map_append, List.mem_append, ← ih hbefore, List.map_singleton, List.mem_singleton]
    rcases apply_eq_some.1 happly with ⟨hseen, -, hafter⟩ | ⟨-, -, hafter⟩
    · dsimp only at hafter ⊢
      rw [hafter]
      exact ⟨.inl, fun hor => hor.elim id fun heq => heq ▸ hseen⟩
    · dsimp only
      rw [applyMessage_seenPayloads hafter, List.mem_cons, or_comm]

/-- A message whose payload was seen may be left out. -/
theorem applyAll_repeated
    (h : TradeState.empty.applyAll (items ++ item :: items') = some state)
    (hseen : item.projected.contentSha256 ∈ items.map (·.projected.contentSha256)) :
    TradeState.empty.applyAll (items ++ items') = some state := by
  rw [applyAll_append, Option.bind_eq_some_iff] at h ⊢
  obtain ⟨before, hbefore, h⟩ := h
  have happly : before.apply item = some (false, before) :=
    apply_eq_some.2 (.inl ⟨(mem_seenPayloads hbefore _).2 hseen, rfl, rfl⟩)
  rw [applyAll_cons, happly] at h
  exact ⟨before, hbefore, h⟩

end TradeState

theorem mem_originals_ids {items : List TradeItem} {id : String}
    (h : id ∈ (originals items).map (·.1.eventId)) :
    id ∈ items.map (·.projected.eventId) := by
  obtain ⟨o, ho, rfl⟩ := List.mem_map.1 h
  obtain ⟨item, hitem, ho⟩ := List.mem_filterMap.1 ho
  refine List.mem_map.2 ⟨item, hitem, ?_⟩
  split at ho
  · obtain rfl := Option.some_inj.1 ho
    rfl
  · exact absurd ho.symm (Option.some_ne_none o)

/-- The payloads that were seen do not matter to whether a state agrees with messages. -/
theorem Agrees.withSeenPayloads {items : List TradeItem} {state : TradeState}
    (h : Agrees items state) (seenPayloads : List String) :
    Agrees items { state with seenPayloads } where
  nodup_originals := h.nodup_originals
  mem_seen := h.mem_seen
  aliases_eq_some := h.aliases_eq_some
  mem_roots := h.mem_roots
  nodup_roots := h.nodup_roots
  names_unique := h.names_unique
  corrections_seen := h.corrections_seen
  cancels_seen := h.cancels_seen

theorem Agrees.applyMessage {items : List TradeItem} {item : TradeItem} {state state' : TradeState}
    (h : Agrees items state) (hid : item.projected.eventId ∉ items.map (·.projected.eventId))
    (hstep : state.applyMessage item = some state') : Agrees (items ++ [item]) state' := by
  obtain ⟨projected, message⟩ := item
  cases message with
  | trade m => exact h.original (fun hmem => hid (mem_originals_ids hmem)) hstep
  | correction m => exact h.correction hstep
  | cancel m => exact h.cancel hstep

/-- The state after some messages is what they mean, without those that repeat a payload. -/
theorem agrees_applyAll {items : List TradeItem} {state : TradeState}
    (hids : (items.map (·.projected.eventId)).Nodup)
    (h : TradeState.empty.applyAll items = some state) :
    Agrees (firstsBy (·.projected.contentSha256) items) state := by
  induction items using List.reverseRecOn generalizing state with
  | nil =>
    obtain rfl := Option.some_inj.1 h
    exact agrees_empty
  | append_singleton items item ih =>
    rw [TradeState.applyAll_append, Option.bind_eq_some_iff] at h
    obtain ⟨before, hbefore, hstep⟩ := h
    rw [TradeState.applyAll_singleton, Option.map_eq_some_iff] at hstep
    obtain ⟨⟨applied, after⟩, happly, rfl⟩ := hstep
    rw [List.map_append, List.map_singleton] at hids
    obtain ⟨hid, hids⟩ := List.nodup_cons.1 (List.nodup_append_comm.1 hids)
    have hagrees := ih hids hbefore
    have hseen := (TradeState.mem_seenPayloads hbefore item.projected.contentSha256).trans
      (mem_map_firstsBy (fun item : TradeItem => item.projected.contentSha256) items _).symm
    rw [firstsBy_concat]
    rcases TradeState.apply_eq_some.1 happly with ⟨hmem, -, hafter⟩ | ⟨hmem, -, hafter⟩
    · rw [if_pos (hseen.1 hmem)]
      dsimp only at hafter ⊢
      rwa [hafter]
    · rw [if_neg fun hfirst => hmem (hseen.2 hfirst)]
      refine (hagrees.withSeenPayloads _).applyMessage (fun hfirst => hid ?_) hafter
      exact ((firstsBy_sublist _ items).map _).subset hfirst

/-! ## The loop over the items -/

/-- The trade message that an item is, if it is one. -/
def tradeItem (validateJson : JsonReader) (item : ProjectedMarketMessage) : Option TradeItem :=
  match parseProjected validateJson item with
  | some (.trade message) => some ⟨item, message⟩
  | _ => none

/-- The trade messages among some items. -/
def tradeItems (validateJson : JsonReader) (projected : List ProjectedMarketMessage) :
    List TradeItem :=
  projected.filterMap (tradeItem validateJson)

/-- The items received until some time. -/
def receivedAsOf (asOf : DateTime) (projected : List ProjectedMarketMessage) :
    List ProjectedMarketMessage :=
  projected.filter fun item => item.receivedAt ≤ asOf

theorem tradeItems_cons_of_none {item : ProjectedMarketMessage}
    {projected : List ProjectedMarketMessage} (h : tradeItem validateJson item = none) :
    tradeItems validateJson (item :: projected) = tradeItems validateJson projected :=
  List.filterMap_cons_none h

theorem tradeItems_cons_of_some {item : ProjectedMarketMessage} {trade : TradeItem}
    {projected : List ProjectedMarketMessage} (h : tradeItem validateJson item = some trade) :
    tradeItems validateJson (item :: projected) = trade :: tradeItems validateJson projected :=
  List.filterMap_cons_some h

theorem receivedAsOf_cons (item : ProjectedMarketMessage)
    (projected : List ProjectedMarketMessage) : receivedAsOf asOf (item :: projected) =
      if item.receivedAt ≤ asOf then item :: receivedAsOf asOf projected
      else receivedAsOf asOf projected := by
  simp only [receivedAsOf, List.filter_cons, decide_eq_true_eq]

theorem tradeItem_projected {projected : ProjectedMarketMessage} {item : TradeItem}
    (h : tradeItem validateJson projected = some item) : item.projected = projected := by
  rw [tradeItem] at h
  split at h
  · rw [← Option.some_inj.1 h]
  · exact absurd h (Option.some_ne_none item).symm

theorem tradeItems_sublist (projected : List ProjectedMarketMessage) :
    ((tradeItems validateJson projected).map (·.projected)).Sublist projected := by
  induction projected with
  | nil => exact List.Sublist.refl []
  | cons p projected ih =>
    cases hitem : tradeItem validateJson p with
    | none =>
      rw [tradeItems_cons_of_none hitem]
      exact ih.cons p
    | some item =>
      rw [tradeItems_cons_of_some hitem, List.map_cons, tradeItem_projected hitem]
      exact ih.cons_cons p

variable {projected late : List ProjectedMarketMessage} {m m' : Materialization}

theorem step_eq_some {item : ProjectedMarketMessage} :
    m.step validateJson asOf item = some m' ↔
      (∃ quote, parseProjected validateJson item = some (.quote quote) ∧ m' = m) ∨
      (∃ message applied state, parseProjected validateJson item = some (.trade message) ∧
        m.state.apply ⟨item, message⟩ = some (applied, state) ∧
        m' = {
          state := state
          activeAsOf := if item.receivedAt ≤ asOf then state.active else m.activeAsOf
          validated := m.validated + 1
          observed := if item.receivedAt ≤ asOf then m.observed + 1 else m.observed
          duplicates := if applied then m.duplicates else m.duplicates + 1 }) := by
  rw [Materialization.step]
  cases hparse : parseProjected validateJson item with
  | none => simp
  | some message =>
    cases message with
    | quote quote => simp [eq_comm]
    | trade message => simp [Materialization.observe, eq_comm (b := m')]

/-- The loop applies the trade messages, and counts them. -/
theorem loop_eq_some (h : projected.foldlM (Materialization.step validateJson asOf) m = some m') :
    m.state.applyAll (tradeItems validateJson projected) = some m'.state ∧
      m'.validated = m.validated + (tradeItems validateJson projected).length ∧
      m'.observed = m.observed + (tradeItems validateJson (receivedAsOf asOf projected)).length ∧
      m'.duplicates ≤ m.duplicates + (tradeItems validateJson projected).length := by
  induction projected generalizing m with
  | nil =>
    obtain rfl := Option.some_inj.1 h
    exact ⟨rfl, rfl, rfl, le_rfl⟩
  | cons item projected ih =>
    rw [List.foldlM_cons] at h
    obtain ⟨next, hstep, h⟩ := Option.bind_eq_some_iff.1 h
    obtain ⟨hstate, hvalidated, hobserved, hduplicates⟩ := ih h
    rw [receivedAsOf_cons]
    rcases step_eq_some.1 hstep with
      ⟨quote, hparse, rfl⟩ | ⟨message, applied, s, hparse, happly, rfl⟩
    · have hitem : tradeItem validateJson item = none := by rw [tradeItem, hparse]
      rw [tradeItems_cons_of_none hitem]
      refine ⟨hstate, hvalidated, hobserved.trans ?_, hduplicates⟩
      split_ifs
      · rw [tradeItems_cons_of_none hitem]
      · rfl
    · have hitem : tradeItem validateJson item = some ⟨item, message⟩ := by rw [tradeItem, hparse]
      dsimp only at hstate hvalidated hobserved hduplicates
      rw [tradeItems_cons_of_some hitem, List.length_cons, TradeState.applyAll_cons, happly]
      refine ⟨hstate, by omega, hobserved.trans ?_, hduplicates.trans ?_⟩
      · split_ifs
        · rw [tradeItems_cons_of_some hitem, List.length_cons]
          omega
        · rfl
      · split_ifs <;> omega

/-- The loop succeeds, if each item is a message and the trade messages can be applied. -/
theorem exists_loop_eq_some
    (hparse : ∀ item ∈ projected, (parseProjected validateJson item).isSome = true)
    (h : (m.state.applyAll (tradeItems validateJson projected)).isSome = true) :
    ∃ m', projected.foldlM (Materialization.step validateJson asOf) m = some m' := by
  induction projected generalizing m with
  | nil => exact ⟨m, rfl⟩
  | cons item projected ih =>
    obtain ⟨hitem, hparse⟩ := List.forall_mem_cons.1 hparse
    obtain ⟨message, hmessage⟩ := Option.isSome_iff_exists.1 hitem
    rw [List.foldlM_cons, Materialization.step, hmessage]
    cases message with
    | quote quote =>
      rw [tradeItems_cons_of_none (by rw [tradeItem, hmessage])] at h
      exact ih hparse h
    | trade message =>
      rw [tradeItems_cons_of_some (by rw [tradeItem, hmessage]), TradeState.applyAll_cons] at h
      cases happly : m.state.apply ⟨item, message⟩ with
      | none => simp [happly] at h
      | some result =>
        rw [happly] at h
        dsimp only
        rw [Materialization.observe, happly]
        exact ih hparse h

theorem parse_of_loop (h : projected.foldlM (Materialization.step validateJson asOf) m = some m') :
    ∀ item ∈ projected, (parseProjected validateJson item).isSome = true := by
  induction projected generalizing m with
  | nil => exact fun _ hitem => absurd hitem List.not_mem_nil
  | cons item projected ih =>
    rw [List.foldlM_cons] at h
    obtain ⟨next, hstep, h⟩ := Option.bind_eq_some_iff.1 h
    refine List.forall_mem_cons.2 ⟨?_, ih h⟩
    rcases step_eq_some.1 hstep with ⟨quote, hparse, -⟩ | ⟨message, applied, s, hparse, -, -⟩
    · rw [hparse, Option.isSome_some]
    · rw [hparse, Option.isSome_some]

/-- While the items are early, what is reported is the state. -/
theorem loop_activeAsOf_of_early (hearly : ∀ item ∈ projected, item.receivedAt ≤ asOf)
    (hactive : m.activeAsOf = m.state.active)
    (h : projected.foldlM (Materialization.step validateJson asOf) m = some m') :
    m'.activeAsOf = m'.state.active := by
  induction projected generalizing m with
  | nil =>
    obtain rfl := Option.some_inj.1 h
    exact hactive
  | cons item projected ih =>
    obtain ⟨hitem, hearly⟩ := List.forall_mem_cons.1 hearly
    rw [List.foldlM_cons] at h
    obtain ⟨next, hstep, h⟩ := Option.bind_eq_some_iff.1 h
    refine ih hearly ?_ h
    rcases step_eq_some.1 hstep with ⟨quote, -, rfl⟩ | ⟨message, applied, s, -, -, rfl⟩
    · exact hactive
    · exact if_pos hitem

/-- What is reported stays, once the items are late. -/
theorem loop_activeAsOf_of_late (hlate : ∀ item ∈ late, ¬ item.receivedAt ≤ asOf)
    (h : late.foldlM (Materialization.step validateJson asOf) m = some m') :
    m'.activeAsOf = m.activeAsOf := by
  induction late generalizing m with
  | nil =>
    obtain rfl := Option.some_inj.1 h
    rfl
  | cons item late ih =>
    obtain ⟨hitem, hlate⟩ := List.forall_mem_cons.1 hlate
    rw [List.foldlM_cons] at h
    obtain ⟨next, hstep, h⟩ := Option.bind_eq_some_iff.1 h
    rw [ih hlate h]
    rcases step_eq_some.1 hstep with ⟨quote, -, rfl⟩ | ⟨message, applied, s, -, -, rfl⟩
    · rfl
    · exact if_neg hitem

/-! ## The figures as of some time -/

variable {planId : String} {marketDate : Date} {connectionEpochs : List String}
  {r : DynamicTradeState}

theorem materialize_eq_some :
    materializeProjectedTradesAsOf validateJson projected planId marketDate connectionEpochs asOf =
        some r ↔
      asOf.aware = true ∧
        projectionOrderIsValid projected planId marketDate connectionEpochs = true ∧
        ∃ m, projected.foldlM (Materialization.step validateJson asOf) .empty = some m ∧
          r.isValid = true ∧
          r = {
            planId, connectionEpochs, marketDate
            asOf := .utc asOf.instant
            validatedTradeMessageCount := m.validated
            observedTradeMessageCount := m.observed
            duplicateTradeMessageCount := m.duplicates
            activeTrades := m.activeAsOf } := by
  rw [materializeProjectedTradesAsOf, Option.ite_none_left_eq_some, not_or, Bool.not_eq_false,
    Bool.not_eq_false, Option.bind_eq_some_iff, and_assoc]
  refine and_congr_right fun _ => and_congr_right fun _ => exists_congr fun m =>
    and_congr_right fun _ => ?_
  dsimp only
  rw [Option.ite_none_right_eq_some, Option.some_inj]
  constructor
  · rintro ⟨hvalid, rfl⟩
    exact ⟨hvalid, rfl⟩
  · rintro ⟨hvalid, rfl⟩
    exact ⟨hvalid, rfl⟩

/-- What an accepted order of the projection says of its items. -/
theorem projectionOrderIsValid_iff :
    projectionOrderIsValid projected planId marketDate connectionEpochs = true ↔
      connectionEpochs ≠ [] ∧ connectionEpochs.Nodup ∧
      (∀ item ∈ projected, item.planId = planId ∧ item.marketDate = marketDate) ∧
      (∀ item ∈ projected, item.connectionEpoch ∈ connectionEpochs) ∧
      (projected.map (·.eventId)).Nodup ∧
      (projected.map (orderKey connectionEpochs)).Pairwise (· < ·) := by
  rw [projectionOrderIsValid, decide_eq_true_eq, ← sortedSet_eq_self_iff,
    eq_comm (a := sortedSet _)]
  push Not
  rfl

/-- An accepted order is one of the times of receipt. -/
theorem pairwise_receivedAt
    (h : projectionOrderIsValid projected planId marketDate connectionEpochs = true) :
    projected.Pairwise fun item item' => item.receivedAt ≤ item'.receivedAt := by
  obtain ⟨-, -, -, -, -, hkeys⟩ := projectionOrderIsValid_iff.1 h
  refine (List.pairwise_map.1 hkeys).imp fun hlt => ?_
  rcases Prod.Lex.lt_iff.1 hlt with hlt | ⟨heq, -⟩
  · exact le_of_lt (α := ℤ) hlt
  · exact le_of_eq (α := ℤ) heq

theorem receivedAsOf_append_late
    (h : projectionOrderIsValid projected planId marketDate connectionEpochs = true) :
    receivedAsOf asOf projected ++ projected.filter (fun item => !(item.receivedAt ≤ asOf)) =
      projected := by
  refine filter_append_filter_not ((pairwise_receivedAt h).imp fun hle hlate => ?_)
  exact decide_eq_true (le_trans (α := ℤ) hle (of_decide_eq_true hlate))

/-- What the loop reports is the state after the messages received until then. -/
theorem loop_asOf (h : projectionOrderIsValid projected planId marketDate connectionEpochs = true)
    (hloop : projected.foldlM (Materialization.step validateJson asOf) .empty = some m) :
    ∃ state, TradeState.empty.applyAll
        (tradeItems validateJson (receivedAsOf asOf projected)) = some state ∧
      m.activeAsOf = state.active ∧
      m.observed = (tradeItems validateJson (receivedAsOf asOf projected)).length := by
  have hobserved := (loop_eq_some hloop).2.2.1
  rw [← @receivedAsOf_append_late asOf _ _ _ _ h, List.foldlM_append] at hloop
  obtain ⟨m₀, hearly, hlate⟩ := Option.bind_eq_some_iff.1 hloop
  have hactive : m₀.activeAsOf = m₀.state.active := by
    refine loop_activeAsOf_of_early (fun item hitem => ?_) rfl hearly
    exact of_decide_eq_true (List.mem_filter.1 hitem).2
  have hlast : m.activeAsOf = m₀.activeAsOf := by
    refine loop_activeAsOf_of_late (fun item hitem => ?_) hlate
    simpa using (List.mem_filter.1 hitem).2
  exact ⟨m₀.state, (loop_eq_some hearly).1, hlast.trans hactive,
    hobserved.trans (Nat.zero_add _)⟩

theorem exists_state_asOf (h : materializeProjectedTradesAsOf validateJson projected planId
      marketDate connectionEpochs asOf = some r) :
    ∃ state, TradeState.empty.applyAll
        (tradeItems validateJson (receivedAsOf asOf projected)) = some state ∧
      r.activeTrades = state.active ∧
      r.observedTradeMessageCount =
        (tradeItems validateJson (receivedAsOf asOf projected)).length := by
  obtain ⟨-, horder, m, hloop, -, rfl⟩ := materialize_eq_some.1 h
  exact loop_asOf horder hloop

/-- The state after the messages received until some time is what they mean. -/
theorem agrees_asOf {state : TradeState}
    (h : projectionOrderIsValid projected planId marketDate connectionEpochs = true)
    (hstate : TradeState.empty.applyAll
      (tradeItems validateJson (receivedAsOf asOf projected)) = some state) :
    Agrees (firstsBy (·.projected.contentSha256)
      (tradeItems validateJson (receivedAsOf asOf projected))) state := by
  refine agrees_applyAll ?_ hstate
  obtain ⟨-, -, -, -, hids, -⟩ := projectionOrderIsValid_iff.1 h
  have hsub := (@tradeItems_sublist validateJson (receivedAsOf asOf projected)).trans
    List.filter_sublist
  have hids := hids.sublist (hsub.map _)
  rwa [List.map_map] at hids

theorem Agrees.pairwise_active {items : List TradeItem} {state : TradeState}
    (h : Agrees items state) :
    state.active.Pairwise fun t t' => t.rootEventId < t'.rootEventId :=
  pairwise_insertionSort_of_key h.nodup_roots

/-- What it takes to report the trades as of some time, besides the order of the items. -/
theorem exists_materialize (haware : asOf.aware = true)
    (h : projectionOrderIsValid projected planId marketDate connectionEpochs = true)
    (hplan : planId.length = 64) (hepochs : ∀ epoch ∈ connectionEpochs, epoch.length = 32)
    (hparse : ∀ item ∈ projected, (parseProjected validateJson item).isSome = true)
    (happly : (TradeState.empty.applyAll (tradeItems validateJson projected)).isSome = true) :
    ∃ r, materializeProjectedTradesAsOf validateJson projected planId marketDate
      connectionEpochs asOf = some r := by
  obtain ⟨m, hloop⟩ := @exists_loop_eq_some validateJson asOf _ .empty hparse happly
  obtain ⟨hne, hnodup, -⟩ := projectionOrderIsValid_iff.1 h
  obtain ⟨state, hstate, hactive, hobserved⟩ := loop_asOf h hloop
  obtain ⟨-, hvalidated, -, hduplicates⟩ := loop_eq_some hloop
  have hsorted : m.activeAsOf =
      m.activeAsOf.insertionSort fun t t' => t.rootEventId ≤ t'.rootEventId := by
    rw [hactive]
    have hle := (agrees_asOf h hstate).pairwise_active.imp fun h => h.le
    exact hle.insertionSort_eq.symm
  have hle : (tradeItems validateJson (receivedAsOf asOf projected)).length ≤
      (tradeItems validateJson projected).length :=
    (List.filter_sublist.filterMap _).length_le
  refine ⟨_, materialize_eq_some.2 ⟨haware, h, m, hloop, ?_, rfl⟩⟩
  have hempty : Materialization.empty.validated = 0 ∧ Materialization.empty.duplicates = 0 :=
    ⟨rfl, rfl⟩
  simp only [DynamicTradeState.isValid, decide_eq_true_eq, not_or, not_not, not_exists, not_and]
  refine ⟨hplan, hne, hepochs, hnodup, Bool.true_eq_false_eq_False, ?_, ?_, hsorted⟩
  · omega
  · omega

/-! ## Repeated messages -/

/-- Where the payloads of items are the same, so are their digests, and nowhere else. -/
def DigestsSeparate (projected : List ProjectedMarketMessage) : Prop :=
  ∀ item ∈ projected, ∀ item' ∈ projected,
    item.contentSha256 = item'.contentSha256 ↔ item.payload = item'.payload

theorem DigestsSeparate.firstsBy_eq (h : DigestsSeparate projected) :
    firstsBy (·.projected.contentSha256) (tradeItems validateJson (receivedAsOf asOf projected)) =
      firstsBy (·.projected.payload) (tradeItems validateJson (receivedAsOf asOf projected)) := by
  have hmem : ∀ item ∈ tradeItems validateJson (receivedAsOf asOf projected),
      item.projected ∈ projected := fun item hitem =>
    ((tradeItems_sublist _).trans List.filter_sublist).subset (List.mem_map_of_mem hitem)
  exact firstsBy_congr _ fun a ha b hb => h _ (hmem a ha) _ (hmem b hb)

theorem projectionOrderIsValid_sublist {fewer : List ProjectedMarketMessage}
    (h : projectionOrderIsValid projected planId marketDate connectionEpochs = true)
    (hsub : fewer.Sublist projected) :
    projectionOrderIsValid fewer planId marketDate connectionEpochs = true := by
  obtain ⟨hne, hnodup, hplan, hepoch, hids, hkeys⟩ := projectionOrderIsValid_iff.1 h
  exact projectionOrderIsValid_iff.2 ⟨hne, hnodup, fun item hitem => hplan item (hsub.subset hitem),
    fun item hitem => hepoch item (hsub.subset hitem), hids.sublist (hsub.map _),
    hkeys.sublist (hsub.map _)⟩

variable {earlier later : List ProjectedMarketMessage} {item item' : ProjectedMarketMessage}

/-- A message may be left out, if its payload is that of an earlier one. -/
theorem applyAll_tradeItems_repeated {state : TradeState}
    (h : TradeState.empty.applyAll
      (tradeItems validateJson (earlier ++ item :: later)) = some state)
    (hparse : ∀ item ∈ earlier, (parseProjected validateJson item).isSome = true)
    (hitem' : item' ∈ earlier) (hpayload : item'.payload = item.payload)
    (hdigest : item'.contentSha256 = item.contentSha256) :
    TradeState.empty.applyAll (tradeItems validateJson (earlier ++ later)) = some state := by
  rw [tradeItems, List.filterMap_append, ← tradeItems, ← tradeItems] at h ⊢
  cases htrade : tradeItem validateJson item with
  | none => rwa [tradeItems_cons_of_none htrade] at h
  | some trade =>
    rw [tradeItems_cons_of_some htrade] at h
    refine TradeState.applyAll_repeated h ?_
    -- The earlier item is the same message.
    rw [tradeItem_projected htrade, ← hdigest]
    obtain ⟨message, hmessage⟩ := Option.isSome_iff_exists.1 (hparse item' hitem')
    have hsame : ∀ m m', parseProjected validateJson item = some m →
        parseProjected validateJson item' = some m' → m = m' := by
      intro m m' hm hm'
      rw [parseProjected] at hm hm'
      rw [hpayload] at hm'
      split at hm
      · rename_i hframe
        rw [hframe] at hm'
        dsimp only at hm'
        split_ifs at hm hm'
        exact Option.some_inj.1 (hm.symm.trans hm')
      · exact absurd hm.symm (Option.some_ne_none m)
    have htrade' : ∃ trade', tradeItem validateJson item' = some trade' := by
      rw [tradeItem] at htrade
      split at htrade
      · rename_i wire hwire
        rw [tradeItem, hmessage, ← hsame _ _ hwire hmessage]
        exact ⟨_, rfl⟩
      · exact absurd htrade.symm (Option.some_ne_none trade)
    obtain ⟨trade', htrade'⟩ := htrade'
    refine List.mem_map.2 ⟨trade', List.mem_filterMap.2 ⟨item', hitem', htrade'⟩, ?_⟩
    rw [tradeItem_projected htrade']

/-- The trades are reported as before, if a message is left out whose payload is that of an
    earlier one. -/
theorem materialize_repeated (hdigests : DigestsSeparate (earlier ++ item :: later))
    (h : materializeProjectedTradesAsOf validateJson (earlier ++ item :: later) planId marketDate
      connectionEpochs asOf = some r)
    (hitem' : item' ∈ earlier) (hpayload : item'.payload = item.payload) :
    ∃ r', materializeProjectedTradesAsOf validateJson (earlier ++ later) planId marketDate
      connectionEpochs asOf = some r' ∧ r'.activeTrades = r.activeTrades := by
  obtain ⟨haware, horder, m, hloop, hvalid, rfl⟩ := materialize_eq_some.1 h
  have hparse := parse_of_loop hloop
  have hdigest : item'.contentSha256 = item.contentSha256 :=
    (hdigests _ (List.mem_append_left _ hitem') _
      (List.mem_append_right _ List.mem_cons_self)).2 hpayload
  have hsub : (earlier ++ later).Sublist (earlier ++ item :: later) :=
    (List.sublist_cons_self item later).append_left earlier
  have hstate := applyAll_tradeItems_repeated (loop_eq_some hloop).1
    (fun item hitem => hparse item (List.mem_append_left _ hitem)) hitem' hpayload hdigest
  simp only [DynamicTradeState.isValid, decide_eq_true_eq, not_or, not_not, not_exists,
    not_and] at hvalid
  obtain ⟨hplan, -, hepochs, -⟩ := hvalid
  obtain ⟨r', hr'⟩ := @exists_materialize _ _ _ _ _ _ haware
    (projectionOrderIsValid_sublist horder hsub) hplan hepochs
    (fun item hitem => hparse item (hsub.subset hitem)) (Option.isSome_iff_exists.2 ⟨_, hstate⟩)
  refine ⟨r', hr', ?_⟩
  obtain ⟨state, hearly, hactive, -⟩ := loop_asOf horder hloop
  obtain ⟨state', hearly', hactive', -⟩ := exists_state_asOf hr'
  suffices hsuff : TradeState.empty.applyAll
      (tradeItems validateJson (receivedAsOf asOf (earlier ++ later))) = some state by
    rw [hsuff] at hearly'
    rw [hactive', ← Option.some_inj.1 hearly']
    exact hactive.symm
  rw [receivedAsOf, List.filter_append, ← receivedAsOf, ← receivedAsOf] at hearly ⊢
  rw [receivedAsOf_cons] at hearly
  split_ifs at hearly with hitem
  · -- The earlier message was received by then as well.
    have hle := (List.pairwise_append.1 (pairwise_receivedAt horder)).2.2 item' hitem' item
      List.mem_cons_self
    have hearlier : item' ∈ receivedAsOf asOf earlier :=
      List.mem_filter.2 ⟨hitem', decide_eq_true (le_trans (α := ℤ) hle hitem)⟩
    exact applyAll_tradeItems_repeated hearly
      (fun item hitem => hparse item (List.mem_append_left _ (List.mem_filter.1 hitem).1))
      hearlier hpayload hdigest
  · exact hearly

/-! ## The reference -/

/-- The trade messages received until some time, each of them once. -/
def messagesAsOf (validateJson : JsonReader) (asOf : DateTime)
    (projected : List ProjectedMarketMessage) : List TradeItem :=
  firstsBy (·.projected.payload) (tradeItems validateJson (receivedAsOf asOf projected))

/-- What is reported is what the messages received until then mean: each original trade that was
    not cancelled is reported once, with its current figures, and there is nothing else. -/
structure IsMeaning (validateJson : JsonReader) (asOf : DateTime)
    (projected : List ProjectedMarketMessage) (r : DynamicTradeState) : Prop where
  sorted : r.activeTrades.Pairwise fun t t' => t.rootEventId < t'.rootEventId
  mem_iff : ∀ t, t ∈ r.activeTrades ↔
    ∃ o ∈ originals (messagesAsOf validateJson asOf projected),
      ¬ IsCancelled (messagesAsOf validateJson asOf projected) o ∧
      current (messagesAsOf validateJson asOf projected) o = t
  once : ∀ o ∈ originals (messagesAsOf validateJson asOf projected),
    ¬ IsCancelled (messagesAsOf validateJson asOf projected) o →
      r.activeTrades.count (current (messagesAsOf validateJson asOf projected) o) = 1
  observed : r.observedTradeMessageCount =
    (tradeItems validateJson (receivedAsOf asOf projected)).length

theorem isMeaning_materialize (hdigests : DigestsSeparate projected)
    (h : materializeProjectedTradesAsOf validateJson projected planId marketDate
      connectionEpochs asOf = some r) : IsMeaning validateJson asOf projected r := by
  obtain ⟨-, horder, -⟩ := materialize_eq_some.1 h
  obtain ⟨state, hstate, hactive, hobserved⟩ := exists_state_asOf h
  have hagrees := agrees_asOf horder hstate
  rw [hdigests.firstsBy_eq, ← messagesAsOf] at hagrees
  have hmem : ∀ t, t ∈ r.activeTrades ↔ t ∈ state.roots := by
    rw [hactive]
    exact fun t => List.mem_insertionSort _
  have hsorted := hagrees.pairwise_active
  rw [← hactive] at hsorted
  have hnodup : r.activeTrades.Nodup := by
    refine hsorted.imp fun hlt heq => ?_
    exact absurd (heq ▸ hlt) (lt_irrefl _)
  exact ⟨hsorted, fun t => (hmem t).trans (hagrees.mem_roots t),
    fun o ho hcancelled => List.count_eq_one_of_mem hnodup
      ((hmem _).2 ((hagrees.mem_roots _).2 ⟨o, ho, hcancelled, rfl⟩)), hobserved⟩

/-- The trades reported as of some time are those that the messages received until then mean. A
    message that repeats the payload of an earlier one changes nothing about them, and neither do
    the messages received later. -/
theorem materialize_reference (hdigests : DigestsSeparate projected)
    (h : materializeProjectedTradesAsOf validateJson projected planId marketDate
      connectionEpochs asOf = some r) :
    IsMeaning validateJson asOf projected r ∧
    (∀ earlier item later, projected = earlier ++ item :: later →
      (∃ item' ∈ earlier, item'.payload = item.payload) →
      ∃ r', materializeProjectedTradesAsOf validateJson (earlier ++ later) planId marketDate
        connectionEpochs asOf = some r' ∧ r'.activeTrades = r.activeTrades) ∧
    (∀ projected' planId' marketDate' connectionEpochs' r',
      materializeProjectedTradesAsOf validateJson projected' planId' marketDate'
        connectionEpochs' asOf = some r' →
      receivedAsOf asOf projected' = receivedAsOf asOf projected →
      r'.activeTrades = r.activeTrades ∧
        r'.observedTradeMessageCount = r.observedTradeMessageCount) := by
  refine ⟨isMeaning_materialize hdigests h, ?_, ?_⟩
  · rintro earlier item later rfl ⟨item', hitem', hpayload⟩
    exact materialize_repeated hdigests h hitem' hpayload
  · intro projected' planId' marketDate' connectionEpochs' r' h' hreceived
    obtain ⟨state, hstate, hactive, hobserved⟩ := exists_state_asOf h
    obtain ⟨state', hstate', hactive', hobserved'⟩ := exists_state_asOf h'
    rw [hreceived] at hstate' hobserved'
    obtain rfl := Option.some_inj.1 (hstate.symm.trans hstate')
    exact ⟨hactive'.trans hactive.symm, hobserved'.trans hobserved.symm⟩

/-! A trade that is corrected, another one that is cancelled by its corrected identifier, and a
    correction that is received twice. -/

namespace TradeSample

/-- The 15th of July 2026, from half past two in UTC. -/
def clock (seconds : ℤ) : DateTime := ⟨(Date.ofCivil 2026 7 15).start + TimeDelta.hours 14 +
  TimeDelta.minutes 30 + TimeDelta.seconds seconds, some 0⟩

def original : TradeMessage := ⟨"AAPL", 1, "Q", 10, 100, ["@"], clock 0, "C"⟩
def corrected : CorrectionMessage := ⟨"AAPL", "Q", 1, 10, 100, ["@"], 2, 11, 90, ["I"], clock 1, "C"⟩
def other : TradeMessage := ⟨"AAPL", 5, "Q", 12, 200, [], clock 2, "C"⟩
def renamed : CorrectionMessage := ⟨"AAPL", "Q", 5, 12, 200, [], 6, 13, 200, [], clock 3, "C"⟩
def cancelled : CancelMessage := ⟨"AAPL", 6, "Q", 13, 200, true, clock 4, "C"⟩

def originalText : String := "\x7b\"T\":\"t\",\"S\":\"AAPL\",\"i\":1,\"x\":\"Q\",\"p\":\"10\"," ++
  "\"s\":100,\"c\":[\"@\"],\"t\":\"2026-07-15T14:30:00Z\",\"z\":\"C\"\x7d"
def correctedText : String := "\x7b\"T\":\"c\",\"S\":\"AAPL\",\"x\":\"Q\",\"oi\":1,\"op\":\"10\"," ++
  "\"os\":100,\"oc\":[\"@\"],\"ci\":2,\"cp\":\"11\",\"cs\":90,\"cc\":[\"I\"]," ++
  "\"t\":\"2026-07-15T14:30:01Z\",\"z\":\"C\"\x7d"
def otherText : String := "\x7b\"T\":\"t\",\"S\":\"AAPL\",\"i\":5,\"x\":\"Q\",\"p\":\"12\"," ++
  "\"s\":200,\"c\":[],\"t\":\"2026-07-15T14:30:02Z\",\"z\":\"C\"\x7d"
def renamedText : String := "\x7b\"T\":\"c\",\"S\":\"AAPL\",\"x\":\"Q\",\"oi\":5,\"op\":\"12\"," ++
  "\"os\":200,\"oc\":[],\"ci\":6,\"cp\":\"13\",\"cs\":200,\"cc\":[]," ++
  "\"t\":\"2026-07-15T14:30:03Z\",\"z\":\"C\"\x7d"
def cancelledText : String := "\x7b\"T\":\"x\",\"S\":\"AAPL\",\"i\":6,\"x\":\"Q\",\"p\":\"13\"," ++
  "\"s\":200,\"a\":\"C\",\"t\":\"2026-07-15T14:30:04Z\",\"z\":\"C\"\x7d"

/-- The messages that the texts are. -/
def reader : JsonReader := fun text =>
  (([(originalText, .trade (.trade original)), (correctedText, .trade (.correction corrected)),
      (otherText, .trade (.trade other)), (renamedText, .trade (.correction renamed)),
      (cancelledText, .trade (.cancel cancelled))] : List (String × DynamicWireMessage)).find?
    fun row => text = "[" ++ row.1 ++ "]").map fun row => [row.2]

def hexId (digit : Char) (length : ℕ) : String := String.ofList (List.replicate length digit)

theorem isHex64_hexId {digit : Char}
    (h : (digit.isDigit || ('a' ≤ digit && digit ≤ 'f')) = true) :
    isHex64 (hexId digit 64) = true := by
  simp [isHex64, hexId, h]

def message (sequence : ℕ) (digit digest : Char) (kind : DynamicMarketKind) (seconds : ℤ)
    (payload : String) (hdigits : ∀ c ∈ [digit, digest, 'e', 'f'],
      (c.isDigit || ('a' ≤ c && c ≤ 'f')) = true)
    (htime : clock seconds ≤ clock (sequence + 4)) (hpayload : payload ≠ "") : ProjectedMarketMessage where
  eventId := hexId digit 64
  contentSha256 := hexId digest 64
  rawReceiptId := hexId 'e' 64
  planId := hexId 'f' 64
  connectionEpoch := hexId 'a' 32
  sequence := sequence + 4
  messageIndex := 0
  marketDate := Date.ofCivil 2026 7 15
  instrumentId := "us:aapl"
  symbol := "AAPL"
  kind := kind
  eventTime := clock seconds
  receivedAt := clock (sequence + 4)
  payload := payload
  isHex64_ids value hvalue := by
    change value ∈ [digit, digest, 'e', 'f'].map fun c => hexId c 64 at hvalue
    obtain ⟨c, hc, rfl⟩ := List.mem_map.1 hvalue
    exact isHex64_hexId (hdigits c hc)
  isEpoch_connectionEpoch := by decide +kernel
  four_le_sequence := by omega
  messageIndex_nonneg := le_rfl
  isInstrument_instrumentId := by decide +kernel
  isSymbol_symbol := by decide +kernel
  aware_times := ⟨rfl, rfl⟩
  eventTime_le := htime
  payload_ne := hpayload

def stream : List ProjectedMarketMessage :=
  [message 0 '0' '0' .trade 0 originalText (by simp) (by decide) (by decide),
    message 1 '1' '1' .correction 1 correctedText (by simp) (by decide) (by decide),
    message 2 '2' '2' .trade 2 otherText (by simp) (by decide) (by decide),
    message 3 '3' '3' .correction 3 renamedText (by simp) (by decide) (by decide),
    message 4 '4' '1' .correction 1 correctedText (by simp) (by decide) (by decide),
    message 5 '5' '4' .cancel 4 cancelledText (by simp) (by decide) (by decide)]

theorem digestsSeparate_stream : DigestsSeparate stream := by
  unfold DigestsSeparate
  decide +kernel

end TradeSample

open TradeSample in
/-- The trades of the sample as of a minute later: the first one, as corrected. -/
theorem materialize_reference_sample :
    ∃ r, materializeProjectedTradesAsOf reader stream (hexId 'f' 64) (Date.ofCivil 2026 7 15)
        [hexId 'a' 32] (clock 60) = some r ∧
      r.activeTrades.map (fun t => (t.currentTradeId, t.price)) = [(2, 11)] ∧
      IsMeaning reader (clock 60) stream r := by
  have hreport : (materializeProjectedTradesAsOf reader stream (hexId 'f' 64)
      (Date.ofCivil 2026 7 15) [hexId 'a' 32] (clock 60)).map (fun r =>
        r.activeTrades.map fun t => (t.currentTradeId, t.price)) = some [(2, 11)] := by
    decide +kernel
  obtain ⟨r, hr, hactive⟩ := Option.map_eq_some_iff.1 hreport
  exact ⟨r, hr, hactive, (materialize_reference digestsSeparate_stream hr).1⟩

end TradingAgent.Sip
