import TradingAgent.CanonicalEvent.History

/-!
# Histories in order

* The events can be replayed exactly if each correction comes, in the order of the events, after
  what it corrects (`validateCompleteChain_iff`), and then those that are active are the ones that
  nothing has superseded (`materialize_eq`).
* The order is that of the times, which no correction reverses. But a correction may have the times
  of what it corrects: then the identities decide. A history is replayed as it should be exactly if
  in each such case they are in the right order (`isCausal_iff`).
-/

namespace TradingAgent.CanonicalEvent

open Supersession

variable {events l : List CanonicalEventEnvelope} {e f t : CanonicalEventEnvelope} {asOf : DateTime}

/-! ## The passes -/

/-- What a correction requires of what it corrects. -/
def Corrects (target event : CanonicalEventEnvelope) : Prop :=
  sameIdentity target event = true ∧ target.receivedAt ≤ event.receivedAt ∧
    target.normalizedAt ≤ event.normalizedAt ∧ target.operation ≠ .tombstone

/-- Each event that corrects another one comes after it. -/
abbrev InOrder (l : List CanonicalEventEnvelope) : Prop :=
  IsReplayable (·.eventId) (·.correctionOf) Corrects l

/-- The events that nothing has superseded or taken back. -/
def activeOf (l : List CanonicalEventEnvelope) : List CanonicalEventEnvelope :=
  l.filter fun e => e.operation ≠ .tombstone ∧ isSuperseded (·.correctionOf) l e.eventId = false

theorem mem_activeOf : e ∈ activeOf l ↔ e ∈ l ∧ e.operation ≠ .tombstone ∧
    isSuperseded (·.correctionOf) l e.eventId = false := by
  rw [activeOf, List.mem_filter, decide_eq_true_eq]

/-- An event that corrects nothing is active, as long as nothing has corrected it. -/
theorem activeOf_concat_of_original (hnew : ∀ f ∈ l, f.correctionOf ≠ some e.eventId)
    (hnone : e.correctionOf = none) (hoperation : e.operation ≠ .tombstone) :
    activeOf (l ++ [e]) = activeOf l ++ [e] := by
  have hsame : ∀ k, isSuperseded (·.correctionOf) (l ++ [e]) k = isSuperseded (·.correctionOf) l k := by
    intro k
    rw [isSuperseded_concat, hnone, decide_eq_false (Option.some_ne_none k).symm, Bool.or_false]
  have hfree : isSuperseded (·.correctionOf) l e.eventId = false := by
    rw [← Bool.not_eq_true, isSuperseded_iff]
    exact fun ⟨f, hf, htarget⟩ => hnew f hf htarget
  rw [activeOf, List.filter_append, List.filter_singleton, hsame, hfree,
    decide_eq_true ⟨hoperation, rfl⟩]
  simp only [hsame, cond_true]
  rfl

/-- An event that corrects another one takes its place. -/
theorem activeOf_concat_of_correction (hnew : ∀ f ∈ l, f.correctionOf ≠ some e.eventId)
    {target : String} (htarget : e.correctionOf = some target) (hself : target ≠ e.eventId) :
    activeOf (l ++ [e]) = (activeOf l).filter (·.eventId ≠ target) ++
      if e.operation = .tombstone then [] else [e] := by
  have hfree : isSuperseded (·.correctionOf) (l ++ [e]) e.eventId = false := by
    rw [isSuperseded_concat, htarget, decide_eq_false (hself ∘ Option.some.inj), Bool.or_false,
      ← Bool.not_eq_true, isSuperseded_iff]
    exact fun ⟨f, hf, hcorrects⟩ => hnew f hf hcorrects
  rw [activeOf, List.filter_append, activeOf, List.filter_filter]
  congr 1
  · refine List.filter_congr fun f _ => ?_
    rw [isSuperseded_concat, htarget, Bool.eq_iff_iff]
    simp only [decide_eq_true_eq, Bool.and_eq_true, Bool.or_eq_false_iff, decide_eq_false_iff_not,
      Option.some_inj, ne_eq, eq_comm (a := target)]
    tauto
  · rw [List.filter_singleton, hfree]
    by_cases hoperation : e.operation = .tombstone <;> simp [hoperation]

/-- What is required of the next event. -/
def ComesNext (l : List CanonicalEventEnvelope) (event : CanonicalEventEnvelope) : Prop :=
  ∀ k, event.correctionOf = some k →
    (∃ t ∈ l, t.eventId = k ∧ Corrects t event) ∧ isSuperseded (·.correctionOf) l k = false

theorem eventId_mem_map_activeOf (hids : (l.map (·.eventId)).Nodup) (ht : t ∈ l) :
    t.eventId ∈ (activeOf l).map (·.eventId) ↔
      t.operation ≠ .tombstone ∧ isSuperseded (·.correctionOf) l t.eventId = false := by
  refine ⟨fun h => ?_, fun h => List.mem_map_of_mem (mem_activeOf.2 ⟨ht, h⟩)⟩
  obtain ⟨a, ha, hid⟩ := List.mem_map.1 h
  obtain ⟨hmem, hactive⟩ := mem_activeOf.1 ha
  exact List.inj_on_of_nodup_map hids hmem ht hid ▸ hactive

section Step

variable (hevent : e.validateEvent = true) (hids : ((l ++ [e]).map (·.eventId)).Nodup)
include hevent

/-- A correction does not name itself. -/
theorem target_ne_self {k : String} (h : e.correctionOf = some k) : k ≠ e.eventId := by
  have hvalid := CanonicalEventEnvelope.correctionIsValid_of_valid hevent
  rw [CanonicalEventEnvelope.correctionIsValid, h] at hvalid
  cases hop : e.operation with
  | original =>
    rw [hop] at hvalid
    exact absurd hvalid Bool.false_ne_true
  | correction | tombstone =>
    rw [hop, Option.any_some, Bool.and_eq_true, decide_eq_true_eq] at hvalid
    exact hvalid.2

include hids

theorem activeOf_concat (hnext : InOrder (l ++ [e])) :
    activeOf (l ++ [e]) =
      (activeOf l).filter (e.correctionOf ≠ some ·.eventId) ++
        if e.operation = .tombstone then [] else [e] := by
  have hnew := hnext.target_ne hids
  cases htarget : e.correctionOf with
  | none =>
    have hop : e.operation ≠ .tombstone := by
      intro hop
      obtain ⟨k, hk⟩ := CanonicalEventEnvelope.exists_correctionOf hevent (by rw [hop]; nofun)
      rw [htarget] at hk
      cases hk
    rw [activeOf_concat_of_original hnew htarget hop, if_neg hop]
    simp
  | some k =>
    rw [activeOf_concat_of_correction hnew htarget (target_ne_self hevent htarget)]
    simp [eq_comm]

/-- The first pass takes the next event exactly if it comes next. -/
theorem validateStep_of_comesNext (hl : InOrder l) (hnext : ComesNext l e) :
    validateStep ⟨l, (activeOf l).map (·.eventId)⟩ e =
      some ⟨l ++ [e], (activeOf (l ++ [e])).map (·.eventId)⟩ := by
  have hboth : InOrder (l ++ [e]) := isReplayable_concat.2 ⟨hl, hnext⟩
  rw [validateStep, activeOf_concat hevent hids hboth]
  by_cases hop : e.operation = .original
  · rw [if_pos hop, CanonicalEventEnvelope.correctionOf_of_original hevent hop, hop]
    simp
  · obtain ⟨k, hk⟩ := CanonicalEventEnvelope.exists_correctionOf hevent hop
    obtain ⟨⟨t, ht, rfl, hcorrects⟩, hfree⟩ := hnext k hk
    rw [List.map_append, List.nodup_append] at hids
    have hfind := find?_key_of_mem hids.1 ht
    have hactive := (eventId_mem_map_activeOf hids.1 ht).2 ⟨hcorrects.2.2.2, hfree⟩
    have htimes : ¬ (e.receivedAt < t.receivedAt ∨ e.normalizedAt < t.normalizedAt) :=
      not_or.2 ⟨Int.not_lt.2 hcorrects.2.1, Int.not_lt.2 hcorrects.2.2.1⟩
    rw [if_neg hop, hk, Option.getD_some]
    dsimp only
    rw [hfind]
    dsimp only
    rw [if_neg (not_or.2 ⟨not_not.2 hactive, not_not.2 hcorrects.1⟩), if_neg htimes]
    cases hkind : e.operation with
    | original => exact absurd hkind hop
    | correction => simp [List.filter_map, Function.comp_def, eq_comm]
    | tombstone => simp [List.filter_map, Function.comp_def, eq_comm]

theorem comesNext_of_validateStep {state : ChainState}
    (h : validateStep ⟨l, (activeOf l).map (·.eventId)⟩ e = some state) : ComesNext l e := by
  intro k hk
  have hop : e.operation ≠ .original := by
    intro hop
    rw [CanonicalEventEnvelope.correctionOf_of_original hevent hop] at hk
    cases hk
  rw [validateStep, if_neg hop, hk, Option.getD_some] at h
  cases hfind : l.find? (·.eventId = k) with
  | none =>
    rw [hfind] at h
    cases h
  | some t =>
    obtain ⟨ht, rfl⟩ := find?_key_eq_some hfind
    rw [hfind] at h
    dsimp only at h
    rw [List.map_append, List.nodup_append] at hids
    by_cases hactive : t.eventId ∉ (activeOf l).map (·.eventId) ∨ ¬ sameIdentity t e = true
    · rw [if_pos hactive] at h
      cases h
    by_cases htimes : e.receivedAt < t.receivedAt ∨ e.normalizedAt < t.normalizedAt
    · rw [if_neg hactive, if_pos htimes] at h
      cases h
    rw [not_or, not_not, not_not, eventId_mem_map_activeOf hids.1 ht] at hactive
    rw [not_or] at htimes
    exact ⟨⟨t, ht, rfl, hactive.2, Int.not_lt.1 htimes.1, Int.not_lt.1 htimes.2, hactive.1.1⟩,
      hactive.1.2⟩

end Step

/-- The first pass goes through exactly if the events are in order. -/
theorem validateCompleteChain_iff (hvalid : ∀ e ∈ l, e.validateEvent = true)
    (hids : (l.map (·.eventId)).Nodup) :
    (InOrder l → validateCompleteChain l = some ⟨l, (activeOf l).map (·.eventId)⟩) ∧
      (validateCompleteChain l ≠ none → InOrder l) := by
  induction l using List.reverseRecOn with
  | nil => exact ⟨fun _ => rfl, fun _ => isReplayable_nil⟩
  | append_singleton l e ih =>
    have hnodup : (l.map (·.eventId)).Nodup := by
      rw [List.map_append, List.nodup_append] at hids
      exact hids.1
    have he := hvalid e (List.mem_append_right l List.mem_cons_self)
    obtain ⟨hpass, horder⟩ := ih (fun f hf => hvalid f (List.mem_append_left _ hf)) hnodup
    have hstep : validateCompleteChain (l ++ [e]) =
        (validateCompleteChain l).bind fun state => validateStep state e := by
      rw [validateCompleteChain, List.foldlM_append, validateCompleteChain]
      simp only [List.foldlM_cons, List.foldlM_nil, bind_pure]
      rfl
    rw [hstep]
    refine ⟨fun h => ?_, fun h => ?_⟩
    · obtain ⟨hl, hnext⟩ := isReplayable_concat.1 h
      rw [hpass hl]
      exact validateStep_of_comesNext he hids hl hnext
    · cases hfirst : validateCompleteChain l with
      | none =>
        rw [hfirst] at h
        exact absurd rfl h
      | some state =>
        have hl := horder (by rw [hfirst]; exact Option.some_ne_none state)
        obtain rfl := Option.some.inj (hfirst.symm.trans (hpass hl))
        rw [hfirst, Option.bind_some, Option.ne_none_iff_exists'] at h
        obtain ⟨next, hnext⟩ := h
        exact isReplayable_concat.2 ⟨hl, comesNext_of_validateStep he hids hnext⟩

/-- The second pass collects the active events. -/
theorem materialize_pass (hvalid : ∀ e ∈ l, e.validateEvent = true)
    (hids : (l.map (·.eventId)).Nodup) (h : InOrder l) :
    ∃ state, l.foldlM materializeStep {} = some state ∧ state.active = activeOf l ∧
      ∀ e ∈ l, state.roots.lookup e.eventId ≠ none := by
  induction l using List.reverseRecOn with
  | nil => exact ⟨{}, rfl, rfl, List.forall_mem_nil _⟩
  | append_singleton l e ih =>
    have hnodup : (l.map (·.eventId)).Nodup := by
      rw [List.map_append, List.nodup_append] at hids
      exact hids.1
    have he := hvalid e (List.mem_append_right l List.mem_cons_self)
    obtain ⟨hl, hnext⟩ := isReplayable_concat.1 h
    obtain ⟨state, hpass, hactive, hroots⟩ :=
      ih (fun f hf => hvalid f (List.mem_append_left _ hf)) hnodup hl
    -- Every event has a root: those before, and the one that is added.
    have hlookup : ∀ root, ∀ f ∈ l ++ [e],
        (state.roots ++ [(e.eventId, root)]).lookup f.eventId ≠ none := by
      intro root f hf
      rw [List.lookup_append]
      rcases List.mem_append.1 hf with hold | hlast
      · obtain ⟨r, hr⟩ := Option.ne_none_iff_exists'.1 (hroots f hold)
        rw [hr, Option.some_or]
        exact Option.some_ne_none r
      · obtain rfl := List.mem_singleton.1 hlast
        rw [List.lookup_cons_self, Option.or_some]
        exact Option.some_ne_none _
    have hstep : (l ++ [e]).foldlM materializeStep {} = materializeStep state e := by
      rw [List.foldlM_append, hpass]
      simp only [List.foldlM_cons, List.foldlM_nil, bind_pure]
      rfl
    rw [hstep, activeOf_concat he hids h, materializeStep, hactive]
    by_cases hop : e.operation = .original
    · rw [if_pos hop]
      refine ⟨_, rfl, ?_, hlookup e.eventId⟩
      rw [CanonicalEventEnvelope.correctionOf_of_original he hop, hop]
      simp
    · obtain ⟨k, hk⟩ := CanonicalEventEnvelope.exists_correctionOf he hop
      obtain ⟨⟨t, ht, rfl, hcorrects⟩, hfree⟩ := hnext k hk
      have hmem := (eventId_mem_map_activeOf hnodup ht).2 ⟨hcorrects.2.2.2, hfree⟩
      obtain ⟨root, hroot⟩ := Option.ne_none_iff_exists'.1 (hroots t ht)
      rw [if_neg hop, hk]
      dsimp only
      rw [if_neg (not_not.2 hmem), hroot, Option.bind_some]
      cases hkind : e.operation with
      | original => exact absurd hkind hop
      | correction =>
        refine ⟨_, rfl, ?_, hlookup root⟩
        simp [eq_comm]
      | tombstone =>
        refine ⟨_, rfl, ?_, hlookup root⟩
        simp [eq_comm]

/-! ## The order of the events -/

/-- What goes into the dictionary are all events, each once. -/
theorem mem_of_insertById {byId : List CanonicalEventEnvelope}
    (h : events.foldlM insertById [] = some byId) :
    (∀ e, e ∈ byId ↔ e ∈ events) ∧ (byId.map (·.eventId)).Nodup := by
  induction events using List.reverseRecOn generalizing byId with
  | nil =>
    cases h
    exact ⟨fun _ => Iff.rfl, List.nodup_nil⟩
  | append_singleton events e ih =>
    rw [List.foldlM_append] at h
    obtain ⟨before, hbefore, h⟩ := Option.bind_eq_some_iff.1 h
    simp only [List.foldlM_cons, List.foldlM_nil, bind_pure] at h
    obtain ⟨hmem, hnodup⟩ := ih hbefore
    rw [insertById] at h
    cases hfind : before.find? (·.eventId = e.eventId) with
    | none =>
      rw [hfind] at h
      cases h
      refine ⟨fun f => by rw [List.mem_append, hmem, List.mem_append], ?_⟩
      rw [List.map_append, List.nodup_append]
      refine ⟨hnodup, List.nodup_singleton _, ?_⟩
      rintro _ hf _ he rfl
      obtain ⟨f, hf, hid⟩ := List.mem_map.1 hf
      exact absurd (decide_eq_true (hid.trans (List.mem_singleton.1 he)))
        (List.find?_eq_none.1 hfind f hf)
    | some existing =>
      rw [hfind] at h
      dsimp only at h
      by_cases hsame : existing ≠ e
      · rw [if_pos hsame] at h
        cases h
      · rw [if_neg hsame] at h
        cases h
        obtain rfl := not_not.1 hsame
        refine ⟨fun f => ?_, hnodup⟩
        rw [hmem, List.mem_append, List.mem_singleton]
        refine (or_iff_left_of_imp ?_).symm
        rintro rfl
        exact (hmem f).1 (find?_key_eq_some hfind).1

/-- The events of a list are the same if their identities are. -/
def IdsAgree (events : List CanonicalEventEnvelope) : Prop :=
  ∀ e ∈ events, ∀ f ∈ events, e.eventId = f.eventId → e = f

theorem exists_insertById (h : IdsAgree events) :
    ∃ byId, events.foldlM insertById [] = some byId := by
  induction events using List.reverseRecOn with
  | nil => exact ⟨[], rfl⟩
  | append_singleton events e ih =>
    obtain ⟨before, hbefore⟩ :=
      ih fun f hf g hg => h f (List.mem_append_left _ hf) g (List.mem_append_left _ hg)
    rw [List.foldlM_append, hbefore]
    simp only [List.foldlM_cons, List.foldlM_nil, bind_pure]
    show ∃ byId, insertById before e = some byId
    rw [insertById]
    cases hfind : before.find? (·.eventId = e.eventId) with
    | none => exact ⟨_, rfl⟩
    | some existing =>
      obtain ⟨hmem, hid⟩ := find?_key_eq_some hfind
      have hmem := ((mem_of_insertById hbefore).1 existing).1 hmem
      have hsame := h existing (List.mem_append_left _ hmem) e
        (List.mem_append_right _ List.mem_cons_self) hid
      exact ⟨before, if_neg (not_not.2 hsame)⟩

/-- The order of the events. -/
structure IsOrderOf (events ordered : List CanonicalEventEnvelope) : Prop where
  mem : ∀ e, e ∈ ordered ↔ e ∈ events
  nodup : (ordered.map (·.eventId)).Nodup
  sorted : ordered.Pairwise fun e f => e.sortKey < f.sortKey

theorem isOrderOf_orderedUniqueEvents {ordered : List CanonicalEventEnvelope}
    (h : orderedUniqueEvents events = some ordered) : IsOrderOf events ordered := by
  obtain ⟨byId, hbyId, h⟩ := Option.bind_eq_some_iff.1 h
  cases h
  obtain ⟨hmem, hnodup⟩ := mem_of_insertById hbyId
  have hperm := List.perm_insertionSort
    (fun e f : CanonicalEventEnvelope => e.sortKey ≤ f.sortKey) byId
  refine ⟨fun e => hperm.mem_iff.trans (hmem e), (hperm.map _).nodup_iff.2 hnodup, ?_⟩
  refine pairwise_insertionSort_of_key ?_
  have hfactor : byId.map (·.eventId) =
      (byId.map (·.sortKey)).map fun key => (ofLex (ofLex key).2).2 := by
    rw [List.map_map]
    rfl
  rw [hfactor] at hnodup
  exact hnodup.of_map _

theorem exists_orderedUniqueEvents (h : IdsAgree events) :
    ∃ ordered, orderedUniqueEvents events = some ordered := by
  obtain ⟨byId, hbyId⟩ := exists_insertById h
  exact ⟨_, by rw [orderedUniqueEvents, hbyId]; rfl⟩

/-! ## What is replayed -/

/-- The events that are active at a time: those that are visible, and that nothing visible has
    superseded. -/
structure IsActiveAt (events : List CanonicalEventEnvelope) (asOf : DateTime)
    (active : List CanonicalEventEnvelope) : Prop where
  sorted : active.Pairwise fun e f => e.eventId < f.eventId
  mem : ∀ e, e ∈ active ↔ e ∈ events ∧ e.normalizedAt ≤ asOf.instant ∧ e.operation ≠ .tombstone ∧
    ∀ f ∈ events, f.correctionOf = some e.eventId → asOf.instant < f.normalizedAt

/-- What is visible comes first. -/
theorem visible_isPrefix {ordered : List CanonicalEventEnvelope}
    (h : ordered.Pairwise fun e f => e.sortKey < f.sortKey) (asOf : DateTime) :
    visible asOf ordered <+: ordered := by
  refine ⟨ordered.filter fun e => !decide (e.normalizedAt ≤ asOf.instant), ?_⟩
  refine filter_append_filter_not (h.imp fun {e f} hlt hf => ?_)
  have hle : e.normalizedAt ≤ f.normalizedAt := by
    rcases Prod.Lex.lt_iff.1 hlt with hlt | ⟨heq, -⟩
    · exact hlt.le
    · exact heq.le
  exact decide_eq_true (hle.trans (of_decide_eq_true hf))

theorem isActiveAt_activeOf {ordered : List CanonicalEventEnvelope} (h : IsOrderOf events ordered)
    (asOf : DateTime) : IsActiveAt events asOf
      ((activeOf (visible asOf ordered)).insertionSort fun e f => e.eventId ≤ f.eventId) := by
  have hperm := List.perm_insertionSort (fun e f : CanonicalEventEnvelope => e.eventId ≤ f.eventId)
    (activeOf (visible asOf ordered))
  refine ⟨pairwise_insertionSort_of_key ?_, fun e => ?_⟩
  · have hsub : (activeOf (visible asOf ordered)).Sublist ordered :=
      List.filter_sublist.trans List.filter_sublist
    exact h.nodup.sublist (hsub.map _)
  · rw [hperm.mem_iff, mem_activeOf, visible, List.mem_filter, h.mem, ← Bool.not_eq_true,
      isSuperseded_iff, decide_eq_true_eq, and_assoc]
    refine and_congr_right fun _ => and_congr_right fun _ => and_congr_right fun _ => ?_
    rw [not_exists]
    refine ⟨fun hfree f hf htarget => ?_, fun hfree f => ?_⟩
    · refine Int.not_le.1 fun hle => hfree f ⟨?_, htarget⟩
      exact List.mem_filter.2 ⟨(h.mem f).2 hf, decide_eq_true hle⟩
    · rintro ⟨hf, htarget⟩
      obtain ⟨hf, hle⟩ := List.mem_filter.1 hf
      exact Int.not_le.2 (hfree f ((h.mem f).1 hf) htarget) (of_decide_eq_true hle)

section Replay

variable {datasetIds : List String} (hvalid : ∀ e ∈ events, e.validateEvent = true)
include hvalid

/-- Events whose identities agree, and that are in order, are replayed. -/
theorem exists_replayEvents (hids : IdsAgree events)
    (horder : ∀ ordered, IsOrderOf events ordered → InOrder ordered) (datasetIds : List String)
    (asOf : DateTime) : ∃ replay, replayEvents events datasetIds asOf = .ok replay ∧
      IsActiveAt events asOf replay.activeEvents := by
  obtain ⟨ordered, hordered⟩ := exists_orderedUniqueEvents hids
  have hof := isOrderOf_orderedUniqueEvents hordered
  have hinOrder := horder ordered hof
  have hall : ∀ e ∈ ordered, e.validateEvent = true := fun e he => hvalid e ((hof.mem e).1 he)
  have hfirst := visible_isPrefix hof.sorted asOf
  obtain ⟨state, hpass, hactive, -⟩ := materialize_pass
    (fun e he => hall e (hfirst.subset he)) (hof.nodup.sublist (hfirst.sublist.map _))
    (hinOrder.of_prefix hfirst)
  rw [replayEvents, hordered, Option.bind_eq_bind, Option.bind_some,
    (validateCompleteChain_iff hall hof.nodup).1 hinOrder, Option.bind_eq_bind, Option.bind_some,
    materialize, hpass]
  refine ⟨_, rfl, ?_⟩
  show IsActiveAt events asOf (state.active.insertionSort fun e f => e.eventId ≤ f.eventId)
  rw [hactive]
  exact isActiveAt_activeOf hof asOf

/-- What is replayed has been in order. -/
theorem inOrder_of_replayEvents {replay : CanonicalEventHistoryReplay}
    (h : replayEvents events datasetIds asOf = .ok replay) :
    IdsAgree events ∧ (∀ ordered, IsOrderOf events ordered → InOrder ordered) := by
  rw [replayEvents] at h
  cases hordered : orderedUniqueEvents events with
  | none =>
    rw [hordered] at h
    cases h
  | some ordered =>
    have hof := isOrderOf_orderedUniqueEvents hordered
    have hall : ∀ e ∈ ordered, e.validateEvent = true := fun e he => hvalid e ((hof.mem e).1 he)
    refine ⟨fun e he f hf hid => List.inj_on_of_nodup_map hof.nodup ((hof.mem e).2 he)
      ((hof.mem f).2 hf) hid, fun other hother => ?_⟩
    obtain rfl : ordered = other := eq_of_pairwise_key hof.sorted hother.sorted fun e =>
      (hof.mem e).trans (hother.mem e).symm
    refine (validateCompleteChain_iff hall hof.nodup).2 fun hnone => ?_
    rw [hordered, Option.bind_eq_bind, Option.bind_some, hnone] at h
    cases h

theorem isActiveAt_of_replayEvents {replay : CanonicalEventHistoryReplay}
    (h : replayEvents events datasetIds asOf = .ok replay) :
    IsActiveAt events asOf replay.activeEvents := by
  obtain ⟨hids, horder⟩ := inOrder_of_replayEvents hvalid h
  obtain ⟨other, hother, hactive⟩ := exists_replayEvents hvalid hids horder datasetIds asOf
  obtain rfl := Except.ok.inj (h.symm.trans hother)
  exact hactive

end Replay

end TradingAgent.CanonicalEvent
