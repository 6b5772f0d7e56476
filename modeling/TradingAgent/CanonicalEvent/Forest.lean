import TradingAgent.CanonicalEvent.Causal

/-!
# Forests of corrections

A finite set of events is a forest if every correction names an event of the set that it may correct,
and no event is corrected twice (`IsCorrectionForest`). Its history, however the events are ordered,
repeated or spread over datasets, should be the last visible version of every original event
(`IsCausal`). It is so exactly if a correction with the times of what it corrects has the larger
identity of the two (`isCausal_iff`).
-/

namespace TradingAgent.CanonicalEvent

open Supersession

variable {events forest : List CanonicalEventEnvelope} {root e f t : CanonicalEventEnvelope}
  {asOf : DateTime}

/-- A finite set of events that correct each other. -/
structure IsCorrectionForest (forest : List CanonicalEventEnvelope) : Prop where
  valid : ∀ e ∈ forest, e.validateEvent = true
  idsAgree : IdsAgree forest
  target : ∀ e ∈ forest, e.operation ≠ .original →
    ∃ t ∈ forest, e.correctionOf = some t.eventId ∧ Corrects t e
  once : ∀ e ∈ forest, ∀ f ∈ forest, e.operation ≠ .original →
    e.correctionOf = f.correctionOf → e = f
  rooted : ∀ e ∈ forest, ∃ root ∈ forest, root.operation = .original ∧
    IsVersion (·.eventId) (·.correctionOf) forest root e

/-- The last version of an event that is visible at a time. -/
structure IsLastVersion (forest : List CanonicalEventEnvelope) (asOf : DateTime)
    (root e : CanonicalEventEnvelope) : Prop where
  version : IsVersion (·.eventId) (·.correctionOf) forest root e
  visible : e.normalizedAt ≤ asOf.instant
  last : ∀ f ∈ forest, f.correctionOf = some e.eventId → asOf.instant < f.normalizedAt

/-- The active events, by their identities: for each original event that is visible its last
    version, unless it was taken back. -/
structure IsHistoryAt (forest : List CanonicalEventEnvelope) (asOf : DateTime)
    (active : List CanonicalEventEnvelope) : Prop where
  sorted : active.Pairwise fun e f => e.eventId < f.eventId
  existsUnique : ∀ root ∈ forest, root.operation = .original →
    root.normalizedAt ≤ asOf.instant → ∃! e, IsLastVersion forest asOf root e
  mem : ∀ e, e ∈ active ↔ (∃ root ∈ forest, root.operation = .original ∧
    root.normalizedAt ≤ asOf.instant ∧ IsLastVersion forest asOf root e) ∧
      e.operation ≠ .tombstone

/-- The history of a set of events is that of their versions at every time, whatever the list or the
    datasets that they come in, and later events have no influence on it. -/
structure IsCausal (forest : List CanonicalEventEnvelope) : Prop where
  activeEvents : ∀ events, events ≠ [] → (∀ e, e ∈ events ↔ e ∈ forest) → ∀ asOf : DateTime,
    asOf.aware = true → ∃ active, activeCanonicalEventsAsOf events asOf = .ok active ∧
      IsHistoryAt forest asOf active
  datasets : ∀ datasets, datasets ≠ [] → (∀ e, e ∈ datasets.flatMap (·.2) ↔ e ∈ forest) →
    ∀ asOf : DateTime, asOf.aware = true →
      ∃ replay, replayCanonicalEventHistory datasets asOf = .ok replay ∧
        IsHistoryAt forest asOf replay.activeEvents
  later : ∀ events others, (∀ e, e ∈ events ↔ e ∈ forest) → ∀ asOf : DateTime,
    (∀ e, e.normalizedAt ≤ asOf.instant → (e ∈ others ↔ e ∈ forest)) → ∀ active active',
      activeCanonicalEventsAsOf events asOf = .ok active →
        activeCanonicalEventsAsOf others asOf = .ok active' → active' = active

/-- A correction with the times of what it corrects has the larger identity. -/
def TiesAreOrdered (forest : List CanonicalEventEnvelope) : Prop :=
  ∀ t ∈ forest, ∀ e ∈ forest, e.correctionOf = some t.eventId →
    t.normalizedAt = e.normalizedAt → t.receivedAt = e.receivedAt → t.eventId < e.eventId

namespace IsCorrectionForest

variable (h : IsCorrectionForest forest)
include h

theorem corrects (ht : t ∈ forest) (he : e ∈ forest) (htarget : e.correctionOf = some t.eventId) :
    e.operation ≠ .original ∧ Corrects t e := by
  have hop : e.operation ≠ .original := by
    intro hop
    rw [CanonicalEventEnvelope.correctionOf_of_original (h.valid e he) hop] at htarget
    cases htarget
  obtain ⟨u, hu, hname, hcorrects⟩ := h.target e he hop
  rw [htarget, Option.some_inj] at hname
  exact ⟨hop, h.idsAgree t ht u hu hname ▸ hcorrects⟩

/-- If the ties are ordered, then so are the events. -/
theorem inOrder {ordered : List CanonicalEventEnvelope} (hties : TiesAreOrdered forest)
    (hmem : ∀ e, e ∈ events ↔ e ∈ forest) (hof : IsOrderOf events ordered) : InOrder ordered := by
  rintro before e after rfl k hk
  have hin : ∀ f ∈ before ++ e :: after, f ∈ forest := fun f hf => (hmem f).1 ((hof.mem f).1 hf)
  have he : e ∈ forest := hin e (List.mem_append_right _ List.mem_cons_self)
  have hop : e.operation ≠ .original := by
    intro hop
    have hk : e.correctionOf = some k := hk
    rw [CanonicalEventEnvelope.correctionOf_of_original (h.valid e he) hop] at hk
    cases hk
  obtain ⟨t, ht, hname, hcorrects⟩ := h.target e he hop
  obtain rfl : k = t.eventId := Option.some.inj (hk.symm.trans hname)
  have hlt : t.sortKey < e.sortKey := by
    rcases hcorrects.2.2.1.lt_or_eq with hnormalized | hnormalized
    · exact Prod.Lex.lt_iff.2 (.inl hnormalized)
    refine Prod.Lex.lt_iff.2 (.inr ⟨hnormalized, Prod.Lex.lt_iff.2 ?_⟩)
    exact hcorrects.2.1.lt_or_eq.imp id fun hreceived =>
      ⟨hreceived, hties t ht e he hname hnormalized hreceived⟩
  obtain ⟨-, hafter, hbefore⟩ := List.pairwise_append.1 hof.sorted
  refine ⟨⟨t, ?_, rfl, hcorrects⟩, ?_⟩
  · -- It does not come later, as it has the smaller key.
    rcases List.mem_append.1 ((hof.mem t).2 ((hmem t).2 ht)) with hfirst | hlater
    · exact hfirst
    rcases List.mem_cons.1 hlater with rfl | hlater
    · exact absurd hlt (lt_irrefl _)
    · exact absurd hlt ((List.pairwise_cons.1 hafter).1 t hlater).not_gt
  · rw [← Bool.not_eq_true, isSuperseded_iff]
    rintro ⟨f, hf, hfname⟩
    obtain rfl := h.once e he f (hin f (List.mem_append_left _ hf)) hop (hk.trans hfname.symm)
    exact absurd (hbefore e hf e List.mem_cons_self) (lt_irrefl _)

/-- In a history in order, the ties are ordered. -/
theorem tiesAreOrdered {ordered : List CanonicalEventEnvelope}
    (hmem : ∀ e, e ∈ events ↔ e ∈ forest) (hof : IsOrderOf events ordered)
    (horder : InOrder ordered) : TiesAreOrdered forest := by
  intro t ht e he hname hnormalized hreceived
  obtain ⟨before, after, rfl⟩ :=
    List.append_of_mem ((hof.mem e).2 ((hmem e).2 he))
  obtain ⟨⟨u, hu, hid, -⟩, -⟩ := horder before e after rfl t.eventId hname
  have hforest : u ∈ forest := (hmem u).1 ((hof.mem u).1 (List.mem_append_left _ hu))
  obtain rfl := h.idsAgree u hforest t ht hid
  have hlt := (List.pairwise_append.1 hof.sorted).2.2 u hu e List.mem_cons_self
  -- The times are the same, so that the identities decide.
  rcases Prod.Lex.lt_iff.1 hlt with hless | ⟨-, hlt⟩
  · exact absurd hnormalized hless.ne
  rcases Prod.Lex.lt_iff.1 hlt with hless | ⟨-, hlt⟩
  · exact absurd hreceived hless.ne
  · exact hlt

/-! ## Versions -/

/-- What comes before a visible version is visible. -/
theorem isVersion_visible (hv : IsVersion (·.eventId) (·.correctionOf) forest root e)
    (hle : e.normalizedAt ≤ asOf.instant) :
    root.normalizedAt ≤ asOf.instant ∧
      IsVersion (·.eventId) (·.correctionOf) (visible asOf forest) root e := by
  induction hv with
  | root hroot => exact ⟨hle, .root (List.mem_filter.2 ⟨hroot, decide_eq_true hle⟩)⟩
  | next hv hmem hname ih =>
    have hcorrects := (h.corrects hv.mem hmem hname).2
    obtain ⟨hroot, hvisible⟩ := ih (hcorrects.2.2.1.trans hle)
    exact ⟨hroot, hvisible.next (List.mem_filter.2 ⟨hmem, decide_eq_true hle⟩) hname⟩

theorem isLastVersion_iff :
    IsLastVersion forest asOf root e ↔
      IsVersion (·.eventId) (·.correctionOf) (visible asOf forest) root e ∧
        isSuperseded (·.correctionOf) (visible asOf forest) e.eventId = false := by
  rw [← Bool.not_eq_true, isSuperseded_iff]
  constructor
  · rintro ⟨hv, hle, hlast⟩
    refine ⟨(h.isVersion_visible hv hle).2, ?_⟩
    rintro ⟨f, hf, hname⟩
    obtain ⟨hf, hfle⟩ := List.mem_filter.1 hf
    exact Int.not_le.2 (hlast f hf hname) (of_decide_eq_true hfle)
  · rintro ⟨hv, hfree⟩
    refine ⟨hv.mono (List.filter_subset_self forest), of_decide_eq_true (List.mem_filter.1 hv.mem).2, ?_⟩
    intro f hf hname
    exact Int.not_le.1 fun hle => hfree ⟨f, List.mem_filter.2 ⟨hf, decide_eq_true hle⟩, hname⟩

/-- The active events of a history in order are the last versions. -/
theorem isHistoryAt {ordered active : List CanonicalEventEnvelope}
    (hmem : ∀ e, e ∈ events ↔ e ∈ forest) (hof : IsOrderOf events ordered)
    (horder : InOrder ordered) (hactive : IsActiveAt events asOf active) :
    IsHistoryAt forest asOf active := by
  have hvisible : ∀ e, e ∈ visible asOf ordered ↔ e ∈ visible asOf forest := fun e => by
    rw [visible, List.mem_filter, hof.mem, hmem, visible, List.mem_filter]
  have hfirst := visible_isPrefix hof.sorted asOf
  have hversions : ∀ root e, IsLastVersion forest asOf root e ↔
      IsVersion (·.eventId) (·.correctionOf) (visible asOf ordered) root e ∧
        isSuperseded (·.correctionOf) (visible asOf ordered) e.eventId = false := by
    intro root e
    rw [h.isLastVersion_iff]
    refine and_congr ⟨fun hv => hv.mono fun f hf => (hvisible f).2 hf,
      fun hv => hv.mono fun f hf => (hvisible f).1 hf⟩ ?_
    rw [← Bool.not_eq_true, isSuperseded_iff, ← Bool.not_eq_true, isSuperseded_iff]
    simp only [hvisible]
  refine ⟨hactive.sorted, fun root hroot hop hle => ?_, fun e => ?_⟩
  · simp only [hversions]
    exact existsUnique_last (horder.of_prefix hfirst) (hof.nodup.sublist (hfirst.sublist.map _))
      ((hvisible root).2 (List.mem_filter.2 ⟨hroot, decide_eq_true hle⟩))
      (CanonicalEventEnvelope.correctionOf_of_original (h.valid root hroot) hop)
  · rw [hactive.mem, hmem]
    simp only [hmem]
    constructor
    · rintro ⟨he, hle, hop, hlast⟩
      obtain ⟨root, hroot, horiginal, hv⟩ := h.rooted e he
      exact ⟨⟨root, hroot, horiginal, (h.isVersion_visible hv hle).1, hv, hle, hlast⟩, hop⟩
    · rintro ⟨⟨root, -, -, -, hlast⟩, hop⟩
      exact ⟨hlast.version.mem, hlast.visible, hop, hlast.last⟩

end IsCorrectionForest

theorem activeCanonicalEventsAsOf_eq_ok {active : List CanonicalEventEnvelope} :
    activeCanonicalEventsAsOf events asOf = .ok active ↔
      ((∀ e ∈ events, e.validateEvent = true) ∧ events ≠ [] ∧ asOf.aware = true) ∧
        ∃ replay, replayEvents events [] asOf = .ok replay ∧ replay.activeEvents = active := by
  rw [activeCanonicalEventsAsOf, ← List.all_eq_true]
  by_cases hbad : ¬ events.all (·.validateEvent) = true ∨ events = [] ∨ ¬ asOf.aware = true
  · rw [if_pos hbad]
    refine iff_of_false nofun fun h => ?_
    rcases hbad with hvalid | hnil | haware
    · exact hvalid h.1.1
    · exact h.1.2.1 hnil
    · exact haware h.1.2.2
  · rw [if_neg hbad]
    rw [not_or, not_or, not_not, not_not] at hbad
    cases replayEvents events [] asOf with
    | error _ => exact iff_of_false nofun nofun
    | ok replay =>
      refine ⟨fun h => ⟨hbad, replay, rfl, Except.ok.inj h⟩, ?_⟩
      rintro ⟨-, other, hother, rfl⟩
      cases hother
      rfl

/-- The history of a forest is as it should be exactly if each correction with the times of what it
    corrects has the larger identity. -/
theorem isCausal_iff (h : IsCorrectionForest forest) :
    IsCausal forest ↔ TiesAreOrdered forest := by
  constructor
  · rintro hcausal t ht
    obtain ⟨active, hok, -⟩ := hcausal.activeEvents forest (List.ne_nil_of_mem ht)
      (fun _ => Iff.rfl) (DateTime.utc 0) rfl
    obtain ⟨-, replay, hreplay, -⟩ := activeCanonicalEventsAsOf_eq_ok.1 hok
    obtain ⟨hids, horder⟩ := inOrder_of_replayEvents h.valid hreplay
    obtain ⟨ordered, hordered⟩ := exists_orderedUniqueEvents hids
    have hof := isOrderOf_orderedUniqueEvents hordered
    exact h.tiesAreOrdered (fun _ => Iff.rfl) hof (horder ordered hof) t ht
  · intro hties
    -- However the events are listed, they are put into the same order.
    have hreplay : ∀ events, (∀ e, e ∈ events ↔ e ∈ forest) → ∀ datasetIds (asOf : DateTime),
        ∃ replay, replayEvents events datasetIds asOf = .ok replay ∧
          IsHistoryAt forest asOf replay.activeEvents := by
      intro events hmem datasetIds asOf
      have hids : IdsAgree events := fun e he f hf =>
        h.idsAgree e ((hmem e).1 he) f ((hmem f).1 hf)
      obtain ⟨ordered, hordered⟩ := exists_orderedUniqueEvents hids
      have hof := isOrderOf_orderedUniqueEvents hordered
      obtain ⟨replay, hok, hactive⟩ := exists_replayEvents
        (fun e he => h.valid e ((hmem e).1 he)) hids (fun _ hof => h.inOrder hties hmem hof)
        datasetIds asOf
      exact ⟨replay, hok, h.isHistoryAt hmem hof (h.inOrder hties hmem hof) hactive⟩
    refine ⟨fun events hne hmem asOf haware => ?_, fun datasets hne hmem asOf haware => ?_, ?_⟩
    · obtain ⟨replay, hok, hhistory⟩ := hreplay events hmem [] asOf
      exact ⟨_, activeCanonicalEventsAsOf_eq_ok.2
        ⟨⟨fun e he => h.valid e ((hmem e).1 he), hne, haware⟩, replay, hok, rfl⟩, hhistory⟩
    · rw [replayCanonicalEventHistory, if_neg (not_or.2 ⟨hne, not_not.2 haware⟩)]
      exact hreplay _ hmem _ asOf
    · intro events others hmem asOf hsame active active' hok hok'
      obtain ⟨⟨hvalid, -⟩, replay, hreplay, rfl⟩ := activeCanonicalEventsAsOf_eq_ok.1 hok
      obtain ⟨⟨hvalid', -⟩, replay', hreplay', rfl⟩ := activeCanonicalEventsAsOf_eq_ok.1 hok'
      have hactive := isActiveAt_of_replayEvents hvalid hreplay
      have hactive' := isActiveAt_of_replayEvents hvalid' hreplay'
      refine eq_of_pairwise_key hactive'.sorted hactive.sorted fun e => ?_
      rw [hactive.mem, hactive'.mem, hmem]
      -- What is not visible supersedes nothing that is.
      have hlater : (∀ f ∈ others, f.correctionOf = some e.eventId →
          asOf.instant < f.normalizedAt) ↔ ∀ f ∈ events, f.correctionOf = some e.eventId →
          asOf.instant < f.normalizedAt := by
        refine forall_congr' fun f => ?_
        rw [hmem]
        by_cases hle : f.normalizedAt ≤ asOf.instant
        · rw [hsame f hle]
        · exact iff_of_true (fun _ _ => Int.not_le.1 hle) fun _ _ => Int.not_le.1 hle
      by_cases hle : e.normalizedAt ≤ asOf.instant
      · rw [hsame e hle, hlater]
      · exact iff_of_false (fun hboth => hle hboth.2.1) fun hboth => hle hboth.2.1

namespace ForestSample

/-- An event of some identity, all of the same times. -/
def event (eventId : String) (operation : CanonicalEventOperation) (correctionOf : Option String) :
    CanonicalEventEnvelope where
  eventId := eventId
  sourceId := ⟨"fixture", "news"⟩
  entityRefs := [⟨.instrument, "us-eq-fixture-0001"⟩]
  eventType := "news_item"
  receivedAt := 0
  normalizedAt := 0
  operation := operation
  correctionOf := correctionOf
  rawReceiptRef := "receipt"
  contentHash := "0000000000000000000000000000000000000000000000000000000000000000"

/-- An event and its correction. -/
def corrected (original correction : String) : List CanonicalEventEnvelope :=
  [event original .original none, event correction .correction (some original)]

theorem isCorrectionForest_corrected {original correction : String} (hne : original ≠ correction)
    (hvalid : ∀ e ∈ corrected original correction, e.validateEvent = true) :
    IsCorrectionForest (corrected original correction) where
  valid := hvalid
  idsAgree := by
    rintro e he f hf hid
    simp only [corrected, List.mem_cons, List.not_mem_nil, or_false] at he hf
    rcases he with rfl | rfl <;> rcases hf with rfl | rfl
    · rfl
    · exact absurd hid hne
    · exact absurd hid.symm hne
    · rfl
  target := by
    rintro e he hop
    simp only [corrected, List.mem_cons, List.not_mem_nil, or_false] at he
    rcases he with rfl | rfl
    · exact absurd rfl hop
    · refine ⟨_, List.mem_cons_self, rfl, decide_eq_true ⟨rfl, rfl, rfl, rfl⟩, ?_, ?_, nofun⟩
      · exact Int.le_refl 0
      · exact Int.le_refl 0
  once := by
    rintro e he f hf hop hsame
    simp only [corrected, List.mem_cons, List.not_mem_nil, or_false] at he hf
    rcases he with rfl | rfl <;> rcases hf with rfl | rfl
    · rfl
    · exact absurd rfl hop
    · cases hsame
    · rfl
  rooted := by
    rintro e he
    have hroot : IsVersion (·.eventId) (·.correctionOf) (corrected original correction)
        (event original .original none) (event original .original none) :=
      .root List.mem_cons_self
    refine ⟨_, List.mem_cons_self, rfl, ?_⟩
    simp only [corrected, List.mem_cons, List.not_mem_nil, or_false] at he
    rcases he with rfl | rfl
    · exact hroot
    · exact hroot.next (List.mem_cons_of_mem _ List.mem_cons_self) rfl

/-- A correction with the times of the event and a smaller identity. -/
theorem tie_is_refused :
    IsCorrectionForest (corrected "event-2" "event-1") ∧
      activeCanonicalEventsAsOf (corrected "event-2" "event-1") (DateTime.utc 0) =
        .error .notReplayed :=
  ⟨isCorrectionForest_corrected (by decide) (by decide +kernel), by decide +kernel⟩

/-- With the larger identity, it is replayed. -/
theorem ordered_tie_isCausal : IsCausal (corrected "event-1" "event-2") := by
  refine (isCausal_iff (isCorrectionForest_corrected (by decide) (by decide +kernel))).2 ?_
  rintro t ht e he hname - -
  simp only [corrected, List.mem_cons, List.not_mem_nil, or_false] at ht he
  rcases ht with rfl | rfl <;> rcases he with rfl | rfl
  · cases hname
  · decide +kernel
  · cases hname
  · exact absurd hname (by decide)

end ForestSample

end TradingAgent.CanonicalEvent
