import Mathlib.Data.List.MinMax
import TradingAgent.Kr.Resume
import TradingAgent.Library.Fold
import TradingAgent.Library.Transition

/-!
# The store of virtual positions

The events of all positions are stored in the order in which they are appended. An event is appended
only if it is valid and continues the chain of its position (`append`): its number is the next one,
and it names the event before it.

* A recommendation is armed once, and then advanced any number of times, while the events of other
  positions are stored as well (`positionSystem`). Each call may be interrupted after it has stored
  some of its events.
* The store stays well formed, whatever is done (`positionInv_of_reachable`).
-/

namespace TradingAgent.Kr

open Transition

inductive KrVirtualPositionStoreError
  | invalidKrVirtualPositionStore
  deriving DecidableEq, Repr

/-- The events of a position. -/
def eventsOf (rows : List KrVirtualPositionEvent) (positionId : String) :
    List KrVirtualPositionEvent :=
  rows.filter (·.positionId = positionId)

/-- The order of the integers, found before those of the algebraic structures on them, which do not
    compute. -/
local instance intOrder : Preorder ℤ := Int.instLinearOrder.toPartialOrder.toPreorder

/-- The event of a position with the highest number. -/
def tailOf (rows : List KrVirtualPositionEvent) (positionId : String) :
    Option KrVirtualPositionEvent :=
  (eventsOf rows positionId).argmax (·.sequence)

/-- Whether an event continues a chain that ends with `tail`. -/
def continues (tail : Option KrVirtualPositionEvent) (e : KrVirtualPositionEvent) : Bool :=
  e.previousEventId = tail.map (·.eventId) ∧ e.sequence = (tail.map (·.sequence + 1)).getD 1

/-- Appends an event. The result says whether it is a new one. -/
def append (sha : Sha256) (rows : List KrVirtualPositionEvent) (e : KrVirtualPositionEvent) :
    Except KrVirtualPositionStoreError (List KrVirtualPositionEvent × Bool) := do
  Except.raiseIf (¬ validateEvent sha e) .invalidKrVirtualPositionStore
  match rows.find? (·.eventId = e.eventId) with
  | some existing =>
    Except.raiseIf (existing ≠ e) .invalidKrVirtualPositionStore
    return (rows, false)
  | none =>
    Except.raiseIf (¬ continues (tailOf rows e.positionId) e) .invalidKrVirtualPositionStore
    return (rows ++ [e], true)

/-- Whether each of the events continues the chain of its position, after those in `seen`. -/
def chainsAreValid (seen : List KrVirtualPositionEvent) : List KrVirtualPositionEvent → Bool
  | [] => true
  | e :: rows => continues (eventsOf seen e.positionId).getLast? e && chainsAreValid (seen ++ [e]) rows

/-- Reads all events. -/
def allEvents (sha : Sha256) (rows : List KrVirtualPositionEvent) :
    Except KrVirtualPositionStoreError (List KrVirtualPositionEvent) := do
  Except.raiseIf (¬ rows.all (validateEvent sha)) .invalidKrVirtualPositionStore
  Except.raiseIf (¬ chainsAreValid [] rows) .invalidKrVirtualPositionStore
  return rows

/-- Appends events one after the other, each in a transaction of its own. -/
def appendAll (sha : Sha256) : List KrVirtualPositionEvent → List KrVirtualPositionEvent →
    Except KrVirtualPositionStoreError (List KrVirtualPositionEvent)
  | rows, [] => return rows
  | rows, e :: events => do
    let (rows, _) ← append sha rows e
    appendAll sha rows events

/-- What happens to the store. -/
inductive PositionOp
  /-- An event of another position is appended. -/
  | other (e : KrVirtualPositionEvent)
  /-- The recommendation is armed. -/
  | arm (now : DateTime)
  /-- The position is advanced by a call, which stores some of its events. -/
  | advance (bars : List KrCompletedMinuteBar) (now : DateTime) (stored : ℕ)

/-- The store of the events of a recommendation, among those of others. -/
def positionSystem (sha : Sha256) (r : KrTradeRecommendation) :
    System (List KrVirtualPositionEvent) PositionOp where
  init rows := rows = []
  step rows op rows' := match op with
    | .other e => e.positionId ≠ virtualPositionId sha r ∧
        ∃ added, append sha rows e = .ok (rows', added)
    | .arm now => eventsOf rows (virtualPositionId sha r) = [] ∧
        ∃ e, armKrVirtualPosition sha r now = .ok e ∧ appendAll sha rows [e] = .ok rows'
    | .advance bars now stored =>
        ∃ head events, (eventsOf rows (virtualPositionId sha r)).getLast? = some head ∧
          advanceKrVirtualPosition sha r head bars now = .ok events ∧
          appendAll sha rows (events.take stored) = .ok rows'

variable {sha : Sha256} {r : KrTradeRecommendation} {e e' : KrVirtualPositionEvent}
  {rows rows' events : List KrVirtualPositionEvent} {bars : List KrCompletedMinuteBar}
  {now : DateTime}

/-! ## Numbered chains -/

/-- The events of a chain, numbered from 1. -/
def Numbered (chain : List KrVirtualPositionEvent) : Prop :=
  ∀ (i : ℕ) (e : KrVirtualPositionEvent), chain[i]? = some e → e.sequence = i + 1

theorem numbered_concat {chain : List KrVirtualPositionEvent} (h : Numbered chain)
    (he : e.sequence = chain.length + 1) : Numbered (chain ++ [e]) := by
  intro i e' hi
  rcases Nat.lt_or_ge i chain.length with hlt | hge
  · rw [List.getElem?_append_left hlt] at hi
    exact h i e' hi
  · rw [List.getElem?_append_right hge] at hi
    rw [List.getElem?_singleton] at hi
    split_ifs at hi with hzero
    have hindex : i = chain.length := by omega
    rw [← Option.some.inj hi, he, hindex]

theorem Numbered.sequence_le {chain : List KrVirtualPositionEvent} (h : Numbered chain)
    (he : e ∈ chain) : e.sequence ≤ chain.length := by
  obtain ⟨i, hi⟩ := List.mem_iff_getElem?.1 he
  have hlt : i < chain.length := (List.getElem?_eq_some_iff.1 hi).1
  rw [h i e hi]
  omega

theorem Numbered.getLast? {chain : List KrVirtualPositionEvent} (h : Numbered chain) :
    chain.argmax (·.sequence) = chain.getLast? ∧
      (chain.getLast?.map (·.sequence + 1)).getD 1 = (chain.length : ℤ) + 1 := by
  rcases List.eq_nil_or_concat' chain with rfl | ⟨before, last, rfl⟩
  · exact ⟨rfl, rfl⟩
  · have hlast : last.sequence = (before.length : ℤ) + 1 := h before.length last (by simp)
    have hargmax : (before ++ [last]).argmax (·.sequence) = some last := by
      refine argmax_concat_of_lt fun c hc => ?_
      obtain ⟨i, hi⟩ := List.mem_iff_getElem?.1 hc
      have hlt : i < before.length := (List.getElem?_eq_some_iff.1 hi).1
      have hseq := h i c (by rw [List.getElem?_append_left hlt, hi])
      omega
    rw [hargmax, List.getLast?_concat]
    exact ⟨rfl, by simp [hlast]⟩

/-! ## What is stored -/

theorem eventsOf_concat (rows : List KrVirtualPositionEvent) (e : KrVirtualPositionEvent)
    (positionId : String) :
    eventsOf (rows ++ [e]) positionId =
      eventsOf rows positionId ++ if e.positionId = positionId then [e] else [] := by
  rw [eventsOf, eventsOf, List.filter_append, List.filter_singleton]
  by_cases h : e.positionId = positionId <;> simp [h]

/-- An event that is appended is stored already, or continues the chain of its position. -/
theorem append_cases {added : Bool} (h : append sha rows e = .ok (rows', added)) :
    validateEvent sha e = true ∧ (rows' = rows ∧ e ∈ rows ∨
      rows' = rows ++ [e] ∧ continues (tailOf rows e.positionId) e = true) := by
  rw [append, Except.bind_eq_ok] at h
  obtain ⟨u, hvalid, h⟩ := h
  rw [Except.raiseIf_eq_ok, not_not] at hvalid
  refine ⟨hvalid, ?_⟩
  split at h
  next existing hfind =>
    simp only [Except.bind_eq_ok, Except.raiseIf_eq_ok, not_not, exists_const,
      Except.pure_eq_ok, Prod.mk.injEq] at h
    obtain ⟨rfl, rfl, -⟩ := h
    exact .inl ⟨rfl, List.mem_of_find?_eq_some hfind⟩
  next =>
    simp only [Except.bind_eq_ok, Except.raiseIf_eq_ok, not_not, exists_const,
      Except.pure_eq_ok, Prod.mk.injEq] at h
    obtain ⟨hcontinues, rfl, -⟩ := h
    exact .inr ⟨rfl, hcontinues⟩

theorem chainsAreValid_concat (seen rows : List KrVirtualPositionEvent)
    (e : KrVirtualPositionEvent) :
    chainsAreValid seen (rows ++ [e]) =
      (chainsAreValid seen rows && continues (eventsOf (seen ++ rows) e.positionId).getLast? e) := by
  induction rows generalizing seen with
  | nil => simp [chainsAreValid]
  | cons first rows ih =>
    rw [List.cons_append, chainsAreValid, ih, chainsAreValid, Bool.and_assoc, List.append_assoc,
      List.singleton_append]

/-- What holds of the store, whatever is appended. -/
structure StoreInv (sha : Sha256) (rows : List KrVirtualPositionEvent) : Prop where
  valid : ∀ e ∈ rows, validateEvent sha e = true
  numbered : ∀ positionId, Numbered (eventsOf rows positionId)
  chains : chainsAreValid [] rows = true

theorem StoreInv.tailOf (h : StoreInv sha rows) (positionId : String) :
    tailOf rows positionId = (eventsOf rows positionId).getLast? :=
  (h.numbered positionId).getLast?.1

/-- An event that continues its chain keeps the store well formed. -/
theorem StoreInv.concat (h : StoreInv sha rows) (hvalid : validateEvent sha e = true)
    (hcontinues : continues (Kr.tailOf rows e.positionId) e = true) :
    StoreInv sha (rows ++ [e]) := by
  rw [h.tailOf] at hcontinues
  refine ⟨?_, fun positionId => ?_, ?_⟩
  · rw [List.forall_mem_append, List.forall_mem_singleton]
    exact ⟨h.valid, hvalid⟩
  · rw [eventsOf_concat]
    split_ifs with hid
    · subst hid
      refine numbered_concat (h.numbered e.positionId) ?_
      rw [(of_decide_eq_true hcontinues).2, (h.numbered e.positionId).getLast?.2]
    · rw [List.append_nil]
      exact h.numbered positionId
  · rw [chainsAreValid_concat, h.chains, Bool.true_and, List.nil_append]
    exact hcontinues

theorem StoreInv.append {added : Bool} (h : StoreInv sha rows)
    (happend : append sha rows e = .ok (rows', added)) : StoreInv sha rows' := by
  obtain ⟨hvalid, ⟨rfl, -⟩ | ⟨rfl, hcontinues⟩⟩ := append_cases happend
  · exact h
  · exact h.concat hvalid hcontinues

/-- A well-formed store can be read. -/
theorem allEvents_eq (h : StoreInv sha rows) : allEvents sha rows = .ok rows := by
  have hvalid : rows.all (validateEvent sha) = true := List.all_eq_true.2 h.valid
  rw [allEvents, Except.raiseIf, if_neg (not_not.2 hvalid), Except.ok_bind, Except.raiseIf,
    if_neg (not_not.2 h.chains)]
  rfl

/-! ## The position of a recommendation -/

/-- What holds of the store and the events of the recommendation in it. -/
structure PositionInv (sha : Sha256) (r : KrTradeRecommendation)
    (rows : List KrVirtualPositionEvent) : Prop extends StoreInv sha rows where
  follows : ∀ e ∈ eventsOf rows (virtualPositionId sha r), Follows sha r e
  ends : EndsOnce (eventsOf rows (virtualPositionId sha r))

theorem endsOnce_append {xs ys : List KrVirtualPositionEvent} (hxs : EndsOnce xs)
    (hys : EndsOnce ys) (h : ∀ last ∈ xs.getLast?, last.terminal = true → ys = []) :
    EndsOnce (xs ++ ys) := by
  induction xs with
  | nil => exact hys
  | cons x xs ih =>
    have hrest : EndsOnce xs := fun before e after heq =>
      hxs (x :: before) e after (congrArg (x :: ·) heq)
    refine endsOnce_cons (fun hterminal => ?_) (ih hrest fun last hlast => h last ?_)
    · have hnil := hxs [] x xs rfl hterminal
      subst hnil
      rw [h x rfl hterminal]
      rfl
    · rw [List.getLast?_cons, Option.mem_def.1 hlast]
      rfl

/-- Each of the events names the one before it, and has the next number. -/
def Chained : KrVirtualPositionEvent → List KrVirtualPositionEvent → Prop
  | _, [] => True
  | head, e :: events => continues (some head) e = true ∧ Chained e events

theorem continues_draft {t : KrVirtualPositionTransition} :
    continues (some e) (draft sha r (some e) t now) = true :=
  decide_eq_true ⟨rfl, rfl⟩

theorem chained_followAndClose : Chained e (followAndClose sha r now e bars) := by
  induction bars generalizing e with
  | nil =>
    have hnil : followAndClose sha r now e [] = closing sha r e now := rfl
    rw [hnil, closing]
    split_ifs
    · exact ⟨continues_draft, trivial⟩
    · exact trivial
  | cons bar bars ih =>
    by_cases hterminal : e.terminal = true
    · rw [followAndClose_of_terminal hterminal]
      exact trivial
    · rw [Bool.not_eq_true] at hterminal
      rw [followAndClose_cons hterminal]
      exact ⟨continues_draft, ih⟩

theorem chained_advanceEvents : Chained e (advanceEvents sha r e bars now) := by
  rw [advanceEvents]
  split_ifs
  all_goals first
    | exact trivial
    | exact ⟨continues_draft, trivial⟩
    | exact chained_followAndClose

/-! ## Digests of events -/

theorem texts_append_inj {xs ys : List String} {rest rest' : List JsonAtom}
    (h : texts xs ++ rest = texts ys ++ rest') : rest = rest' := by
  rw [texts, texts, List.cons_append, List.cons_append] at h
  obtain ⟨hlength, h⟩ := List.cons.inj h
  have hlength : xs.length = ys.length := by
    have := JsonAtom.int.inj hlength
    omega
  exact (List.append_inj h (by rw [List.length_map, List.length_map, hlength])).2

/-- The text of an event tells its position and its number. -/
theorem material_inj (h : e.material = e'.material) :
    e.positionId = e'.positionId ∧ e.sequence = e'.sequence := by
  rw [KrVirtualPositionEvent.material, KrVirtualPositionEvent.material, List.append_assoc,
    List.append_assoc] at h
  have hrest := texts_append_inj (List.append_inj h rfl).2
  simp only [List.cons.injEq, JsonAtom.str.injEq, JsonAtom.int.injEq] at hrest
  exact ⟨hrest.2.2.2.2.2.1, hrest.2.2.2.2.2.2.2.2.2.2.2.1⟩

/-! ## Appending the events of a call -/

section Append

variable {head : KrVirtualPositionEvent} (h : PositionInv sha r rows)
  (hhead : (eventsOf rows (virtualPositionId sha r)).getLast? = some head)
  (hnext : continues (some head) e = true) (he : Follows sha r e)
include h hhead hnext he

omit he in
/-- The next event of the position has a number that no stored one has. -/
theorem sequence_lt {row : KrVirtualPositionEvent}
    (hrow : row ∈ eventsOf rows (virtualPositionId sha r)) : row.sequence < e.sequence := by
  have hnumbered := h.numbered (virtualPositionId sha r)
  have hsequence : e.sequence = head.sequence + 1 := (of_decide_eq_true hnext).2
  have hlast := hnumbered.getLast?.2
  rw [hhead, Option.map_some, Option.getD_some] at hlast
  have hle := hnumbered.sequence_le hrow
  omega

theorem positionInv_concat (hopen : head.terminal = false) : PositionInv sha r (rows ++ [e]) := by
  have hcontinues : continues (tailOf rows e.positionId) e = true := by
    rw [h.tailOf, he.positionId, hhead]
    exact hnext
  refine ⟨h.concat he.valid hcontinues, ?_, ?_⟩
  · rw [eventsOf_concat, if_pos he.positionId, List.forall_mem_append, List.forall_mem_singleton]
    exact ⟨h.follows, he⟩
  · rw [eventsOf_concat, if_pos he.positionId]
    refine endsOnce_append h.ends (endsOnce_singleton e) fun last hlast hterminal => ?_
    rw [Option.mem_def.1 hlast] at hhead
    rw [Option.some.inj hhead, hopen] at hterminal
    cases hterminal

/-- The next event is stored as a new one, if it is at all. -/
theorem append_eq_concat {added : Bool} (happend : append sha rows e = .ok (rows', added)) :
    rows' = rows ++ [e] := by
  obtain ⟨-, ⟨-, hmem⟩ | ⟨hrows, -⟩⟩ := append_cases happend
  · have hrow : e ∈ eventsOf rows (virtualPositionId sha r) :=
      List.mem_filter.2 ⟨hmem, decide_eq_true he.positionId⟩
    exact absurd (sequence_lt h hhead hnext hrow) (Int.lt_irrefl _)
  · exact hrows

/-- The next event is stored, if its digest is not that of another one. -/
theorem append_new (hid : ∀ row ∈ rows, row.eventId ≠ e.eventId) :
    append sha rows e = .ok (rows ++ [e], true) := by
  have hcontinues : continues (tailOf rows e.positionId) e = true := by
    rw [h.tailOf, he.positionId, hhead]
    exact hnext
  have hfind : rows.find? (·.eventId = e.eventId) = none :=
    List.find?_eq_none.2 fun row hrow => by
      rw [decide_eq_true_eq]
      exact hid row hrow
  rw [append, Except.raiseIf, if_neg (not_not.2 he.valid), Except.ok_bind, hfind]
  dsimp only
  rw [Except.raiseIf, if_neg (not_not.2 hcontinues)]
  rfl

end Append

theorem getLast?_eventsOf_concat (he : Follows sha r e) :
    (eventsOf (rows ++ [e]) (virtualPositionId sha r)).getLast? = some e := by
  rw [eventsOf_concat, if_pos he.positionId, List.getLast?_concat]

/-- The events of a call are stored as they are, if they are at all. -/
theorem appendAll_eq_append {head : KrVirtualPositionEvent} (h : PositionInv sha r rows)
    (hhead : (eventsOf rows (virtualPositionId sha r)).getLast? = some head)
    (hchained : Chained head events) (hfollows : ∀ e ∈ events, Follows sha r e)
    (hends : EndsOnce (head :: events)) (happend : appendAll sha rows events = .ok rows') :
    rows' = rows ++ events ∧ PositionInv sha r rows' := by
  induction events generalizing rows head with
  | nil =>
    cases happend
    exact ⟨(List.append_nil _).symm, h⟩
  | cons e events ih =>
    rw [appendAll, Except.bind_eq_ok] at happend
    obtain ⟨⟨rows₁, added⟩, hfirst, happend⟩ := happend
    have he := hfollows e List.mem_cons_self
    have hrows := append_eq_concat h hhead hchained.1 he hfirst
    subst hrows
    have hopen : head.terminal = false := by
      rw [Bool.eq_false_iff]
      exact fun hterminal => absurd (hends [] head _ rfl hterminal) (List.cons_ne_nil _ _)
    have hrest : EndsOnce (e :: events) := fun before e' after heq =>
      hends (head :: before) e' after (congrArg (head :: ·) heq)
    obtain ⟨rfl, hinv⟩ := ih (positionInv_concat h hhead hchained.1 he hopen)
      (getLast?_eventsOf_concat he) hchained.2
      (fun e' he' => hfollows e' (List.mem_cons_of_mem e he')) hrest happend
    rw [List.append_assoc, List.singleton_append] at hinv ⊢
    exact ⟨rfl, hinv⟩

/-- The events of a call are stored, if no digest is that of two events. -/
theorem appendAll_new {head : KrVirtualPositionEvent} (h : PositionInv sha r rows)
    (hhead : (eventsOf rows (virtualPositionId sha r)).getLast? = some head)
    (hchained : Chained head events) (hfollows : ∀ e ∈ events, Follows sha r e)
    (hends : EndsOnce (head :: events))
    (hsha : sha.Separates {m | ∃ e ∈ rows ++ events, e.material = m}) :
    appendAll sha rows events = .ok (rows ++ events) := by
  induction events generalizing rows head with
  | nil => exact congrArg Except.ok (List.append_nil rows).symm
  | cons e events ih =>
    have he := hfollows e List.mem_cons_self
    have hid : ∀ row ∈ rows, row.eventId ≠ e.eventId := by
      intro row hrow heq
      have hrowid : row.eventId = sha.hexdigest row.material :=
        (validateEvent_iff.1 (h.valid row hrow)).2.2.2.2.2.2.2.2.2.2.1
      have heid : e.eventId = sha.hexdigest e.material :=
        (validateEvent_iff.1 he.valid).2.2.2.2.2.2.2.2.2.2.1
      rw [hrowid, heid] at heq
      have hmaterial := hsha ⟨row, List.mem_append_left _ hrow, rfl⟩
        ⟨e, List.mem_append_right _ List.mem_cons_self, rfl⟩ heq
      obtain ⟨hposition, hsequence⟩ := material_inj hmaterial
      have hmem : row ∈ eventsOf rows (virtualPositionId sha r) :=
        List.mem_filter.2 ⟨hrow, decide_eq_true (hposition.trans he.positionId)⟩
      exact absurd hsequence (Int.ne_of_lt (sequence_lt h hhead hchained.1 hmem))
    have hopen : head.terminal = false := by
      rw [Bool.eq_false_iff]
      exact fun hterminal => absurd (hends [] head _ rfl hterminal) (List.cons_ne_nil _ _)
    have hrest : EndsOnce (e :: events) := fun before e' after heq =>
      hends (head :: before) e' after (congrArg (head :: ·) heq)
    have hsplit : rows ++ e :: events = (rows ++ [e]) ++ events := by
      rw [List.append_assoc, List.singleton_append]
    rw [hsplit] at hsha ⊢
    rw [appendAll, append_new h hhead hchained.1 he hid, Except.ok_bind]
    exact ih (positionInv_concat h hhead hchained.1 he hopen) (getLast?_eventsOf_concat he)
      hchained.2 (fun e' he' => hfollows e' (List.mem_cons_of_mem e he')) hrest hsha

/-! ## Runs -/

theorem mem_eventsOf_last {head : KrVirtualPositionEvent} {positionId : String}
    (h : (eventsOf rows positionId).getLast? = some head) : head ∈ eventsOf rows positionId :=
  List.mem_of_getLast? h

/-- The events that a call makes of the stored head, taken apart. -/
theorem advance_cases {head : KrVirtualPositionEvent}
    (hr : validateRecommendation sha r = true) (h : PositionInv sha r rows)
    (hhead : (eventsOf rows (virtualPositionId sha r)).getLast? = some head)
    (hadvance : advanceKrVirtualPosition sha r head bars now = .ok events) :
    CallFacts r bars now ∧ events = advanceEvents sha r head bars now ∧
      (evidenceAfter head (appliedBars r head bars)).length ≤ 512 := by
  have he := h.follows head (mem_eventsOf_last hhead)
  have hcall : CallFacts r bars now := by
    rw [advanceKrVirtualPosition] at hadvance
    simp only [Except.bind_eq_ok] at hadvance
    obtain ⟨-, -, -, -, -, -, u, hbars, -⟩ := hadvance
    exact completedBars_eq_ok.1 hbars
  refine ⟨hcall, ?_⟩
  by_cases hterminal : head.terminal = true
  · rw [advance_of_terminal hr he hcall hterminal] at hadvance
    have hevents : events = [] := (Except.ok.inj hadvance).symm
    have happlied : appliedBars r head bars = [] := by
      rw [appliedBars, lived_of_terminal hterminal, ite_self]
    rw [hevents, happlied, evidenceAfter_nil he, advanceEvents, if_pos hterminal]
    exact ⟨rfl, he.evidence.2.2⟩
  · rw [Bool.not_eq_true] at hterminal
    rw [advance_eq hr he hcall hterminal] at hadvance
    split_ifs at hadvance with hle
    exact ⟨(Except.ok.inj hadvance).symm, hle⟩

theorem endsOnce_call {head : KrVirtualPositionEvent} :
    EndsOnce (head :: advanceEvents sha r head bars now) :=
  endsOnce_cons (fun h => if_pos h) endsOnce_advanceEvents

theorem endsOnce_take {n : ℕ} (h : EndsOnce events) : EndsOnce (events.take n) := by
  intro before e after heq hterminal
  have hsplit : events = before ++ e :: (after ++ events.drop n) := by
    rw [← List.cons_append, ← List.append_assoc, ← heq, List.take_append_drop]
  exact (List.append_eq_nil_iff.1 (h before e _ hsplit hterminal)).1

theorem chained_take {head : KrVirtualPositionEvent} {n : ℕ} (h : Chained head events) :
    Chained head (events.take n) := by
  induction events generalizing head n with
  | nil => rwa [List.take_nil]
  | cons e events ih =>
    cases n with
    | zero => exact trivial
    | succ n => exact ⟨h.1, ih h.2⟩

theorem positionInv_nil : PositionInv sha r [] :=
  ⟨⟨fun _ h => absurd h List.not_mem_nil, fun _ _ _ h => by simp [eventsOf] at h, rfl⟩,
    fun _ h => absurd h List.not_mem_nil, endsOnce_nil⟩

/-- The store stays well formed, whatever is done. -/
theorem positionInv_step {op : PositionOp} (hr : validateRecommendation sha r = true)
    (h : PositionInv sha r rows) (hstep : (positionSystem sha r).step rows op rows') :
    PositionInv sha r rows' := by
  cases op with
  | other e =>
    obtain ⟨hne, added, happend⟩ := hstep
    have hstore := h.append happend
    obtain ⟨-, ⟨rfl, -⟩ | ⟨rfl, -⟩⟩ := append_cases happend
    · exact h
    · have hevents : eventsOf (rows ++ [e]) (virtualPositionId sha r) =
          eventsOf rows (virtualPositionId sha r) := by
        rw [eventsOf_concat, if_neg hne, List.append_nil]
      exact ⟨hstore, hevents ▸ h.follows, hevents ▸ h.ends⟩
  | arm now =>
    obtain ⟨hnone, e, harm, happend⟩ := hstep
    have he := (arm_eq_ok (L := []) hr harm).1.follows
    rw [appendAll, Except.bind_eq_ok] at happend
    obtain ⟨⟨rows₁, added⟩, happend, hrows⟩ := happend
    cases hrows
    have hstore := h.append happend
    obtain ⟨-, ⟨rfl, hmem⟩ | ⟨rfl, -⟩⟩ := append_cases happend
    · exact h
    · refine ⟨hstore, ?_, ?_⟩
      · rw [eventsOf_concat, hnone, if_pos he.positionId, List.nil_append,
          List.forall_mem_singleton]
        exact he
      · rw [eventsOf_concat, hnone, if_pos he.positionId]
        exact endsOnce_singleton e
  | advance bars now stored =>
    obtain ⟨head, events, hhead, hadvance, happend⟩ := hstep
    obtain ⟨hcall, rfl, hle⟩ := advance_cases hr h hhead hadvance
    have he := h.follows head (mem_eventsOf_last hhead)
    have hfollows := follows_advanceEvents (recommendationFacts hr) he hcall hle
    exact (appendAll_eq_append h hhead (chained_take chained_advanceEvents)
      (fun e he => hfollows e (List.mem_of_mem_take he)) (endsOnce_take (n := stored + 1) endsOnce_call)
      happend).2

theorem positionInv_of_reachable (hr : validateRecommendation sha r = true)
    (h : (positionSystem sha r).Reachable rows) : PositionInv sha r rows :=
  h.invariant (fun _ hinit => hinit ▸ positionInv_nil) fun _ _ _ _ hinv hstep =>
    positionInv_step hr hinv hstep

/-- The store of a recommendation that was just armed. -/
theorem reachable_arm (hr : validateRecommendation sha r = true) (harm : armKrVirtualPosition sha r now = .ok e) :
    (positionSystem sha r).Reachable [e] := by
  have hvalid : validateEvent sha e = true := (arm_eq_ok (L := []) hr harm).1.follows.valid
  have hcontinues : continues (tailOf [] e.positionId) e = true := by
    rw [armKrVirtualPosition, Except.bind_eq_ok] at harm
    obtain ⟨-, -, harm⟩ := harm
    rw [event, Except.bind_eq_ok] at harm
    obtain ⟨-, -, harm⟩ := harm
    cases harm
    exact decide_eq_true ⟨rfl, rfl⟩
  have happend : append sha [] e = .ok ([e], true) := by
    rw [append, Except.raiseIf, if_neg (not_not.2 hvalid)]
    show (do
      Except.raiseIf (¬ continues (tailOf [] e.positionId) e)
        KrVirtualPositionStoreError.invalidKrVirtualPositionStore
      return ([] ++ [e], true)) = _
    rw [Except.raiseIf, if_neg (not_not.2 hcontinues)]
    rfl
  have hinit : (positionSystem sha r).init [] := rfl
  refine (System.Reachable.init hinit).step (e := .arm now) ⟨rfl, e, harm, ?_⟩
  rw [appendAll, happend]
  rfl

end TradingAgent.Kr
