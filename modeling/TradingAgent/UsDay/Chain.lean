import TradingAgent.Library.Except
import TradingAgent.UsDay.Models

/-!
# The chain of the changes of a thesis

The changes of a thesis are kept in no order: each of them names the one before, and the first one
the thesis.

* Reading them puts them in order (`orderFrom`), which gives the changes of a chain back, in
  whatever order they are found (`orderFrom_eq`).
* A change that is published must continue the chain (`checkChange`), and then there is one chain
  more (`isChain_concat_iff`, `checkChange_eq_ok_iff`).
-/

namespace TradingAgent.UsDay

/-- What makes the store refuse a call. All of these are one exception for its caller. -/
inductive ThesisStoreError
  /-- The root directory is there, but not its anchor, or the other way round. -/
  | rootNotBound
  /-- A directory has no registered identity, or another one. -/
  | directoryNotBound
  | thesisMissing
  /-- The changes do not form a chain. -/
  | notAChain
  /-- The identity is taken by something else. -/
  | conflict
  /-- The change does not continue the chain. -/
  | notTheNext
  deriving DecidableEq, Repr

/-! ## Reading -/

/-- The changes in order, from the one that names `parent`: the loop of `changes`. The first
    argument bounds the number of its rounds. -/
def orderFrom : ℕ → String → Instant → Bool → List UsDayThesisChange →
    Option (List UsDayThesisChange)
  | _, _, _, _, [] => some []
  | 0, _, _, _, _ :: _ => none
  | n + 1, parent, parentTime, ended, remaining =>
    match remaining.filter (·.parentEventId = parent) with
    | [child] =>
      if ended = true ∨ child.occurredAt < parentTime then none
      else (orderFrom n child.eventId child.occurredAt child.kind.terminal
        (remaining.filter (·.eventId ≠ child.eventId))).map (child :: ·)
    | _ => none

def orderChanges (thesis : UsDayTradeThesis) (files : List UsDayThesisChange) :
    Except ThesisStoreError (List UsDayThesisChange) :=
  match orderFrom files.length thesis.thesisId thesis.observedAt false files with
  | some ordered => .ok ordered
  | none => .error .notAChain

/-! ## Publishing -/

/-- Whether a change is new: it is refused if it neither is one of the changes nor continues
    them. -/
def checkChange (thesis : UsDayTradeThesis) (prior : List UsDayThesisChange)
    (change : UsDayThesisChange) : Except ThesisStoreError Bool :=
  match prior.find? (·.eventId = change.eventId) with
  | some existing => if existing ≠ change then .error .conflict else .ok false
  | none =>
    let latestId := (prior.getLast?.map (·.eventId)).getD thesis.thesisId
    let latestTime := (prior.getLast?.map (·.occurredAt)).getD thesis.observedAt
    if change.parentEventId ≠ latestId ∨ change.occurredAt < latestTime ∨
        prior.getLast?.any (·.kind.terminal) then .error .notTheNext
    else .ok true

/-! ## Chains -/

/-- The changes follow one another, the first one from `parent`, at times that do not decrease,
    and nothing follows one of a kind that ends the chain. -/
def IsChain : String → Instant → List UsDayThesisChange → Prop
  | _, _, [] => True
  | parent, time, change :: changes =>
    change.parentEventId = parent ∧ time ≤ change.occurredAt ∧
      (change.kind.terminal = true → changes = []) ∧
      IsChain change.eventId change.occurredAt changes

variable {thesis : UsDayTradeThesis} {parent : String} {time : Instant} {ended : Bool}
  {changes files prior : List UsDayThesisChange} {change c : UsDayThesisChange}

/-- A chain has one more change exactly if that continues it. -/
theorem isChain_concat_iff : IsChain parent time (changes ++ [change]) ↔
    IsChain parent time changes ∧
      change.parentEventId = (changes.getLast?.map (·.eventId)).getD parent ∧
      (changes.getLast?.map (·.occurredAt)).getD time ≤ change.occurredAt ∧
      changes.getLast?.any (·.kind.terminal) = false := by
  induction changes generalizing parent time with
  | nil => simp [IsChain]
  | cons first changes ih =>
    rw [List.cons_append, IsChain, ih, IsChain]
    cases changes with
    | nil => simp [IsChain, and_assoc, and_comm]
    | cons second changes =>
      simp only [List.getLast?_cons_cons, List.append_eq_nil_iff, List.cons_ne_nil, and_false]
      have hlast : ∀ d e : String, ((second :: changes).getLast?.map (·.eventId)).getD d =
          ((second :: changes).getLast?.map (·.eventId)).getD e := by simp [List.getLast?_cons]
      have htime : ∀ s t : Instant, ((second :: changes).getLast?.map (·.occurredAt)).getD s =
          ((second :: changes).getLast?.map (·.occurredAt)).getD t := by simp [List.getLast?_cons]
      rw [hlast first.eventId parent, htime first.occurredAt time]
      tauto

/-- Each change of a chain names the first parent, or another one of the changes. -/
theorem parent_mem_of_isChain (h : IsChain parent time changes) (hc : c ∈ changes) :
    c.parentEventId ∈ parent :: changes.map (·.eventId) := by
  induction changes generalizing parent time with
  | nil => exact absurd hc List.not_mem_nil
  | cons first changes ih =>
    obtain ⟨hfirst, -, -, hrest⟩ := h
    rcases List.mem_cons.1 hc with rfl | hc
    · rw [hfirst]
      exact List.mem_cons_self
    · exact List.mem_cons_of_mem _ (ih hrest hc)

/-- The changes of a chain are put in order, in whatever order they are found. -/
theorem orderFrom_eq (h : IsChain parent time changes)
    (hnodup : (parent :: changes.map (·.eventId)).Nodup) (hperm : files.Perm changes)
    (hended : ended = true → changes = []) {n : ℕ} (hn : files.length ≤ n) :
    orderFrom n parent time ended files = some changes := by
  induction changes generalizing parent time ended files n with
  | nil =>
    rw [List.perm_nil] at hperm
    rw [hperm, orderFrom]
  | cons first changes ih =>
    obtain ⟨hfirst, htime, hlast, hrest⟩ := h
    rw [List.map_cons, List.nodup_cons] at hnodup
    obtain ⟨hparent, hnodup⟩ := hnodup
    obtain ⟨n, rfl⟩ : ∃ m, n = m + 1 := by
      rw [hperm.length_eq, List.length_cons] at hn
      exact ⟨n - 1, by omega⟩
    -- Only the first change names the parent.
    have hchildren : files.filter (·.parentEventId = parent) = [first] := by
      have hothers : changes.filter (·.parentEventId = parent) = [] := by
        refine List.filter_eq_nil_iff.2 fun c hc hname => hparent ?_
        rw [← of_decide_eq_true hname]
        exact parent_mem_of_isChain hrest hc
      have hfiltered := hperm.filter (·.parentEventId = parent)
      rw [List.filter_cons_of_pos (by exact decide_eq_true hfirst), hothers] at hfiltered
      exact List.perm_singleton.1 hfiltered
    -- The other ones remain.
    have hremaining : (files.filter (·.eventId ≠ first.eventId)).Perm changes := by
      have hothers : changes.filter (·.eventId ≠ first.eventId) = changes := by
        refine List.filter_eq_self.2 fun c hc =>
          decide_eq_true fun heq => (List.nodup_cons.1 hnodup).1 ?_
        rw [← heq]
        exact List.mem_map_of_mem hc
      have hfiltered := hperm.filter (·.eventId ≠ first.eventId)
      rw [List.filter_cons_of_neg (by simp), hothers] at hfiltered
      exact hfiltered
    have hopen : ¬ (ended = true ∨ first.occurredAt < time) := by
      rintro (hend | hearly)
      · exact List.cons_ne_nil _ _ (hended hend)
      · exact Int.not_lt.2 htime hearly
    have hfiles : files ≠ [] := by
      rintro rfl
      exact List.cons_ne_nil _ _ (List.nil_perm.1 hperm)
    have hbound : (files.filter (·.eventId ≠ first.eventId)).length ≤ n := by
      rw [hremaining.length_eq]
      rw [hperm.length_eq, List.length_cons] at hn
      omega
    obtain ⟨file, rest, rfl⟩ := List.exists_cons_of_ne_nil hfiles
    rw [orderFrom, hchildren]
    dsimp only
    rw [if_neg hopen, ih hrest hnodup hremaining hlast hbound]
    · rfl
    · exact List.cons_ne_nil _ _

theorem orderChanges_eq (h : IsChain thesis.thesisId thesis.observedAt changes)
    (hnodup : (thesis.thesisId :: changes.map (·.eventId)).Nodup) (hperm : files.Perm changes) :
    orderChanges thesis files = .ok changes := by
  rw [orderChanges, orderFrom_eq h hnodup hperm (fun hended => absurd hended Bool.false_ne_true)
    le_rfl]

/-- A new change is accepted exactly if the chain goes on with it. -/
theorem checkChange_eq_ok_true_iff (h : IsChain thesis.thesisId thesis.observedAt prior) :
    checkChange thesis prior change = .ok true ↔
      change.eventId ∉ prior.map (·.eventId) ∧
        IsChain thesis.thesisId thesis.observedAt (prior ++ [change]) := by
  rw [checkChange, isChain_concat_iff]
  cases hfind : prior.find? (·.eventId = change.eventId) with
  | some existing =>
    have hmem : change.eventId ∈ prior.map (·.eventId) := by
      obtain ⟨hmem, hid⟩ := find?_key_eq_some hfind
      rw [← hid]
      exact List.mem_map_of_mem hmem
    refine iff_of_false (fun hok => ?_) fun hnew => hnew.1 hmem
    dsimp only at hok
    split at hok <;> cases hok
  | none =>
    have hnew : change.eventId ∉ prior.map (·.eventId) := by
      rw [List.find?_eq_none] at hfind
      rintro hmem
      obtain ⟨c, hc, hid⟩ := List.mem_map.1 hmem
      exact hfind c hc (decide_eq_true hid)
    dsimp only
    rw [and_iff_right hnew, and_iff_right h]
    split
    · rename_i hbad
      refine iff_of_false nofun fun ⟨hparent, htime, hopen⟩ => ?_
      rcases hbad with hbad | hbad | hbad
      · exact hbad hparent
      · exact Int.not_lt.2 htime hbad
      · exact absurd (hbad.symm.trans hopen) (by decide)
    · rename_i hgood
      rw [not_or, not_or, not_not] at hgood
      exact iff_of_true rfl ⟨hgood.1, Int.not_lt.1 hgood.2.1, by simpa using hgood.2.2⟩

/-- Only a change that is found among the others is not new. -/
theorem mem_of_checkChange (h : checkChange thesis prior change = .ok false) : change ∈ prior := by
  rw [checkChange] at h
  split at h
  · rename_i existing hfind
    split at h
    · cases h
    · rename_i hsame
      rw [← not_not.1 hsame]
      exact (find?_key_eq_some hfind).1
  · dsimp only at h
    split at h <;> cases h

theorem checkChange_of_mem (hnodup : (prior.map (·.eventId)).Nodup) (h : change ∈ prior) :
    checkChange thesis prior change = .ok false := by
  rw [checkChange, find?_key_of_mem hnodup h]
  exact if_neg (not_not.2 rfl)

end TradingAgent.UsDay
