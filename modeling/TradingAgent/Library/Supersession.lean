import Mathlib.Data.List.Induction
import Mathlib.Tactic.Common

/-!
# Records that supersede each other

A log of records, each with a key, of which some supersede another one, named by its key. A record
and what supersedes it, and so on, are the *versions* of the first one (`IsVersion`).

* A log is *replayable* (`IsReplayable`) if every record that supersedes another one comes after it,
  and nothing supersedes a record twice. The start of such a log is replayable
  (`IsReplayable.of_prefix`).
* In a replayable log every record is a version of one that supersedes nothing
  (`exists_isVersion`), and every record has exactly one version that is not superseded
  (`existsUnique_last`).
-/

namespace Supersession

variable {α κ : Type*} {key : α → κ} {target : α → Option κ}
  {link : α → α → Prop} {l l' : List α} {root a b : α}

/-- The versions of a record: it, and what supersedes a version of it. -/
inductive IsVersion (key : α → κ) (target : α → Option κ) (l : List α) (root : α) : α → Prop
  | root : root ∈ l → IsVersion key target l root root
  | next {a b : α} : IsVersion key target l root a → b ∈ l → target b = some (key a) →
      IsVersion key target l root b

theorem IsVersion.mem (h : IsVersion key target l root a) : a ∈ l := by
  cases h with
  | root hmem => exact hmem
  | next _ hmem _ => exact hmem

theorem IsVersion.mono (h : IsVersion key target l root a) (hsub : l ⊆ l') :
    IsVersion key target l' root a := by
  induction h with
  | root hmem => exact .root (hsub hmem)
  | next _ hmem htarget ih => exact ih.next (hsub hmem) htarget

variable [DecidableEq κ]

/-- Whether a record of the log supersedes the one of a key. -/
def isSuperseded (target : α → Option κ) (l : List α) (k : κ) : Bool :=
  l.any fun a => target a = some k

@[simp] theorem isSuperseded_iff {k : κ} :
    isSuperseded target l k = true ↔ ∃ a ∈ l, target a = some k := by
  simp [isSuperseded]

theorem isSuperseded_concat {k : κ} :
    isSuperseded target (l ++ [a]) k = (isSuperseded target l k || target a = some k) := by
  simp [isSuperseded]

/-- Every record that supersedes another one comes after it, is linked to it, and is the only one
    that supersedes it. -/
def IsReplayable (key : α → κ) (target : α → Option κ) (link : α → α → Prop) (l : List α) : Prop :=
  ∀ before a after, l = before ++ a :: after → ∀ k, target a = some k →
    (∃ b ∈ before, key b = k ∧ link b a) ∧ isSuperseded target before k = false

theorem isReplayable_nil : IsReplayable key target link [] := by
  intro before a after hsplit
  simp at hsplit

theorem IsReplayable.of_prefix (h : IsReplayable key target link l) (hl : l' <+: l) :
    IsReplayable key target link l' := by
  obtain ⟨rest, rfl⟩ := hl
  rintro before a after rfl
  exact h before a (after ++ rest) (by rw [List.append_assoc, List.cons_append])

theorem isReplayable_concat :
    IsReplayable key target link (l ++ [a]) ↔ IsReplayable key target link l ∧
      ∀ k, target a = some k →
        (∃ b ∈ l, key b = k ∧ link b a) ∧ isSuperseded target l k = false := by
  refine ⟨fun h => ⟨h.of_prefix (List.prefix_append l [a]), h l a [] rfl⟩, ?_⟩
  rintro ⟨hl, ha⟩ before b after hsplit
  rcases List.eq_nil_or_concat after with rfl | ⟨rest, c, rfl⟩
  · obtain ⟨rfl, hb⟩ := List.append_inj' hsplit rfl
    obtain rfl : a = b := List.head_eq_of_cons_eq hb
    exact ha
  · rw [List.concat_eq_append, ← List.cons_append, ← List.append_assoc] at hsplit
    exact hl before b rest (List.append_inj' hsplit rfl).1

/-- A record is a version of one that supersedes nothing. -/
theorem exists_isVersion (h : IsReplayable key target link l) (ha : a ∈ l) :
    ∃ root ∈ l, target root = none ∧ IsVersion key target l root a := by
  induction l using List.reverseRecOn generalizing a with
  | nil => exact absurd ha List.not_mem_nil
  | append_singleton l b ih =>
    obtain ⟨hl, hb⟩ := isReplayable_concat.1 h
    have hsub : l ⊆ l ++ [b] := List.subset_append_left l [b]
    have hlast : b ∈ l ++ [b] := List.mem_append_right l List.mem_cons_self
    have hold : ∀ c ∈ l, ∃ root ∈ l ++ [b], target root = none ∧
        IsVersion key target (l ++ [b]) root c := by
      intro c hc
      obtain ⟨root, hroot, hnone, hversion⟩ := ih hl hc
      exact ⟨root, hsub hroot, hnone, hversion.mono hsub⟩
    rcases List.mem_append.1 ha with ha | ha
    · exact hold a ha
    · obtain rfl := List.mem_singleton.1 ha
      cases htarget : target a with
      | none => exact ⟨a, hlast, htarget, .root hlast⟩
      | some k =>
        obtain ⟨⟨c, hc, rfl, -⟩, -⟩ := hb k htarget
        obtain ⟨root, hroot, hnone, hversion⟩ := hold c hc
        exact ⟨root, hroot, hnone, hversion.next hlast htarget⟩

omit [DecidableEq κ] in
/-- A version of a record in a longer log is one in the log, or the record that was added. -/
theorem IsVersion.of_concat (hnew : ∀ c ∈ l, target c ≠ some (key a))
    (h : IsVersion key target (l ++ [a]) root b) (hroot : root ∈ l) :
    IsVersion key target l root b ∨
      b = a ∧ ∃ c, IsVersion key target l root c ∧ target a = some (key c) := by
  induction h with
  | root _ => exact .inl (.root hroot)
  | next _ hmem htarget ih =>
    rcases List.mem_append.1 hmem with hold | hlast
    · rcases ih with hversion | ⟨rfl, -⟩
      · exact .inl (hversion.next hold htarget)
      · exact absurd htarget (hnew _ hold)
    · obtain rfl := List.mem_singleton.1 hlast
      rcases ih with hversion | ⟨rfl, c, hversion, hc⟩
      · exact .inr ⟨rfl, _, hversion, htarget⟩
      · exact .inr ⟨rfl, c, hversion, hc⟩

/-- The keys of a replayable log are not named before their records. -/
theorem IsReplayable.target_ne (h : IsReplayable key target link (l ++ [a]))
    (hkeys : ((l ++ [a]).map key).Nodup) : ∀ c ∈ l, target c ≠ some (key a) := by
  intro c hc htarget
  obtain ⟨before, after, rfl⟩ := List.append_of_mem hc
  obtain ⟨⟨b, hb, hkey, -⟩, -⟩ := (isReplayable_concat.1 h).1 before c after rfl _ htarget
  rw [List.map_append, List.nodup_append] at hkeys
  exact hkeys.2.2 (key b) (List.mem_map_of_mem (List.mem_append_left _ hb)) (key a)
    (List.mem_singleton_self _) hkey

/-- Every record that supersedes nothing has exactly one version that is not superseded. -/
theorem existsUnique_last (h : IsReplayable key target link l) (hkeys : (l.map key).Nodup)
    (hroot : root ∈ l) (hnone : target root = none) :
    ∃! a, IsVersion key target l root a ∧ isSuperseded target l (key a) = false := by
  induction l using List.reverseRecOn generalizing root with
  | nil => exact absurd hroot List.not_mem_nil
  | append_singleton l b ih =>
    have hnew := h.target_ne hkeys
    obtain ⟨hl, hb⟩ := isReplayable_concat.1 h
    have hkeysl : (l.map key).Nodup := by
      rw [List.map_append, List.nodup_append] at hkeys
      exact hkeys.1
    have hlast : b ∈ l ++ [b] := List.mem_append_right l List.mem_cons_self
    -- Nothing supersedes the record that was added.
    have hfree : target b ≠ some (key b) → isSuperseded target (l ++ [b]) (key b) = false := by
      intro hself
      rw [isSuperseded_concat, decide_eq_false hself, Bool.or_false, ← Bool.not_eq_true,
        isSuperseded_iff]
      exact fun ⟨c, hc, hctarget⟩ => hnew c hc hctarget
    have hself : target b ≠ some (key b) := by
      intro hself
      obtain ⟨⟨c, hc, hkey, -⟩, -⟩ := hb _ hself
      rw [List.map_append, List.nodup_append] at hkeys
      exact hkeys.2.2 _ (List.mem_map_of_mem hc) _ (List.mem_singleton_self _) hkey
    by_cases hmem : root ∈ l
    · obtain ⟨a, ⟨hversion, hlasta⟩, hunique⟩ := ih hl hkeysl hmem hnone
      by_cases htarget : target b = some (key a)
      · -- The record supersedes the last version, and is the last one now.
        have hbversion := (hversion.mono (List.subset_append_left l [b])).next hlast htarget
        refine ⟨b, ⟨hbversion, hfree hself⟩, ?_⟩
        rintro c ⟨hc, hclast⟩
        rw [isSuperseded_concat, Bool.or_eq_false_iff] at hclast
        rcases hc.of_concat hnew hmem with hold | ⟨rfl, -⟩
        · obtain rfl := hunique c ⟨hold, hclast.1⟩
          exact absurd htarget (of_decide_eq_false hclast.2)
        · rfl
      · refine ⟨a, ⟨hversion.mono (List.subset_append_left l [b]), ?_⟩, ?_⟩
        · rw [isSuperseded_concat, hlasta, decide_eq_false htarget, Bool.or_false]
        · rintro c ⟨hc, hclast⟩
          rw [isSuperseded_concat, Bool.or_eq_false_iff] at hclast
          rcases hc.of_concat hnew hmem with hold | ⟨rfl, d, hd, hdtarget⟩
          · exact hunique c ⟨hold, hclast.1⟩
          · -- What it supersedes was the last version.
            obtain rfl := hunique d ⟨hd, (hb _ hdtarget).2⟩
            exact absurd hdtarget htarget
    · -- The record is the root.
      obtain rfl : root = b := by
        rcases List.mem_append.1 hroot with hold | hsame
        · exact absurd hold hmem
        · exact List.mem_singleton.1 hsame
      refine ⟨root, ⟨.root hroot, hfree hself⟩, ?_⟩
      rintro c ⟨hc, -⟩
      induction hc with
      | root _ => rfl
      | next _ hcmem hctarget ihc =>
        subst ihc
        rcases List.mem_append.1 hcmem with hcmem | hcmem
        · exact absurd hctarget (hnew _ hcmem)
        · obtain rfl := List.mem_singleton.1 hcmem
          exact absurd hctarget hself

end Supersession
