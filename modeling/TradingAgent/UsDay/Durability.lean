import TradingAgent.UsDay.Store

/-!
# The durability of the thesis store

What holds of the store wherever its processes are, and wherever they have crashed (`WorldInv`): the
changes of each thesis form a chain, and a process that has a chain locked continues it.

* A call that returns has told the truth: it returns that the change is new and adds it, that the
  change is there, or is refused, and then the change is not there (`IsTold`).
* After a crash, the call that is repeated does what it would have done, or succeeds, unless the
  crash fell right after a directory was created that was not bound yet (`reopen_iff`). In runs
  without such crashes, the store can always be opened and its chains can be read.
-/

namespace TradingAgent.UsDay

open Transition Writing UsDayThesisStore

namespace Disk

/-- The directories of the chain of a thesis are bound. -/
def Chained (disk : Disk) (thesisId : String) : Prop :=
  ∀ part ∈ (Namespace.changesOf thesisId).parts, disk.identities part ≠ none

/-- What holds of the files. -/
structure Inv (sha : Sha256) (texts : Set (List JsonAtom)) (disk : Disk) : Prop where
  registry : disk.IsRegistry
  thesis : ∀ thesisId thesis, disk.theses thesisId = some thesis →
    thesis.thesisId = thesisId ∧ thesis.validateThesis sha = true ∧ thesis.payload ∈ texts ∧
      disk.identities .theses ≠ none
  change : ∀ thesisId, ∀ change ∈ disk.changes thesisId,
    disk.theses thesisId ≠ none ∧ disk.Chained thesisId
  chain : ∀ thesisId thesis, disk.theses thesisId = some thesis →
    IsChain thesisId thesis.observedAt (disk.changes thesisId) ∧
      (thesisId :: (disk.changes thesisId).map (·.eventId)).Nodup

/-- A later disk has everything that was there. -/
structure Grows (disk later : Disk) : Prop where
  anchor : ∀ store, disk.anchor = some store → later.anchor = some store
  identities : ∀ nameSpace, disk.identities nameSpace ≠ none → later.identities nameSpace ≠ none
  theses : ∀ thesisId thesis, disk.theses thesisId = some thesis →
    later.theses thesisId = some thesis
  changes : ∀ thesisId, disk.changes thesisId <+: later.changes thesisId

theorem Grows.refl (disk : Disk) : disk.Grows disk :=
  ⟨fun _ h => h, fun _ h => h, fun _ _ h => h, fun _ => List.prefix_rfl⟩

theorem Grows.trans {disk later last : Disk} (h : disk.Grows later) (h' : later.Grows last) :
    disk.Grows last :=
  ⟨fun _ hs => h'.anchor _ (h.anchor _ hs), fun _ hs => h'.identities _ (h.identities _ hs),
    fun _ _ hs => h'.theses _ _ (h.theses _ _ hs), fun _ => (h.changes _).trans (h'.changes _)⟩

variable {sha : Sha256} {texts : Set (List JsonAtom)} {disk later : Disk} {thesisId : String}

theorem Extends.grows (h : disk.Extends later) : disk.Grows later where
  anchor store hstore := h.anchor.trans hstore
  identities nameSpace hne := by
    rw [h.identities nameSpace hne]
    exact hne
  theses thesisId thesis hthesis := by rw [h.theses, hthesis]
  changes thesisId := h.changes ▸ List.prefix_rfl

theorem Opens.grows (h : disk.Opens later) : disk.Grows later where
  anchor := h.anchor
  identities nameSpace hne := by rwa [h.identities]
  theses thesisId thesis hthesis := by rw [h.theses, hthesis]
  changes thesisId := h.changes ▸ List.prefix_rfl

theorem Chained.grows (h : disk.Chained thesisId) (hgrows : disk.Grows later) :
    later.Chained thesisId :=
  fun part hpart => hgrows.identities part (h part hpart)

/-- A later disk with the same files. -/
theorem Inv.of_grows (h : disk.Inv sha texts) (hgrows : disk.Grows later)
    (hregistry : later.IsRegistry) (htheses : later.theses = disk.theses)
    (hchanges : later.changes = disk.changes) : later.Inv sha texts where
  registry := hregistry
  thesis thesisId thesis hthesis := by
    rw [htheses] at hthesis
    obtain ⟨hid, hvalid, htext, hbound⟩ := h.thesis thesisId thesis hthesis
    exact ⟨hid, hvalid, htext, hgrows.identities _ hbound⟩
  change thesisId change hchange := by
    rw [hchanges] at hchange
    rw [htheses]
    obtain ⟨hthesis, hchained⟩ := h.change thesisId change hchange
    exact ⟨hthesis, hchained.grows hgrows⟩
  chain thesisId thesis hthesis := by
    rw [htheses] at hthesis
    rw [hchanges]
    exact h.chain thesisId thesis hthesis

/-- A new thesis is published, which has no changes. -/
theorem Inv.publishThesis (h : disk.Inv sha texts) {thesis : UsDayTradeThesis}
    (hnew : disk.theses thesis.thesisId = none) (hvalid : thesis.validateThesis sha = true)
    (htext : thesis.payload ∈ texts) (hbound : disk.identities .theses ≠ none) :
    (disk.write (.publishThesis thesis)).Inv sha texts := by
  refine ⟨⟨h.registry.bound, h.registry.registered, h.registry.unanchored, h.registry.rooted⟩,
    fun thesisId t ht => ?_, fun thesisId change hchange => ?_, fun thesisId t ht => ?_⟩
  · by_cases heq : thesisId = thesis.thesisId
    · subst heq
      rw [theses_publishThesis] at ht
      cases ht
      exact ⟨rfl, hvalid, htext, hbound⟩
    · rw [theses_publishThesis_of_ne heq] at ht
      exact h.thesis thesisId t ht
  · obtain ⟨hthesis, hchained⟩ := h.change thesisId change hchange
    refine ⟨?_, hchained⟩
    rw [theses_publishThesis_of_ne]
    · exact hthesis
    · rintro rfl
      exact hthesis hnew
  · by_cases heq : thesisId = thesis.thesisId
    · subst heq
      have hnone : disk.changes thesis.thesisId = [] :=
        List.eq_nil_iff_forall_not_mem.2 fun change hchange =>
          (h.change thesis.thesisId change hchange).1 hnew
      show IsChain _ _ (disk.changes _) ∧ _
      rw [show (disk.write (.publishThesis thesis)).changes = disk.changes from rfl, hnone]
      exact ⟨trivial, List.nodup_singleton _⟩
    · rw [theses_publishThesis_of_ne heq] at ht
      exact h.chain thesisId t ht

/-- A change is published that continues the chain. -/
theorem Inv.publishChange (h : disk.Inv sha texts) (hsha : sha.Separates texts)
    {thesis : UsDayTradeThesis} {change : UsDayThesisChange}
    (hthesis : disk.theses change.thesisId = some thesis)
    (hnext : checkChange thesis (disk.changes change.thesisId) change = .ok true)
    (hvalid : change.validateChange sha = true) (htext : change.payload ∈ texts)
    (hchained : disk.Chained change.thesisId) :
    (disk.write (.publishChange change)).Inv sha texts := by
  obtain ⟨hid, htvalid, httext, -⟩ := h.thesis _ _ hthesis
  obtain ⟨hchain, hnodup⟩ := h.chain _ _ hthesis
  have hchain : IsChain thesis.thesisId thesis.observedAt (disk.changes change.thesisId) := by
    rw [hid]
    exact hchain
  obtain ⟨hnew, hcontinued⟩ := (checkChange_eq_ok_true_iff hchain).1 hnext
  -- Its identity is not that of the thesis, whose text is another one.
  have hne : change.eventId ≠ change.thesisId := by
    rw [← hid, UsDayThesisChange.eventId_of_validateChange hvalid,
      UsDayTradeThesis.thesisId_of_validateThesis htvalid]
    exact fun heq => change.payload_ne thesis (hsha htext httext heq)
  refine ⟨⟨h.registry.bound, h.registry.registered, h.registry.unanchored, h.registry.rooted⟩,
    h.thesis, fun thesisId c hc => ?_, fun thesisId t ht => ?_⟩
  · by_cases heq : thesisId = change.thesisId
    · subst heq
      refine ⟨?_, hchained⟩
      show disk.theses change.thesisId ≠ none
      rw [hthesis]
      nofun
    · rw [changes_publishChange_of_ne heq] at hc
      exact h.change thesisId c hc
  · by_cases heq : thesisId = change.thesisId
    · subst heq
      have hsame' : some thesis = some t := hthesis.symm.trans ht
      cases hsame'
      rw [changes_publishChange]
      rw [hid] at hcontinued
      refine ⟨hcontinued, ?_⟩
      rw [List.map_append, ← List.cons_append]
      refine List.nodup_append.2 ⟨hnodup, List.nodup_singleton _, ?_⟩
      intro a ha b hb heq
      rw [List.map_singleton, List.mem_singleton] at hb
      subst hb heq
      rcases List.mem_cons.1 ha with hself | hmem
      · exact hne hself
      · exact hnew hmem
    · rw [changes_publishChange_of_ne heq]
      exact h.chain thesisId t ht

end Disk

/-! ## Reading -/

section Read

variable {sha : Sha256} {texts : Set (List JsonAtom)} {disk : Disk} {store : StoreIdentity}
  {thesisId : String} {thesis : UsDayTradeThesis} (create : Bool)

section

variable (h : disk.Inv sha texts) (hanchor : disk.anchor = some store)
include h hanchor

theorem prepare_of_chained (hchained : disk.Chained thesisId) :
    prepareBoundDirectory store (.changesOf thesisId) create disk = ([], .ok ()) := by
  rw [prepareBoundDirectory_eq h.registry hanchor]
  exact prepareParts_of_forall h.registry hanchor hchained

theorem prepare_of_theses (hbound : disk.identities .theses ≠ none) :
    prepareBoundDirectory store .theses create disk = ([], .ok ()) := by
  rw [prepareBoundDirectory_eq h.registry hanchor]
  refine prepareParts_of_forall h.registry hanchor fun part hpart => ?_
  rw [List.mem_singleton.1 hpart]
  exact hbound

theorem prepare_silent (nameSpace : Namespace) :
    (prepareBoundDirectory store nameSpace false disk).1 = [] ∧
      (disk.IsWhole → (prepareBoundDirectory store nameSpace false disk).2 = .ok ()) := by
  rw [prepareBoundDirectory_eq h.registry hanchor]
  exact prepareParts_silent h.registry hanchor

/-- A thesis that is published is read. -/
theorem thesis_eq (hthesis : disk.theses thesisId = some thesis) :
    UsDayThesisStore.thesis store thesisId disk = ([], .ok thesis) := by
  have hprepared := prepare_of_theses false h hanchor (h.thesis _ _ hthesis).2.2.2
  rw [UsDayThesisStore.thesis, bind_of_ok (congrArg Prod.snd hprepared), Writing.after, hprepared,
    List.foldl_nil, Writing.read_bind, hthesis]
  rfl

/-- One that is not is missing, unless its directory is torn. -/
theorem thesis_of_none (hnone : disk.theses thesisId = none) :
    (∃ e, UsDayThesisStore.thesis store thesisId disk = ([], .error e)) ∧
      (disk.IsWhole →
        UsDayThesisStore.thesis store thesisId disk = ([], .error .thesisMissing)) := by
  obtain ⟨hsilent, hwhole⟩ := prepare_silent h hanchor .theses
  cases hprepared : (prepareBoundDirectory store .theses false disk).2 with
  | error e =>
    rw [UsDayThesisStore.thesis, bind_of_error hprepared, hsilent]
    refine ⟨⟨e, rfl⟩, fun hw => ?_⟩
    rw [hwhole hw] at hprepared
    cases hprepared
  | ok _ =>
    rw [UsDayThesisStore.thesis, bind_of_ok hprepared, hsilent, List.nil_append, Writing.after,
      hsilent, List.foldl_nil, Writing.read_bind, hnone]
    exact ⟨⟨_, rfl⟩, fun _ => rfl⟩

/-- Nothing is written for reading a thesis, and one that is read is published. -/
theorem thesis_cases : (UsDayThesisStore.thesis store thesisId disk).1 = [] ∧
    ∀ thesis, (UsDayThesisStore.thesis store thesisId disk).2 = .ok thesis →
      disk.theses thesisId = some thesis := by
  cases hthesis : disk.theses thesisId with
  | none =>
    obtain ⟨e, he⟩ := (thesis_of_none h hanchor hthesis).1
    rw [he]
    refine ⟨rfl, fun other heq => ?_⟩
    cases heq
  | some thesis =>
    rw [thesis_eq h hanchor hthesis]
    refine ⟨rfl, fun other heq => ?_⟩
    cases heq
    rfl

omit hanchor in
/-- Where a chain is bound, its directory is there. -/
theorem directories_of_chained (hchained : disk.Chained thesisId) :
    (disk.directories (.changesOf thesisId)).isNone = false := by
  obtain ⟨registered, hregistered⟩ := Option.ne_none_iff_exists'.1
    (hchained (.changesOf thesisId) (by simp [Namespace.parts]))
  rw [(h.registry.registered _ _ hregistered).2]
  rfl

/-- The changes of a thesis that is published are read in order. -/
theorem changes_of_prepared (hthesis : disk.theses thesisId = some thesis)
    (hprepared : prepareBoundDirectory store (.changesOf thesisId) false disk = ([], .ok ())) :
    changes store thesisId disk = ([], .ok (disk.changes thesisId)) := by
  rw [changes, bind_of_ok (congrArg Prod.snd hprepared), Writing.after, hprepared, List.foldl_nil,
    Writing.read_bind]
  cases hnone : (disk.directories (.changesOf thesisId)).isNone with
  | true =>
    -- Without a directory there are no changes.
    have hempty : disk.changes thesisId = [] := by
      refine List.eq_nil_iff_forall_not_mem.2 fun change hchange => ?_
      have hthere := directories_of_chained h (h.change _ _ hchange).2
      rw [hnone] at hthere
      cases hthere
    rw [if_pos rfl, hempty]
    rfl
  | false =>
    obtain ⟨hid, -, -, -⟩ := h.thesis _ _ hthesis
    obtain ⟨hchain, hnodup⟩ := h.chain _ _ hthesis
    have horder : orderChanges thesis (disk.changes thesisId) = .ok (disk.changes thesisId) := by
      subst hid
      exact orderChanges_eq hchain hnodup (List.Perm.refl _)
    have hread := thesis_eq h hanchor hthesis
    rw [if_neg Bool.false_ne_true, Writing.read_bind, bind_of_ok (congrArg Prod.snd hread), hread,
      horder]
    rfl

theorem changes_of_chained (hthesis : disk.theses thesisId = some thesis)
    (hchained : disk.Chained thesisId) :
    changes store thesisId disk = ([], .ok (disk.changes thesisId)) :=
  changes_of_prepared h hanchor hthesis (prepare_of_chained false h hanchor hchained)

theorem changes_of_whole (hthesis : disk.theses thesisId = some thesis) (hwhole : disk.IsWhole) :
    changes store thesisId disk = ([], .ok (disk.changes thesisId)) := by
  obtain ⟨hsilent, hok⟩ := prepare_silent h hanchor (.changesOf thesisId)
  exact changes_of_prepared h hanchor hthesis (Prod.ext hsilent (hok hwhole))

end

end Read

/-! ## What holds in a phase -/

/-- A change continues the chain of its thesis. -/
def Disk.IsNext (disk : Disk) (change : UsDayThesisChange) : Prop :=
  ∃ thesis, disk.theses change.thesisId = some thesis ∧
    checkChange thesis (disk.changes change.thesisId) change = .ok true

/-- What a process has made sure of. -/
def Phase.Holds (disk : Disk) : Phase → Prop
  | closed | opening _ => True
  | opened store | preparesTheses store _ | preparesChain store _ => disk.anchor = some store
  | publishesThesis store _ => disk.anchor = some store ∧ disk.identities .theses ≠ none
  | awaitsChain store change | readsThesis store change =>
    disk.anchor = some store ∧ disk.Chained change.thesisId
  | readsChanges store change thesis =>
    disk.anchor = some store ∧ disk.Chained change.thesisId ∧
      disk.theses change.thesisId = some thesis
  | preparesNext store change | publishesChange store change =>
    disk.anchor = some store ∧ disk.Chained change.thesisId ∧ disk.IsNext change

section Advance

variable {sha : Sha256} {texts : Set (List JsonAtom)} {disk later : Disk} {phase next : Phase}
  {returned : Option Bool}

/-- It stays so, as long as the chain that it has locked does not change. -/
theorem Phase.Holds.mono (h : phase.Holds disk) (hgrows : disk.Grows later)
    (hlocked : ∀ thesisId, phase.locked? = some thesisId →
      later.changes thesisId = disk.changes thesisId) : phase.Holds later := by
  have hnext : ∀ change, phase.locked? = some change.thesisId → disk.IsNext change →
      later.IsNext change := by
    rintro change hlock ⟨thesis, hthesis, hcheck⟩
    refine ⟨thesis, hgrows.theses _ _ hthesis, ?_⟩
    rwa [hlocked _ hlock]
  cases phase with
  | closed => trivial
  | opening token => trivial
  | opened store => exact hgrows.anchor _ h
  | preparesTheses store thesis => exact hgrows.anchor _ h
  | preparesChain store change => exact hgrows.anchor _ h
  | publishesThesis store thesis => exact ⟨hgrows.anchor _ h.1, hgrows.identities _ h.2⟩
  | awaitsChain store change => exact ⟨hgrows.anchor _ h.1, h.2.grows hgrows⟩
  | readsThesis store change => exact ⟨hgrows.anchor _ h.1, h.2.grows hgrows⟩
  | readsChanges store change thesis =>
    exact ⟨hgrows.anchor _ h.1, h.2.1.grows hgrows, hgrows.theses _ _ h.2.2⟩
  | preparesNext store change =>
    exact ⟨hgrows.anchor _ h.1, h.2.1.grows hgrows, hnext change rfl h.2.2⟩
  | publishesChange store change =>
    exact ⟨hgrows.anchor _ h.1, h.2.1.grows hgrows, hnext change rfl h.2.2⟩

/-- A later disk that keeps the invariant, and all chains but one that is locked. -/
structure Disk.Kept (sha : Sha256) (texts : Set (List JsonAtom)) (locked : Option String)
    (disk later : Disk) : Prop where
  inv : later.Inv sha texts
  grows : disk.Grows later
  frame : ∀ thesisId, locked ≠ some thesisId → later.changes thesisId = disk.changes thesisId

theorem Disk.Kept.refl (h : disk.Inv sha texts) (locked : Option String) :
    disk.Kept sha texts locked disk := ⟨h, .refl disk, fun _ _ => rfl⟩

/-- The preparation of a namespace keeps all chains. -/
theorem prepare_keeps (h : disk.Inv sha texts) {store : StoreIdentity}
    (hanchor : disk.anchor = some store) (nameSpace : Namespace) (locked : Option String) :
    PreservesAt (disk.Kept sha texts locked) (prepareBoundDirectory store nameSpace true) disk := by
  intro done rest hsplit
  rw [prepareBoundDirectory_eq h.registry hanchor] at hsplit
  obtain ⟨hregistry, hextends⟩ := prepareParts_extends h.registry hanchor done rest hsplit
  exact ⟨h.of_grows hextends.grows hregistry hextends.theses hextends.changes, hextends.grows,
    fun thesisId _ => by rw [hextends.changes]⟩

theorem openStore_keeps (h : disk.Inv sha texts) (token : String) (locked : Option String) :
    PreservesAt (disk.Kept sha texts locked) (openStore token) disk := by
  intro done rest hsplit
  have hopens := openStore_opens h.registry done rest hsplit
  exact ⟨h.of_grows hopens.grows hopens.registry hopens.theses hopens.changes, hopens.grows,
    fun thesisId _ => by rw [hopens.changes]⟩

/-- What a file of a thesis is published to. -/
theorem publishThesisFile_cases (thesis : UsDayTradeThesis) (disk : Disk) :
    (disk.theses thesis.thesisId = none ∧
        publishThesisFile thesis disk = ([.publishThesis thesis], .ok true)) ∨
      (∃ existing, disk.theses thesis.thesisId = some existing ∧
        publishThesisFile thesis disk =
          ([], if existing = thesis then .ok false else .error .conflict)) := by
  rw [publishThesisFile, Writing.read_bind]
  cases hthesis : disk.theses thesis.thesisId with
  | none => exact .inl ⟨rfl, rfl⟩
  | some existing =>
    refine .inr ⟨existing, rfl, ?_⟩
    dsimp only
    split <;> rfl

/-- A change that continues the chain is published in a new file. -/
theorem publishChangeFile_eq (h : disk.Inv sha texts) {change : UsDayThesisChange}
    (hnext : disk.IsNext change) :
    change.eventId ∉ (disk.changes change.thesisId).map (·.eventId) ∧
      publishChangeFile change disk = ([.publishChange change], .ok true) := by
  obtain ⟨thesis, hthesis, hcheck⟩ := hnext
  obtain ⟨hid, -, -, -⟩ := h.thesis _ _ hthesis
  have hchain : IsChain thesis.thesisId thesis.observedAt (disk.changes change.thesisId) := by
    rw [hid]
    exact (h.chain _ _ hthesis).1
  have hnew := ((checkChange_eq_ok_true_iff hchain).1 hcheck).1
  have hfind : (disk.changes change.thesisId).find? (·.eventId = change.eventId) = none :=
    List.find?_eq_none.2 fun c hc heq => hnew (List.mem_map.2 ⟨c, hc, of_decide_eq_true heq⟩)
  refine ⟨hnew, ?_⟩
  rw [publishChangeFile, Writing.read_bind, hfind]
  rfl

/-- Once a chain is read, nothing is written, and the check of the change decides. -/
theorem advance_readsChanges (h : disk.Inv sha texts) {store : StoreIdentity}
    {change : UsDayThesisChange} {thesis : UsDayTradeThesis}
    (hphase : (Phase.readsChanges store change thesis).Holds disk) :
    (advance (.readsChanges store change thesis) disk).1 = [] ∧
      (advance (.readsChanges store change thesis) disk).2 =
        (checkChange thesis (disk.changes change.thesisId) change).map fun
          | false => (.opened store, some false)
          | true => (.preparesNext store change, none) := by
  obtain ⟨hanchor, hchained, hthesis⟩ := hphase
  have hread := changes_of_chained h hanchor hthesis hchained
  rw [advance, bind_of_ok (congrArg Prod.snd hread), Writing.after, hread]
  rcases checkChange thesis (disk.changes change.thesisId) change with e | ⟨_ | _⟩ <;> exact ⟨rfl, rfl⟩

/-- Wherever a section stops, the invariant holds, and other chains are kept. -/
theorem advance_keeps (hsha : sha.Separates texts) (h : disk.Inv sha texts) (hphase : phase.Holds disk)
    (hcall : ∀ call, phase.call? = some call → call.isValid sha = true ∧ call.text ∈ texts) :
    PreservesAt (disk.Kept sha texts phase.locked?) (advance phase) disk := by
  cases phase with
  | closed => exact .of_nil (.refl h _) rfl
  | opened store => exact .of_nil (.refl h _) rfl
  | opening token =>
    have hwrites := (bind_pure_writes (openStore token)
      (fun store => (Phase.opened store, some true)) disk).1
    exact fun done rest hsplit => openStore_keeps h token _ done rest (hwrites.symm.trans hsplit)
  | preparesTheses store thesis =>
    have hwrites := (bind_pure_writes (prepareBoundDirectory store .theses true)
      (fun _ => (Phase.publishesThesis store thesis, (none : Option Bool))) disk).1
    exact fun done rest hsplit =>
      prepare_keeps h hphase .theses _ done rest (hwrites.symm.trans hsplit)
  | publishesThesis store thesis =>
    have hwrites := (bind_pure_writes (publishThesisFile thesis)
      (fun published => (Phase.opened store, some published)) disk).1
    rcases publishThesisFile_cases thesis disk with ⟨hnew, hfile⟩ | ⟨existing, -, hfile⟩
    · obtain ⟨hvalid, htext⟩ := hcall _ rfl
      refine .of_single (.refl h _) ⟨h.publishThesis hnew hvalid htext hphase.2, ?_, fun _ _ => rfl⟩
        (hwrites.trans (congrArg Prod.fst hfile))
      refine ⟨fun _ h => h, fun _ h => h, fun thesisId t ht => ?_, fun _ => List.prefix_rfl⟩
      refine (Disk.theses_publishThesis_of_ne ?_).trans ht
      rintro rfl
      rw [hnew] at ht
      cases ht
    · exact .of_nil (.refl h _) (hwrites.trans (congrArg Prod.fst hfile))
  | preparesChain store change =>
    have hwrites := (bind_pure_writes (prepareBoundDirectory store (.changesOf change.thesisId) true)
      (fun _ => (Phase.awaitsChain store change, (none : Option Bool))) disk).1
    exact fun done rest hsplit => prepare_keeps h hphase _ _ done rest (hwrites.symm.trans hsplit)
  | awaitsChain store change => exact .of_nil (.refl h _) rfl
  | readsThesis store change =>
    have hwrites := (bind_pure_writes (UsDayThesisStore.thesis store change.thesisId)
      (fun thesis => (Phase.readsChanges store change thesis, (none : Option Bool))) disk).1
    exact .of_nil (.refl h _) (hwrites.trans (thesis_cases h hphase.1).1)
  | readsChanges store change thesis =>
    exact .of_nil (.refl h _) (advance_readsChanges h hphase).1
  | preparesNext store change =>
    have hwrites := (bind_pure_writes (prepareBoundDirectory store (.changesOf change.thesisId) true)
      (fun _ => (Phase.publishesChange store change, (none : Option Bool))) disk).1
    exact fun done rest hsplit => prepare_keeps h hphase.1 _ _ done rest (hwrites.symm.trans hsplit)
  | publishesChange store change =>
    have hwrites := (bind_pure_writes (publishChangeFile change)
      (fun published => (Phase.opened store, some published)) disk).1
    obtain ⟨hvalid, htext⟩ := hcall _ rfl
    obtain ⟨-, hchained, thesis, hthesis, hcheck⟩ := hphase
    have hfile := (publishChangeFile_eq h ⟨thesis, hthesis, hcheck⟩).2
    refine .of_single (.refl h _)
      ⟨h.publishChange hsha hthesis hcheck hvalid htext hchained, ?_, fun thesisId hne => ?_⟩
      (hwrites.trans (congrArg Prod.fst hfile))
    · refine ⟨fun _ h => h, fun _ h => h, fun _ _ h => h, fun thesisId => ?_⟩
      by_cases heq : thesisId = change.thesisId
      · subst heq
        rw [Disk.changes_publishChange]
        exact List.prefix_append _ _
      · exact (Disk.changes_publishChange_of_ne heq).symm ▸ List.prefix_rfl
    · exact Disk.changes_publishChange_of_ne fun heq => hne (congrArg some heq.symm)

/-- The directories of a namespace that is prepared are bound. -/
theorem prepare_binds (h : disk.Inv sha texts) {store : StoreIdentity}
    (hanchor : disk.anchor = some store) {nameSpace : Namespace}
    (hok : (prepareBoundDirectory store nameSpace true disk).2 = .ok ()) :
    ∀ part ∈ nameSpace.parts,
      ((prepareBoundDirectory store nameSpace true).after disk).identities part ≠ none := by
  have heq := @prepareBoundDirectory_eq store true nameSpace disk h.registry hanchor
  rw [heq] at hok
  rw [Writing.after, heq]
  exact prepareParts_binds h.registry hanchor hok

/-- After a section, what the next phase relies on holds, and the call and its lock go on, or the
    call has returned. -/
theorem advance_holds (h : disk.Inv sha texts) (hphase : phase.Holds disk)
    (hgrows : disk.Grows ((advance phase).after disk))
    (hok : (advance phase disk).2 = .ok (next, returned)) :
    next.Holds ((advance phase).after disk) ∧
      (next.call? = phase.call? ∨ next.call? = none) ∧
      (next.locked? = none ∨ next.locked? = phase.locked? ∨
        ∃ store change, phase = .awaitsChain store change ∧
          next.locked? = some change.thesisId) := by
  cases phase with
  | closed =>
    cases hok
    exact ⟨trivial, .inl rfl, .inl rfl⟩
  | opened store =>
    cases hok
    exact ⟨hphase, .inl rfl, .inl rfl⟩
  | opening token =>
    obtain ⟨store, hopened, heq, hafter⟩ := exists_of_bind_pure hok
    cases heq
    refine ⟨?_, .inl rfl, .inl rfl⟩
    rw [advance, hafter]
    exact openStore_binds h.registry hopened
  | preparesTheses store thesis =>
    obtain ⟨_, hprepared, heq, hafter⟩ := exists_of_bind_pure hok
    cases heq
    refine ⟨⟨hgrows.anchor _ hphase, ?_⟩, .inl rfl, .inl rfl⟩
    rw [advance, hafter]
    exact prepare_binds h hphase hprepared _ (List.mem_singleton_self _)
  | publishesThesis store thesis =>
    obtain ⟨_, -, heq, -⟩ := exists_of_bind_pure hok
    cases heq
    exact ⟨hgrows.anchor _ hphase.1, .inr rfl, .inl rfl⟩
  | preparesChain store change =>
    obtain ⟨_, hprepared, heq, hafter⟩ := exists_of_bind_pure hok
    cases heq
    refine ⟨⟨hgrows.anchor _ hphase, ?_⟩, .inl rfl, .inl rfl⟩
    rw [advance, hafter]
    exact prepare_binds h hphase hprepared
  | awaitsChain store change =>
    cases hok
    exact ⟨hphase, .inl rfl, .inr (.inr ⟨store, change, rfl, rfl⟩)⟩
  | readsThesis store change =>
    obtain ⟨thesis, hread, heq, hafter⟩ := exists_of_bind_pure hok
    cases heq
    have hthesis := (thesis_cases h hphase.1).2 thesis hread
    exact ⟨⟨hgrows.anchor _ hphase.1, hphase.2.grows hgrows, hgrows.theses _ _ hthesis⟩, .inl rfl,
      .inr (.inl rfl)⟩
  | readsChanges store change thesis =>
    obtain ⟨hwrites, hresult⟩ := advance_readsChanges h hphase
    rw [Writing.after, hwrites, List.foldl_nil]
    rw [hresult] at hok
    rcases hcheck : checkChange thesis (disk.changes change.thesisId) change with e | ⟨_ | _⟩
    · rw [hcheck] at hok
      cases hok
    · rw [hcheck] at hok
      cases hok
      exact ⟨hphase.1, .inr rfl, .inl rfl⟩
    · rw [hcheck] at hok
      cases hok
      exact ⟨⟨hphase.1, hphase.2.1, thesis, hphase.2.2, hcheck⟩, .inl rfl, .inr (.inl rfl)⟩
  | preparesNext store change =>
    obtain ⟨_, hprepared, heq, hafter⟩ := exists_of_bind_pure hok
    cases heq
    refine ⟨?_, .inl rfl, .inr (.inl rfl)⟩
    -- Its directories were bound before, so that nothing changes.
    have hnothing := prepare_of_chained true h hphase.1 hphase.2.1
    rw [advance, hafter, Writing.after, hnothing]
    exact hphase
  | publishesChange store change =>
    obtain ⟨_, -, heq, -⟩ := exists_of_bind_pure hok
    cases heq
    exact ⟨hgrows.anchor _ hphase.1, .inr rfl, .inl rfl⟩

/-- What the end of a call to publish a change tells is true. -/
structure IsTold (disk : Disk) (phase : Phase) (change : UsDayThesisChange) : Prop where
  new : ∀ next, (advance phase disk).2 = .ok (next, some true) →
    change ∉ disk.changes change.thesisId ∧
      ((advance phase).after disk).changes change.thesisId =
        disk.changes change.thesisId ++ [change]
  known : ∀ next, (advance phase disk).2 = .ok (next, some false) →
    change ∈ disk.changes change.thesisId ∧
      ((advance phase).after disk).changes change.thesisId = disk.changes change.thesisId
  refused : ∀ e, (advance phase disk).2 = .error e →
    change ∉ disk.changes change.thesisId ∧
      ((advance phase).after disk).changes change.thesisId = disk.changes change.thesisId

/-- A section that does not end the call, unless it is refused. -/
theorem isTold_of_bind_pure {α : Type} {x : DiskWriting α} {g : α → Phase}
    {change : UsDayThesisChange} (hadvance : advance phase = x >>= fun a => pure (g a, none))
    (hrefused : ∀ e, (x disk).2 = .error e → change ∉ disk.changes change.thesisId ∧
      (x.after disk).changes change.thesisId = disk.changes change.thesisId) :
    IsTold disk phase change := by
  refine ⟨fun next hok => ?_, fun next hok => ?_, fun e herror => ?_⟩
  · rw [hadvance] at hok
    obtain ⟨a, -, heq, -⟩ := exists_of_bind_pure hok
    cases heq
  · rw [hadvance] at hok
    obtain ⟨a, -, heq, -⟩ := exists_of_bind_pure hok
    cases heq
  · rw [hadvance] at herror ⊢
    obtain ⟨hx, hafter⟩ := error_of_bind_pure herror
    rw [hafter]
    exact hrefused e hx

theorem isTold (h : disk.Inv sha texts) (hphase : phase.Holds disk) {change : UsDayThesisChange}
    (hcall : phase.call? = some (.publishChange change)) : IsTold disk phase change := by
  cases phase with
  | closed => cases hcall
  | opened store => cases hcall
  | opening token => cases hcall
  | preparesTheses store thesis => cases hcall
  | publishesThesis store thesis => cases hcall
  | preparesChain store change =>
    cases hcall
    refine isTold_of_bind_pure rfl fun e herror => ⟨fun hmem => ?_, ?_⟩
    · rw [prepare_of_chained true h hphase (h.change _ _ hmem).2] at herror
      cases herror
    · exact (prepare_keeps h hphase _ none).after.frame _ nofun
  | awaitsChain store change =>
    cases hcall
    exact ⟨fun _ => nofun, fun _ => nofun, fun _ => nofun⟩
  | readsThesis store change =>
    cases hcall
    refine isTold_of_bind_pure rfl fun e herror => ⟨fun hmem => ?_, ?_⟩
    · obtain ⟨thesis, hthesis⟩ := Option.ne_none_iff_exists'.1 (h.change _ _ hmem).1
      rw [thesis_eq h hphase.1 hthesis] at herror
      cases herror
    · rw [Writing.after, (thesis_cases h hphase.1).1]
      rfl
  | readsChanges store change thesis =>
    cases hcall
    obtain ⟨hwrites, hresult⟩ := advance_readsChanges h hphase
    have hnodup := (List.nodup_cons.1 (h.chain _ _ hphase.2.2).2).2
    refine ⟨fun next hok => ?_, fun next hok => ?_, fun e herror => ?_⟩
    all_goals rw [Writing.after, hwrites, List.foldl_nil]
    · rw [hresult] at hok
      rcases hcheck : checkChange thesis (disk.changes change.thesisId) change with e | ⟨_ | _⟩ <;>
        rw [hcheck] at hok <;> cases hok
    · rw [hresult] at hok
      rcases hcheck : checkChange thesis (disk.changes change.thesisId) change with e | ⟨_ | _⟩ <;>
        rw [hcheck] at hok <;> cases hok
      exact ⟨mem_of_checkChange hcheck, rfl⟩
    · rw [hresult] at herror
      refine ⟨fun hmem => ?_, rfl⟩
      rw [checkChange_of_mem hnodup hmem] at herror
      cases herror
  | preparesNext store change =>
    cases hcall
    refine isTold_of_bind_pure rfl fun e herror => ?_
    rw [prepare_of_chained true h hphase.1 hphase.2.1] at herror
    cases herror
  | publishesChange store change =>
    cases hcall
    obtain ⟨hnew, hfile⟩ := publishChangeFile_eq h hphase.2.2
    have hadvance : advance (.publishesChange store change) disk =
        ([.publishChange change], .ok (.opened store, some true)) := by
      rw [advance, bind_of_ok (congrArg Prod.snd hfile), hfile]
      rfl
    refine ⟨fun next hok => ⟨fun hmem => hnew (List.mem_map_of_mem hmem), ?_⟩, fun next hok => ?_,
      fun e herror => ?_⟩
    · rw [Writing.after, hadvance]
      exact Disk.changes_publishChange
    · rw [hadvance] at hok
      cases hok
    · rw [hadvance] at herror
      cases herror

end Advance

end TradingAgent.UsDay
