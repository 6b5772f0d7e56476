import Mathlib.Logic.Function.Basic
import TradingAgent.Library.Writing
import TradingAgent.UsDay.Chain

/-!
# The directory of the thesis store

The root of the store and its namespaces are directories that are bound to their inodes: the root by
an anchor next to it, each namespace by an identity in a registry (`Disk`).

* Opening the store creates the root, the registry, a marker in the root and the anchor, in this
  order, or verifies them (`openStore`).
* Preparing a namespace creates each directory of its path that is missing and registers its
  identity, or verifies it (`prepareBoundDirectory`).

Each file-system call that changes something is a write, after which a process may crash
(`DiskWrite`). Both are done under an exclusive lock of the store, so that nothing else comes
between their writes. The file of a registered identity is named by the digest of the path, and is
found by the path here. A directory is empty when it was just created.
-/

namespace TradingAgent.UsDay

open Writing (read raise)

/-- The number of a directory, that another one never gets. -/
abbrev Inode := ℕ

/-- What the anchor and the marker say: `_identity_payload`. -/
structure StoreIdentity where
  root : Inode
  registry : Inode
  token : String
  deriving DecidableEq, Repr

/-- The directories below the root. -/
inductive Namespace
  | theses
  | changes
  | changesOf (thesisId : String)
  deriving DecidableEq, Repr

/-- The directories of a path. -/
def Namespace.parts : Namespace → List Namespace
  | theses => [theses]
  | changes => [changes]
  | changesOf thesisId => [changes, changesOf thesisId]

/-- What is registered of a directory: `_namespace_payload`. -/
structure NamespaceIdentity where
  inode : Inode
  store : StoreIdentity
  deriving DecidableEq, Repr

/-- The directories and the files of the store. -/
structure Disk where
  root : Option Inode := none
  registry : Option Inode := none
  marker : Option StoreIdentity := none
  anchor : Option StoreIdentity := none
  directories : Namespace → Option Inode := fun _ => none
  identities : Namespace → Option NamespaceIdentity := fun _ => none
  theses : String → Option UsDayTradeThesis := fun _ => none
  changes : String → List UsDayThesisChange := fun _ => []
  /-- The number of the next directory that is created. -/
  nextInode : Inode := 0

inductive DiskWrite
  | mkdirRoot
  | mkdirRegistry
  | publishMarker (identity : StoreIdentity)
  | publishAnchor (identity : StoreIdentity)
  | mkdir (nameSpace : Namespace)
  | register (nameSpace : Namespace) (identity : NamespaceIdentity)
  | publishThesis (thesis : UsDayTradeThesis)
  | publishChange (change : UsDayThesisChange)
  deriving DecidableEq, Repr

namespace Disk

def write (disk : Disk) : DiskWrite → Disk
  | .mkdirRoot => { disk with root := some disk.nextInode, nextInode := disk.nextInode + 1 }
  | .mkdirRegistry => { disk with registry := some disk.nextInode, nextInode := disk.nextInode + 1 }
  | .publishMarker identity => { disk with marker := some identity }
  | .publishAnchor identity => { disk with anchor := some identity }
  | .mkdir nameSpace =>
    { disk with
      directories := Function.update disk.directories nameSpace (some disk.nextInode)
      nextInode := disk.nextInode + 1 }
  | .register nameSpace identity =>
    { disk with identities := Function.update disk.identities nameSpace (some identity) }
  | .publishThesis thesis =>
    { disk with theses := Function.update disk.theses thesis.thesisId (some thesis) }
  | .publishChange change =>
    { disk with
      changes := Function.update disk.changes change.thesisId
        (disk.changes change.thesisId ++ [change]) }

/-- Whether the root has nothing in it. -/
def rootIsEmpty (disk : Disk) : Bool :=
  disk.registry = none ∧ disk.marker = none ∧ disk.directories .theses = none ∧
    disk.directories .changes = none

/-- Whether the root is that of an identity. -/
def isBound (disk : Disk) (identity : StoreIdentity) : Bool :=
  disk.root = some identity.root ∧ disk.registry = some identity.registry ∧
    disk.anchor = some identity ∧ disk.marker = some identity

variable {disk : Disk} {thesis : UsDayTradeThesis} {change : UsDayThesisChange} {thesisId : String}

@[simp] theorem theses_publishThesis :
    (disk.write (.publishThesis thesis)).theses thesis.thesisId = some thesis :=
  Function.update_self _ _ _

theorem theses_publishThesis_of_ne (h : thesisId ≠ thesis.thesisId) :
    (disk.write (.publishThesis thesis)).theses thesisId = disk.theses thesisId :=
  Function.update_of_ne h _ _

@[simp] theorem changes_publishChange :
    (disk.write (.publishChange change)).changes change.thesisId =
      disk.changes change.thesisId ++ [change] :=
  Function.update_self _ _ _

theorem changes_publishChange_of_ne (h : thesisId ≠ change.thesisId) :
    (disk.write (.publishChange change)).changes thesisId = disk.changes thesisId :=
  Function.update_of_ne h _ _

end Disk

abbrev DiskWriting (α : Type) := Writing Disk.write ThesisStoreError α

/-! ## Opening the store -/

/-- What is created in a root that is empty. -/
def createStore (token : String) : DiskWriting StoreIdentity := do
  Writing.commit .mkdirRegistry
  match ← read fun disk => (disk.root, disk.registry) with
  | (some root, some registry) =>
    let identity : StoreIdentity := ⟨root, registry, token⟩
    Writing.commit (.publishMarker identity)
    Writing.commit (.publishAnchor identity)
    return identity
  | _ => raise .rootNotBound

/-- The method `_initialize_or_verify_root`, with the token that a new store gets. -/
def openStore (token : String) : DiskWriting StoreIdentity := do
  let disk ← read id
  match disk.anchor, disk.root with
  | some identity, some _ => if disk.isBound identity then return identity else raise .rootNotBound
  | some _, none => raise .rootNotBound
  | none, some _ => if disk.rootIsEmpty then createStore token else raise .rootNotBound
  | none, none =>
    Writing.commit .mkdirRoot
    createStore token

/-! ## Preparing a namespace -/

/-- The loop over the directories of a path. -/
def prepareParts (identity : StoreIdentity) (create : Bool) : List Namespace → DiskWriting Unit
  | [] => pure ()
  | part :: parts => do
    match ← read fun disk => (disk.directories part, disk.identities part) with
    | (some inode, some registered) =>
      if registered = ⟨inode, identity⟩ then prepareParts identity create parts
      else raise .directoryNotBound
    | (some _, none) => raise .directoryNotBound
    | (none, _) =>
      if create = true then
        Writing.commit (.mkdir part)
        match ← read fun disk => (disk.directories part, disk.identities part) with
        | (some inode, none) =>
          Writing.commit (.register part ⟨inode, identity⟩)
          prepareParts identity create parts
        | (some inode, some registered) =>
          if registered = ⟨inode, identity⟩ then prepareParts identity create parts
          else raise .directoryNotBound
        | (none, _) => raise .directoryNotBound
      else return ()

def prepareBoundDirectory (identity : StoreIdentity) (nameSpace : Namespace) (create : Bool) :
    DiskWriting Unit := do
  if ← read (·.isBound identity) then prepareParts identity create nameSpace.parts
  else raise .rootNotBound

/-! ## Directories that are bound -/

/-- The write leaves something behind that is not bound yet. -/
def DiskWrite.tears : DiskWrite → Bool
  | mkdirRegistry | publishMarker _ | mkdir _ => true
  | mkdirRoot | publishAnchor _ | register _ _ | publishThesis _ | publishChange _ => false

/-- The last of some writes leaves something behind that is not bound. -/
def isTorn (writes : List DiskWrite) : Bool := writes.getLast?.any (·.tears)

namespace Disk

/-- What holds of the directories, wherever processes have crashed: a root with an anchor is bound,
    and what is registered is a directory that is there. -/
structure IsRegistry (disk : Disk) : Prop where
  bound : ∀ identity, disk.anchor = some identity → disk.isBound identity = true
  registered : ∀ nameSpace registered, disk.identities nameSpace = some registered →
    disk.anchor = some registered.store ∧ disk.directories nameSpace = some registered.inode
  unanchored : disk.anchor = none → ∀ nameSpace, disk.directories nameSpace = none
  rooted : disk.root = none → disk.registry = none ∧ disk.marker = none

/-- Nothing is left behind that is not bound. -/
structure IsWhole (disk : Disk) : Prop where
  root : disk.anchor = none → disk.registry = none ∧ disk.marker = none
  registered : ∀ nameSpace, disk.directories nameSpace ≠ none → disk.identities nameSpace ≠ none

/-- A later disk, with the same files, and with what was bound before. -/
structure Extends (disk later : Disk) : Prop where
  anchor : later.anchor = disk.anchor
  theses : later.theses = disk.theses
  changes : later.changes = disk.changes
  identities : ∀ nameSpace, disk.identities nameSpace ≠ none →
    later.identities nameSpace = disk.identities nameSpace

theorem Extends.refl (disk : Disk) : disk.Extends disk := ⟨rfl, rfl, rfl, fun _ _ => rfl⟩

theorem Extends.trans {disk later last : Disk} (h : disk.Extends later) (h' : later.Extends last) :
    disk.Extends last where
  anchor := h'.anchor.trans h.anchor
  theses := h'.theses.trans h.theses
  changes := h'.changes.trans h.changes
  identities nameSpace hne := by
    have hsame := h.identities nameSpace hne
    rw [← hsame] at hne ⊢
    exact h'.identities nameSpace hne

end Disk

section Prepare

variable {identity : StoreIdentity} {create : Bool} {part nameSpace : Namespace}
  {parts : List Namespace} {disk : Disk} {inode : Inode}

@[simp] theorem directories_mkdir : (disk.write (.mkdir part)).directories part =
    some disk.nextInode := Function.update_self _ _ _

theorem directories_mkdir_of_ne (h : nameSpace ≠ part) :
    (disk.write (.mkdir part)).directories nameSpace = disk.directories nameSpace :=
  Function.update_of_ne h _ _

@[simp] theorem identities_register {registered : NamespaceIdentity} :
    (disk.write (.register part registered)).identities part = some registered :=
  Function.update_self _ _ _

theorem identities_register_of_ne {registered : NamespaceIdentity} (h : nameSpace ≠ part) :
    (disk.write (.register part registered)).identities nameSpace = disk.identities nameSpace :=
  Function.update_of_ne h _ _

/-- The directory that is created, and bound. -/
def bindPart (identity : StoreIdentity) (part : Namespace) (disk : Disk) : Disk :=
  (disk.write (.mkdir part)).write (.register part ⟨disk.nextInode, identity⟩)

theorem isRegistry_mkdir (h : disk.IsRegistry) (hanchor : disk.anchor = some identity)
    (hnone : disk.directories part = none) : (disk.write (.mkdir part)).IsRegistry := by
  refine ⟨h.bound, fun nameSpace registered hregistered => ?_, fun hno => ?_, h.rooted⟩
  · obtain ⟨hstore, hdirectory⟩ := h.registered nameSpace registered hregistered
    have hne : nameSpace ≠ part := by
      rintro rfl
      rw [hnone] at hdirectory
      cases hdirectory
    exact ⟨hstore, (directories_mkdir_of_ne hne).trans hdirectory⟩
  · exact absurd (hanchor.symm.trans hno) nofun

theorem isRegistry_bindPart (h : disk.IsRegistry) (hanchor : disk.anchor = some identity)
    (hnone : disk.directories part = none) : (bindPart identity part disk).IsRegistry := by
  have hmade := isRegistry_mkdir h hanchor hnone
  refine ⟨h.bound, fun nameSpace registered hregistered => ?_, hmade.unanchored, h.rooted⟩
  by_cases heq : nameSpace = part
  · subst heq
    rw [bindPart, identities_register] at hregistered
    cases hregistered
    exact ⟨hanchor, directories_mkdir⟩
  · refine hmade.registered nameSpace registered ?_
    rwa [bindPart, identities_register_of_ne heq] at hregistered

theorem identities_of_directories (h : disk.IsRegistry) (hnone : disk.directories part = none) :
    disk.identities part = none := by
  cases hidentity : disk.identities part with
  | none => rfl
  | some registered =>
    have hsome := (h.registered part registered hidentity).2
    rw [hnone] at hsome
    cases hsome

theorem extends_mkdir : disk.Extends (disk.write (.mkdir part)) := ⟨rfl, rfl, rfl, fun _ _ => rfl⟩

theorem extends_bindPart (h : disk.IsRegistry) (hnone : disk.directories part = none) :
    disk.Extends (bindPart identity part disk) := by
  refine ⟨rfl, rfl, rfl, fun nameSpace hsome => identities_register_of_ne ?_⟩
  rintro rfl
  exact hsome (identities_of_directories h hnone)

/-- A directory that is bound is passed. -/
theorem prepareParts_of_bound (h : disk.IsRegistry) (hanchor : disk.anchor = some identity)
    (hbound : disk.identities part ≠ none) :
    prepareParts identity create (part :: parts) disk = prepareParts identity create parts disk := by
  obtain ⟨registered, hregistered⟩ := Option.ne_none_iff_exists'.1 hbound
  obtain ⟨hstore, hdirectory⟩ := h.registered part registered hregistered
  have hsame : registered = ⟨registered.inode, identity⟩ := by
    rw [hanchor] at hstore
    cases hstore
    rfl
  rw [prepareParts, Writing.read_bind, hregistered, hdirectory]
  dsimp only
  rw [if_pos hsame]

/-- One that is there, but is not bound, is refused. -/
theorem prepareParts_of_torn (hdirectory : disk.directories part ≠ none)
    (hidentity : disk.identities part = none) :
    prepareParts identity create (part :: parts) disk = ([], .error .directoryNotBound) := by
  obtain ⟨inode, hinode⟩ := Option.ne_none_iff_exists'.1 hdirectory
  rw [prepareParts, Writing.read_bind, hinode, hidentity]
  rfl

/-- One that is missing is created and bound. -/
theorem prepareParts_of_missing (h : disk.IsRegistry) (hnone : disk.directories part = none) :
    prepareParts identity true (part :: parts) disk =
      (.mkdir part :: .register part ⟨disk.nextInode, identity⟩ ::
        (prepareParts identity true parts (bindPart identity part disk)).1,
        (prepareParts identity true parts (bindPart identity part disk)).2) := by
  have hidentity : (disk.write (.mkdir part)).identities part = none :=
    show disk.identities part = none from identities_of_directories h hnone
  rw [prepareParts, Writing.read_bind, hnone]
  dsimp only
  rw [if_pos rfl, Writing.commit_bind, Writing.read_bind, directories_mkdir, hidentity]
  rfl

/-- Or it is left, if nothing is to be created. -/
theorem prepareParts_of_absent (hnone : disk.directories part = none) :
    prepareParts identity false (part :: parts) disk = ([], .ok ()) := by
  rw [prepareParts, Writing.read_bind, hnone]
  rfl

/-- If all the directories are bound, nothing is done. -/
theorem prepareParts_of_forall (h : disk.IsRegistry) (hanchor : disk.anchor = some identity)
    (hall : ∀ part ∈ parts, disk.identities part ≠ none) :
    prepareParts identity create parts disk = ([], .ok ()) := by
  induction parts with
  | nil => rfl
  | cons part parts ih =>
    rw [List.forall_mem_cons] at hall
    rw [prepareParts_of_bound h hanchor hall.1, ih hall.2]

/-- Wherever the preparation stops, what was bound before still is, and the files are the same. -/
theorem prepareParts_extends (h : disk.IsRegistry) (hanchor : disk.anchor = some identity) :
    Writing.PreservesAt (fun later => later.IsRegistry ∧ disk.Extends later)
      (prepareParts identity create parts) disk := by
  induction parts generalizing disk with
  | nil => exact .of_nil ⟨h, .refl disk⟩ rfl
  | cons part parts ih =>
    by_cases hidentity : disk.identities part = none
    · by_cases hdirectory : disk.directories part = none
      · cases create with
        | false => exact .of_nil ⟨h, .refl disk⟩ (congrArg Prod.fst (prepareParts_of_absent hdirectory))
        | true =>
          -- The directory is created, and then the rest.
          intro done rest hsplit
          rw [prepareParts_of_missing h hdirectory] at hsplit
          rcases done with _ | ⟨first, _ | ⟨second, done⟩⟩
          · exact ⟨h, .refl disk⟩
          · cases hsplit
            exact ⟨isRegistry_mkdir h hanchor hdirectory, extends_mkdir⟩
          · simp only [List.cons_append, List.cons.injEq] at hsplit
            obtain ⟨rfl, rfl, hsplit⟩ := hsplit
            obtain ⟨hregistry, hextends⟩ := ih (isRegistry_bindPart h hanchor hdirectory) hanchor
              done rest hsplit
            exact ⟨hregistry, (extends_bindPart h hdirectory).trans hextends⟩
      · exact .of_nil ⟨h, .refl disk⟩ (congrArg Prod.fst (prepareParts_of_torn hdirectory hidentity))
    · intro done rest hsplit
      rw [prepareParts_of_bound h hanchor hidentity] at hsplit
      exact ih h hanchor done rest hsplit

/-- If nothing is refused, the directories are bound after that. -/
theorem prepareParts_binds (h : disk.IsRegistry) (hanchor : disk.anchor = some identity)
    (hok : (prepareParts identity true parts disk).2 = .ok ()) :
    ∀ part ∈ parts, ((prepareParts identity true parts).after disk).identities part ≠ none := by
  induction parts generalizing disk with
  | nil => exact List.forall_mem_nil _
  | cons part parts ih =>
    by_cases hidentity : disk.identities part = none
    · by_cases hdirectory : disk.directories part = none
      · have hbound := isRegistry_bindPart h hanchor hdirectory
        have hafter : (prepareParts identity true (part :: parts)).after disk =
            (prepareParts identity true parts).after (bindPart identity part disk) := by
          rw [Writing.after, prepareParts_of_missing h hdirectory]
          rfl
        rw [prepareParts_of_missing h hdirectory] at hok
        rw [hafter]
        refine List.forall_mem_cons.2 ⟨?_, ih hbound hanchor hok⟩
        have hfirst : (bindPart identity part disk).identities part ≠ none := by
          rw [bindPart, identities_register]
          exact Option.some_ne_none _
        rw [(prepareParts_extends hbound hanchor).after.2.identities part hfirst]
        exact hfirst
      · rw [prepareParts_of_torn hdirectory hidentity] at hok
        cases hok
    · have hafter : (prepareParts identity true (part :: parts)).after disk =
          (prepareParts identity true parts).after disk := by
        rw [Writing.after, prepareParts_of_bound h hanchor hidentity]
        rfl
      rw [prepareParts_of_bound h hanchor hidentity] at hok
      rw [hafter]
      refine List.forall_mem_cons.2 ⟨?_, ih h hanchor hok⟩
      rw [(prepareParts_extends h hanchor).after.2.identities part hidentity]
      exact hidentity

theorem isWhole_bindPart (hanchor : disk.anchor = some identity) (hwhole : disk.IsWhole) :
    (bindPart identity part disk).IsWhole := by
  refine ⟨fun hno => absurd (hanchor.symm.trans hno) nofun, fun nameSpace hdirectory => ?_⟩
  by_cases heq : nameSpace = part
  · subst heq
    rw [bindPart, identities_register]
    nofun
  · rw [bindPart, identities_register_of_ne heq]
    refine hwhole.registered nameSpace ?_
    rwa [bindPart, show ((disk.write (.mkdir part)).write (.register part _)).directories nameSpace =
      (disk.write (.mkdir part)).directories nameSpace from rfl, directories_mkdir_of_ne heq]
      at hdirectory

/-- If nothing was torn, nothing is refused, and nothing is torn unless the preparation stops right
    after it has created a directory. Then that is refused for ever. -/
theorem prepareParts_whole (h : disk.IsRegistry) (hanchor : disk.anchor = some identity)
    (hwhole : disk.IsWhole) :
    (prepareParts identity true parts disk).2 = .ok () ∧
      ∀ done rest, (prepareParts identity true parts disk).1 = done ++ rest →
        (isTorn done = false → (done.foldl Disk.write disk).IsWhole) ∧
        (isTorn done = true → prepareParts identity true parts (done.foldl Disk.write disk) =
          ([], .error .directoryNotBound)) := by
  induction parts generalizing disk with
  | nil =>
    refine ⟨rfl, fun done rest hsplit => ?_⟩
    obtain ⟨rfl, -⟩ := List.append_eq_nil_iff.1 hsplit.symm
    exact ⟨fun _ => hwhole, nofun⟩
  | cons part parts ih =>
    by_cases hdirectory : disk.directories part = none
    · have hbound := isRegistry_bindPart h hanchor hdirectory
      obtain ⟨hok, hrest⟩ := ih hbound hanchor (isWhole_bindPart hanchor hwhole)
      rw [prepareParts_of_missing h hdirectory]
      refine ⟨hok, fun done rest hsplit => ?_⟩
      rcases done with _ | ⟨first, _ | ⟨second, done⟩⟩
      · exact ⟨fun _ => hwhole, nofun⟩
      · -- Between the directory and its identity.
        cases hsplit
        have hidentity : (disk.write (.mkdir part)).identities part = none :=
          show disk.identities part = none from identities_of_directories h hdirectory
        refine ⟨nofun, fun _ => prepareParts_of_torn ?_ hidentity⟩
        show (disk.write (.mkdir part)).directories part ≠ none
        rw [directories_mkdir]
        nofun
      · simp only [List.cons_append, List.cons.injEq] at hsplit
        obtain ⟨rfl, rfl, hsplit⟩ := hsplit
        obtain ⟨hclean, htorn⟩ := hrest done rest hsplit
        have hlast : isTorn (.mkdir part :: .register part ⟨disk.nextInode, identity⟩ :: done) =
            isTorn done := by
          cases done with
          | nil => rfl
          | cons w done => rfl
        rw [hlast]
        refine ⟨hclean, fun h' => ?_⟩
        -- The first directory is passed, and the rest is refused.
        obtain ⟨hregistry, hextends⟩ := (prepareParts_extends hbound hanchor) done rest hsplit
        have hfirst : (bindPart identity part disk).identities part ≠ none := by
          rw [bindPart, identities_register]
          exact Option.some_ne_none _
        refine (prepareParts_of_bound hregistry (hextends.anchor.trans hanchor) ?_).trans (htorn h')
        rw [hextends.identities part hfirst]
        exact hfirst
    · have hidentity := hwhole.registered part hdirectory
      obtain ⟨hok, hrest⟩ := ih h hanchor hwhole
      rw [prepareParts_of_bound h hanchor hidentity]
      refine ⟨hok, fun done rest hsplit => ?_⟩
      obtain ⟨hclean, htorn⟩ := hrest done rest hsplit
      obtain ⟨hregistry, hextends⟩ := (prepareParts_extends h hanchor) done rest hsplit
      refine ⟨hclean, fun h' => ?_⟩
      refine (prepareParts_of_bound hregistry (hextends.anchor.trans hanchor) ?_).trans (htorn h')
      rw [hextends.identities part hidentity]
      exact hidentity

/-- Without creating anything, nothing is written, and nothing is refused where nothing is torn. -/
theorem prepareParts_silent (h : disk.IsRegistry) (hanchor : disk.anchor = some identity) :
    (prepareParts identity false parts disk).1 = [] ∧
      (disk.IsWhole → (prepareParts identity false parts disk).2 = .ok ()) := by
  induction parts with
  | nil => exact ⟨rfl, fun _ => rfl⟩
  | cons part parts ih =>
    by_cases hidentity : disk.identities part = none
    · by_cases hdirectory : disk.directories part = none
      · rw [prepareParts_of_absent hdirectory]
        exact ⟨rfl, fun _ => rfl⟩
      · rw [prepareParts_of_torn hdirectory hidentity]
        exact ⟨rfl, fun hwhole => absurd hidentity (hwhole.registered part hdirectory)⟩
    · rw [prepareParts_of_bound h hanchor hidentity]
      exact ih

theorem prepareBoundDirectory_eq (h : disk.IsRegistry) (hanchor : disk.anchor = some identity) :
    prepareBoundDirectory identity nameSpace create disk =
      prepareParts identity create nameSpace.parts disk := by
  rw [prepareBoundDirectory, Writing.read_bind, if_pos (h.bound identity hanchor)]

end Prepare

section Open

variable {identity : StoreIdentity} {disk : Disk} {token : String}

/-- A store that is anchored is opened with its identity. -/
theorem openStore_of_anchor (h : disk.IsRegistry) (hanchor : disk.anchor = some identity) :
    openStore token disk = ([], .ok identity) := by
  have hbound := h.bound identity hanchor
  have hroot : disk.root = some identity.root := by
    rw [Disk.isBound, decide_eq_true_eq] at hbound
    exact hbound.1
  rw [openStore, Writing.read_bind, id, hanchor, hroot]
  dsimp only
  rw [if_pos hbound]
  rfl

/-- A root that is not empty, without an anchor, is refused. -/
theorem openStore_of_torn (h : disk.IsRegistry) (hanchor : disk.anchor = none)
    (htorn : ¬ (disk.registry = none ∧ disk.marker = none)) :
    openStore token disk = ([], .error .rootNotBound) := by
  obtain ⟨root, hroot⟩ := Option.ne_none_iff_exists'.1 fun hroot => htorn (h.rooted hroot)
  have hempty : ¬ disk.rootIsEmpty = true := by
    rw [Disk.rootIsEmpty, decide_eq_true_eq]
    exact fun h => htorn ⟨h.1, h.2.1⟩
  rw [openStore, Writing.read_bind, id, hanchor, hroot]
  dsimp only
  rw [if_neg hempty]
  rfl

/-- The identity of a store that is created in an empty root. -/
def newIdentity (root : Inode) (disk : Disk) (token : String) : StoreIdentity :=
  ⟨root, disk.nextInode, token⟩

theorem createStore_eq {root : Inode} (hroot : disk.root = some root) :
    createStore token disk =
      ([.mkdirRegistry, .publishMarker (newIdentity root disk token),
        .publishAnchor (newIdentity root disk token)], .ok (newIdentity root disk token)) := by
  rw [createStore, Writing.commit_bind, Writing.read_bind,
    show (disk.write .mkdirRegistry).root = some root from hroot]
  rfl

/-- A later disk, with the same files and namespaces, that has the anchor if there was one. -/
structure Disk.Opens (disk later : Disk) : Prop where
  registry : later.IsRegistry
  anchor : ∀ identity, disk.anchor = some identity → later.anchor = some identity
  theses : later.theses = disk.theses
  changes : later.changes = disk.changes
  directories : later.directories = disk.directories
  identities : later.identities = disk.identities

theorem Disk.Opens.refl (h : disk.IsRegistry) : disk.Opens disk :=
  ⟨h, fun _ h => h, rfl, rfl, rfl, rfl⟩

theorem identities_of_unanchored (h : disk.IsRegistry) (hanchor : disk.anchor = none)
    (nameSpace : Namespace) : disk.identities nameSpace = none :=
  identities_of_directories h (h.unanchored hanchor nameSpace)

/-- A disk that differs in the root only is a registry. -/
theorem opens_of_unanchored (h : disk.IsRegistry) (hanchor : disk.anchor = none) {later : Disk}
    (hlater : later.root ≠ none) (hbound : ∀ identity, later.anchor = some identity →
      later.isBound identity = true) (htheses : later.theses = disk.theses)
    (hchanges : later.changes = disk.changes) (hdirectories : later.directories = disk.directories)
    (hidentities : later.identities = disk.identities) : disk.Opens later := by
  refine ⟨⟨hbound, fun nameSpace registered hregistered => ?_, fun _ nameSpace => ?_,
    fun hno => absurd hno hlater⟩, fun identity hsome => ?_, htheses, hchanges, hdirectories,
    hidentities⟩
  · rw [hidentities, identities_of_unanchored h hanchor] at hregistered
    cases hregistered
  · rw [hdirectories]
    exact h.unanchored hanchor nameSpace
  · rw [hanchor] at hsome
    cases hsome

/-- Creating the store in an empty root: it is torn from the registry to the anchor. -/
theorem createStore_spec (h : disk.IsRegistry) (hwhole : disk.IsWhole) (hanchor : disk.anchor = none)
    {root : Inode} (hroot : disk.root = some root) {done rest : List DiskWrite}
    (hsplit : (createStore token disk).1 = done ++ rest) :
    disk.Opens (done.foldl Disk.write disk) ∧
      (isTorn done = false → (done.foldl Disk.write disk).IsWhole) ∧
      (isTorn done = true → ∀ token', openStore token' (done.foldl Disk.write disk) =
        ([], .error .rootNotBound)) := by
  have hsome : disk.root ≠ none := by
    rw [hroot]
    nofun
  have hnobound : ∀ identity, disk.anchor = some identity → ∀ b : Bool, b = true := by
    intro identity hidentity
    rw [hanchor] at hidentity
    cases hidentity
  rw [createStore_eq hroot] at hsplit
  rcases done with _ | ⟨w, _ | ⟨w', _ | ⟨w'', done⟩⟩⟩
  · exact ⟨.refl h, fun _ => hwhole, nofun⟩
  · cases hsplit
    have hopens : disk.Opens (disk.write .mkdirRegistry) := opens_of_unanchored h hanchor hsome
      (fun identity hidentity => hnobound identity hidentity _) rfl rfl rfl rfl
    exact ⟨hopens, nofun, fun _ _ => openStore_of_torn hopens.registry hanchor (fun h => nomatch h.1)⟩
  · cases hsplit
    have hopens : disk.Opens ((disk.write .mkdirRegistry).write
        (.publishMarker (newIdentity root disk token))) :=
      opens_of_unanchored h hanchor hsome
        (fun identity hidentity => hnobound identity hidentity _) rfl rfl rfl rfl
    exact ⟨hopens, nofun, fun _ _ => openStore_of_torn hopens.registry hanchor (fun h => nomatch h.1)⟩
  · simp only [List.cons_append, List.cons.injEq, List.nil_eq, List.append_eq_nil_iff] at hsplit
    obtain ⟨rfl, rfl, rfl, rfl, -⟩ := hsplit
    refine ⟨opens_of_unanchored h hanchor hsome ?_ rfl rfl rfl rfl, fun _ => ⟨nofun, ?_⟩, nofun⟩
    · intro identity hidentity
      cases hidentity
      rw [Disk.isBound, decide_eq_true_eq]
      exact ⟨hroot, rfl, rfl, rfl⟩
    · intro nameSpace hdirectory
      exact absurd (h.unanchored hanchor nameSpace) hdirectory

/-- Without an anchor, the root is empty or is torn. -/
theorem isWhole_of_unanchored (h : disk.IsRegistry) (hanchor : disk.anchor = none)
    (hempty : disk.registry = none ∧ disk.marker = none) : disk.IsWhole :=
  ⟨fun _ => hempty, fun nameSpace hdirectory => absurd (h.unanchored hanchor nameSpace) hdirectory⟩

/-- Opening the store where it is whole, and not anchored: it is created. -/
theorem openStore_of_new (h : disk.IsRegistry) (hwhole : disk.IsWhole) (hanchor : disk.anchor = none) :
    (∃ identity, (openStore token disk).2 = .ok identity ∧
        ((openStore token).after disk).anchor = some identity) ∧
      ∀ done rest, (openStore token disk).1 = done ++ rest →
        disk.Opens (done.foldl Disk.write disk) ∧
        (isTorn done = false → (done.foldl Disk.write disk).IsWhole) ∧
        (isTorn done = true → ∀ token', openStore token' (done.foldl Disk.write disk) =
          ([], .error .rootNotBound)) := by
  have hempty := hwhole.root hanchor
  cases hroot : disk.root with
  | some root =>
    have hopen : openStore token disk = createStore token disk := by
      have hroot' : disk.rootIsEmpty = true := by
        rw [Disk.rootIsEmpty, decide_eq_true_eq]
        exact ⟨hempty.1, hempty.2, h.unanchored hanchor _, h.unanchored hanchor _⟩
      rw [openStore, Writing.read_bind, id, hanchor, hroot]
      dsimp only
      rw [if_pos hroot']
    rw [Writing.after, hopen]
    refine ⟨⟨_, congrArg Prod.snd (createStore_eq hroot), ?_⟩, fun done rest hsplit =>
      createStore_spec h hwhole hanchor hroot hsplit⟩
    rw [createStore_eq hroot]
    rfl
  | none =>
    have hopen : openStore token disk =
        (.mkdirRoot :: (createStore token (disk.write .mkdirRoot)).1,
          (createStore token (disk.write .mkdirRoot)).2) := by
      rw [openStore, Writing.read_bind, id, hanchor, hroot]
      rfl
    have hmade : disk.Opens (disk.write .mkdirRoot) :=
      opens_of_unanchored h hanchor (fun heq => by cases heq) (fun identity hidentity => by
        rw [show (disk.write .mkdirRoot).anchor = none from hanchor] at hidentity
        cases hidentity) rfl rfl rfl rfl
    have hwhole' := isWhole_of_unanchored hmade.registry hanchor hempty
    have hcreate := @createStore_eq (disk.write .mkdirRoot) token disk.nextInode rfl
    rw [Writing.after, hopen]
    refine ⟨⟨_, congrArg Prod.snd hcreate, ?_⟩, fun done rest hsplit => ?_⟩
    · rw [hcreate]
      rfl
    · cases done with
      | nil => exact ⟨.refl h, fun _ => hwhole, fun htorn => by cases htorn⟩
      | cons w done =>
        obtain ⟨rfl, hmore⟩ := List.cons.inj hsplit
        obtain ⟨hopens, hclean, htorn⟩ := createStore_spec hmade.registry hwhole' hanchor rfl hmore
        refine ⟨⟨hopens.registry, fun identity hidentity => ?_, hopens.theses, hopens.changes,
          hopens.directories, hopens.identities⟩, ?_⟩
        · rw [hanchor] at hidentity
          cases hidentity
        · have hlast : done = [] ∨ isTorn (.mkdirRoot :: done) = isTorn done := by
            cases done with
            | nil => exact .inl rfl
            | cons v done => exact .inr rfl
          rcases hlast with rfl | hlast
          · exact ⟨fun _ => hwhole', fun htorn => by cases htorn⟩
          · rw [hlast]
            exact ⟨hclean, htorn⟩

/-- Opening the store where it is whole succeeds, and binds the root. It is torn from the registry to
    the anchor, and refused for ever then. -/
theorem openStore_spec (h : disk.IsRegistry) (hwhole : disk.IsWhole) :
    (∃ identity, (openStore token disk).2 = .ok identity ∧
        ((openStore token).after disk).anchor = some identity) ∧
      ∀ done rest, (openStore token disk).1 = done ++ rest →
        disk.Opens (done.foldl Disk.write disk) ∧
        (isTorn done = false → (done.foldl Disk.write disk).IsWhole) ∧
        (isTorn done = true → ∀ token', openStore token' (done.foldl Disk.write disk) =
          ([], .error .rootNotBound)) := by
  cases hanchor : disk.anchor with
  | none => exact openStore_of_new h hwhole hanchor
  | some identity =>
    rw [Writing.after, openStore_of_anchor h hanchor]
    refine ⟨⟨identity, rfl, hanchor⟩, fun done rest hsplit => ?_⟩
    obtain ⟨rfl, -⟩ := List.append_eq_nil_iff.1 hsplit.symm
    exact ⟨.refl h, fun _ => hwhole, fun htorn => by cases htorn⟩

/-- Wherever the opening stops, the files and the namespaces are the same. -/
theorem openStore_opens (h : disk.IsRegistry) :
    Writing.PreservesAt disk.Opens (openStore token) disk := by
  by_cases hwhole : disk.anchor = none ∧ ¬ (disk.registry = none ∧ disk.marker = none)
  · exact .of_nil (.refl h) (congrArg Prod.fst (openStore_of_torn h hwhole.1 hwhole.2))
  · cases hanchor : disk.anchor with
    | none =>
      rw [hanchor, and_iff_right rfl, not_not] at hwhole
      have hspec := @openStore_of_new disk token h (isWhole_of_unanchored h hanchor hwhole) hanchor
      exact fun done rest hsplit => (hspec.2 done rest hsplit).1
    | some identity =>
      exact .of_nil (.refl h) (congrArg Prod.fst (openStore_of_anchor h hanchor))

/-- A store that is opened is anchored. -/
theorem openStore_binds (h : disk.IsRegistry) (hok : (openStore token disk).2 = .ok identity) :
    ((openStore token).after disk).anchor = some identity := by
  by_cases htorn : disk.anchor = none ∧ ¬ (disk.registry = none ∧ disk.marker = none)
  · rw [openStore_of_torn h htorn.1 htorn.2] at hok
    cases hok
  · cases hanchor : disk.anchor with
    | none =>
      rw [hanchor, and_iff_right rfl, not_not] at htorn
      obtain ⟨⟨other, hopened, hafter⟩, -⟩ :=
        @openStore_of_new disk token h (isWhole_of_unanchored h hanchor htorn) hanchor
      have hsame := hopened.symm.trans hok
      cases hsame
      exact hafter
    | some other =>
      rw [openStore_of_anchor h hanchor] at hok
      cases hok
      rw [Writing.after, openStore_of_anchor h hanchor]
      exact hanchor

end Open

end TradingAgent.UsDay
