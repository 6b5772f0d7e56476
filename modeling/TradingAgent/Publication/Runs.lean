import TradingAgent.Publication.Cells

/-!
# Programs that hold a lock

A program that holds the lock of its name runs on the cell of the name as if it were alone
(`Runs`): the other processes leave the cell, so each call is answered by what the cell is
(`runs_openFile` and so on), and what the program returns is found by running it on the cell.
-/

namespace TradingAgent

open Interference FileM

variable {names : Set FileName} {pid : Pid} {request : FileRequest} {α β : Type}

variable (names pid) in
/-- A process holds the lock of a name, and no other one. The files of the name are as a cell
    says. -/
structure Held (name : FileName) (c : Cell) (d : Directory) : Prop where
  inv : DirInv names d
  locks : ∀ other, (other, pid) ∈ d.locks ↔ other = name
  cell : IsCell name c d

variable (names pid request) in
def Guarantee (d d' : Directory) : Prop :=
  DirInv names d → FileStep names pid request d d'

variable (names pid request) in
/-- What a program of the process ensures. -/
abbrev FileEnsures (Q : α → Directory → Prop) (p : FileProgram α) (d : Directory) : Prop :=
  p.Ensures (Directory.perform pid) (Rely names pid) (Guarantee names pid request) Q d

variable (names pid request) in
/-- On a cell, a program runs to an end at which `P` is true of its result and of the cell. -/
def Runs (c : Cell) (x : FileM α) (P : Except FsError α → Cell → Prop) : Prop :=
  ∀ d, Held names pid request.name c d →
    FileEnsures names pid request (fun a t => ∃ c', P a c' ∧ Held names pid request.name c' t)
      x.run d

/-- One result and one cell. -/
def Only (a : Except FsError α) (c : Cell) : Except FsError α → Cell → Prop :=
  fun a' c' => a' = a ∧ c' = c

variable {c c₁ c₂ : Cell} {d d' : Directory} {x : FileM α} {f : α → FileM β}

theorem Held.rely (hname : request.name ∈ names) (h : Held names pid request.name c d)
    (hrely : Rely names pid d d') : Held names pid request.name c d' where
  inv := hrely.inv h.inv
  locks other := (hrely.locks other).symm.trans (h.locks other)
  cell := hrely.cells h.inv _ hname ((h.locks _).2 rfl) c h.cell

theorem Runs.mono {P Q : Except FsError α → Cell → Prop} (h : Runs names pid request c x P)
    (hPQ : ∀ a c', P a c' → Q a c') : Runs names pid request c x Q :=
  fun d hd => (h d hd).mono fun a _ ⟨c', hP, ht⟩ => ⟨c', hPQ a c' hP, ht⟩

theorem guarantee_refl (d : Directory) : Guarantee names pid request d d := fun h => .refl h

section

variable (hname : request.name ∈ names)
include hname

theorem runs_result {a : Except FsError α} {P : Except FsError α → Cell → Prop} (h : P a c) :
    Runs names pid request c (ExceptT.mk (.pure a)) P :=
  fun _ hd _ hrely => ⟨c, h, hd.rely hname hrely⟩

theorem runs_pure (a : α) : Runs names pid request c (pure a) (Only (.ok a) c) :=
  runs_result hname ⟨rfl, rfl⟩

theorem runs_throw (e : FsError) :
    Runs names pid request c (throw e : FileM α) (Only (.error e) c) :=
  runs_result hname ⟨rfl, rfl⟩

theorem runs_bind {P : Except FsError α → Cell → Prop} {Q : Except FsError β → Cell → Prop}
    (hx : Runs names pid request c x P)
    (hok : ∀ a c', P (.ok a) c' → Runs names pid request c' (f a) Q)
    (herror : ∀ e c', P (.error e) c' → Q (.error e) c') :
    Runs names pid request c (x >>= f) Q := by
  intro d hd
  refine Program.ensures_bind Rely.refl ((hx d hd).mono ?_)
  rintro (e | a) t ⟨c', hP, ht⟩
  · exact runs_result hname (herror e c' hP) t ht
  · exact hok a c' hP t ht

/-- What comes after a program with one result. -/
theorem runs_bind_ok {a : α} {Q : Except FsError β → Cell → Prop}
    (hx : Runs names pid request c x (Only (.ok a) c₁)) (hf : Runs names pid request c₁ (f a) Q) :
    Runs names pid request c (x >>= f) Q := by
  refine runs_bind hname hx ?_ ?_
  · rintro _ _ ⟨⟨⟩, rfl⟩
    exact hf
  · rintro _ _ ⟨⟨⟩, -⟩

theorem runs_bind_error {e : FsError} {Q : Except FsError β → Cell → Prop}
    (hx : Runs names pid request c x (Only (.error e) c₁)) (hQ : Q (.error e) c₁) :
    Runs names pid request c (x >>= f) Q := by
  refine runs_bind hname hx ?_ ?_
  · rintro _ _ ⟨⟨⟩, -⟩
  · rintro _ _ ⟨⟨⟩, rfl⟩
    exact hQ

theorem runs_tryExcept {error : FsError} {handler : FileM α}
    {P Q : Except FsError α → Cell → Prop} (hx : Runs names pid request c x P)
    (hhandler : ∀ c', P (.error error) c' → Runs names pid request c' handler Q)
    (hother : ∀ a c', a ≠ .error error → P a c' → Q a c') :
    Runs names pid request c (tryExcept x error handler) Q := by
  intro d hd
  refine Program.ensures_bind Rely.refl ((hx d hd).mono ?_)
  rintro (e | a) t ⟨c', hP, ht⟩
  · dsimp only
    split_ifs with heq
    · exact hhandler c' (heq ▸ hP) t ht
    · exact runs_result hname (hother _ c' (fun h => heq (by cases h; rfl)) hP) t ht
  · exact runs_result hname (hother (.ok a) c' nofun hP) t ht

theorem runs_tryFinally {last : FileM Unit} {P Q : Except FsError α → Cell → Prop}
    (hx : Runs names pid request c x P)
    (hlast : ∀ a c', P a c' → Runs names pid request c' last fun r c'' => r = .ok () ∧ Q a c'') :
    Runs names pid request c (tryFinally x last) Q := by
  intro d hd
  refine Program.ensures_bind Rely.refl ((hx d hd).mono ?_)
  rintro a t ⟨c', hP, ht⟩
  refine Program.ensures_bind Rely.refl ((hlast a c' hP t ht).mono ?_)
  rintro _ u ⟨c'', ⟨rfl, hQ⟩, hu⟩
  exact runs_result hname hQ u hu

/-! ## Calls -/

/-- A call that is answered by the cell, and changes nothing. -/
theorem runs_query {q : FsCall} {g : q.Response → Except FsError α} {r : q.Response}
    (h : ∀ d, Held names pid request.name c d → Directory.perform pid q d = some (r, d)) :
    Runs names pid request c (ExceptT.mk (.call q fun r => .pure (g r))) (Only (g r) c) := by
  intro d hd t hrely r' u hperform
  have ht := hd.rely hname hrely
  obtain ⟨⟩ := Option.some.inj ((h t ht).symm.trans hperform)
  exact ⟨guarantee_refl t, runs_result hname ⟨rfl, rfl⟩ t ht⟩

/-- A call that changes the cell. -/
theorem runs_change {q : FsCall} {g : q.Response → Except FsError α}
    {P : Except FsError α → Cell → Prop}
    (h : ∀ d, Held names pid request.name c d → ∃ r u c', Directory.perform pid q d = some (r, u) ∧
      P (g r) c' ∧ CellChange request.name c c' d u ∧
      (∀ e ∈ c'.entries request.name, BelongsTo names request.name e.1) ∧
      ∀ i content, c'.visible = some (i, content) → c.visible = some (i, content) ∨
        ∃ token pieces, request = .publish request.name token pieces ∧
          content = pieces.flatten) :
    Runs names pid request c (ExceptT.mk (.call q fun r => .pure (g r))) P := by
  intro d hd t hrely r' u hperform
  have ht := hd.rely hname hrely
  obtain ⟨r, u', c', hperform', hP, hchange, hbelongs, hnew⟩ := h t ht
  obtain ⟨⟩ := Option.some.inj (hperform'.symm.trans hperform)
  have hstep := fileStep_of_cell ht.inv hname ((ht.locks _).2 rfl) hchange hbelongs hnew
  refine ⟨fun _ => hstep, runs_result hname hP u ⟨hstep.inv, fun other => ?_, hchange.after⟩⟩
  rw [hchange.locks]
  exact ht.locks other

theorem runs_openFile {v : Inode × Content} (h : c.visible = some v) :
    Runs names pid request c (openFile request.name) (Only (.ok v.1) c) := by
  refine runs_query hname fun d hd => ?_
  rw [Directory.perform, hd.cell.lookup_name, h]
  rfl

theorem runs_openFile_missing (h : c.visible = none) :
    Runs names pid request c (openFile request.name) (Only (.error .fileNotFound) c) := by
  refine runs_query hname fun d hd => ?_
  rw [Directory.perform, hd.cell.lookup_name, h]
  rfl

theorem runs_fstat {i : Inode} {data : InodeData} (hfile : c.file = some (i, data)) :
    Runs names pid request c (fstat i)
      (Only (.ok ⟨(c.entries request.name).length, data.content.length, data.changes⟩) c) :=
  runs_query hname fun d hd => by rw [Directory.perform, hd.cell.fileStat_eq hfile]

theorem runs_read {i : Inode} {data : InodeData} (hfile : c.file = some (i, data)) :
    Runs names pid request c (FileM.read i) (Only (.ok data.content) c) :=
  runs_query hname fun d hd => by rw [Directory.perform, hd.cell.data_eq hfile]

theorem runs_stat {stage : FileName} {i : Inode} {data : InodeData}
    (hstage : c.stage? = some stage) (hfile : c.file = some (i, data)) :
    Runs names pid request c (stat stage)
      (Only (.ok (i, ⟨(c.entries request.name).length, data.content.length, data.changes⟩)) c) := by
  refine runs_query hname fun d hd => ?_
  rw [Directory.perform, hd.cell.lookup_stage hstage, hfile, Option.map_some]
  dsimp only
  rw [hd.cell.fileStat_eq hfile]

/-- The search for the staging files of the name. -/
theorem runs_listdir (hself : isStagingOf request.name request.name = false)
    {g : List FileName → FileM α} {Q : Except FsError α → Cell → Prop}
    (h : Runs names pid request c (g c.stage?.toList) Q) :
    Runs names pid request c
      (listdir >>= fun found => g (found.filter (isStagingOf request.name))) Q := by
  refine runs_bind hname (P := fun a c' => c' = c ∧ ∃ found, a = .ok found ∧
    found.filter (isStagingOf request.name) = c.stage?.toList) ?_ ?_ ?_
  · intro d hd t hrely r u hperform
    have ht := hd.rely hname hrely
    obtain ⟨⟩ := Option.some.inj hperform
    exact ⟨guarantee_refl t, runs_result hname
      ⟨rfl, _, rfl, ht.cell.staging_names hself⟩ t ht⟩
  · rintro found _ ⟨rfl, _, ⟨⟩, hfound⟩
    rw [hfound]
    exact h
  · rintro _ _ ⟨rfl, _, ⟨⟩, -⟩

/-- A staging file that is not there. -/
theorem runs_unlink_missing {stage : FileName} (hof : isOf request.name stage = true)
    (hmissing : (c.entries request.name).find? (·.1 = stage) = none) :
    Runs names pid request c (unlink stage) (Only (.error .fileNotFound) c) := by
  refine runs_query hname fun d hd => ?_
  rw [Directory.perform, hd.cell.lookup_eq hof, hmissing]
  rfl

/-! ## Changes -/

variable {stage : FileName} {i : Inode} {data : InodeData}

/-- The entries of the name belong to it. -/
theorem Held.belongs (h : Held names pid request.name c d) :
    ∀ e ∈ c.entries request.name, BelongsTo names request.name e.1 := by
  intro e he
  rw [← h.cell.entries, List.mem_filter] at he
  obtain ⟨owner, howner, hbelongs⟩ := h.inv.belongs e he.1
  rwa [(hbelongs _ hname).1 he.2]

theorem runs_create (hbelongs : BelongsTo names request.name stage)
    (hstage : isStagingOf request.name stage = true) (hne : stage ≠ request.name) :
    Runs names pid request .empty (create stage)
      fun a c' => ∃ i, a = .ok i ∧ c' = .staged stage i {} := by
  refine runs_change hname fun d hd => ?_
  have hchange := cellChange_create hd.inv hd.cell hstage hne
  refine ⟨_, _, _, ?_, ⟨d.inodes.length, rfl, rfl⟩, hchange, ?_, nofun⟩
  · have hnone : d.lookup stage = none := by
      rw [hd.cell.lookup_eq (by rw [isOf, hstage, Bool.or_true])]
      rfl
    rw [Directory.perform, hnone]
  · exact List.forall_mem_singleton.2 hbelongs

theorem runs_write (bytes : Content) :
    Runs names pid request (.staged stage i data) (FileM.write i bytes)
      (Only (.ok ()) (.staged stage i ⟨data.content ++ bytes, data.changes + 1⟩)) := by
  refine runs_change hname fun d hd => ?_
  exact ⟨_, _, _, rfl, ⟨rfl, rfl⟩, cellChange_write hd.inv hd.cell bytes,
    fun e he => hd.belongs hname e he, nofun⟩

/-- The name may be linked to the payload of the call only. -/
theorem runs_link (hself : BelongsTo names request.name request.name)
    (hsize : data.content.length ≤ MAX_TEXT_BYTES)
    (hpayload : ∃ token pieces, request = .publish request.name token pieces ∧
      data.content = pieces.flatten) :
    Runs names pid request (.staged stage i data) (link stage request.name)
      (Only (.ok ()) (.linked stage i ⟨data.content, data.changes + 1⟩)) := by
  refine runs_change hname fun d hd => ?_
  refine ⟨_, _, _, ?_, ⟨rfl, rfl⟩, cellChange_link hd.inv hd.cell hsize, ?_, ?_⟩
  · rw [Directory.perform, hd.cell.lookup_stage rfl, hd.cell.lookup_name]
    rfl
  · intro e he
    rcases List.mem_cons.1 he with rfl | he
    · exact hd.belongs hname _ List.mem_cons_self
    · rw [List.mem_singleton.1 he]
      exact hself
  · rintro _ _ ⟨⟩
    exact .inr hpayload

theorem runs_unlink_staged : Runs names pid request (.staged stage i data) (unlink stage)
    (Only (.ok ()) .empty) := by
  refine runs_change hname fun d hd => ?_
  refine ⟨_, _, _, ?_, ⟨rfl, rfl⟩, cellChange_remove hd.inv hd.cell, List.forall_mem_nil _, nofun⟩
  rw [Directory.perform, hd.cell.lookup_stage rfl]
  rfl

theorem runs_unlink_linked : Runs names pid request (.linked stage i data) (unlink stage)
    (Only (.ok ()) (.done i ⟨data.content, data.changes + 1⟩)) := by
  refine runs_change hname fun d hd => ?_
  refine ⟨_, _, _, ?_, ⟨rfl, rfl⟩, cellChange_unlink hd.inv hd.cell, ?_, ?_⟩
  · rw [Directory.perform, hd.cell.lookup_stage rfl]
    rfl
  · exact List.forall_mem_singleton.2 (hd.belongs hname _ (List.mem_cons_of_mem _
      (List.mem_singleton_self _)))
  · rintro _ _ ⟨⟩
    exact .inl rfl

end

end TradingAgent
