import TradingAgent.Library.Fold
import TradingAgent.Publication.Programs

/-!
# The files of a name

A directory falls into the files of its names, if these are independent: no target name is the
staging or the lock file of another one, and no staging file is found by the search of another
name (`Independent`). The files of a name are in one of four states (`Cell`), and a process that
holds the lock of a name finds them as it left them.

* What a process relies on and guarantees is in terms of these cells (`Rely`, `FileStep`).
* A change of one cell is guaranteed by the process that holds its lock (`fileStep_of_cell`).
-/

namespace TradingAgent

open Interference

/-! ## Names -/

theorem isStagingOf_stagingName (name token : String) :
    isStagingOf name (stagingName name token) = true := by
  have hsuffix : STAGING_SUFFIX.toList <:+ (stagingName name token).toList :=
    ⟨("." ++ name ++ "." ++ token).toList, by simp [stagingName]⟩
  have hstart : ("." ++ name ++ ".").toList <+: (stagingName name token).toList :=
    ⟨(token ++ STAGING_SUFFIX).toList, by simp [stagingName]⟩
  rw [isStagingOf, Bool.and_eq_true, List.isPrefixOf_iff_prefix, List.isSuffixOf_iff_suffix]
  exact ⟨hstart, hsuffix⟩

/-- Whether a file is the target of a name, or a staging file of it. -/
def isOf (name candidate : FileName) : Bool := candidate = name || isStagingOf name candidate

theorem isOf_self (name : FileName) : isOf name name = true := by
  simp [isOf]

theorem isOf_stagingName (name token : String) : isOf name (stagingName name token) = true := by
  rw [isOf, isStagingOf_stagingName, Bool.or_true]

/-- Names whose files do not get into each other's way. -/
structure Independent (names : Set FileName) : Prop where
  target : ∀ name ∈ names, ∀ other ∈ names, isStagingOf name other = false
  staging : ∀ name ∈ names, ∀ other ∈ names, name ≠ other → ∀ token, isTokenHex token = true →
    isStagingOf name (stagingName other token) = false
  lock : ∀ name ∈ names, ∀ other ∈ names, other ≠ publicationLockName name

/-- A file belongs to one name only. -/
def BelongsTo (names : Set FileName) (name candidate : FileName) : Prop :=
  ∀ other ∈ names, isOf other candidate = true ↔ other = name

variable {names : Set FileName} {name other : FileName}

theorem Independent.belongsTo_target (h : Independent names) (hname : name ∈ names) :
    BelongsTo names name name := by
  intro other hother
  rw [isOf, h.target other hother name hname, Bool.or_false, decide_eq_true_eq, eq_comm]

theorem Independent.belongsTo_stagingName (h : Independent names) (hname : name ∈ names)
    {token : String} (htoken : isTokenHex token = true) :
    BelongsTo names name (stagingName name token) := by
  intro other hother
  refine ⟨fun hof => ?_, fun heq => heq ▸ isOf_stagingName other token⟩
  by_contra hne
  rw [isOf, h.staging other hother name hname hne token htoken, Bool.or_false,
    decide_eq_true_eq] at hof
  have htarget := h.target name hname other hother
  rw [← hof, isStagingOf_stagingName] at htarget
  cases htarget

/-! ## Cells -/

/-- The files of a name: there are none; a staging file is being written, or was left so; the name
    is linked to the staging file; or there is only the name. -/
inductive Cell
  | empty
  | staged (stage : FileName) (i : Inode) (data : InodeData)
  | linked (stage : FileName) (i : Inode) (data : InodeData)
  | done (i : Inode) (data : InodeData)

namespace Cell

/-- The entries, in the order in which they were made. -/
def entries (name : FileName) : Cell → List (FileName × Inode)
  | empty => []
  | staged stage i _ => [(stage, i)]
  | linked stage i _ => [(stage, i), (name, i)]
  | done i _ => [(name, i)]

/-- The inode, and what it holds. -/
def file : Cell → Option (Inode × InodeData)
  | empty => none
  | staged _ i data | linked _ i data | done i data => some (i, data)

/-- The staging file. -/
def stage? : Cell → Option FileName
  | staged stage _ _ | linked stage _ _ => some stage
  | empty | done _ _ => none

/-- The inode of the name, and its content. -/
def visible : Cell → Option (Inode × Content)
  | linked _ i data | done i data => some (i, data.content)
  | empty | staged _ _ _ => none

theorem snd_of_mem_entries {c : Cell} {e : FileName × Inode} (he : e ∈ c.entries name) :
    ∃ data, c.file = some (e.2, data) := by
  cases c with
  | empty => cases he
  | staged stage i data | done i data =>
    obtain rfl := List.mem_singleton.1 he
    exact ⟨data, rfl⟩
  | linked stage i data =>
    rcases List.mem_cons.1 he with rfl | he
    · exact ⟨data, rfl⟩
    · obtain rfl := List.mem_singleton.1 he
      exact ⟨data, rfl⟩

theorem exists_mem_entries {c : Cell} {i : Inode} {data : InodeData}
    (h : c.file = some (i, data)) (name : FileName) : ∃ e ∈ c.entries name, e.2 = i := by
  cases c with
  | empty => cases h
  | staged stage i data =>
    cases h
    exact ⟨_, List.mem_singleton_self _, rfl⟩
  | linked stage i data =>
    cases h
    exact ⟨_, List.mem_cons_self, rfl⟩
  | done i data =>
    cases h
    exact ⟨_, List.mem_singleton_self _, rfl⟩

end Cell

/-- The files of a name in a directory are as a cell says. -/
structure IsCell (name : FileName) (c : Cell) (d : Directory) : Prop where
  entries : d.entries.filter (isOf name ·.1) = c.entries name
  data : ∀ i data, c.file = some (i, data) → d.inodes[i]? = some data
  links : ∀ i data, c.file = some (i, data) → ∀ e ∈ d.entries, e.2 = i → isOf name e.1 = true
  stage : ∀ stage, c.stage? = some stage → isStagingOf name stage = true ∧ stage ≠ name
  size : ∀ v, c.visible = some v → v.2.length ≤ MAX_TEXT_BYTES

namespace IsCell

variable {c : Cell} {d : Directory}

/-- A file of the name is looked up in its cell. -/
theorem lookup_eq (h : IsCell name c d) {candidate : FileName}
    (hof : isOf name candidate = true) :
    d.lookup candidate = ((c.entries name).find? (·.1 = candidate)).map (·.2) := by
  rw [Directory.lookup, ← h.entries, List.find?_filter]
  congr 2
  funext e
  by_cases heq : e.1 = candidate
  · simp [heq, hof]
  · simp [heq]

/-- The inode of the name. -/
theorem lookup_name (h : IsCell name c d) : d.lookup name = c.visible.map (·.1) := by
  rw [h.lookup_eq (isOf_self name)]
  cases c with
  | empty => rfl
  | staged stage i data | linked stage i data =>
    have hne := (h.stage stage rfl).2
    simp [Cell.entries, Cell.visible, hne]
  | done i data => simp [Cell.entries, Cell.visible]

theorem lookup_stage (h : IsCell name c d) {stage : FileName} (hstage : c.stage? = some stage) :
    d.lookup stage = c.file.map (·.1) := by
  have hof : isOf name stage = true := by
    rw [isOf, (h.stage stage hstage).1, Bool.or_true]
  rw [h.lookup_eq hof]
  cases c with
  | empty | done => cases hstage
  | staged | linked =>
    cases hstage
    simp [Cell.entries, Cell.file]

theorem data_eq (h : IsCell name c d) {i : Inode} {data : InodeData}
    (hfile : c.file = some (i, data)) : d.data i = data := by
  rw [Directory.data, h.data i data hfile, Option.getD_some]

/-- What `os.stat` says of the inode of a cell. -/
theorem fileStat_eq (h : IsCell name c d) {i : Inode} {data : InodeData}
    (hfile : c.file = some (i, data)) : d.fileStat i =
      ⟨(c.entries name).length, data.content.length, data.changes⟩ := by
  have hlinks : d.entries.filter (·.2 = i) = c.entries name := by
    rw [← h.entries]
    refine List.filter_congr fun e he => ?_
    rw [Bool.eq_iff_iff, decide_eq_true_eq]
    refine ⟨h.links i data hfile e he, fun hof => ?_⟩
    have hmem : e ∈ c.entries name := h.entries ▸ List.mem_filter.2 ⟨he, hof⟩
    obtain ⟨data', hfile'⟩ := Cell.snd_of_mem_entries hmem
    rw [hfile] at hfile'
    exact (congrArg Prod.fst (Option.some.inj hfile')).symm
  rw [Directory.fileStat, h.data_eq hfile, hlinks]

/-- The staging files of the name are found by their names. -/
theorem staging_names (h : IsCell name c d) (hname : isStagingOf name name = false) :
    (d.entries.map (·.1)).filter (isStagingOf name) = c.stage?.toList := by
  have hsub : d.entries.filter (isStagingOf name ·.1) =
      (c.entries name).filter (isStagingOf name ·.1) := by
    rw [← h.entries, List.filter_filter]
    refine List.filter_congr fun e _ => ?_
    simpa [isOf] using Or.inr
  rw [List.filter_map, Function.comp_def, hsub]
  cases c with
  | empty => rfl
  | staged stage i data | linked stage i data =>
    have hstage := (h.stage stage rfl).1
    simp [Cell.entries, Cell.stage?, hstage, hname]
  | done i data => simp [Cell.entries, Cell.stage?, hname]

end IsCell

/-- The files of a name are in one state. -/
theorem IsCell.eq {c c' : Cell} {d : Directory} (h : IsCell name c d) (h' : IsCell name c' d) :
    c = c' := by
  have hentries : c.entries name = c'.entries name := h.entries.symm.trans h'.entries
  have hdata : ∀ i data data', c.file = some (i, data) → c'.file = some (i, data') →
      data = data' := fun i data data' hi hi' =>
    Option.some.inj ((h.data i data hi).symm.trans (h'.data i data' hi'))
  have hne := h.stage
  have hne' := h'.stage
  cases c <;> cases c' <;>
    simp only [Cell.entries, List.cons.injEq, Prod.mk.injEq, and_true, reduceCtorEq,
      and_false] at hentries
  case empty.empty => rfl
  case staged.staged =>
    obtain ⟨rfl, rfl⟩ := hentries
    rw [hdata _ _ _ rfl rfl]
  case staged.done => exact absurd hentries.1 (hne _ rfl).2
  case linked.linked =>
    obtain ⟨⟨rfl, rfl⟩, -⟩ := hentries
    rw [hdata _ _ _ rfl rfl]
  case done.staged => exact absurd hentries.1.symm (hne' _ rfl).2
  case done.done =>
    obtain ⟨-, rfl⟩ := hentries
    rw [hdata _ _ _ rfl rfl]

/-! ## Directories -/

/-- A name is linked to an inode of some content. -/
def Visible (name : FileName) (i : Inode) (content : Content) (d : Directory) : Prop :=
  d.lookup name = some i ∧ (d.data i).content = content

theorem Visible.unique {d : Directory} {i j : Inode} {content content' : Content}
    (h : Visible name i content d) (h' : Visible name j content' d) : content = content' := by
  obtain ⟨hlookup, rfl⟩ := h
  obtain ⟨hlookup', rfl⟩ := h'
  rw [Option.some.inj (hlookup.symm.trans hlookup')]

theorem IsCell.visible_iff {c : Cell} {d : Directory} (h : IsCell name c d) {i : Inode}
    {content : Content} : Visible name i content d ↔ c.visible = some (i, content) := by
  rw [Visible, h.lookup_name]
  cases c with
  | empty | staged => simp [Cell.visible]
  | linked stage j data | done j data =>
    have hdata : d.data j = data := h.data_eq rfl
    simp only [Cell.visible, Option.map_some, Option.some.injEq, Prod.mk.injEq]
    refine and_congr_right ?_
    rintro rfl
    rw [hdata]

variable (names) in
/-- What is true of a directory in which only files of independent names are made. -/
structure DirInv (d : Directory) : Prop where
  nodup : (d.entries.map (·.1)).Nodup
  belongs : ∀ e ∈ d.entries, ∃ name ∈ names, BelongsTo names name e.1
  cells : ∀ name ∈ names, ∃ c, IsCell name c d
  locks : (d.locks.map (·.1)).Nodup

variable {c c' : Cell} {d d' d'' : Directory} {pid : Pid} {request : FileRequest}

/-- The entry of a name is in its cell. -/
theorem DirInv.exists_cell (h : DirInv names d) {e : FileName × Inode} (he : e ∈ d.entries) :
    ∃ name ∈ names, BelongsTo names name e.1 ∧ ∃ c, IsCell name c d ∧ e ∈ c.entries name := by
  obtain ⟨name, hname, hbelongs⟩ := h.belongs e he
  obtain ⟨c, hc⟩ := h.cells name hname
  refine ⟨name, hname, hbelongs, c, hc, ?_⟩
  rw [← hc.entries]
  exact List.mem_filter.2 ⟨he, (hbelongs name hname).2 rfl⟩

/-- All entries are links to inodes that there are. -/
theorem DirInv.lt (h : DirInv names d) {e : FileName × Inode} (he : e ∈ d.entries) :
    e.2 < d.inodes.length := by
  obtain ⟨name, -, -, c, hc, hmem⟩ := h.exists_cell he
  obtain ⟨data, hfile⟩ := Cell.snd_of_mem_entries hmem
  exact (List.getElem?_eq_some_iff.1 (hc.data _ _ hfile)).1

/-- Two cells have no inode in common. -/
theorem DirInv.file_ne (h : DirInv names d) (hname : name ∈ names) (hother : other ∈ names)
    (hne : other ≠ name) {cn co : Cell} (hn : IsCell name cn d) (ho : IsCell other co d)
    {i : Inode} {data data' : InodeData} (hin : cn.file = some (i, data))
    (hio : co.file = some (i, data')) : False := by
  obtain ⟨e, hmem, rfl⟩ := Cell.exists_mem_entries hin name
  rw [← hn.entries, List.mem_filter] at hmem
  obtain ⟨owner, hw, hbelongs⟩ := h.belongs e hmem.1
  have hof := ho.links _ _ hio e hmem.1 rfl
  exact hne (((hbelongs other hother).1 hof).trans ((hbelongs name hname).1 hmem.2).symm)

variable (names) in
/-- What is visible stays so, and so does a name whose staging file is gone. -/
structure Grows (d d' : Directory) : Prop where
  visible : ∀ name ∈ names, ∀ i content, Visible name i content d → Visible name i content d'
  done : ∀ name ∈ names, ∀ i data, IsCell name (.done i data) d → IsCell name (.done i data) d'

theorem Grows.refl (d : Directory) : Grows names d d :=
  ⟨fun _ _ _ _ h => h, fun _ _ _ _ h => h⟩

theorem Grows.trans {d d' d'' : Directory} (h : Grows names d d') (h' : Grows names d' d'') :
    Grows names d d'' where
  visible name hname i content hv :=
    h'.visible name hname i content (h.visible name hname i content hv)
  done name hname i data hc := h'.done name hname i data (h.done name hname i data hc)

variable (names pid) in
/-- What a process relies on: the others neither take nor release its locks, they leave the cells
    of the names that it has locked, and what is visible stays so. -/
structure Rely (d d' : Directory) : Prop where
  inv : DirInv names d → DirInv names d'
  locks : ∀ name, (name, pid) ∈ d.locks ↔ (name, pid) ∈ d'.locks
  cells : DirInv names d → ∀ name ∈ names, (name, pid) ∈ d.locks → ∀ c, IsCell name c d →
    IsCell name c d'
  grows : DirInv names d → Grows names d d'

theorem Rely.refl (d : Directory) : Rely names pid d d :=
  ⟨id, fun _ => Iff.rfl, fun _ _ _ _ _ h => h, fun _ => .refl d⟩

theorem Rely.trans (h : Rely names pid d d') (h' : Rely names pid d' d'') :
    Rely names pid d d'' where
  inv hd := h'.inv (h.inv hd)
  locks name := (h.locks name).trans (h'.locks name)
  cells hd name hname hlock c hc :=
    h'.cells (h.inv hd) name hname ((h.locks name).1 hlock) c (h.cells hd name hname hlock c hc)
  grows hd := (h.grows hd).trans (h'.grows (h.inv hd))

variable (names pid request) in
/-- What a call of a process for a name does to the directory. -/
structure FileStep (d d' : Directory) : Prop where
  inv : DirInv names d'
  locks : ∀ other, other ≠ pid → ∀ name, (name, other) ∈ d.locks ↔ (name, other) ∈ d'.locks
  cells : ∀ name ∈ names, name ≠ request.name ∨ (name, pid) ∉ d.locks → ∀ c, IsCell name c d →
    IsCell name c d'
  grows : Grows names d d'
  /-- The files of other names are not touched. -/
  others : d'.entries.filter (!isOf request.name ·.1) = d.entries.filter (!isOf request.name ·.1)
  /-- What becomes visible is the payload. -/
  new : ∀ name ∈ names, ∀ i content, Visible name i content d' → Visible name i content d ∨
    ∃ token pieces, request = .publish name token pieces ∧ content = pieces.flatten
  /-- If the name is visible, only its staging file may be removed. -/
  taken : (∃ i content, Visible request.name i content d) →
    (d'.entries = d.entries ∨ ∃ stage, isStagingOf request.name stage = true ∧
      d'.entries = d.entries.filter (·.1 ≠ stage)) ∧
    ∀ i, (d'.data i).content = (d.data i).content

/-- What a process guarantees is what the others rely on. -/
theorem FileStep.rely {other : Pid} (hne : other ≠ pid) (hd : DirInv names d)
    (h : FileStep names pid request d d') : Rely names other d d' where
  inv _ := h.inv
  locks := h.locks other hne
  cells _ name hname hlock c hc := by
    refine h.cells name hname (.inr fun hpid => hne ?_) c hc
    -- Only one process holds the lock.
    exact congrArg Prod.snd (List.inj_on_of_nodup_map hd.locks hlock hpid rfl)
  grows _ := h.grows

theorem FileStep.refl (hd : DirInv names d) : FileStep names pid request d d :=
  ⟨hd, fun _ _ _ => Iff.rfl, fun _ _ _ _ hc => hc, .refl d, rfl,
    fun _ _ _ _ hv => .inl hv, fun _ => ⟨.inl rfl, fun _ => rfl⟩⟩

/-- A change of the cell of one name leaves those of the others. -/
theorem IsCell.of_change (hd : DirInv names d) (hname : name ∈ names) (hother : other ∈ names)
    (hne : other ≠ name) (hc : IsCell name c d) (hc' : IsCell name c' d')
    (hothers : d'.entries.filter (!isOf name ·.1) = d.entries.filter (!isOf name ·.1))
    (hbelongs : ∀ e ∈ d'.entries, isOf name e.1 = true → BelongsTo names name e.1)
    (hinodes : ∀ i data, d.inodes[i]? = some data → (∀ data', c.file ≠ some (i, data')) →
      d'.inodes[i]? = some data)
    (hfile : ∀ i data, c'.file = some (i, data) →
      (∃ data', c.file = some (i, data')) ∨ d.inodes[i]? = none)
    {co : Cell} (ho : IsCell other co d) : IsCell other co d' := by
  have hnot : ∀ e : FileName × Inode, BelongsTo names name e.1 → isOf other e.1 = true → False :=
    fun e hb hof => hne ((hb other hother).1 hof)
  have hd_not : ∀ e ∈ d.entries, isOf other e.1 = true → (!isOf name e.1) = true := by
    intro e he hof
    obtain ⟨owner, hw, hb⟩ := hd.belongs e he
    rw [Bool.not_eq_true', ← Bool.not_eq_true]
    intro hofn
    exact hne (((hb other hother).1 hof).trans ((hb name hname).1 hofn).symm)
  have hd'_not : ∀ e ∈ d'.entries, isOf other e.1 = true → (!isOf name e.1) = true := by
    intro e he hof
    rw [Bool.not_eq_true', ← Bool.not_eq_true]
    exact fun hofn => hnot e (hbelongs e he hofn) hof
  have hsub : ∀ l : List (FileName × Inode),
      (∀ e ∈ l, isOf other e.1 = true → (!isOf name e.1) = true) →
      l.filter (isOf other ·.1) = (l.filter (!isOf name ·.1)).filter (isOf other ·.1) := by
    intro l hl
    rw [List.filter_filter]
    refine List.filter_congr fun e he => ?_
    cases hof : isOf other e.1 with
    | false => rfl
    | true => rw [hl e he hof, Bool.and_true]
  refine ⟨?_, fun i data hi => ?_, fun i data hi e he heq => ?_, ho.stage, ho.size⟩
  · rw [hsub _ hd'_not, hothers, ← hsub _ hd_not, ho.entries]
  · exact hinodes i data (ho.data i data hi) fun data' hcn =>
      hd.file_ne hname hother hne hc ho hcn hi
  · by_cases hof : isOf name e.1 = true
    · -- An entry of the changed cell links to its inode, or to a new one.
      have hmem : e ∈ c'.entries name := hc'.entries ▸ List.mem_filter.2 ⟨he, hof⟩
      obtain ⟨data', hfile'⟩ := Cell.snd_of_mem_entries hmem
      rcases hfile e.2 data' hfile' with ⟨data'', hcn⟩ | hnone
      · rw [heq] at hcn
        exact (hd.file_ne hname hother hne hc ho hcn hi).elim
      · rw [heq, ho.data i data hi] at hnone
        cases hnone
    · have hmem : e ∈ d'.entries.filter (!isOf name ·.1) :=
        List.mem_filter.2 ⟨he, by rw [Bool.not_eq_true', ← Bool.not_eq_true]; exact hof⟩
      rw [hothers] at hmem
      exact ho.links i data hi e (List.mem_filter.1 hmem).1 heq

/-- A change of the cell of a name, by the process that holds its lock. -/
structure CellChange (name : FileName) (c c' : Cell) (d d' : Directory) : Prop where
  before : IsCell name c d
  after : IsCell name c' d'
  locks : d'.locks = d.locks
  nodup : (d'.entries.map (·.1)).Nodup
  others : d'.entries.filter (!isOf name ·.1) = d.entries.filter (!isOf name ·.1)
  inodes : ∀ i data, d.inodes[i]? = some data → (∀ data', c.file ≠ some (i, data')) →
    d'.inodes[i]? = some data
  file : ∀ i data, c'.file = some (i, data) →
    (∃ data', c.file = some (i, data')) ∨ d.inodes[i]? = none
  visible : ∀ v, c.visible = some v → c'.visible = some v
  done : ∀ i data, c ≠ .done i data
  taken : c.visible ≠ none →
    (d'.entries = d.entries ∨ ∃ stage, isStagingOf name stage = true ∧
      d'.entries = d.entries.filter (·.1 ≠ stage)) ∧
    ∀ i, (d'.data i).content = (d.data i).content

/-- Such a change is guaranteed. -/
theorem fileStep_of_cell (hd : DirInv names d) (hname : request.name ∈ names)
    (hlock : (request.name, pid) ∈ d.locks) (h : CellChange request.name c c' d d')
    (hbelongs : ∀ e ∈ c'.entries request.name, BelongsTo names request.name e.1)
    (hnew : ∀ i content, c'.visible = some (i, content) → c.visible = some (i, content) ∨
      ∃ token pieces, request = .publish request.name token pieces ∧ content = pieces.flatten) :
    FileStep names pid request d d' := by
  have hof : ∀ e ∈ d'.entries, isOf request.name e.1 = true →
      BelongsTo names request.name e.1 := by
    intro e he hof
    exact hbelongs e (h.after.entries ▸ List.mem_filter.2 ⟨he, hof⟩)
  have hother : ∀ other ∈ names, other ≠ request.name → ∀ co, IsCell other co d →
      IsCell other co d' :=
    fun other hother hne co ho => IsCell.of_change hd hname hother hne h.before h.after h.others
      hof h.inodes h.file ho
  refine ⟨⟨h.nodup, fun e he => ?_, fun other hmem => ?_, ?_⟩, fun p _ n => by rw [h.locks],
    fun other hmem hcase co ho => ?_, ⟨fun other hmem i content hv => ?_, fun other hmem i data hv => ?_⟩, h.others,
    fun other hmem i content hv => ?_, fun ⟨i, content, hv⟩ => ?_⟩
  · by_cases hofn : isOf request.name e.1 = true
    · exact ⟨request.name, hname, hof e he hofn⟩
    · have hmem : e ∈ d'.entries.filter (!isOf request.name ·.1) :=
        List.mem_filter.2 ⟨he, by rw [Bool.not_eq_true', ← Bool.not_eq_true]; exact hofn⟩
      rw [h.others] at hmem
      exact hd.belongs e (List.mem_filter.1 hmem).1
  · by_cases heq : other = request.name
    · exact ⟨c', heq ▸ h.after⟩
    · obtain ⟨co, ho⟩ := hd.cells other hmem
      exact ⟨co, hother other hmem heq co ho⟩
  · rw [h.locks]
    exact hd.locks
  · rcases hcase with hne | hnot
    · exact hother other hmem hne co ho
    · refine hother other hmem ?_ co ho
      rintro rfl
      exact hnot hlock
  · by_cases heq : other = request.name
    · subst heq
      exact h.after.visible_iff.2 (h.visible _ (h.before.visible_iff.1 hv))
    · obtain ⟨co, ho⟩ := hd.cells other hmem
      exact (hother other hmem heq co ho).visible_iff.2 (ho.visible_iff.1 hv)
  · by_cases heq : other = request.name
    · subst heq
      exact absurd (h.before.eq hv) (h.done i data)
    · exact hother other hmem heq _ hv
  · by_cases heq : other = request.name
    · subst heq
      rcases hnew i content (h.after.visible_iff.1 hv) with hold | hpayload
      · exact .inl (h.before.visible_iff.2 hold)
      · exact .inr hpayload
    · obtain ⟨co, ho⟩ := hd.cells other hmem
      exact .inl (ho.visible_iff.2 ((hother other hmem heq co ho).visible_iff.1 hv))
  · refine h.taken ?_
    rw [h.before.visible_iff.1 hv]
    nofun

/-! ## The changes of a cell -/

/-- A new entry of a name is none of the entries of the others. -/
theorem filter_not_append (name : FileName) {e : FileName × Inode} (he : isOf name e.1 = true)
    (l : List (FileName × Inode)) :
    (l ++ [e]).filter (!isOf name ·.1) = l.filter (!isOf name ·.1) := by
  rw [List.filter_append, List.filter_singleton, he]
  exact List.append_nil _

theorem filter_append_of_isOf (name : FileName) {e : FileName × Inode}
    (he : isOf name e.1 = true) (l : List (FileName × Inode)) :
    (l ++ [e]).filter (isOf name ·.1) = l.filter (isOf name ·.1) ++ [e] := by
  rw [List.filter_append, List.filter_singleton, he]
  rfl

theorem lookup_eq_none {candidate : FileName} :
    d.lookup candidate = none ↔ candidate ∉ d.entries.map (·.1) := by
  simp only [Directory.lookup, Option.map_eq_none_iff, List.find?_eq_none, decide_eq_true_eq,
    List.mem_map, not_exists, not_and]

theorem nodup_addEntry (hd : (d.entries.map (·.1)).Nodup) {candidate : FileName}
    (hnone : d.lookup candidate = none) (i : Inode) :
    (((d.entries ++ [(candidate, i)])).map (·.1)).Nodup := by
  rw [List.map_append, List.map_singleton, List.nodup_append_comm, List.singleton_append,
    List.nodup_cons]
  exact ⟨lookup_eq_none.1 hnone, hd⟩

theorem getElem?_change (i j : Inode) (bytes : Content) :
    (d.change i bytes).inodes[j]? = if i = j then
      d.inodes[j]?.map fun data => ⟨data.content ++ bytes, data.changes + 1⟩
    else d.inodes[j]? := by
  simp only [Directory.change, List.getElem?_modify]
  split_ifs <;> simp

/-- A staging file is created. -/
theorem cellChange_create (hd : DirInv names d) (hc : IsCell name .empty d) {stage : FileName}
    (hstage : isStagingOf name stage = true) (hne : stage ≠ name) :
    CellChange name .empty (.staged stage d.inodes.length {}) d
      (d.addInode.addEntry stage d.inodes.length) := by
  have hof : isOf name stage = true := by
    rw [isOf, hstage, Bool.or_true]
  have hnone : d.lookup stage = none := by
    rw [hc.lookup_eq hof]
    rfl
  refine ⟨hc, ⟨?_, ?_, ?_, ?_, nofun⟩, rfl, nodup_addEntry hd.nodup hnone _, ?_, ?_, ?_, nofun,
    nofun, fun h => absurd rfl h⟩
  · rw [Directory.addEntry, Directory.addInode]
    dsimp only
    rw [filter_append_of_isOf name hof, hc.entries]
    rfl
  · rintro i data ⟨⟩
    exact List.getElem?_concat_length
  · rintro i data ⟨⟩ e he heq
    rcases List.mem_append.1 he with hold | hnew
    · exact absurd heq (hd.lt hold).ne
    · rw [List.mem_singleton.1 hnew]
      exact hof
  · rintro _ ⟨⟩
    exact ⟨hstage, hne⟩
  · exact filter_not_append name hof d.entries
  · intro i data hi _
    exact (List.getElem?_append_left (List.getElem?_eq_some_iff.1 hi).1).trans hi
  · rintro i data ⟨⟩
    exact .inr (List.getElem?_eq_none le_rfl)

theorem others_filter_ne (name : FileName) {stage : FileName}
    (hof : isOf name stage = true) (l : List (FileName × Inode)) :
    (l.filter (·.1 ≠ stage)).filter (!isOf name ·.1) = l.filter (!isOf name ·.1) := by
  rw [List.filter_filter]
  refine List.filter_congr fun e _ => ?_
  by_cases heq : e.1 = stage
  · simp [heq, hof]
  · simp [heq]

theorem filter_ne_filter (name stage : FileName) (l : List (FileName × Inode)) :
    (l.filter (·.1 ≠ stage)).filter (isOf name ·.1) =
      (l.filter (isOf name ·.1)).filter (·.1 ≠ stage) := by
  rw [List.filter_filter, List.filter_filter]
  refine List.filter_congr fun e _ => ?_
  rw [Bool.and_comm]

/-- Bytes are written to the staging file. -/
theorem cellChange_write (hd : DirInv names d) {stage : FileName} {i : Inode} {data : InodeData}
    (hc : IsCell name (.staged stage i data) d) (bytes : Content) :
    CellChange name (.staged stage i data)
      (.staged stage i ⟨data.content ++ bytes, data.changes + 1⟩) d (d.change i bytes) := by
  have hdata : d.inodes[i]? = some data := hc.data i data rfl
  refine ⟨hc, ⟨hc.entries, ?_, ?_, hc.stage, nofun⟩, rfl, hd.nodup, rfl, ?_, ?_, nofun, nofun,
    fun h => absurd rfl h⟩
  · rintro _ _ ⟨⟩
    rw [getElem?_change, if_pos rfl, hdata]
    rfl
  · rintro _ _ ⟨⟩
    exact hc.links i data rfl
  · intro j data' hj hne
    rw [getElem?_change, if_neg ?_, hj]
    rintro rfl
    exact hne data rfl
  · rintro _ _ ⟨⟩
    exact .inl ⟨data, rfl⟩

/-- The name is linked to the staging file. -/
theorem cellChange_link (hd : DirInv names d) {stage : FileName} {i : Inode} {data : InodeData}
    (hc : IsCell name (.staged stage i data) d) (hsize : data.content.length ≤ MAX_TEXT_BYTES) :
    CellChange name (.staged stage i data)
      (.linked stage i ⟨data.content, data.changes + 1⟩) d ((d.addEntry name i).change i []) := by
  have hdata : d.inodes[i]? = some data := hc.data i data rfl
  have hof := isOf_self name
  refine ⟨hc, ⟨?_, ?_, ?_, hc.stage, ?_⟩, rfl, nodup_addEntry hd.nodup hc.lookup_name i, ?_, ?_,
    ?_, nofun, nofun, fun h => absurd rfl h⟩
  · exact (filter_append_of_isOf name hof d.entries).trans (by rw [hc.entries]; rfl)
  · rintro _ _ ⟨⟩
    rw [getElem?_change, if_pos rfl, Directory.addEntry, hdata, Option.map_some, List.append_nil]
  · rintro _ _ ⟨⟩ e he heq
    rcases List.mem_append.1 he with hold | hnew
    · exact hc.links i data rfl e hold heq
    · rw [List.mem_singleton.1 hnew]
      exact hof
  · rintro _ ⟨⟩
    exact hsize
  · exact filter_not_append name hof d.entries
  · intro j data' hj hne
    rw [getElem?_change, if_neg ?_, Directory.addEntry, hj]
    rintro rfl
    exact hne data rfl
  · rintro _ _ ⟨⟩
    exact .inl ⟨data, rfl⟩

/-- The staging file is removed. -/
theorem cellChange_remove (hd : DirInv names d) {stage : FileName} {i : Inode} {data : InodeData}
    (hc : IsCell name (.staged stage i data) d) :
    CellChange name (.staged stage i data) .empty d ((d.removeEntry stage).change i []) := by
  have hstage := hc.stage stage rfl
  have hof : isOf name stage = true := by
    rw [isOf, hstage.1, Bool.or_true]
  refine ⟨hc, ⟨?_, nofun, nofun, nofun, nofun⟩, rfl,
    hd.nodup.sublist (List.filter_sublist.map _), ?_, ?_, nofun, nofun, nofun,
    fun h => absurd rfl h⟩
  · refine (filter_ne_filter name stage d.entries).trans ?_
    rw [hc.entries]
    simp [Cell.entries]
  · exact others_filter_ne name hof d.entries
  · intro j data' hj hne
    rw [getElem?_change, if_neg ?_, Directory.removeEntry, hj]
    rintro rfl
    exact hne data rfl

/-- The staging file of a name that is linked is unlinked. -/
theorem cellChange_unlink (hd : DirInv names d) {stage : FileName} {i : Inode} {data : InodeData}
    (hc : IsCell name (.linked stage i data) d) :
    CellChange name (.linked stage i data) (.done i ⟨data.content, data.changes + 1⟩) d
      ((d.removeEntry stage).change i []) := by
  have hdata : d.inodes[i]? = some data := hc.data i data rfl
  obtain ⟨hstage, hne⟩ := hc.stage stage rfl
  have hof : isOf name stage = true := by
    rw [isOf, hstage, Bool.or_true]
  refine ⟨hc, ⟨?_, ?_, ?_, nofun, ?_⟩, rfl, hd.nodup.sublist (List.filter_sublist.map _), ?_, ?_,
    ?_, ?_, nofun, fun _ => ⟨.inr ⟨stage, hstage, rfl⟩, fun j => ?_⟩⟩
  · refine (filter_ne_filter name stage d.entries).trans ?_
    rw [hc.entries]
    simp [Cell.entries, hne.symm]
  · rintro _ _ ⟨⟩
    rw [getElem?_change, if_pos rfl, Directory.removeEntry, hdata, Option.map_some,
      List.append_nil]
  · rintro _ _ ⟨⟩ e he heq
    exact hc.links i data rfl e (List.mem_filter.1 he).1 heq
  · rintro _ ⟨⟩
    exact hc.size _ rfl
  · exact others_filter_ne name hof d.entries
  · intro j data' hj hne
    rw [getElem?_change, if_neg ?_, Directory.removeEntry, hj]
    rintro rfl
    exact hne data rfl
  · rintro _ _ ⟨⟩
    exact .inl ⟨data, rfl⟩
  · rintro _ ⟨⟩
    rfl
  · rw [Directory.data, Directory.data, getElem?_change, Directory.removeEntry]
    split_ifs
    · cases d.inodes[j]? <;> simp
    · rfl

end TradingAgent
