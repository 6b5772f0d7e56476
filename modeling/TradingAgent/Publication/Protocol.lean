import TradingAgent.Publication.Runs

/-!
# Publishing and reading

What a call ensures, whatever the other processes do between its own calls: `ensures_publish` and
`ensures_read` for directories of independent names. Both run under the lock of the name, where
they find its cell (`ensures_locked`).
-/

namespace TradingAgent

open Interference FileM

/-! ## The programs on a cell -/

section

variable {names : Set FileName} {pid : Pid} {request : FileRequest} {c : Cell} {i : Inode}
  {data : InodeData} {stage : FileName} (hname : request.name ∈ names)

theorem Cell.file_of_visible {v : Inode × Content} (h : c.visible = some v) :
    ∃ data, c.file = some (v.1, data) ∧ data.content = v.2 := by
  cases c with
  | empty | staged => cases h
  | linked stage i data | done i data =>
    cases h
    exact ⟨data, rfl, rfl⟩

include hname

theorem runs_openPrivateFile {v : Inode × Content} (hvisible : c.visible = some v)
    {links : List ℕ} (hlinks : (c.entries request.name).length ∈ links) :
    Runs names pid request c (openPrivateFile request.name links) (Only (.ok v.1) c) := by
  obtain ⟨data, hfile, -⟩ := Cell.file_of_visible hvisible
  refine runs_bind_ok hname (runs_openFile hname hvisible) (runs_bind_ok hname (runs_fstat hname hfile) ?_)
  rw [if_neg (not_not.2 hlinks)]
  exact runs_pure hname v.1

theorem runs_openPrivateFile_missing (hvisible : c.visible = none) (links : List ℕ) :
    Runs names pid request c (openPrivateFile request.name links)
      (Only (.error .fileNotFound) c) :=
  runs_bind_error hname (runs_openFile_missing hname hvisible) ⟨rfl, rfl⟩

theorem runs_requireSameFile (i : Inode) :
    Runs names pid request c (requireSameFile i i) (Only (.ok ()) c) := by
  rw [requireSameFile, if_neg (not_not.2 rfl)]
  exact runs_pure hname ()

theorem runs_requireFinalFile : Runs names pid request (.done i data)
    (requireFinalFile request.name i) (Only (.ok ()) (.done i data)) :=
  runs_bind_ok hname (runs_openPrivateFile hname rfl (by simp [Cell.entries]))
    (runs_requireSameFile hname i)

theorem runs_readText (hfile : c.file = some (i, data))
    (hsize : data.content.length ≤ MAX_TEXT_BYTES) :
    Runs names pid request c (readText i) (Only (.ok data.content) c) := by
  refine runs_bind_ok hname (runs_fstat hname hfile) ?_
  rw [if_neg (not_lt.2 hsize)]
  refine runs_bind_ok hname (runs_read hname hfile) ?_
  rw [if_neg (not_lt.2 hsize)]
  refine runs_bind_ok hname (runs_fstat hname hfile) ?_
  rw [if_neg (by simp)]
  exact runs_pure hname data.content

/-- The alias that a publication left is unlinked. -/
theorem runs_repairStagingAlias (hself : isStagingOf request.name request.name = false) :
    Runs names pid request (.linked stage i data) (repairStagingAlias i request.name)
      (Only (.ok ()) (.done i ⟨data.content, data.changes + 1⟩)) := by
  refine runs_listdir hname hself (g := fun found => stagingMatches i found >>= _) ?_
  have hmatches : Runs names pid request (.linked stage i data) (stagingMatches i [stage])
      (Only (.ok [stage]) (.linked stage i data)) := by
    refine runs_bind_ok hname (runs_stat hname rfl rfl) ?_
    refine runs_bind_ok hname (runs_pure hname []) ?_
    rw [if_pos rfl]
    exact runs_pure hname [stage]
  refine runs_bind_ok hname hmatches ?_
  refine runs_bind_ok hname (runs_unlink_linked hname) ?_
  refine runs_bind_ok hname (runs_fstat hname rfl) ?_
  rw [if_neg (by simp [Cell.entries])]
  exact runs_pure hname ()

/-- A name that is visible has one link afterwards, whatever a publication left. -/
theorem runs_repairIfAliased (hself : isStagingOf request.name request.name = false)
    {v : Inode × Content} (hvisible : c.visible = some v) :
    Runs names pid request c (repairIfAliased v.1 request.name) fun a c' =>
      a = .ok () ∧ ∃ data, c' = .done v.1 data ∧ data.content = v.2 := by
  cases c with
  | empty | staged => cases hvisible
  | linked stage i data =>
    cases hvisible
    refine runs_bind_ok hname (runs_fstat hname rfl) ?_
    rw [if_pos (by simp [Cell.entries])]
    exact (runs_repairStagingAlias hname hself).mono fun a c' h => ⟨h.1, _, h.2, rfl⟩
  | done i data =>
    cases hvisible
    refine runs_bind_ok hname (runs_fstat hname rfl) ?_
    rw [if_neg (by simp [Cell.entries])]
    exact (runs_pure hname ()).mono fun a c' h => ⟨h.1, _, h.2, rfl⟩

/-- The search for what has been published under the name. -/
theorem runs_requireExisting (hself : isStagingOf request.name request.name = false)
    {v : Inode × Content} (hvisible : c.visible = some v) (hsize : v.2.length ≤ MAX_TEXT_BYTES)
    (payload : Content) :
    Runs names pid request c (requireExisting request.name payload) fun a c' =>
      (a = if v.2 ≠ payload then .error .invalid else .ok (some false)) ∧
        ∃ data, c' = .done v.1 data ∧ data.content = v.2 := by
  have hlinks : (c.entries request.name).length ∈ [1, 2] := by
    cases c with
    | empty | staged => cases hvisible
    | linked | done => simp [Cell.entries]
  have hopened : Runs names pid request c (do
      let i ← openPrivateFile request.name [1, 2]
      pure (some i)) (Only (.ok (some v.1)) c) :=
    runs_bind_ok hname (runs_openPrivateFile hname hvisible hlinks) (runs_pure hname _)
  have htried : Runs names pid request c (tryExcept (do
      let i ← openPrivateFile request.name [1, 2]
      pure (some i)) .fileNotFound (pure none)) (Only (.ok (some v.1)) c) := by
    refine runs_tryExcept hname hopened ?_ fun _ _ _ h => h
    rintro _ ⟨⟨⟩, -⟩
  refine runs_bind_ok hname htried ?_
  refine runs_bind hname (runs_repairIfAliased hname hself hvisible) ?_ ?_
  · rintro ⟨⟩ _ ⟨-, data, rfl, hdata⟩
    refine runs_bind_ok hname (runs_readText hname rfl (by rwa [hdata])) ?_
    rw [hdata]
    split_ifs with hne
    · exact (runs_throw hname _).mono fun a c' h => ⟨h.1, data, h.2, hdata⟩
    · refine runs_bind_ok hname (runs_requireFinalFile hname) ?_
      exact (runs_pure hname _).mono fun a c' h => ⟨h.1, data, h.2, hdata⟩
  · rintro e _ ⟨⟨⟩, -⟩

/-- A read under the lock of the name. -/
theorem runs_readLocked (hself : isStagingOf request.name request.name = false)
    {content : Content} (hvisible : c.visible = some (i, content))
    (hsize : content.length ≤ MAX_TEXT_BYTES) :
    Runs names pid request c (readLocked i request.name) fun a c' =>
      ∃ data, c' = .done i data ∧ data.content = content ∧ a = .ok content := by
  refine runs_bind hname (runs_repairIfAliased hname hself hvisible) ?_ ?_
  · rintro ⟨⟩ _ ⟨-, data, rfl, rfl⟩
    refine runs_bind_ok hname (runs_readText hname rfl hsize) ?_
    refine runs_bind_ok hname (runs_requireFinalFile hname) ?_
    exact (runs_pure hname data.content).mono fun a c' h => ⟨data, h.2, rfl, h.1⟩
  · rintro e _ ⟨⟨⟩, -⟩

theorem runs_requireExisting_missing (hvisible : c.visible = none) (payload : Content) :
    Runs names pid request c (requireExisting request.name payload) (Only (.ok none) c) := by
  have hopened : Runs names pid request c (do
      let i ← openPrivateFile request.name [1, 2]
      pure (some i)) (Only (.error .fileNotFound) c) :=
    runs_bind_error hname (runs_openPrivateFile_missing hname hvisible _) ⟨rfl, rfl⟩
  have htried : Runs names pid request c (tryExcept (do
      let i ← openPrivateFile request.name [1, 2]
      pure (some i)) .fileNotFound (pure none)) (Only (.ok none) c) := by
    refine runs_tryExcept hname hopened ?_ ?_
    · rintro _ ⟨-, rfl⟩
      exact runs_pure hname none
    · rintro _ _ hne ⟨rfl, -⟩
      exact absurd rfl hne
  exact runs_bind_ok hname htried (runs_pure hname none)

/-- What a publication has left that ended before it linked the name is removed. -/
theorem runs_removeOrphanStaging (hself : isStagingOf request.name request.name = false)
    (hvisible : c.visible = none) :
    Runs names pid request c (removeOrphanStaging request.name) (Only (.ok ()) .empty) := by
  refine runs_listdir hname hself (g := removeCandidates) ?_
  cases c with
  | linked | done => cases hvisible
  | empty => exact runs_pure hname ()
  | staged stage i data =>
    refine runs_bind_ok hname (runs_stat hname rfl rfl) ?_
    dsimp only
    rw [if_neg (by simp [Cell.entries])]
    exact runs_bind_ok hname (runs_unlink_staged hname) (runs_pure hname ())

theorem runs_writeAll (pieces : List Content) :
    Runs names pid request (.staged stage i data) (writeAll i pieces) fun a c' =>
      a = .ok () ∧ ∃ data', c' = .staged stage i data' ∧
        data'.content = data.content ++ pieces.flatten := by
  induction pieces generalizing data with
  | nil => exact (runs_pure hname ()).mono fun a c' h => ⟨h.1, data, h.2, by simp⟩
  | cons bytes pieces ih =>
    refine runs_bind_ok hname (runs_write hname bytes) ?_
    refine ih.mono fun a c' h => ?_
    obtain ⟨ha, data', hc', hdata'⟩ := h
    exact ⟨ha, data', hc', by rw [hdata', List.flatten_cons, List.append_assoc]⟩

/-- The staging file is written, and the name is linked to it. -/
theorem runs_linkStaging (hself : BelongsTo names request.name request.name)
    {token : String} {pieces : List Content}
    (hrequest : request = .publish request.name token pieces)
    (hsize : pieces.flatten.length ≤ MAX_TEXT_BYTES) :
    Runs names pid request (.staged stage i {}) (linkStaging request.name stage i pieces)
      fun a c' => a = .ok true ∧ ∃ data, c' = .done i data ∧ data.content = pieces.flatten := by
  refine runs_bind hname (runs_writeAll hname pieces) ?_ ?_
  · rintro ⟨⟩ _ ⟨-, data, rfl, hdata⟩
    rw [List.nil_append] at hdata
    refine runs_bind_ok hname (runs_link hname hself (by rwa [hdata])
      ⟨token, pieces, hrequest, hdata⟩) ?_
    refine runs_bind_ok hname (runs_openPrivateFile hname rfl (by simp [Cell.entries])) ?_
    refine runs_bind_ok hname (runs_requireSameFile hname i) ?_
    refine runs_bind_ok hname (runs_unlink_linked hname) ?_
    refine runs_bind_ok hname (runs_fstat hname rfl) ?_
    rw [if_neg (by simp [Cell.entries])]
    refine runs_bind_ok hname (runs_requireFinalFile hname) ?_
    exact (runs_pure hname true).mono fun a c' h => ⟨h.1, _, h.2, hdata⟩
  · rintro e _ ⟨⟨⟩, -⟩

/-- A publication under the lock of its name: the payload is published, unless something else has
    been. -/
theorem runs_publishLocked (hind : Independent names) {token : String} {pieces : List Content}
    (hrequest : request = .publish request.name token pieces) (htoken : isTokenHex token = true)
    (hsize : pieces.flatten.length ≤ MAX_TEXT_BYTES)
    (hvisible : ∀ v, c.visible = some v → v.2.length ≤ MAX_TEXT_BYTES) :
    Runs names pid request c (publishLocked request.name token pieces) fun a c' =>
      ∃ i data, c' = .done i data ∧
        (if data.content = pieces.flatten then ∃ created, a = .ok created
          else ∃ e, a = .error e) := by
  have hself := hind.target _ hname _ hname
  have htarget := hind.belongsTo_target hname
  rcases hv : c.visible with _ | v
  · refine runs_bind_ok hname (runs_requireExisting_missing hname hv pieces.flatten) ?_
    refine runs_bind_ok hname (runs_removeOrphanStaging hname hself hv) ?_
    have hstage := isStagingOf_stagingName request.name token
    have hne : stagingName request.name token ≠ request.name := by
      intro heq
      rw [heq, hself] at hstage
      cases hstage
    refine runs_bind hname (runs_create hname (hind.belongsTo_stagingName hname htoken) hstage hne)
      ?_ ?_
    · rintro i _ ⟨_, ⟨⟩, rfl⟩
      refine runs_tryFinally hname
        (P := fun a c' => a = .ok true ∧ ∃ data, c' = .done i data ∧ data.content = pieces.flatten)
        (runs_tryExcept hname (runs_linkStaging hname htarget hrequest hsize) ?_
          fun _ _ _ h => h) ?_
      · rintro _ ⟨⟨⟩, -⟩
      · -- The staging file is gone already.
        rintro _ _ ⟨rfl, data, rfl, hdata⟩
        have hmissing : ((Cell.done i data).entries request.name).find?
            (·.1 = stagingName request.name token) = none := by
          simp [Cell.entries, hne.symm]
        refine runs_tryExcept hname (runs_unlink_missing hname
          (isOf_stagingName request.name token) hmissing) ?_ ?_
        · rintro _ ⟨-, rfl⟩
          refine (runs_pure hname ()).mono fun a c' h => ⟨h.1, i, data, h.2, ?_⟩
          rw [if_pos hdata]
          exact ⟨true, rfl⟩
        · rintro _ _ hne ⟨rfl, -⟩
          exact absurd rfl hne
    · rintro e _ ⟨_, ⟨⟩, -⟩
  · refine runs_bind hname (runs_requireExisting hname hself hv (hvisible v hv) pieces.flatten) ?_ ?_
    · rintro existing _ ⟨ha, data, rfl, hdata⟩
      split_ifs at ha with hne
      cases ha
      refine (runs_pure hname false).mono fun a c' h => ⟨v.1, data, h.2, ?_⟩
      rw [hdata, if_pos (not_not.1 hne)]
      exact ⟨false, h.1⟩
    · rintro e _ ⟨ha, data, rfl, hdata⟩
      split_ifs at ha with hne
      refine ⟨v.1, data, rfl, ?_⟩
      rw [hdata, if_neg hne]
      exact ⟨e, rfl⟩

end

/-! ## The programs of calls -/

section

variable {names : Set FileName} {pid : Pid} {request : FileRequest} {d d' : Directory}

/-- A process holds no lock. -/
def Idle (pid : Pid) (d : Directory) : Prop := ∀ name, (name, pid) ∉ d.locks

theorem Idle.rely (h : Idle pid d) (hrely : Rely names pid d d') : Idle pid d' :=
  fun name hmem => h name ((hrely.locks name).2 hmem)

theorem IsCell.congr {name : FileName} {c : Cell} (h : IsCell name c d)
    (hentries : d'.entries = d.entries) (hinodes : d'.inodes = d.inodes) : IsCell name c d' :=
  ⟨by rw [hentries, h.entries], fun i data hi => by rw [hinodes, h.data i data hi],
    fun i data hi => by rw [hentries]; exact h.links i data hi, h.stage, h.size⟩

theorem Visible.congr {name : FileName} {i : Inode} {content : Content}
    (hentries : d'.entries = d.entries) (hinodes : d'.inodes = d.inodes) :
    Visible name i content d' ↔ Visible name i content d := by
  simp only [Visible, Directory.lookup, Directory.data, hentries, hinodes]

theorem DirInv.congr (h : DirInv names d) (hentries : d'.entries = d.entries)
    (hinodes : d'.inodes = d.inodes) (hlocks : (d'.locks.map (·.1)).Nodup) : DirInv names d' where
  nodup := by rw [hentries]; exact h.nodup
  belongs := by rw [hentries]; exact h.belongs
  cells name hname := by
    obtain ⟨c, hc⟩ := h.cells name hname
    exact ⟨c, hc.congr hentries hinodes⟩
  locks := hlocks

theorem Grows.congr (hentries : d'.entries = d.entries) (hinodes : d'.inodes = d.inodes) :
    Grows names d d' :=
  ⟨fun _ _ _ _ hv => (Visible.congr hentries hinodes).2 hv,
    fun _ _ _ _ hc => hc.congr hentries hinodes⟩

/-- A change of the locks of a process only. -/
theorem fileStep_locks (hd : DirInv names d) (hentries : d'.entries = d.entries)
    (hinodes : d'.inodes = d.inodes) (hlocks : (d'.locks.map (·.1)).Nodup)
    (hothers : ∀ other, other ≠ pid → ∀ name, (name, other) ∈ d.locks ↔ (name, other) ∈ d'.locks) :
    FileStep names pid request d d' where
  inv := hd.congr hentries hinodes hlocks
  locks := hothers
  cells _ _ _ _ hc := hc.congr hentries hinodes
  grows := .congr hentries hinodes
  others := by rw [hentries]
  new _ _ _ _ hv := .inl ((Visible.congr hentries hinodes).1 hv)
  taken _ := ⟨.inl hentries, fun i => by rw [Directory.data, Directory.data, hinodes]⟩

/-- A lock that is taken was free. -/
theorem perform_lock {name : FileName} {r : Unit}
    (h : Directory.perform pid (.lock name) d = some (r, d')) :
    name ∉ d.locks.map (·.1) ∧ d' = { d with locks := d.locks ++ [(name, pid)] } := by
  rw [Directory.perform] at h
  split_ifs at h with hany
  refine ⟨fun hmem => hany ?_, (congrArg Prod.snd (Option.some.inj h)).symm⟩
  obtain ⟨l, hl, heq⟩ := List.mem_map.1 hmem
  exact List.any_eq_true.2 ⟨l, hl, decide_eq_true heq⟩

/-- A program between the lock of a name and its release: it runs on the cell that it finds, and
    what is true at its end must stay so when the lock is released. -/
theorem ensures_locked {α : Type} (hname : request.name ∈ names) {x : FileM α}
    {P : Cell → Except FsError α → Cell → Prop} {Q : Except FsError α → Directory → Prop}
    (hd : DirInv names d) (hidle : Idle pid d)
    (hx : ∀ d', Rely names pid d d' → ∀ c, IsCell request.name c d' →
      Runs names pid request c x (P c))
    (hQ : ∀ c a c' t, P c a c' → DirInv names t → IsCell request.name c' t → Q a t)
    (hstable : ∀ a t u, DirInv names t → DirInv names u → Grows names t u → Q a t → Q a u) :
    FileEnsures names pid request (fun a t => Q a t ∧ Idle pid t)
      (do
        lock request.name
        tryFinally x (unlock request.name) : FileM α).run d := by
  intro t hrely r u hperform
  have ht := hrely.inv hd
  have hidle_t := hidle.rely hrely
  obtain ⟨hfree, rfl⟩ := perform_lock hperform
  have hothers : ∀ other, other ≠ pid → ∀ name,
      (name, other) ∈ t.locks ↔ (name, other) ∈ t.locks ++ [(request.name, pid)] := by
    intro other hne name
    simp [hne]
  have hlocks : ((t.locks ++ [(request.name, pid)]).map (·.1)).Nodup := by
    rw [List.map_append, List.map_singleton, List.nodup_append_comm, List.singleton_append,
      List.nodup_cons]
    exact ⟨hfree, ht.locks⟩
  have hstep : FileStep names pid request t { t with locks := t.locks ++ [(request.name, pid)] } :=
    fileStep_locks ht rfl rfl hlocks hothers
  refine ⟨fun _ => hstep, ?_⟩
  obtain ⟨c, hc⟩ := ht.cells _ hname
  have hheld : Held names pid request.name c
      { t with locks := t.locks ++ [(request.name, pid)] } := by
    refine ⟨hstep.inv, fun other => ?_, hc.congr rfl rfl⟩
    simp [hidle_t other]
  change FileEnsures names pid request _ (tryFinally x (unlock request.name)).run _
  refine Program.ensures_bind Rely.refl ((hx t hrely c hc _ hheld).mono ?_)
  rintro a v ⟨c', hP, hv⟩
  -- The lock is released.
  intro v' hrely' r' u' hperform'
  have hv' := hv.rely hname hrely'
  obtain ⟨⟩ := Option.some.inj hperform'
  have hrelease : FileStep names pid request v'
      { v' with locks := v'.locks.filter (· ≠ (request.name, pid)) } := by
    refine fileStep_locks hv'.inv rfl rfl (hv'.inv.locks.sublist (List.filter_sublist.map _)) ?_
    intro other hne name
    simp [List.mem_filter, hne]
  refine ⟨fun _ => hrelease, fun v'' hrely'' => ⟨?_, ?_⟩⟩
  · refine hstable a _ _ hrelease.inv (hrely''.inv hrelease.inv) (hrely''.grows hrelease.inv) ?_
    exact hstable a _ _ hv'.inv hrelease.inv hrelease.grows (hQ c a c' v' hP hv'.inv hv'.cell)
  · refine Idle.rely (fun name hmem => ?_) hrely''
    obtain ⟨hmem, hne⟩ := List.mem_filter.1 hmem
    rw [hv'.locks] at hmem
    simp [hmem] at hne

/-- A name has one link, and no staging file. -/
def Settled (name : FileName) (d : Directory) : Prop :=
  ∃ i, d.lookup name = some i ∧ (d.fileStat i).links = 1 ∧
    ∀ e ∈ d.entries, isStagingOf name e.1 = false

theorem IsCell.settled {name : FileName} {i : Inode} {data : InodeData}
    (h : IsCell name (.done i data) d) (hself : isStagingOf name name = false) :
    Settled name d := by
  refine ⟨i, h.lookup_name, ?_, fun e he => ?_⟩
  · rw [h.fileStat_eq rfl]
    rfl
  · have hnames := h.staging_names hself
    rw [Cell.stage?, Option.toList_none, List.filter_eq_nil_iff] at hnames
    exact Bool.eq_false_of_not_eq_true (hnames e.1 (List.mem_map_of_mem he))

/-- What a call has done when it returns. -/
def FilePost (request : FileRequest) (start : Directory) (result : Option FileAnswer)
    (final : Directory) : Prop :=
  match request, result with
  | .publish name _ pieces, some (.created _) =>
    name ≠ "" ∧ (∃ i, Visible name i pieces.flatten final) ∧ Settled name final
  | .publish name _ pieces, none =>
    name = "" ∨ pieces.flatten = [] ∨
      ∃ i content, Visible name i content final ∧ content ≠ pieces.flatten
  | .read name, some (.text content) => ∃ i, Visible name i content final
  | .read name, none => name = "" ∨ ∀ i content, ¬ Visible name i content start
  | _, _ => False

/-- What is asked of a call: its name is one of the names, and its payload has at most 64 MiB. -/
def IsAllowed (names : Set FileName) : FileRequest → Prop
  | .publish name token pieces =>
    name ∈ names ∧ isTokenHex token = true ∧ pieces.flatten.length ≤ MAX_TEXT_BYTES
  | .read name => name ∈ names

theorem IsAllowed.name_mem (h : IsAllowed names request) : request.name ∈ names := by
  cases request with
  | publish => exact h.1
  | read => exact h

/-- An error of a program becomes the one of the call. -/
theorem ensures_answer {α : Type} {f : α → FileAnswer} {x : FileM α}
    {Q : Option FileAnswer → Directory → Prop} {P : Except FsError α → Directory → Prop}
    (hx : FileEnsures names pid request P x.run d) (hok : ∀ a t, P (.ok a) t → Q (some (f a)) t)
    (herror : ∀ e t, P (.error e) t → Q none t)
    (hstable : ∀ a t u, Rely names pid t u → P a t → P a u) :
    FileEnsures names pid request Q (answer f x) d := by
  refine Program.ensures_bind Rely.refl (hx.mono ?_)
  rintro (e | a) t hP u hrely
  · exact herror e u (hstable _ t u hrely hP)
  · exact hok a u (hstable _ t u hrely hP)

theorem ensures_publish (hind : Independent names) {name token : String} {pieces : List Content}
    (hallowed : IsAllowed names (.publish name token pieces)) (hd : DirInv names d)
    (hidle : Idle pid d) :
    FileEnsures names pid (.publish name token pieces)
      (fun a t => FilePost (.publish name token pieces) d a t ∧ Idle pid t)
      (FileRequest.publish name token pieces).program d := by
  obtain ⟨hname, htoken, hsize⟩ := hallowed
  have hself := hind.target name hname name hname
  by_cases hinvalid : name = "" ∨ pieces.flatten = []
  · refine ensures_answer (P := fun a t => (∃ e, a = .error e) ∧ Idle pid t) ?_ ?_ ?_ ?_
    · rw [publishPrivateImmutableText, if_pos hinvalid]
      exact fun t hrely => ⟨⟨_, rfl⟩, hidle.rely hrely⟩
    · rintro a t ⟨⟨e, ⟨⟩⟩, -⟩
    · rintro e t ⟨-, ht⟩
      exact ⟨hinvalid.elim .inl fun h => .inr (.inl h), ht⟩
    · rintro a t u hrely ⟨ha, ht⟩
      exact ⟨ha, ht.rely hrely⟩
  · refine ensures_answer (P := fun a t => ((DirInv names t ∧ ∃ i data,
      IsCell name (.done i data) t ∧
        (if data.content = pieces.flatten then ∃ created, a = .ok created
          else ∃ e, a = .error e)) ∧ Idle pid t)) ?_ ?_ ?_ ?_
    · rw [publishPrivateImmutableText, if_neg hinvalid]
      refine ensures_locked hname hd hidle (fun d' _ c hc =>
        runs_publishLocked hname hind rfl htoken hsize hc.size) ?_ ?_
      · rintro c a c' t ⟨i, data, rfl, ha⟩ ht hc
        exact ⟨ht, i, data, hc, ha⟩
      · rintro a t u - hu hgrows ⟨-, i, data, hc, ha⟩
        exact ⟨hu, i, data, hgrows.done name hname i data hc, ha⟩
    · rintro created t ⟨⟨ht, i, data, hc, ha⟩, hidle⟩
      split_ifs at ha with heq
      · exact ⟨⟨fun h => hinvalid (.inl h), ⟨i, heq ▸ hc.visible_iff.2 rfl⟩, hc.settled hself⟩,
          hidle⟩
      · obtain ⟨e, ⟨⟩⟩ := ha
    · rintro e t ⟨⟨ht, i, data, hc, ha⟩, hidle⟩
      split_ifs at ha with heq
      · obtain ⟨created, ⟨⟩⟩ := ha
      · exact ⟨.inr (.inr ⟨i, data.content, hc.visible_iff.2 rfl, heq⟩), hidle⟩
    · rintro a t u hrely ⟨⟨ht, i, data, hc, ha⟩, hidle⟩
      exact ⟨⟨hrely.inv ht, i, data, (hrely.grows ht).done name hname i data hc, ha⟩,
        hidle.rely hrely⟩

theorem ensures_readLocked (hself : isStagingOf request.name request.name = false)
    (hname : request.name ∈ names) (hd : DirInv names d) (hidle : Idle pid d) {i : Inode}
    {content : Content} (hvisible : Visible request.name i content d) :
    FileEnsures names pid request
      (fun a t => (DirInv names t ∧ Visible request.name i content t ∧ a = .ok content) ∧
        Idle pid t)
      (do
        lock request.name
        tryFinally (readLocked i request.name) (unlock request.name) : FileM Content).run d := by
  have hrun : ∀ t, Rely names pid d t → ∀ c, IsCell request.name c t →
      Runs names pid request c (readLocked i request.name) fun a c' =>
        ∃ data, c' = .done i data ∧ data.content = content ∧ a = .ok content := by
    intro t hrely c hc
    have hv := hc.visible_iff.1 ((hrely.grows hd).visible _ hname _ _ hvisible)
    exact runs_readLocked hname hself hv (hc.size _ hv)
  refine ensures_locked hname hd hidle hrun ?_ ?_
  · rintro c a c' t ⟨data, rfl, hdata, rfl⟩ ht hc
    exact ⟨ht, hc.visible_iff.2 (by rw [Cell.visible, hdata]), rfl⟩
  · rintro a t u - hu hgrows ⟨-, hv, ha⟩
    exact ⟨hu, hgrows.visible _ hname i content hv, ha⟩

/-- A read opens the file before it takes the lock: it finds what is visible, if anything is. -/
theorem ensures_read (hind : Independent names) {name : FileName} (hname : name ∈ names)
    (hd : DirInv names d) (hidle : Idle pid d) :
    FileEnsures names pid (.read name)
      (fun a t => FilePost (.read name) d a t ∧ Idle pid t) (FileRequest.read name).program d := by
  have hself := hind.target name hname name hname
  by_cases hempty : name = ""
  · refine ensures_answer (P := fun a t => (∃ e, a = .error e) ∧ Idle pid t) ?_ ?_ ?_ ?_
    · rw [readPrivateText, if_pos hempty]
      exact fun t hrely => ⟨⟨_, rfl⟩, hidle.rely hrely⟩
    · rintro a t ⟨⟨e, ⟨⟩⟩, -⟩
    · rintro e t ⟨-, ht⟩
      exact ⟨.inl hempty, ht⟩
    · rintro a t u hrely ⟨ha, ht⟩
      exact ⟨ha, ht.rely hrely⟩
  refine ensures_answer (P := fun a t => (DirInv names t ∧
    ((∃ i content, Visible name i content t ∧ a = .ok content) ∨
      (∀ i content, ¬ Visible name i content d) ∧ ∃ e, a = .error e)) ∧ Idle pid t) ?_ ?_ ?_ ?_
  · rw [readPrivateText, if_neg hempty]
    -- The call that opens the file.
    intro t hrely r u hperform
    have ht := hrely.inv hd
    have hidle_t := hidle.rely hrely
    obtain ⟨c, hc⟩ := ht.cells name hname
    rw [Directory.perform, hc.lookup_name] at hperform
    rcases hv : c.visible with _ | v
    · rw [hv] at hperform
      obtain ⟨⟩ := Option.some.inj hperform
      refine ⟨guarantee_refl t, fun u hrely' => ⟨⟨hrely'.inv ht, .inr ⟨?_, _, rfl⟩⟩,
        hidle_t.rely hrely'⟩⟩
      intro i content hvisible
      have hvisible_t := (hrely.grows hd).visible name hname i content hvisible
      rw [hc.visible_iff.1 hvisible_t] at hv
      cases hv
    rw [hv] at hperform
    obtain ⟨⟩ := Option.some.inj hperform
    have hvisible : Visible name v.1 v.2 t := hc.visible_iff.2 hv
    refine ⟨guarantee_refl t, ?_⟩
    -- The call that asks for its links.
    intro t' hrely' r' u' hperform'
    have ht' := hrely'.inv ht
    obtain ⟨c', hc'⟩ := ht'.cells name hname
    have hvisible' := (hrely'.grows ht).visible name hname _ _ hvisible
    have hv' := hc'.visible_iff.1 hvisible'
    obtain ⟨data, hfile, -⟩ := Cell.file_of_visible hv'
    rw [Directory.perform, hc'.fileStat_eq hfile] at hperform'
    obtain ⟨⟩ := Option.some.inj hperform'
    refine ⟨guarantee_refl t', ?_⟩
    have hlinks : (c'.entries name).length ∈ [1, 2] := by
      cases c' with
      | empty | staged => cases hv'
      | linked | done => simp [Cell.entries]
    have hif : (if (c'.entries name).length ∉ [1, 2] then throw .invalid else pure v.1 :
        FileM Inode) = pure v.1 := if_neg (not_not.2 hlinks)
    change FileEnsures names pid _ _ ((if (c'.entries name).length ∉ [1, 2] then throw .invalid
      else pure v.1 : FileM Inode) >>= fun i => do
        lock name
        tryFinally (readLocked i name) (unlock name)).run t'
    rw [hif]
    have hlocked := @ensures_readLocked names pid (.read name) t' hself hname ht'
      (hidle_t.rely hrely') v.1 v.2 hvisible'
    refine hlocked.mono ?_
    rintro a w ⟨⟨hw, hvisible_w, rfl⟩, hidle_w⟩
    exact ⟨⟨hw, .inl ⟨v.1, v.2, hvisible_w, rfl⟩⟩, hidle_w⟩
  · rintro content t ⟨⟨ht, ⟨i, content', hvisible, ⟨⟩⟩ | ⟨-, e, ⟨⟩⟩⟩, hidle⟩
    exact ⟨⟨i, hvisible⟩, hidle⟩
  · rintro e t ⟨⟨ht, ⟨i, content', hvisible, ⟨⟩⟩ | ⟨hnot, e, -⟩⟩, hidle⟩
    exact ⟨.inr hnot, hidle⟩
  · rintro a t u hrely ⟨⟨ht, ha⟩, hidle⟩
    refine ⟨⟨hrely.inv ht, ha.imp_left ?_⟩, hidle.rely hrely⟩
    rintro ⟨i, content, hvisible, hresult⟩
    exact ⟨i, content, (hrely.grows ht).visible name hname i content hvisible, hresult⟩

end

end TradingAgent
