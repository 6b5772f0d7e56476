import TradingAgent.UsDay.Durability

/-!
# Reopening the thesis store

After a crash the store is opened again, and the call that was interrupted is repeated (`reopen`).

* Where nothing is torn, a call does what the files say (`StoreCall.outcome`), in whatever phase it
  is (`finish_eq_outcome`). So the repeated call does what the call would have done, or finds its own
  value published (`reopen_of_clean`).
* Where something is torn, the opening or the call is refused for ever (`reopen_of_torn`).
-/

namespace TradingAgent.UsDay

open Transition Writing UsDayThesisStore

/-- The store is opened again, and the call is repeated. -/
def reopen (token : String) (phase : Phase) : DiskWriting Bool := do
  let store ← openStore token
  match phase.call? with
  | some call => call.run store
  | none => return true

/-- What a call returns, as the files are. -/
def StoreCall.outcome (disk : Disk) : StoreCall → Except ThesisStoreError Bool
  | .publishThesis thesis =>
    match disk.theses thesis.thesisId with
    | none => .ok true
    | some existing => if existing = thesis then .ok false else .error .conflict
  | .publishChange change =>
    match disk.theses change.thesisId with
    | none => .error .thesisMissing
    | some thesis => checkChange thesis (disk.changes change.thesisId) change

section

variable {sha : Sha256} {texts : Set (List JsonAtom)} {disk later : Disk} {phase : Phase}
  {store : StoreIdentity} {token : String} {call : StoreCall}

theorem outcome_congr (htheses : later.theses = disk.theses) (hchanges : later.changes = disk.changes) :
    call.outcome later = call.outcome disk := by
  cases call with
  | publishThesis thesis => rw [StoreCall.outcome, htheses, StoreCall.outcome]
  | publishChange change => rw [StoreCall.outcome, htheses, hchanges, StoreCall.outcome]

/-- A call is not refused for its directories. -/
theorem outcome_ne : call.outcome disk ≠ .error .rootNotBound ∧
    call.outcome disk ≠ .error .directoryNotBound := by
  cases call with
  | publishThesis thesis =>
    rw [StoreCall.outcome]
    split
    · simp
    · split <;> simp
  | publishChange change =>
    rw [StoreCall.outcome]
    split
    · simp
    · rw [checkChange]
      split
      · split <;> simp
      · dsimp only
        split <;> simp

/-! ## Where nothing is torn -/

/-- The disk after a namespace is prepared. -/
structure IsPrepared (sha : Sha256) (texts : Set (List JsonAtom)) (store : StoreIdentity)
    (nameSpace : Namespace) (disk later : Disk) : Prop where
  inv : later.Inv sha texts
  anchor : later.anchor = some store
  whole : later.IsWhole
  theses : later.theses = disk.theses
  changes : later.changes = disk.changes
  bound : ∀ part ∈ nameSpace.parts, later.identities part ≠ none

section

variable (h : disk.Inv sha texts) (hwhole : disk.IsWhole) (hanchor : disk.anchor = some store)
include h hwhole hanchor

/-- The preparation of a namespace is not torn at its end. -/
theorem isTorn_prepare (nameSpace : Namespace) :
    isTorn (prepareBoundDirectory store nameSpace true disk).1 = false := by
  have heq := @prepareBoundDirectory_eq store true nameSpace disk h.registry hanchor
  obtain ⟨hok, hspec⟩ := @prepareParts_whole store nameSpace.parts disk h.registry hanchor hwhole
  have hsplit := (List.append_nil (prepareParts store true nameSpace.parts disk).1).symm
  obtain ⟨hregistry, hextends⟩ := prepareParts_extends h.registry hanchor _ _ hsplit
  rw [heq]
  refine Bool.eq_false_iff.2 fun htorn => ?_
  -- It would be refused, but all the directories are bound.
  have hrefused := (hspec _ _ hsplit).2 htorn
  rw [prepareParts_of_forall hregistry (hextends.anchor.trans hanchor)
    (prepareParts_binds h.registry hanchor hok)] at hrefused
  cases hrefused

theorem prepare_of_whole (nameSpace : Namespace) :
    (prepareBoundDirectory store nameSpace true disk).2 = .ok () ∧
      IsPrepared sha texts store nameSpace disk
        ((prepareBoundDirectory store nameSpace true).after disk) := by
  have heq := @prepareBoundDirectory_eq store true nameSpace disk h.registry hanchor
  have hclean := isTorn_prepare h hwhole hanchor nameSpace
  have hinv := (prepare_keeps h hanchor nameSpace none).after.inv
  obtain ⟨hok, hspec⟩ := @prepareParts_whole store nameSpace.parts disk h.registry hanchor hwhole
  have hsplit := (List.append_nil (prepareParts store true nameSpace.parts disk).1).symm
  obtain ⟨-, hextends⟩ := prepareParts_extends h.registry hanchor _ _ hsplit
  rw [Writing.after, heq] at hinv ⊢
  rw [heq] at hclean
  exact ⟨hok, hinv, hextends.anchor.trans hanchor, (hspec _ _ hsplit).1 hclean, hextends.theses,
    hextends.changes, prepareParts_binds h.registry hanchor hok⟩

end

theorem publishThesisFile_outcome (thesis : UsDayTradeThesis) (disk : Disk) :
    (publishThesisFile thesis disk).2 = (StoreCall.publishThesis thesis).outcome disk := by
  rw [StoreCall.outcome]
  rcases publishThesisFile_cases thesis disk with ⟨hnone, hfile⟩ | ⟨existing, hsome, hfile⟩
  · rw [hfile, hnone]
  · rw [hfile, hsome]

section

variable (h : disk.Inv sha texts)
include h

theorem publishChangeFile_outcome {change : UsDayThesisChange} (hnext : disk.IsNext change) :
    (publishChangeFile change disk).2 = (StoreCall.publishChange change).outcome disk := by
  obtain ⟨thesis, hthesis, hcheck⟩ := hnext
  rw [(publishChangeFile_eq h ⟨thesis, hthesis, hcheck⟩).2, StoreCall.outcome, hthesis]
  exact hcheck.symm

variable (hanchor : disk.anchor = some store)
include hanchor

theorem publishNext_outcome {change : UsDayThesisChange} (hchained : disk.Chained change.thesisId)
    (hnext : disk.IsNext change) :
    (publishNext store change disk).2 = (StoreCall.publishChange change).outcome disk := by
  have hprepared := prepare_of_chained true h hanchor hchained
  rw [publishNext, bind_of_ok (congrArg Prod.snd hprepared), Writing.after, hprepared, List.foldl_nil]
  exact publishChangeFile_outcome h hnext

theorem publishAfter_outcome {change : UsDayThesisChange} {thesis : UsDayTradeThesis}
    (hchained : disk.Chained change.thesisId) (hthesis : disk.theses change.thesisId = some thesis) :
    (publishAfter store thesis change disk).2 = (StoreCall.publishChange change).outcome disk := by
  have hread := changes_of_chained h hanchor hthesis hchained
  have houtcome : (StoreCall.publishChange change).outcome disk =
      checkChange thesis (disk.changes change.thesisId) change := by
    rw [StoreCall.outcome, hthesis]
  rw [publishAfter, bind_of_ok (congrArg Prod.snd hread), Writing.after, hread, houtcome]
  rcases hcheck : checkChange thesis (disk.changes change.thesisId) change with e | ⟨_ | _⟩
  · rfl
  · rfl
  · have hnext := publishNext_outcome h hanchor hchained ⟨thesis, hthesis, hcheck⟩
    rw [houtcome, hcheck] at hnext
    exact hnext

theorem publishChangeLocked_outcome (hwhole : disk.IsWhole) {change : UsDayThesisChange}
    (hchained : disk.Chained change.thesisId) :
    (publishChangeLocked store change disk).2 = (StoreCall.publishChange change).outcome disk := by
  cases hthesis : disk.theses change.thesisId with
  | none =>
    have hread := (thesis_of_none h hanchor hthesis).2 hwhole
    rw [publishChangeLocked, bind_of_error (congrArg Prod.snd hread), StoreCall.outcome, hthesis]
  | some thesis =>
    have hread := thesis_eq h hanchor hthesis
    rw [publishChangeLocked, bind_of_ok (congrArg Prod.snd hread), Writing.after, hread,
      List.foldl_nil]
    exact publishAfter_outcome h hanchor hchained hthesis

/-- A call does what the files say. -/
theorem run_eq_outcome (hwhole : disk.IsWhole) (call : StoreCall) :
    (call.run store disk).2 = call.outcome disk := by
  cases call with
  | publishThesis thesis =>
    obtain ⟨hok, hprepared⟩ := prepare_of_whole h hwhole hanchor .theses
    rw [StoreCall.run, UsDayThesisStore.publishThesis, bind_of_ok hok,
      ← outcome_congr hprepared.theses hprepared.changes]
    exact publishThesisFile_outcome thesis _
  | publishChange change =>
    obtain ⟨hok, hprepared⟩ := prepare_of_whole h hwhole hanchor (.changesOf change.thesisId)
    rw [StoreCall.run, UsDayThesisStore.publishChange, bind_of_ok hok,
      ← outcome_congr hprepared.theses hprepared.changes]
    exact publishChangeLocked_outcome hprepared.inv hprepared.anchor hprepared.whole hprepared.bound

omit hanchor in
/-- So does what is left of it, in each phase. -/
theorem finish_eq_outcome (hwhole : disk.IsWhole) (hphase : phase.Holds disk)
    (hcall : phase.call? = some call) : (phase.finish disk).2 = call.outcome disk := by
  cases phase with
  | closed => cases hcall
  | opened store => cases hcall
  | opening token => cases hcall
  | preparesTheses store thesis =>
    cases hcall
    exact run_eq_outcome h hphase hwhole (.publishThesis thesis)
  | publishesThesis store thesis =>
    cases hcall
    exact publishThesisFile_outcome thesis disk
  | preparesChain store change =>
    cases hcall
    exact run_eq_outcome h hphase hwhole (.publishChange change)
  | awaitsChain store change =>
    cases hcall
    exact publishChangeLocked_outcome h hphase.1 hwhole hphase.2
  | readsThesis store change =>
    cases hcall
    exact publishChangeLocked_outcome h hphase.1 hwhole hphase.2
  | readsChanges store change thesis =>
    cases hcall
    exact publishAfter_outcome h hphase.1 hphase.2.1 hphase.2.2
  | preparesNext store change =>
    cases hcall
    exact publishNext_outcome h hphase.1 hphase.2.1 hphase.2.2
  | publishesChange store change =>
    cases hcall
    exact publishChangeFile_outcome h hphase.2.2

end

/-! ## After a crash -/

section

variable (h : disk.Inv sha texts) (hwhole : disk.IsWhole)
include h hwhole

/-- Opening the store is not torn at its end. -/
theorem isTorn_openStore (token : String) : isTorn (openStore token disk).1 = false := by
  obtain ⟨⟨store, -, hanchor⟩, hspec⟩ := @openStore_spec disk token h.registry hwhole
  obtain ⟨hopens, -, htorn⟩ := hspec _ _ (List.append_nil (openStore token disk).1).symm
  refine Bool.eq_false_iff.2 fun htorn' => ?_
  have hrefused := htorn htorn' token
  rw [openStore_of_anchor hopens.registry hanchor] at hrefused
  cases hrefused

/-- Nor is any section. -/
theorem isTorn_advance (hphase : phase.Holds disk) : isTorn (advance phase disk).1 = false := by
  cases phase with
  | closed => rfl
  | opened store => rfl
  | opening token =>
    have hwrites := (bind_pure_writes (openStore token)
      (fun store => (Phase.opened store, some true)) disk).1
    exact (congrArg isTorn hwrites).trans (isTorn_openStore h hwhole token)
  | preparesTheses store thesis =>
    have hwrites := (bind_pure_writes (prepareBoundDirectory store .theses true)
      (fun _ => (Phase.publishesThesis store thesis, (none : Option Bool))) disk).1
    exact (congrArg isTorn hwrites).trans (isTorn_prepare h hwhole hphase .theses)
  | publishesThesis store thesis =>
    have hwrites := (bind_pure_writes (publishThesisFile thesis)
      (fun published => (Phase.opened store, some published)) disk).1
    rcases publishThesisFile_cases thesis disk with ⟨-, hfile⟩ | ⟨existing, -, hfile⟩
    · exact congrArg isTorn (hwrites.trans (congrArg Prod.fst hfile))
    · exact congrArg isTorn (hwrites.trans (congrArg Prod.fst hfile))
  | preparesChain store change =>
    have hwrites := (bind_pure_writes (prepareBoundDirectory store (.changesOf change.thesisId) true)
      (fun _ => (Phase.awaitsChain store change, (none : Option Bool))) disk).1
    exact (congrArg isTorn hwrites).trans (isTorn_prepare h hwhole hphase _)
  | awaitsChain store change => rfl
  | readsThesis store change =>
    have hwrites := (bind_pure_writes (UsDayThesisStore.thesis store change.thesisId)
      (fun thesis => (Phase.readsChanges store change thesis, (none : Option Bool))) disk).1
    exact congrArg isTorn (hwrites.trans (thesis_cases h hphase.1).1)
  | readsChanges store change thesis => exact congrArg isTorn (advance_readsChanges h hphase).1
  | preparesNext store change =>
    have hwrites := (bind_pure_writes (prepareBoundDirectory store (.changesOf change.thesisId) true)
      (fun _ => (Phase.publishesChange store change, (none : Option Bool))) disk).1
    exact (congrArg isTorn hwrites).trans (isTorn_prepare h hwhole hphase.1 _)
  | publishesChange store change =>
    have hwrites := (bind_pure_writes (publishChangeFile change)
      (fun published => (Phase.opened store, some published)) disk).1
    have hfile := (publishChangeFile_eq h hphase.2.2).2
    exact congrArg isTorn (hwrites.trans (congrArg Prod.fst hfile))

/-- The store is opened, and the call does what the files say. -/
theorem reopen_of_whole : ∃ store, (openStore token disk).2 = .ok store ∧
    (reopen token phase disk).2 = match phase.call? with
      | some call => call.outcome disk
      | none => .ok true := by
  obtain ⟨⟨store, hopened, hanchor⟩, hspec⟩ := @openStore_spec disk token h.registry hwhole
  have hsplit := (List.append_nil (openStore token disk).1).symm
  obtain ⟨hopens, hclean, -⟩ := hspec _ _ hsplit
  have hinv := h.of_grows hopens.grows hopens.registry hopens.theses hopens.changes
  refine ⟨store, hopened, ?_⟩
  rw [reopen, bind_of_ok hopened]
  cases phase.call? with
  | none => rfl
  | some call =>
    dsimp only
    rw [← outcome_congr hopens.theses hopens.changes]
    exact run_eq_outcome hinv hanchor (hclean (isTorn_openStore h hwhole token)) call

/-- What a crash leaves, after some writes of a section: nothing that is torn, and then the call does
    the same, or finds its value; or the store, or the call, is refused. -/
structure LeftBy (sha : Sha256) (texts : Set (List JsonAtom)) (disk : Disk) (phase : Phase)
    (done : List DiskWrite) : Prop where
  clean : isTorn done = false → (done.foldl Disk.write disk).IsWhole ∧
    ∀ call, phase.call? = some call →
      call.outcome (done.foldl Disk.write disk) = call.outcome disk ∨
        call.outcome (done.foldl Disk.write disk) = .ok false
  torn : isTorn done = true → ∀ token,
    (reopen token phase (done.foldl Disk.write disk)).2 = .error .rootNotBound ∨
      (reopen token phase (done.foldl Disk.write disk)).2 = .error .directoryNotBound

omit h in
theorem leftBy_nil : LeftBy sha texts disk phase [] := ⟨fun _ => ⟨hwhole, fun _ _ => .inl rfl⟩, nofun⟩

/-- A crash while a namespace is prepared, at the start of a call. -/
theorem leftBy_prepare (hanchor : disk.anchor = some store) {nameSpace : Namespace}
    (hcall : phase.call? = some call)
    (hstart : ∀ later e, prepareBoundDirectory store nameSpace true later = ([], .error e) →
      (call.run store later).2 = .error e) {done rest : List DiskWrite}
    (hsplit : (prepareBoundDirectory store nameSpace true disk).1 = done ++ rest) :
    LeftBy sha texts disk phase done := by
  rw [prepareBoundDirectory_eq h.registry hanchor] at hsplit
  obtain ⟨-, hspec⟩ := @prepareParts_whole store nameSpace.parts disk h.registry hanchor hwhole
  obtain ⟨hclean, htorn⟩ := hspec done rest hsplit
  obtain ⟨hregistry, hextends⟩ := prepareParts_extends h.registry hanchor done rest hsplit
  refine ⟨fun hnot => ⟨hclean hnot, fun call _ => .inl ?_⟩, fun htorn' token => .inr ?_⟩
  · exact outcome_congr hextends.theses hextends.changes
  · -- The store is opened, and the directory is refused.
    have hlater := hextends.anchor.trans hanchor
    have hopened := @openStore_of_anchor store _ token hregistry hlater
    have hrefused := (prepareBoundDirectory_eq hregistry hlater).trans (htorn htorn')
    rw [reopen, bind_of_ok (congrArg Prod.snd hopened), Writing.after, hopened, hcall]
    exact hstart _ _ hrefused

theorem leftBy (hphase : phase.Holds disk) (hsha : sha.Separates texts)
    (hcall : ∀ call, phase.call? = some call → call.isValid sha = true ∧ call.text ∈ texts)
    {done rest : List DiskWrite} (hsplit : (advance phase disk).1 = done ++ rest) :
    LeftBy sha texts disk phase done := by
  have hsilent : (advance phase disk).1 = [] → LeftBy sha texts disk phase done := by
    intro hnil
    obtain ⟨rfl, -⟩ := List.append_eq_nil_iff.1 (hsplit.symm.trans hnil)
    exact leftBy_nil hwhole
  cases phase with
  | closed => exact hsilent rfl
  | opened store => exact hsilent rfl
  | opening token =>
    have hwrites := (bind_pure_writes (openStore token)
      (fun store => (Phase.opened store, some true)) disk).1
    obtain ⟨-, hspec⟩ := @openStore_spec disk token h.registry hwhole
    obtain ⟨-, hclean, htorn⟩ := hspec done rest (hwrites.symm.trans hsplit)
    refine ⟨fun hnot => ⟨hclean hnot, fun _ heq => by cases heq⟩, fun htorn' token' => .inl ?_⟩
    rw [reopen, bind_of_error (congrArg Prod.snd (htorn htorn' token'))]
  | preparesTheses store thesis =>
    have hwrites := (bind_pure_writes (prepareBoundDirectory store .theses true)
      (fun _ => (Phase.publishesThesis store thesis, (none : Option Bool))) disk).1
    refine leftBy_prepare h hwhole hphase rfl (fun later e he => ?_) (hwrites.symm.trans hsplit)
    rw [StoreCall.run, UsDayThesisStore.publishThesis, bind_of_error (congrArg Prod.snd he)]
  | publishesThesis store thesis =>
    have hwrites := (bind_pure_writes (publishThesisFile thesis)
      (fun published => (Phase.opened store, some published)) disk).1
    rcases publishThesisFile_cases thesis disk with ⟨-, hfile⟩ | ⟨existing, -, hfile⟩
    · rcases List.singleton_eq_append_iff.1
        ((hwrites.trans (congrArg Prod.fst hfile)).symm.trans hsplit) with ⟨rfl, -⟩ | ⟨rfl, -⟩
      · exact leftBy_nil hwhole
      · -- The thesis is published.
        refine ⟨fun _ => ⟨⟨hwhole.root, hwhole.registered⟩, fun call heq => .inr ?_⟩,
          fun htorn => by cases htorn⟩
        cases heq
        rw [StoreCall.outcome, List.foldl_cons, List.foldl_nil, Disk.theses_publishThesis]
        exact if_pos rfl
    · exact hsilent (hwrites.trans (congrArg Prod.fst hfile))
  | preparesChain store change =>
    have hwrites := (bind_pure_writes (prepareBoundDirectory store (.changesOf change.thesisId) true)
      (fun _ => (Phase.awaitsChain store change, (none : Option Bool))) disk).1
    refine leftBy_prepare h hwhole hphase rfl (fun later e he => ?_) (hwrites.symm.trans hsplit)
    rw [StoreCall.run, UsDayThesisStore.publishChange, bind_of_error (congrArg Prod.snd he)]
  | awaitsChain store change => exact hsilent rfl
  | readsThesis store change =>
    have hwrites := (bind_pure_writes (UsDayThesisStore.thesis store change.thesisId)
      (fun thesis => (Phase.readsChanges store change thesis, (none : Option Bool))) disk).1
    exact hsilent (hwrites.trans (thesis_cases h hphase.1).1)
  | readsChanges store change thesis => exact hsilent (advance_readsChanges h hphase).1
  | preparesNext store change =>
    have hwrites := (bind_pure_writes (prepareBoundDirectory store (.changesOf change.thesisId) true)
      (fun _ => (Phase.publishesChange store change, (none : Option Bool))) disk).1
    rw [prepare_of_chained true h hphase.1 hphase.2.1] at hwrites
    exact hsilent hwrites
  | publishesChange store change =>
    have hwrites := (bind_pure_writes (publishChangeFile change)
      (fun published => (Phase.opened store, some published)) disk).1
    obtain ⟨hvalid, htext⟩ := hcall _ rfl
    obtain ⟨-, hchained, thesis, hthesis, hcheck⟩ := hphase
    have hfile := (publishChangeFile_eq h ⟨thesis, hthesis, hcheck⟩).2
    rcases List.singleton_eq_append_iff.1
      ((hwrites.trans (congrArg Prod.fst hfile)).symm.trans hsplit) with ⟨rfl, -⟩ | ⟨rfl, -⟩
    · exact leftBy_nil hwhole
    · -- The change is published.
      have hlater := h.publishChange hsha hthesis hcheck hvalid htext hchained
      refine ⟨fun _ => ⟨⟨hwhole.root, hwhole.registered⟩, fun call heq => .inr ?_⟩,
          fun htorn => by cases htorn⟩
      cases heq
      have hthere : (disk.write (.publishChange change)).theses change.thesisId = some thesis := hthesis
      have hnodup := (List.nodup_cons.1 (hlater.chain _ _ hthere).2).2
      rw [StoreCall.outcome, List.foldl_cons, List.foldl_nil, hthere]
      refine checkChange_of_mem hnodup ?_
      rw [Disk.changes_publishChange]
      exact List.mem_append_right _ (List.mem_singleton_self _)

end

/-- Where nothing is torn, no call is refused for the directories. -/
theorem finish_ne (h : disk.Inv sha texts) (hwhole : disk.IsWhole) (hphase : phase.Holds disk) :
    (phase.finish disk).2 ≠ .error .rootNotBound ∧
      (phase.finish disk).2 ≠ .error .directoryNotBound := by
  cases hcall : phase.call? with
  | some call =>
    rw [finish_eq_outcome h hwhole hphase hcall]
    exact outcome_ne
  | none =>
    have hok : (phase.finish disk).2 = .ok true := by
      cases phase with
      | closed => rfl
      | opened store => rfl
      | opening token =>
        obtain ⟨⟨store, hopened, -⟩, -⟩ := @openStore_spec disk token h.registry hwhole
        rw [Phase.finish, bind_of_ok hopened]
        rfl
      | _ => cases hcall
    rw [hok]
    exact ⟨nofun, nofun⟩

/-- After a crash, the repeated call succeeds or does what the call would have done, exactly if
    nothing is torn. -/
theorem reopen_iff (h : disk.Inv sha texts) (hwhole : disk.IsWhole) (hphase : phase.Holds disk)
    (hsha : sha.Separates texts)
    (hcall : ∀ call, phase.call? = some call → call.isValid sha = true ∧ call.text ∈ texts)
    (writes : ℕ) :
    ((∃ b, (reopen token phase (disk.after phase writes)).2 = .ok b) ∨
        (reopen token phase (disk.after phase writes)).2 = (phase.finish disk).2) ↔
      isTorn ((advance phase disk).1.take writes) = false := by
  have hsplit := (List.take_append_drop writes (advance phase disk).1).symm
  have hleft := leftBy h hwhole hphase hsha hcall hsplit
  refine ⟨fun hdone => Bool.eq_false_iff.2 fun htorn => ?_, fun hclean => ?_⟩
  · -- The error is not one of those that the call may raise.
    have hfinish := finish_ne h hwhole hphase
    have hrefused := hleft.torn htorn token
    rw [← Disk.after] at hrefused
    rcases hdone with ⟨b, hb⟩ | hsame
    · rw [hb] at hrefused
      rcases hrefused with hrefused | hrefused <;> cases hrefused
    · rw [hsame] at hrefused
      rcases hrefused with hrefused | hrefused
      · exact hfinish.1 hrefused
      · exact hfinish.2 hrefused
  · obtain ⟨hlater, houtcome⟩ := hleft.clean hclean
    have hkept := advance_keeps hsha h hphase hcall _ _ hsplit
    obtain ⟨-, -, hreopened⟩ := @reopen_of_whole sha texts _ phase token hkept.inv hlater
    rw [Disk.after, hreopened]
    cases hcall' : phase.call? with
    | none => exact .inl ⟨true, rfl⟩
    | some call =>
      dsimp only
      rcases houtcome call hcall' with hsame | hknown
      · rw [hsame, finish_eq_outcome h hwhole hphase hcall']
        exact .inr rfl
      · rw [hknown]
        exact .inl ⟨false, rfl⟩

end

end TradingAgent.UsDay
