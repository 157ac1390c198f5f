import DuckIceberg.MovedTable

/-!
# Scanning a table that was moved

The scan of a moved table mirrors the scan of the original call by call, in any order of the calls:
with the same answers, and with the counterpart of every file that the original opens.  The path of a
delete file is not rewritten, so it does that exactly as long as the original opens no delete file,
and no file whose path is not cut at the root.

* `collectLogged_mirrors`, `getFileLogged_mirrors`: the calls mirror each other;
* `readsTheSame_iff`: so do the scans, exactly when all files are relocated.
-/

namespace DuckIceberg

open Strings ManifestReader IcebergMultiFileList MovedPaths Mirror

namespace MovedTable

variable {ρ : Type} {ctx ctx' : ClientContext} {files files' : DataFileScan ρ}
  {oldRoot newRoot : String} {l l' : IcebergMultiFileList}

/-- The list of the moved table. -/
def relocated (newRoot : String) (l : IcebergMultiFileList) : IcebergMultiFileList :=
  { l with path := newRoot, options := movedOptions l.options }

/-- The list of the original and that of the moved table. -/
structure Moves (oldRoot newRoot : String) (l l' : IcebergMultiFileList) : Prop where
  path_eq : l.path = oldRoot
  unmoved : l.options.allowMovedPaths = false
  moved : l' = relocated newRoot l
  resumable : Resumable l

/-- The logs of a step of both scans. -/
abbrev StepLogs (oldRoot newRoot : String) (log log' : List OpenedFile)
    (together stopped : Prop) : Prop :=
  Logs (Corresponds oldRoot newRoot) (Relocated oldRoot) log log' together stopped

/-- A call of both scans. -/
abbrev CallMirrors {α : Type} (oldRoot newRoot : String) (P : α → α → Prop)
    (x x' : LoggedCall α) : Prop :=
  Mirrors (Moves oldRoot newRoot) (Corresponds oldRoot newRoot) (Relocated oldRoot) P x x'

namespace Moved

variable (h : Moved ctx ctx' files files' oldRoot newRoot)

include h

/-! ### Initialisation -/

theorem openManifestList_logs (op : ManifestFormat IcebergManifest)
    (hl : Moves oldRoot newRoot l l') :
    StepLogs oldRoot newRoot
      (if l.snapshot.snapshotId = invalidIndex then []
        else pathOpened ctx .manifestList l.path l.options l.snapshot.manifestList)
      (if l'.snapshot.snapshotId = invalidIndex then []
        else pathOpened ctx' .manifestList l'.path l'.options l'.snapshot.manifestList)
      (Outcomes (Moves oldRoot newRoot) Eq (openManifestList ctx op l) (openManifestList ctx' op l'))
      (∃ e, (openManifestList ctx' op l').1 = .error e) := by
  obtain ⟨rfl, hunmoved, rfl, hresumable⟩ := hl
  have hsnapshot : (relocated newRoot l).snapshot = l.snapshot := rfl
  unfold openManifestList
  rw [hsnapshot]
  by_cases hid : l.snapshot.snapshotId = invalidIndex
  · simp only [if_pos hid]
    exact .nil ⟨.ok rfl, rfl, hunmoved, rfl, hresumable⟩
  · simp only [if_neg hid]
    have hkind : FileKind.manifestList ≠ .deleteFile := by decide
    refine (h.openAvro_logs hkind hunmoved l.snapshot.manifestList).mono (fun hopen => ?_) ?_
    · change Agree Eq _ (openAvro ctx' (relocated newRoot l).path (relocated newRoot l).options _)
        at hopen
      generalize openAvro ctx l.path l.options l.snapshot.manifestList = opened at hopen ⊢
      generalize openAvro ctx' (relocated newRoot l).path (relocated newRoot l).options
        l.snapshot.manifestList = opened' at hopen ⊢
      cases hopen with
      | error e e' => exact ⟨.error _ _, rfl, hunmoved, rfl, hresumable⟩
      | @ok scan _ heq =>
        subst heq
        dsimp only
        rcases (make op).initializeWith scan with ⟨e | u, r⟩
        · exact ⟨.error _ _, rfl, hunmoved, rfl, hresumable⟩
        · simp only [readManifests]
          rcases readAll op r [] with ⟨e | u, r', manifests⟩
          · exact ⟨.error _ _, rfl, hunmoved, rfl, hresumable⟩
          · exact ⟨.ok rfl, rfl, hunmoved, rfl, hresumable⟩
    · rintro ⟨e, he⟩
      change openAvro ctx' (relocated newRoot l).path (relocated newRoot l).options _ = _ at he
      rw [he]
      exact ⟨e, rfl⟩

theorem setUpReaders_logs (hl : Moves oldRoot newRoot l l') :
    StepLogs oldRoot newRoot (setUpOpened ctx l) (setUpOpened ctx' l')
      (Outcomes (Moves oldRoot newRoot) Eq (setUpReaders ctx l) (setUpReaders ctx' l'))
      (∃ e, (setUpReaders ctx' l').1 = .error e) := by
  obtain ⟨rfl, hunmoved, rfl, hresumable⟩ := hl
  have hsnapshot : (relocated newRoot l).snapshot = l.snapshot := rfl
  unfold setUpOpened setUpReaders
  rw [hsnapshot]
  cases formats l.snapshot.icebergFormatVersion with
  | none => exact .nil ⟨.error _ _, rfl, hunmoved, rfl, hresumable⟩
  | some ops =>
    obtain ⟨manifestOp, entryOp⟩ := ops
    refine h.openManifestList_logs manifestOp (l := { l with
        dataManifestEntryReader := some { make entryOp with skipDeleted := true }
        deleteManifestEntryReader := some { make entryOp with skipDeleted := true }
        manifestReader := some (make manifestOp)
        manifestProducer := some manifestOp
        entryProducer := some entryOp }) ⟨rfl, hunmoved, rfl, ?_⟩
    exact resumable_of_standing entryOp _ rfl rfl (standing_make entryOp)

theorem initializeLogged_mirrors :
    CallMirrors oldRoot newRoot Eq (initializeLogged ctx) (initializeLogged ctx') := by
  intro l l' hl
  obtain ⟨rfl, hunmoved, rfl, hresumable⟩ := id hl
  unfold initializeLogged initializeFiles initializeOpened
  have hinitialized : (relocated newRoot l).initialized = l.initialized := rfl
  rw [hinitialized]
  by_cases hinit : l.initialized = true
  · simp only [if_pos hinit]
    exact .nil ⟨.ok rfl, hl⟩
  · simp only [if_neg hinit]
    have hpath : Agree (SamePlace l.path newRoot)
        (IcebergSnapshot.getMetaDataPath ctx l.path l.options)
        (IcebergSnapshot.getMetaDataPath ctx' (relocated newRoot l).path
          (relocated newRoot l).options) := h.getMetaDataPath_agrees
    generalize IcebergSnapshot.getMetaDataPath ctx l.path l.options = found at hpath ⊢
    generalize IcebergSnapshot.getMetaDataPath ctx' (relocated newRoot l).path
      (relocated newRoot l).options = found' at hpath ⊢
    cases hpath with
    | error e e' => exact .nil ⟨.error _ _, rfl, hunmoved, rfl, hresumable⟩
    | @ok path path' hplace =>
      obtain ⟨s, rfl, rfl⟩ := hplace
      dsimp only
      have hselect : Agree Eq
          (IcebergSnapshot.select ctx (recorded l.path s) l.options)
          (IcebergSnapshot.select ctx' (recorded newRoot s) (relocated newRoot l).options) :=
        h.select_agrees s
      generalize IcebergSnapshot.select ctx (recorded l.path s) l.options = selected at hselect ⊢
      generalize IcebergSnapshot.select ctx' (recorded newRoot s) (relocated newRoot l).options =
        selected' at hselect ⊢
      cases hselect with
      | error e e' => exact .nil ⟨.error _ _, rfl, hunmoved, rfl, hresumable⟩
      | @ok snapshot _ heq =>
        subst heq
        exact h.setUpReaders_logs (l := { l with initialized := true, snapshot })
          ⟨rfl, hunmoved, rfl, hresumable⟩

/-! ### Data files -/

/-- The states of a loop of both scans. -/
abbrev RoundsTogether (oldRoot newRoot : String)
    (x x' : Loop.Step IcebergMultiFileList (Outcome IcebergMultiFileList Unit)) : Prop :=
  Loop.Together (Moves oldRoot newRoot) (Outcomes (Moves oldRoot newRoot) Eq) x x'

omit h in
theorem readDataFiles_together (hl : Moves oldRoot newRoot l l') (fileId : ℕ)
    (op : ManifestFormat IcebergManifestEntry) (r : ManifestReader) :
    RoundsTogether oldRoot newRoot (readDataFiles fileId op r l) (readDataFiles fileId op r l') := by
  obtain ⟨rfl, hunmoved, rfl, hresumable⟩ := hl
  have hfiles : (relocated newRoot l).dataFiles = l.dataFiles := rfl
  unfold readDataFiles
  rw [hfiles]
  dsimp only
  generalize r.readEntries _ (appendTo op) l.dataFiles = out
  obtain ⟨e | n, r', dataFiles⟩ := out
  · exact ⟨.error _ _, rfl, hunmoved, rfl, hresumable⟩
  · exact ⟨rfl, hunmoved, rfl, hresumable⟩

theorem getFileRound_logs (fileId : ℕ) (hl : Moves oldRoot newRoot l l') :
    StepLogs oldRoot newRoot (getFileRoundOpened ctx fileId l) (getFileRoundOpened ctx' fileId l')
      (RoundsTogether oldRoot newRoot (getFileRound ctx fileId l) (getFileRound ctx' fileId l'))
      (∃ out, getFileRound ctx' fileId l' = .done out ∧ ∃ e, out.1 = .error e) := by
  obtain ⟨rfl, hunmoved, rfl, hresumable⟩ := id hl
  have hfiles : (relocated newRoot l).dataFiles = l.dataFiles := rfl
  have hmanifests : (relocated newRoot l).dataManifests = l.dataManifests := rfl
  have hcurrent : (relocated newRoot l).currentDataManifest = l.currentDataManifest := rfl
  have hreader : (relocated newRoot l).dataManifestEntryReader = l.dataManifestEntryReader := rfl
  have hproducer : (relocated newRoot l).entryProducer = l.entryProducer := rfl
  unfold getFileRound getFileRoundOpened
  rw [hfiles, hmanifests, hcurrent, hreader, hproducer]
  by_cases hlt : fileId < l.dataFiles.length
  · simp only [if_pos hlt]
    exact .nil ⟨.ok rfl, hl⟩
  simp only [if_neg hlt]
  cases hr : l.dataManifestEntryReader with
  | none => exact .nil ⟨.error _ _, hl⟩
  | some r =>
    cases hp : l.entryProducer with
    | none => exact .nil ⟨.error _ _, hl⟩
    | some op =>
      dsimp only
      by_cases hf : r.isFinished = true
      · simp only [if_pos hf]
        cases hm : l.dataManifests[l.currentDataManifest]? with
        | none => exact .nil ⟨.ok rfl, hl⟩
        | some manifest =>
          dsimp only
          have hkind : FileKind.dataManifest ≠ .deleteFile := by decide
          refine (h.openAvro_logs hkind hunmoved manifest.manifestPath).mono (fun hopen => ?_) ?_
          · change Agree Eq _ (openAvro ctx' (relocated newRoot l).path
              (relocated newRoot l).options _) at hopen
            generalize openAvro ctx l.path l.options manifest.manifestPath = opened at hopen ⊢
            generalize openAvro ctx' (relocated newRoot l).path (relocated newRoot l).options
              manifest.manifestPath = opened' at hopen ⊢
            cases hopen with
            | error e e' => exact ⟨.error _ _, hl⟩
            | @ok scan _ heq =>
              subst heq
              dsimp only
              rcases r.initializeWith scan with ⟨e | u, r'⟩
              · exact ⟨.error _ _, rfl, hunmoved, rfl,
                  fun op r hop => hresumable op r (hp.trans hop)⟩
              · exact readDataFiles_together hl fileId op r'
          · rintro ⟨e, he⟩
            change openAvro ctx' (relocated newRoot l).path (relocated newRoot l).options _ = _ at he
            rw [he]
            exact ⟨_, rfl, e, rfl⟩
      · simp only [if_neg hf]
        exact .nil (readDataFiles_together hl fileId op r)

theorem expandLogged_mirrors (fileId : ℕ) :
    CallMirrors oldRoot newRoot Eq (expandLogged ctx fileId) (expandLogged ctx' fileId) := by
  intro l l' hl
  have hloop := run_logs (fun _ _ => h.getFileRound_logs fileId)
    (l.dataManifests.length - l.currentDataManifest + 3) hl
  have hfuel : l'.dataManifests.length - l'.currentDataManifest + 3 =
      l.dataManifests.length - l.currentDataManifest + 3 := by rw [hl.moved]; rfl
  unfold expandLogged expand expandOpened
  rw [hfuel]
  refine hloop.mono (fun hrel => ?_) ?_
  · generalize Loop.run (getFileRound ctx fileId) _ l = out at hrel ⊢
    generalize Loop.run (getFileRound ctx' fileId) _ l' = out' at hrel ⊢
    cases hrel with
    | none => exact ⟨.error _ _, hl⟩
    | some hout => exact hout
  · rintro ⟨out, hout, e, he⟩
    dsimp only
    rw [hout]
    exact ⟨e, he⟩

/-- What `GetFile` returns in both scans: nothing, or counterparts. -/
def NamedTogether (oldRoot newRoot path path' : String) : Prop :=
  path = "" ∧ path' = "" ∨ SamePlace oldRoot newRoot path path'

theorem producedPath_mirrors (fileId : ℕ) :
    CallMirrors oldRoot newRoot (NamedTogether oldRoot newRoot) (producedPath ctx fileId)
      (producedPath ctx' fileId) := by
  intro l l' hl
  obtain ⟨rfl, hunmoved, rfl, hresumable⟩ := id hl
  have hfiles : (relocated newRoot l).dataFiles = l.dataFiles := rfl
  unfold producedPath
  rw [hfiles]
  cases l.dataFiles[fileId]? with
  | none => exact .nil ⟨.ok (Or.inl ⟨rfl, rfl⟩), hl⟩
  | some dataFile =>
    have hkind : FileKind.dataFile ≠ .deleteFile := by decide
    refine h.pathOpened_logs hkind hunmoved dataFile.filePath ?_ fun e he => ⟨e, he⟩
    intro s hs hfull
    have hold : fullPath ctx l.path l.options dataFile.filePath = .ok dataFile.filePath := by
      unfold fullPath
      rw [hunmoved]
      rfl
    refine ⟨?_, hl⟩
    change Agree _ (fullPath ctx l.path l.options dataFile.filePath)
      (fullPath ctx' newRoot (movedOptions l.options) dataFile.filePath)
    rw [hold, hfull]
    exact .ok (Or.inr ⟨s, hs, rfl⟩)

/-- **`GetFile`** names the counterpart of the file that it names for the original. -/
theorem getFileLogged_mirrors (fileId : ℕ) :
    CallMirrors oldRoot newRoot (NamedTogether oldRoot newRoot) (getFileLogged ctx fileId)
      (getFileLogged ctx' fileId) :=
  h.initializeLogged_mirrors.bind fun _ _ _ =>
    (h.expandLogged_mirrors fileId).bind fun _ _ _ => h.producedPath_mirrors fileId

/-! ### Deletes -/

/-- The variables of the loop of `ProcessDeletes` in both scans. -/
def CollectMoves (oldRoot newRoot : String) (st st' : CollectState) : Prop :=
  Moves oldRoot newRoot st.1 st'.1 ∧ st.2 = st'.2

omit h in
theorem readDeleteFiles_together (hl : Moves oldRoot newRoot l l')
    (op : ManifestFormat IcebergManifestEntry) (hp : l.entryProducer = some op)
    {r : ManifestReader} (hr : Standing op r) (hf : r.isFinished = false)
    (acc : List IcebergManifestEntry) :
    Loop.Together (CollectMoves oldRoot newRoot) (Outcomes (CollectMoves oldRoot newRoot) Eq)
      (readDeleteFiles op r (l, acc)) (readDeleteFiles op r (l', acc)) := by
  obtain ⟨rfl, hunmoved, rfl, -⟩ := hl
  have hstand := hr.readEntries hf acc
  unfold readDeleteFiles
  dsimp only
  generalize r.readEntries standardVectorSize (appendTo op) acc = out at hstand ⊢
  obtain ⟨e | n, r', deleteFiles⟩ := out
  · exact ⟨.error _ _, ⟨rfl, hunmoved, rfl, resumable_of_standing op r' hp rfl hstand⟩, rfl⟩
  · exact ⟨⟨rfl, hunmoved, rfl, resumable_of_standing op r' hp rfl hstand⟩, rfl⟩

theorem collectRound_logs (st st' : CollectState) (hst : CollectMoves oldRoot newRoot st st') :
    StepLogs oldRoot newRoot (collectRoundOpened ctx st) (collectRoundOpened ctx' st')
      (Loop.Together (CollectMoves oldRoot newRoot) (Outcomes (CollectMoves oldRoot newRoot) Eq)
        (collectRound ctx st) (collectRound ctx' st'))
      (∃ out, collectRound ctx' st' = .done out ∧ ∃ e, out.1 = .error e) := by
  obtain ⟨l, acc⟩ := st
  obtain ⟨l', acc'⟩ := st'
  obtain ⟨hl, heq⟩ := id hst
  dsimp only at hl heq
  subst heq
  obtain ⟨rfl, hunmoved, rfl, hresumable⟩ := id hl
  have hmanifests : (relocated newRoot l).deleteManifests = l.deleteManifests := rfl
  have hcurrent : (relocated newRoot l).currentDeleteManifest = l.currentDeleteManifest := rfl
  have hreader : (relocated newRoot l).deleteManifestEntryReader = l.deleteManifestEntryReader := rfl
  have hproducer : (relocated newRoot l).entryProducer = l.entryProducer := rfl
  unfold collectRound collectRoundOpened
  dsimp only
  rw [hmanifests, hcurrent, hreader, hproducer]
  cases hm : l.deleteManifests[l.currentDeleteManifest]? with
  | none => exact .nil ⟨.ok rfl, hst⟩
  | some manifest =>
    cases hr : l.deleteManifestEntryReader with
    | none => exact .nil ⟨.error _ _, hst⟩
    | some r =>
      cases hp : l.entryProducer with
      | none => exact .nil ⟨.error _ _, hst⟩
      | some op =>
        dsimp only
        have hstand := hresumable op r hp hr
        by_cases hf : r.isFinished = true
        · simp only [if_pos hf]
          have hkind : FileKind.deleteManifest ≠ .deleteFile := by decide
          refine (h.openAvro_logs hkind hunmoved manifest.manifestPath).mono (fun hopen => ?_) ?_
          · change Agree Eq _ (openAvro ctx' (relocated newRoot l).path
              (relocated newRoot l).options _) at hopen
            cases hopened : openAvro ctx l.path l.options manifest.manifestPath with
            | error e =>
              rw [hopened] at hopen
              generalize openAvro ctx' (relocated newRoot l).path (relocated newRoot l).options
                manifest.manifestPath = opened' at hopen ⊢
              cases hopen with
              | error e e' => exact ⟨.error _ _, hst⟩
            | ok scan =>
              have hs := openAvro_unread hopened
              rw [hopened] at hopen
              generalize openAvro ctx' (relocated newRoot l).path (relocated newRoot l).options
                manifest.manifestPath = opened' at hopen ⊢
              cases hopen with
              | ok heq =>
                subst heq
                dsimp only
                have hinstalled := standing_initializeWith hstand.readerOf hs
                rcases hinstall : r.initializeWith scan with ⟨e | u, r'⟩
                · rw [hinstall] at hinstalled
                  exact ⟨.error _ _, ⟨rfl, hunmoved, rfl,
                    resumable_of_standing op r' rfl rfl hinstalled⟩, rfl⟩
                · rw [hinstall] at hinstalled
                  exact readDeleteFiles_together hl op hp hinstalled
                    (isFinished_installed hs hinstall).1 acc
          · rintro ⟨e, he⟩
            change openAvro ctx' (relocated newRoot l).path (relocated newRoot l).options _ = _ at he
            rw [he]
            exact ⟨_, rfl, e, rfl⟩
        · simp only [if_neg hf]
          exact .nil (readDeleteFiles_together hl op hp hstand (by simpa using hf) acc)

/-- The delete manifests are read together.  The rounds that the loops are allowed may be different:
both have enough of them. -/
theorem collectLogged_mirrors :
    CallMirrors oldRoot newRoot Eq (collectLogged ctx) (collectLogged ctx') := by
  intro l l' hl
  have hresumable' : Resumable l' := by
    rw [hl.moved]
    exact hl.resumable
  obtain ⟨out, hout⟩ := collect_halts ctx hl.resumable []
  obtain ⟨out', hout'⟩ := collect_halts ctx' hresumable' []
  have hloop := run_logs h.collectRound_logs (max (collectFuel ctx l) (collectFuel ctx' l'))
    (show CollectMoves oldRoot newRoot (l, []) (l', []) from ⟨hl, rfl⟩)
  rw [Loop.states_mono (le_max_left _ _) hout, Loop.states_mono (le_max_right _ _) hout',
    Loop.run_mono (le_max_left _ _) hout, Loop.run_mono (le_max_right _ _) hout'] at hloop
  have hcollect : collect ctx l = out := by
    show (Loop.run (collectRound ctx) (collectFuel ctx l) (l, [])).getD _ = out
    rw [hout]
    rfl
  have hcollect' : collect ctx' l' = out' := by
    show (Loop.run (collectRound ctx') (collectFuel ctx' l') (l', [])).getD _ = out'
    rw [hout']
    rfl
  unfold collectLogged
  rw [hcollect, hcollect']
  refine hloop.mono (fun hrel => ?_) ?_
  · obtain ⟨res, l₁, deleteFiles⟩ := out
    obtain ⟨res', l₁', deleteFiles'⟩ := out'
    cases hrel with
    | some hrel =>
      obtain ⟨hagree, hmoves, heq⟩ := hrel
      dsimp only at hagree hmoves heq
      subst heq
      cases hagree with
      | ok _ => exact ⟨.ok rfl, hmoves⟩
      | error e e' => exact ⟨.error e e', hmoves⟩
  · rintro ⟨_, heq, e, he⟩
    obtain rfl := Option.some.inj heq
    obtain ⟨res', l₁', deleteFiles'⟩ := out'
    dsimp only at he
    subst he
    exact ⟨e, rfl⟩

omit h in
/-- A delete file is opened under the recorded path in both scans, and that is not its
counterpart. -/
theorem scanDeletesLogged_mirrors (hne : oldRoot ≠ newRoot)
    (deleteFiles : List IcebergManifestEntry) :
    CallMirrors oldRoot newRoot Eq (scanDeletesLogged ctx deleteFiles)
      (scanDeletesLogged ctx' deleteFiles) := by
  intro l l' hl
  cases deleteFiles with
  | nil => exact .nil ⟨.ok rfl, hl⟩
  | cons entry deleteFiles =>
    have hlog : ∀ (c : ClientContext) (l : IcebergMultiFileList), ∃ scanned,
        (scanDeleteFiles c (entry :: deleteFiles) l).2 = entry :: scanned := by
      intro c l
      unfold scanDeleteFiles
      rcases scanDeleteFile c entry.filePath l with ⟨e | u, l₁⟩
      · exact ⟨[], rfl⟩
      · exact ⟨_, rfl⟩
    obtain ⟨scanned, hscanned⟩ := hlog ctx l
    obtain ⟨scanned', hscanned'⟩ := hlog ctx' l'
    unfold scanDeletesLogged
    dsimp only
    rw [hscanned, hscanned']
    refine .parts [] _ _ [] _ rfl rfl .nil (fun hgood => hgood.1 rfl) ?_
    exact Or.inr ⟨_, _, rfl, fun hcorresponds => hne (eq_of_samePlace hcorresponds.2)⟩

theorem deletesLogged_mirrors (hne : oldRoot ≠ newRoot) (filePath : String) :
    CallMirrors oldRoot newRoot Eq (deletesLogged ctx filePath) (deletesLogged ctx' filePath) := by
  have hget : ∀ l l', Moves oldRoot newRoot l l' →
      l'.getDeletesForFile filePath = l.getDeletesForFile filePath := by
    intro l l' hl
    rw [hl.moved]
    rfl
  have hprocess : CallMirrors oldRoot newRoot Eq
      ((processDeletesLogged ctx).bind fun _ l => Logged.ret (l.getDeletesForFile filePath) l)
      ((processDeletesLogged ctx').bind fun _ l => Logged.ret (l.getDeletesForFile filePath) l) := by
    refine Mirrors.bind (P := Eq) (h.collectLogged_mirrors.bind ?_) fun _ _ _ l l' hl => ?_
    · rintro deleteFiles _ rfl
      exact scanDeletesLogged_mirrors hne deleteFiles
    · exact .nil ⟨.ok (hget l l' hl).symm, hl⟩
  intro l l' hl
  have hprocessed : l'.DeletesProcessed ↔ l.DeletesProcessed := by
    rw [hl.moved]
    exact Iff.rfl
  unfold deletesLogged
  by_cases hdone : l.DeletesProcessed
  · rw [if_pos hdone, if_pos (hprocessed.2 hdone)]
    exact .nil ⟨.ok (hget l l' hl).symm, hl⟩
  · rw [if_neg hdone, if_neg (mt hprocessed.1 hdone)]
    exact hprocess l l' hl

/-- **`FinalizeChunk`** leaves the same rows. -/
theorem finalizeLogged_mirrors (hne : oldRoot ≠ newRoot) (fileId : ℕ) (rowId : ρ → ℤ)
    (chunk : List ρ) :
    CallMirrors oldRoot newRoot Eq (finalizeLogged ctx fileId rowId chunk)
      (finalizeLogged ctx' fileId rowId chunk) := by
  intro l l' hl
  have hfiles : l'.dataFiles = l.dataFiles := by
    rw [hl.moved]
    rfl
  unfold finalizeLogged
  rw [hfiles]
  cases l.dataFiles[fileId]? with
  | none => exact .nil ⟨.error _ _, hl⟩
  | some dataFile =>
    refine Mirrors.bind (h.deletesLogged_mirrors hne dataFile.filePath) ?_ l l' hl
    rintro deletes _ rfl
    exact Mirrors.ret rfl

end Moved

/-! ### Scans -/

/-- The scans give the same answers, and the counterpart of every file that the original opens is
opened for the same call. -/
def ReadsTheSame (ctx ctx' : ClientContext) (files files' : DataFileScan ρ)
    (oldRoot newRoot : String) (calls : List ScanCall) (l l' : IcebergMultiFileList) : Prop :=
  List.Forall₂
    (fun out out' => Agree Eq out.1 out'.1 ∧
      List.Forall₂ (Corresponds oldRoot newRoot) out.2 out'.2)
    (scan ctx files calls l) (scan ctx' files' calls l')

namespace Moved

variable (h : Moved ctx ctx' files files' oldRoot newRoot)

include h

theorem scanChunk_mirrors (hne : oldRoot ≠ newRoot) (fileId chunkId : ℕ) {path path' : String}
    (hpath : NamedTogether oldRoot newRoot path path') :
    CallMirrors oldRoot newRoot Eq (scanChunk ctx files fileId chunkId path)
      (scanChunk ctx' files' fileId chunkId path') := by
  rcases hpath with ⟨rfl, rfl⟩ | ⟨s, rfl, rfl⟩
  · exact Mirrors.ret rfl
  · unfold scanChunk
    rw [if_neg (recorded_ne_empty _ _), if_neg (recorded_ne_empty _ _)]
    refine Mirrors.bind (P := Eq) (fun l l' hl => .nil ⟨h.chunks s, hl⟩) ?_
    rintro chunks _ rfl
    cases chunks[chunkId]? with
    | none => exact Mirrors.ret rfl
    | some chunk =>
      dsimp only
      rw [h.rowId]
      refine Mirrors.bind (h.finalizeLogged_mirrors hne fileId files.rowId chunk) ?_
      rintro rows _ rfl
      exact Mirrors.ret rfl

theorem scanCall_mirrors (hne : oldRoot ≠ newRoot) (c : ScanCall) :
    CallMirrors oldRoot newRoot Eq (scanCall ctx files c) (scanCall ctx' files' c) := by
  cases c with
  | bind =>
    refine Mirrors.bind h.initializeLogged_mirrors fun _ _ _ l l' hl => ?_
    rw [hl.moved]
    exact .nil ⟨.ok rfl, by rw [← hl.moved]; exact hl⟩
  | chunk fileId chunkId =>
    exact Mirrors.bind (h.getFileLogged_mirrors fileId) fun _ _ hpath =>
      h.scanChunk_mirrors hne fileId chunkId hpath

/-- Scans from any two such lists: as long as all files are relocated, both go on together. -/
theorem scan_iff (hne : oldRoot ≠ newRoot) (calls : List ScanCall)
    (hl : Moves oldRoot newRoot l l') :
    ReadsTheSame ctx ctx' files files' oldRoot newRoot calls l l' ↔
      ∀ out ∈ scan ctx files calls l, ∀ f ∈ out.2, Relocated oldRoot f := by
  induction calls generalizing l l' with
  | nil => exact iff_of_true .nil (List.forall_mem_nil _)
  | cons c calls ih =>
    have hcall := h.scanCall_mirrors hne c l l' hl
    unfold ReadsTheSame at ih ⊢
    rw [IcebergMultiFileList.scan, IcebergMultiFileList.scan, List.forall₂_cons,
      List.forall_mem_cons]
    constructor
    · rintro ⟨⟨-, hlogs⟩, hrest⟩
      have hgood := hcall.forall₂_iff.1 hlogs
      exact ⟨hgood, (ih (hcall.together_of_good hgood).2.2).1 hrest⟩
    · rintro ⟨hgood, hrest⟩
      obtain ⟨hlogs, hagree, hmoves⟩ := hcall.together_of_good hgood
      exact ⟨⟨hagree, hlogs⟩, (ih hmoves).2 hrest⟩

end Moved

theorem moves_ofPath {options : IcebergOptions} (ho : options.allowMovedPaths = false) :
    Moves oldRoot newRoot (ofPath oldRoot options) (ofPath newRoot (movedOptions options)) :=
  ⟨rfl, ho, rfl, nofun⟩

/-- **A moved table reads the same**, in every order of the calls, exactly when every file that the scan
of the original opens is relocated: when it is no delete file, and its path is cut at the old root. -/
theorem readsTheSame_iff (h : Moved ctx ctx' files files' oldRoot newRoot)
    (hne : oldRoot ≠ newRoot) {options : IcebergOptions} (ho : options.allowMovedPaths = false)
    (calls : List ScanCall) :
    ReadsTheSame ctx ctx' files files' oldRoot newRoot calls (ofPath oldRoot options)
        (ofPath newRoot (movedOptions options)) ↔
      ∀ out ∈ scan ctx files calls (ofPath oldRoot options), ∀ f ∈ out.2, Relocated oldRoot f :=
  h.scan_iff hne calls (moves_ofPath ho)

/-! ### A table under two roots -/

/-- The path below a root. -/
def below (root path : String) : Option String :=
  if (root ++ "/").toList <+: path.toList then
    some (substrFrom path (root.toList.length + 1))
  else none

/-- The file below a root. -/
def fileBelow {α : Type} (root : String) (found : String → Option α) : String → Except Error α :=
  TableFiles.openFile fun path => (below root path).bind found

/-- The context of a session that sees the files of a table below a root. -/
def directory (root : String) (t : TableFiles) : ClientContext :=
  { t.context with
    fileExists := fun path => .ok (below root path == some t.metadataPath)
    readFile := fileBelow root fun s => if s = t.metadataPath then some t.metadata.1 else none
    readAvro := fileBelow root fun s => t.avro.lookup s
    parquetScan := fileBelow root t.parquet }

/-- The scans of the data files below a root. -/
def dataFilesBelow (root : String) (found : String → Option (List (List ℤ))) : DataFileScan ℤ where
  chunks := fileBelow root found
  rowId row := row

theorem below_recorded (root s : String) : below root (recorded root s) = some s := by
  have hpre : (root ++ "/").toList <+: (recorded root s).toList :=
    ⟨s.toList, by simp [recorded]⟩
  rw [below, if_pos hpre, substrFrom_recorded_root]

theorem fileBelow_agrees {α : Type} (found : String → Option α) (s : String) :
    Agree Eq (fileBelow oldRoot found (recorded oldRoot s))
      (fileBelow newRoot found (recorded newRoot s)) := by
  unfold fileBelow TableFiles.openFile
  dsimp only
  rw [below_recorded, below_recorded, Option.bind_some]
  cases found s with
  | none => exact .error _ _
  | some file => exact .ok rfl

/-- A directory under two roots. -/
theorem moved_directory (t : TableFiles) (found : String → Option (List (List ℤ)))
    (hold : endsWith oldRoot ".json" = false) (hnew : endsWith newRoot ".json" = false)
    (hold' : oldRoot ≠ "") (hnew' : newRoot ≠ "") :
    Moved (directory oldRoot t) (directory newRoot t) (dataFilesBelow oldRoot found)
      (dataFilesBelow newRoot found) oldRoot newRoot where
  joinPath _ _ _ := rfl
  oldRoot_ne := hold'
  newRoot_ne := hnew'
  session := rfl
  oldDirectory := hold
  newDirectory := hnew
  fileExists s := by
    show Agree Eq (.ok (below oldRoot _ == _)) (.ok (below newRoot _ == _))
    rw [below_recorded, below_recorded]
    exact .ok rfl
  readFile := fileBelow_agrees _
  glob _ := .ok ⟨[], rfl, rfl⟩
  readAvro := fileBelow_agrees _
  parquetScan := fileBelow_agrees _
  chunks := fileBelow_agrees _
  rowId := rfl

/-- The metadata file of a table with one snapshot that has this manifest list. -/
def metadataOf (manifestList : String) : String × Json :=
  ("\x7b\"format-version\": 2, \"current-schema-id\": 0, \"schemas\": " ++
    "[\x7b\"schema-id\": 0, \"type\": \"struct\", \"fields\": []\x7d], \"snapshots\": " ++
    "[\x7b\"snapshot-id\": 1, \"sequence-number\": 1, \"timestamp-ms\": 0, " ++
    "\"manifest-list\": \"" ++ manifestList ++ "\"\x7d]\x7d",
  .obj [("format-version", .int 2), ("current-schema-id", .int 0),
    ("schemas", .arr [.obj [("schema-id", .int 0), ("type", .str "struct"), ("fields", .arr [])]]),
    ("snapshots", .arr [.obj [("snapshot-id", .int 1), ("sequence-number", .int 1),
      ("timestamp-ms", .int 0), ("manifest-list", .str manifestList)]])])

/-- A table that was written under `old`: a data file of two rows, and in its snapshot these
manifests. -/
def writtenTable (manifests : List IcebergManifest) : TableFiles where
  metadataPath := "metadata/v1.metadata.json"
  metadata := metadataOf "old/metadata/snap-1.avro"
  avro := [("metadata/snap-1.avro", manifestScan [manifests]),
    ("metadata/m0.avro", entryScan [] [[⟨.added, .data, "old/data/0.parquet", "parquet", 2⟩]]),
    ("metadata/m1.avro",
      entryScan [] [[⟨.added, .positionDeletes, "old/data/1.parquet", "parquet", 1⟩]])]
  parquet path :=
    if path = "data/1.parquet" then some (deleteScan [("old/data/0.parquet", 0)] (by decide))
    else none

/-- The rows of its data file. -/
def writtenRows (path : String) : Option (List (List ℤ)) :=
  if path = "data/0.parquet" then some [[0, 1]] else none

def dataManifest : IcebergManifest := ⟨"old/metadata/m0.avro", 1, .data⟩

def deleteManifest : IcebergManifest := ⟨"old/metadata/m1.avro", 1, .delete⟩

/-- The scan of the original. -/
def originalScan (manifests : List IcebergManifest) :
    List (Except Error (ScanAnswer ℤ) × List OpenedFile) :=
  scan (directory "old" (writtenTable manifests)) (dataFilesBelow "old" writtenRows)
    [.bind, .chunk 0 0] (ofPath "old" { tableVersion := "1" })

theorem originalScan_files :
    (originalScan [dataManifest]).map Prod.snd =
      [[⟨.manifestList, "old/metadata/snap-1.avro"⟩],
        [⟨.dataManifest, "old/metadata/m0.avro"⟩, ⟨.dataFile, "old/data/0.parquet"⟩]] := by
  decide +kernel

theorem originalScan_deletes_files :
    (originalScan [dataManifest, deleteManifest]).map Prod.snd =
      [[⟨.manifestList, "old/metadata/snap-1.avro"⟩],
        [⟨.dataManifest, "old/metadata/m0.avro"⟩, ⟨.dataFile, "old/data/0.parquet"⟩,
          ⟨.deleteManifest, "old/metadata/m1.avro"⟩, ⟨.deleteFile, "old/data/1.parquet"⟩]] := by
  decide +kernel

/-- A table without deletes. -/
theorem readsTheSame_one_file :
    ReadsTheSame (directory "old" (writtenTable [dataManifest]))
      (directory "new" (writtenTable [dataManifest])) (dataFilesBelow "old" writtenRows)
      (dataFilesBelow "new" writtenRows) "old" "new" [.bind, .chunk 0 0]
      (ofPath "old" { tableVersion := "1" })
      (ofPath "new" (movedOptions { tableVersion := "1" })) := by
  refine (readsTheSame_iff (moved_directory _ _ rfl rfl (by decide) (by decide)) (by decide) rfl
    _).2 ?_
  have hfiles : ∀ log ∈ (originalScan [dataManifest]).map Prod.snd, ∀ f ∈ log,
      Relocated "old" f := by
    rw [originalScan_files]
    simp only [List.forall_mem_cons]
    refine ⟨⟨⟨nofun, "metadata/snap-1.avro", rfl, ?_⟩, nofun⟩,
      ⟨⟨nofun, "metadata/m0.avro", rfl, ?_⟩, ⟨nofun, "data/0.parquet", rfl, ?_⟩, nofun⟩, nofun⟩
    · exact Or.inl (by decide)
    · exact Or.inl (by decide)
    · exact Or.inr (by decide)
  exact List.forall_mem_map.1 hfiles

/-- A table with a delete file: the scan of the moved table opens it under the old root. -/
theorem not_readsTheSame_delete_file :
    ¬ ∀ (ctx ctx' : ClientContext) (files files' : DataFileScan ℤ) (oldRoot newRoot : String)
      (options : IcebergOptions) (calls : List ScanCall),
      Moved ctx ctx' files files' oldRoot newRoot → oldRoot ≠ newRoot →
      options.allowMovedPaths = false →
      (∀ out ∈ scan ctx files calls (ofPath oldRoot options), ∀ f ∈ out.2,
        RecordedBelow oldRoot f) →
      ReadsTheSame ctx ctx' files files' oldRoot newRoot calls (ofPath oldRoot options)
        (ofPath newRoot (movedOptions options)) := by
  intro hall
  have hmoved : Moved (directory "old" (writtenTable [dataManifest, deleteManifest]))
      (directory "new" (writtenTable [dataManifest, deleteManifest]))
      (dataFilesBelow "old" writtenRows) (dataFilesBelow "new" writtenRows) "old" "new" :=
    moved_directory _ _ rfl rfl (by decide) (by decide)
  have hrecorded : ∀ log ∈ (originalScan [dataManifest, deleteManifest]).map Prod.snd, ∀ f ∈ log,
      RecordedBelow "old" f := by
    rw [originalScan_deletes_files]
    simp only [List.forall_mem_cons]
    refine ⟨⟨⟨"metadata/snap-1.avro", rfl, ?_⟩, nofun⟩, ⟨⟨"metadata/m0.avro", rfl, ?_⟩,
      ⟨"data/0.parquet", rfl, ?_⟩, ⟨"metadata/m1.avro", rfl, ?_⟩, ⟨"data/1.parquet", rfl, ?_⟩,
      nofun⟩, nofun⟩
    · exact ⟨Or.inl (by decide), by decide, by decide⟩
    · exact ⟨Or.inl (by decide), by decide, by decide⟩
    · exact ⟨Or.inr (by decide), by decide, by decide⟩
    · exact ⟨Or.inl (by decide), by decide, by decide⟩
    · exact ⟨Or.inr (by decide), by decide, by decide⟩
  have hreads := hall _ _ _ _ "old" "new" { tableVersion := "1" } [.bind, .chunk 0 0] hmoved
    (by decide) rfl (List.forall_mem_map.1 hrecorded)
  have hrelocated : ∀ log ∈ (originalScan [dataManifest, deleteManifest]).map Prod.snd, ∀ f ∈ log,
      Relocated "old" f :=
    List.forall_mem_map.2 ((hmoved.scan_iff (by decide) _ (moves_ofPath rfl)).1 hreads)
  rw [originalScan_deletes_files] at hrelocated
  have hdelete := hrelocated _ (List.mem_cons_of_mem _ (List.mem_singleton_self _))
    ⟨.deleteFile, "old/data/1.parquet"⟩ (by simp)
  exact hdelete.1 rfl

end MovedTable

end DuckIceberg
