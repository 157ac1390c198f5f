import DuckIceberg.StableFiles

/-!
# Scans

A scan asks the file list for one file after the other, up to the first empty path, and so opens a
manifest when it needs the next file.

* `scanFiles_eq_mapM`: where the data manifests can be read, a scan finds the paths of their live
  entries, none of which a request for one file passes over;
* `readThrough_of_scanFiles`: they can be read where a scan comes to its end.
-/

namespace DuckIceberg

open Strings Stride ManifestReader

namespace IcebergMultiFileList

/-! ### Scans -/

/-- One round of a scan, which asks for the file after those found so far. -/
def scanRound (ctx : ClientContext) (st : List String × IcebergMultiFileList) :
    Loop.Step (List String × IcebergMultiFileList) (Outcome IcebergMultiFileList (List String)) :=
  match getFile ctx st.1.length st.2 with
  | (.error e, l) => .done (.error e, l)
  | (.ok file, l) => if file = "" then .done (.ok st.1, l) else .next (st.1 ++ [file], l)

/-- The paths that `GetFile(0)`, `GetFile(1)` and so on return before the first empty one. -/
def scanFiles (ctx : ClientContext) (l : IcebergMultiFileList) :
    Outcome IcebergMultiFileList (List String) :=
  let initialized := (initializeFiles ctx l).2
  (Loop.run (scanRound ctx) (rowBound ctx initialized + 2) ([], l)).getD
    (.error ⟨.diverged, "GetFile"⟩, initialized)

section Scans

variable {ctx : ClientContext} {op : ManifestFormat IcebergManifestEntry}
  {types : List LogicalType} {files : List IcebergManifestEntry} {l : IcebergMultiFileList}

/-- The paths of the files from this number on, after those found so far. -/
def pathsFrom (ctx : ClientContext) (l : IcebergMultiFileList)
    (files : List IcebergManifestEntry) (found : List String) : Except Error (List String) := do
  let others ← (files.drop found.length).mapM fun dataFile =>
    fullPath ctx l.path l.options dataFile.filePath
  return found ++ others

theorem pathsFrom_end {found : List String} (h : files.length ≤ found.length) :
    pathsFrom ctx l files found = .ok found := by
  rw [pathsFrom, List.drop_eq_nil_of_le h]
  show Except.ok (found ++ []) = _
  rw [List.append_nil]

theorem drop_of_getElem? {α : Type} {as : List α} {i : ℕ} {a : α} (h : as[i]? = some a) :
    as.drop i = a :: as.drop (i + 1) := by
  obtain ⟨hlt, rfl⟩ := List.getElem?_eq_some_iff.1 h
  exact List.drop_eq_getElem_cons hlt

theorem pathsFrom_error {found : List String} {dataFile : IcebergManifestEntry} {e : Error}
    (h : files[found.length]? = some dataFile)
    (hpath : fullPath ctx l.path l.options dataFile.filePath = .error e) :
    pathsFrom ctx l files found = .error e := by
  rw [pathsFrom, drop_of_getElem? h, List.mapM_cons, hpath]
  rfl

theorem pathsFrom_next {found : List String} {dataFile : IcebergManifestEntry} {file : String}
    (h : files[found.length]? = some dataFile)
    (hpath : fullPath ctx l.path l.options dataFile.filePath = .ok file) :
    pathsFrom ctx l files found = pathsFrom ctx l files (found ++ [file]) := by
  rw [pathsFrom, pathsFrom, drop_of_getElem? h, List.mapM_cons, hpath, List.length_append,
    List.length_singleton]
  cases hothers : (files.drop (found.length + 1)).mapM fun dataFile =>
      fullPath ctx l.path l.options dataFile.filePath with
  | error e => rfl
  | ok others =>
    show Except.ok (found ++ file :: others) = .ok (found ++ [file] ++ others)
    rw [List.append_assoc, List.singleton_append]

/-- **One round of a scan** of a list whose manifests can be read. -/
theorem scanRound_spec (hop : op.wanted true = IcebergManifestEntry.live)
    {l₀ : IcebergMultiFileList} (hlen : files.length < 2 ^ 63)
    (hnamed : ∀ dataFile ∈ files, fullPath ctx l₀.path l₀.options dataFile.filePath ≠ .ok "")
    {st : List String × IcebergMultiFileList}
    (h : Counts ctx op types files l₀ (st.1.length, st.2)) :
    (∃ l, scanRound ctx st = .done (pathsFrom ctx l₀ files st.1, l)) ∨
    ∃ file l, scanRound ctx st = .next (st.1 ++ [file], l) ∧
      Counts ctx op types files l₀ ((st.1 ++ [file]).length, l) ∧ st.1.length < files.length ∧
      pathsFrom ctx l₀ files st.1 = pathsFrom ctx l₀ files (st.1 ++ [file]) := by
  obtain ⟨found, l⟩ := st
  obtain ⟨hexp, hfound, hframe⟩ := h
  simp only at hexp hfound hframe ⊢
  have hle := produced_le hexp
  obtain ⟨l', hget, hexp', hend, hframe'⟩ :=
    getFile_spec hop hexp (show found.length < 2 ^ 63 by omega) (spares_next hfound)
  rw [hframe.path, hframe.options] at hget
  cases hfile : files[found.length]? with
  | none =>
    have hnone : fileAt ctx l₀.path l₀.options files found.length = .ok "" := by
      rw [fileAt, hfile]
    refine Or.inl ⟨l', ?_⟩
    rw [pathsFrom_end (List.getElem?_eq_none_iff.1 hfile)]
    simp only [scanRound, hget, hnone, if_true]
  | some dataFile =>
    have hsome : fileAt ctx l₀.path l₀.options files found.length =
        fullPath ctx l₀.path l₀.options dataFile.filePath := by
      rw [fileAt, hfile]
    have hlt : found.length < files.length := (List.getElem?_eq_some_iff.1 hfile).1
    cases hpath : fullPath ctx l₀.path l₀.options dataFile.filePath with
    | error e =>
      refine Or.inl ⟨l', ?_⟩
      rw [pathsFrom_error hfile hpath]
      simp only [scanRound, hget, hsome, hpath]
    | ok file =>
      have hne : file ≠ "" := by
        rintro rfl
        exact hnamed dataFile (List.mem_of_getElem? hfile) hpath
      refine Or.inr ⟨file, l', ?_, ⟨hexp', ?_, hframe.trans hframe'⟩, hlt,
        pathsFrom_next hfile hpath⟩
      · simp only [scanRound, hget, hsome, hpath, if_neg hne]
      · rw [List.length_append, List.length_singleton]
        rcases hend with hlt' | heq
        · exact hlt'
        · show found.length + 1 ≤ l'.dataFiles.length
          rw [heq]
          omega

/-- **A scan** of a list whose manifests can be read. -/
theorem scanFiles_eq_mapM (hop : op.wanted true = IcebergManifestEntry.live)
    (h : Expanding ctx op types files l) (hlen : files.length < 2 ^ 63)
    (hnamed : ∀ dataFile ∈ files, fullPath ctx l.path l.options dataFile.filePath ≠ .ok "") :
    (scanFiles ctx l).1 =
      files.mapM fun dataFile => fullPath ctx l.path l.options dataFile.filePath := by
  have hdone : ∀ (st : List String × IcebergMultiFileList) out,
      Counts ctx op types files l (st.1.length, st.2) → scanRound ctx st = .done out →
        out.1 = pathsFrom ctx l files st.1 := by
    intro st out hst hb
    rcases scanRound_spec hop hlen hnamed hst with ⟨l', hround⟩ | ⟨file, l', hround, -⟩
    · rw [hround] at hb
      cases hb
      rfl
    · rw [hround] at hb
      cases hb
  have hnext : ∀ st st' : List String × IcebergMultiFileList,
      Counts ctx op types files l (st.1.length, st.2) → scanRound ctx st = .next st' →
        Counts ctx op types files l (st'.1.length, st'.2) ∧
          files.length - st'.1.length < files.length - st.1.length ∧
          ∀ out : Outcome IcebergMultiFileList (List String),
            out.1 = pathsFrom ctx l files st'.1 → out.1 = pathsFrom ctx l files st.1 := by
    intro st st' hst hb
    rcases scanRound_spec hop hlen hnamed hst with ⟨l', hround⟩ | ⟨file, l', hround, hst', hlt, heq⟩
    · rw [hround] at hb
      cases hb
    · rw [hround] at hb
      cases hb
      refine ⟨hst', ?_, fun out hout => hout.trans heq.symm⟩
      rw [List.length_append, List.length_singleton]
      omega
  have hfuel : files.length - ([] : List String).length < rowBound ctx l + 2 := by
    have hle := files_le h
    omega
  obtain ⟨out, hrun, hout⟩ := Loop.run_spec
    (fun st : List String × IcebergMultiFileList => Counts ctx op types files l (st.1.length, st.2))
    (fun st => files.length - st.1.length)
    (fun st (out : Outcome IcebergMultiFileList (List String)) => out.1 = pathsFrom ctx l files st.1)
    hdone hnext (rowBound ctx l + 2) ([], l) ⟨h, Nat.zero_le _, Frame.refl l⟩ hfuel
  have hscan : scanFiles ctx l = out := by
    rw [scanFiles, initializeFiles_again h.initialized]
    simp only [hrun, Option.getD_some]
  rw [hscan, hout]
  show pathsFrom ctx l files [] = _
  rw [pathsFrom]
  cases hall : (files.drop ([] : List String).length).mapM fun dataFile =>
      fullPath ctx l.path l.options dataFile.filePath with
  | error e => exact hall.symm
  | ok paths => exact hall.symm

end Scans

/-! ### What a scan has read -/

section Passes

variable (ctx : ClientContext) (op : ManifestFormat IcebergManifestEntry)
  (types : List LogicalType) (l₀ : IcebergMultiFileList)

/-- The manifest is opened, and read without an exception into a chunk laid out for `types`. -/
def ReadThrough (manifest : IcebergManifest) : Prop :=
  ∃ scan chunks, openAvro ctx l₀.path l₀.options manifest.manifestPath = .ok scan ∧
    Readable op types scan chunks

/-- The manifest has been read without an exception up to where the reader stands. -/
def ReadSoFar (manifest : IcebergManifest) (r : ManifestReader) : Prop :=
  ∃ scan, ∃ chunks : List (List IcebergManifestEntry),
    openAvro ctx l₀.path l₀.options manifest.manifestPath = .ok scan ∧
    (populate op.populateNameMapping scan.columns.zipIdx .empty).1 = .ok () ∧
    op.verifySchema (nameMap op scan) = true ∧
    scan.stream.map (piece op (nameMap op scan) types) = chunks.map .rows ++ r.ahead op

/-- The manifests before the cursor have been read through, and the one it stands on so far. -/
structure Passes (l : IcebergMultiFileList) : Prop where
  behind : ∀ manifest ∈ l₀.dataManifests.take l.currentDataManifest,
    ReadThrough ctx op types l₀ manifest
  current : ∀ r, l.dataManifestEntryReader = some r → r.isFinished = false →
    ∃ manifest, l₀.dataManifests[l.currentDataManifest]? = some manifest ∧
      ReadSoFar ctx op types l₀ manifest r

variable {ctx op types l₀}

variable {l : IcebergMultiFileList} {log : List Event}

/-- A manifest whose deliveries to come are rows is read through. -/
theorem ReadSoFar.readThrough {manifest : IcebergManifest} {r : ManifestReader}
    (h : ReadSoFar ctx op types l₀ manifest r) {chunks : List (List IcebergManifestEntry)}
    (hahead : r.ahead op = chunks.map .rows) : ReadThrough ctx op types l₀ manifest := by
  obtain ⟨scan, before, hopen, hpopulates, hverifies, hstream⟩ := h
  refine ⟨scan, before ++ chunks, hopen, hpopulates, hverifies, openAvro_unread hopen, ?_⟩
  rw [hstream, hahead, List.map_append]

/-- The reading part of a round, by a reader `r` that stands on a manifest. -/
theorem readDataFiles_passes (hop : op.wanted true = IcebergManifestEntry.live)
    {r : ManifestReader} (hr : r.Reading) (hskip : r.skipDeleted = true)
    (hbehind : ∀ manifest ∈ l₀.dataManifests.take l.currentDataManifest,
      ReadThrough ctx op types l₀ manifest)
    {manifest : IcebergManifest} (hm : l₀.dataManifests[l.currentDataManifest]? = some manifest)
    (hsofar : ReadSoFar ctx op types l₀ manifest r) {fileId : ℕ} (hid : fileId < 2 ^ 63)
    (hle : l.dataFiles.length ≤ fileId) {l' : IcebergMultiFileList}
    (h : readDataFiles fileId op r l = .next l') : Passes ctx op types l₀ l' := by
  obtain ⟨r', taken, -, -, ⟨e, hrun, -⟩ | ⟨hrun, pre, hres⟩⟩ :=
    readDataFiles_cases hop hr hskip hid hle
  · rw [hrun] at h
    cases h
  rw [hrun] at h
  cases h
  have hreader : (afterRead l r' taken).dataManifestEntryReader = some r' := rfl
  rcases hres with ⟨hexhausted, hahead⟩ | ⟨hr', -, hahead⟩
  · -- the manifest is read to its end
    have hfin : r'.isFinished = true := isFinished_of_exhausted hexhausted
    have hcur : (afterRead l r' taken).currentDataManifest = l.currentDataManifest + 1 := by
      simp [afterRead, hfin]
    refine ⟨?_, fun r'' hr'' hfin' => ?_⟩
    · intro m hmem
      rw [hcur, List.take_add_one, hm, List.mem_append] at hmem
      rcases hmem with hmem | hmem
      · exact hbehind m hmem
      · rw [List.mem_singleton.1 hmem]
        exact hsofar.readThrough hahead
    · rw [hreader] at hr''
      cases hr''
      rw [hfin] at hfin'
      cases hfin'
  · have hfin : r'.isFinished = false := isFinished_of_reading hr'
    have hcur : (afterRead l r' taken).currentDataManifest = l.currentDataManifest := by
      simp [afterRead, hfin]
    refine ⟨by rw [hcur]; exact hbehind, fun r'' hr'' _ => ?_⟩
    rw [hreader] at hr''
    cases hr''
    obtain ⟨scan, before, hopen, hpopulates, hverifies, hstream⟩ := hsofar
    refine ⟨manifest, by rw [hcur]; exact hm, scan, before ++ pre, hopen, hpopulates, hverifies, ?_⟩
    rw [hstream, hahead, List.map_append, List.append_assoc]

/-- **One round** of the loop of `GetFile` that goes round again. -/
theorem getFileRound_passes (hop : op.wanted true = IcebergManifestEntry.live)
    (hsound : Sound ctx op l₀ log l) (h : Passes ctx op (firstTypes ctx l₀) l₀ l) {fileId : ℕ}
    (hid : fileId < 2 ^ 63) {l' : IcebergMultiFileList} (hb : getFileRound ctx fileId l = .next l') :
    Passes ctx op (firstTypes ctx l₀) l₀ l' := by
  obtain ⟨hframe, -, hprod, r, hr, hplaced⟩ := hsound
  obtain ⟨hof, hskip, hlaid, -, hposition⟩ := hplaced
  by_cases hlt : fileId < l.dataFiles.length
  · rw [getFileRound, if_pos hlt] at hb
    cases hb
  have hle : l.dataFiles.length ≤ fileId := by omega
  by_cases hfin : r.isFinished = true
  · cases hm : l.dataManifests[l.currentDataManifest]? with
    | none =>
      simp only [getFileRound, if_neg hlt, hr, hprod, if_pos hfin, hm, reduceCtorEq] at hb
    | some manifest =>
      cases hopen : openAvro ctx l.path l.options manifest.manifestPath with
      | error e =>
        simp only [getFileRound, if_neg hlt, hr, hprod, if_pos hfin, hm, hopen, reduceCtorEq] at hb
      | ok scan =>
        rcases hinstall : r.initializeWith scan with ⟨e | u, r'⟩
        · simp only [getFileRound, if_neg hlt, hr, hprod, if_pos hfin, hm, hopen, hinstall,
            reduceCtorEq] at hb
        · simp only [getFileRound, if_neg hlt, hr, hprod, if_pos hfin, hm, hopen, hinstall] at hb
          rw [hframe.dataManifests] at hm
          rw [hframe.path, hframe.options] at hopen
          have hlayout := layout_firstTypes (.refl ctx) hlaid hm hopen
          obtain ⟨hpopulates, hverifies, hat⟩ :=
            initializeWith_at hof (openAvro_unread hopen) hinstall
          have hskip' : r'.skipDeleted = true := by
            have htypes := initializeWith_types r scan
            rw [hinstall] at htypes
            exact htypes.2.2.2.2.2.trans hskip
          refine readDataFiles_passes hop hat.reading hskip' h.behind hm
            ⟨scan, [], hopen, hpopulates, hverifies, ?_⟩ hid hle hb
          rw [hat.ahead_eq, hlayout]
          rfl
  · simp only [getFileRound, if_neg hlt, hr, hprod, if_neg hfin] at hb
    have hreading : r.Reading := by
      rcases hposition with ⟨hf, -⟩ | ⟨hreading, -⟩
      · exact absurd hf hfin
      · exact hreading
    obtain ⟨manifest, hm, hsofar⟩ := h.current r hr (isFinished_of_reading hreading)
    exact readDataFiles_passes hop hreading hskip h.behind hm hsofar hid hle hb

/-- A round that leaves the loop has the file, or there is no manifest left. -/
theorem getFileRound_leaves {fileId : ℕ} {l' : IcebergMultiFileList}
    (hb : getFileRound ctx fileId l = .done (.ok (), l')) :
    l' = l ∧ (fileId < l.dataFiles.length ∨ l.dataManifests[l.currentDataManifest]? = none) := by
  have hread : ∀ op r, readDataFiles fileId op r l ≠ .done (.ok (), l') := by
    intro op r h
    unfold readDataFiles at h
    dsimp only at h
    split at h <;> cases h
  by_cases hlt : fileId < l.dataFiles.length
  · rw [getFileRound, if_pos hlt] at hb
    cases hb
    exact ⟨rfl, Or.inl hlt⟩
  rw [getFileRound, if_neg hlt] at hb
  split at hb
  · rename_i r op _ _
    split_ifs at hb
    · split at hb
      · rename_i hm
        cases hb
        exact ⟨rfl, Or.inr hm⟩
      · split at hb
        · cases hb
        · split at hb
          · cases hb
          · exact absurd hb (hread _ _)
    · exact absurd hb (hread _ _)
  · cases hb

/-- **One call of `GetFile`** that returns: it has the file, or it has read all manifests through. -/
theorem getFile_passes (hop : op.wanted true = IcebergManifestEntry.live)
    (hsound : Sound ctx op l₀ log l) (h : Passes ctx op (firstTypes ctx l₀) l₀ l) {fileId : ℕ}
    (hid : fileId < 2 ^ 63) {file : String} {l' : IcebergMultiFileList}
    (hget : getFile ctx fileId l = (.ok file, l')) :
    Passes ctx op (firstTypes ctx l₀) l₀ l' ∧
      ((∃ dataFile ∈ l'.dataFiles, fullPath ctx l₀.path l₀.options dataFile.filePath = .ok file) ∨
        l₀.dataManifests[l'.currentDataManifest]? = none) := by
  have hexpands : ∀ out : Outcome IcebergMultiFileList Unit, expand ctx fileId l = out →
      out.1 = .ok () → (∃ log, Sound ctx op l₀ log out.2) ∧
        Passes ctx op (firstTypes ctx l₀) l₀ out.2 ∧
        (fileId < out.2.dataFiles.length ∨
          out.2.dataManifests[out.2.currentDataManifest]? = none) := by
    intro out hexpand hok
    rw [expand] at hexpand
    cases hrun : Loop.run (getFileRound ctx fileId)
        (l.dataManifests.length - l.currentDataManifest + 3) l with
    | none =>
      rw [hrun] at hexpand
      rw [← hexpand] at hok
      cases hok
    | some out' =>
      rw [hrun, Option.getD_some] at hexpand
      subst hexpand
      refine Loop.run_elim
        (fun m => (∃ log, Sound ctx op l₀ log m) ∧ Passes ctx op (firstTypes ctx l₀) l₀ m)
        (fun _ out => out.1 = .ok () → (∃ log, Sound ctx op l₀ log out.2) ∧
          Passes ctx op (firstTypes ctx l₀) l₀ out.2 ∧ (fileId < out.2.dataFiles.length ∨
            out.2.dataManifests[out.2.currentDataManifest]? = none))
        ?_ ?_ ⟨⟨log, hsound⟩, h⟩ hrun hok
      · rintro m ⟨result, l''⟩ ⟨hm, hpasses⟩ hb hresult
        dsimp only at hresult
        subst hresult
        obtain ⟨rfl, hleaves⟩ := getFileRound_leaves hb
        exact ⟨hm, hpasses, hleaves⟩
      · rintro m m' ⟨⟨log', hm⟩, hpasses⟩ hb
        have hround := getFileRound_sound hop (.refl ctx) hm hid
        rw [hb] at hround
        exact ⟨⟨⟨_, hround.1⟩, getFileRound_passes hop hm hpasses hid hb⟩, fun _ => id⟩
  rw [getFile, initializeFiles_again hsound.initialized] at hget
  dsimp only at hget
  rcases hexpand : expand ctx fileId l with ⟨e | u, l''⟩
  · rw [hexpand] at hget
    cases hget
  obtain ⟨⟨log', hsound'⟩, hpasses, hleaves⟩ := hexpands _ hexpand rfl
  rw [hexpand] at hget
  dsimp only at hget hleaves hpasses hsound'
  cases hfile : l''.dataFiles[fileId]? with
  | none =>
    rw [hfile] at hget
    cases hget
    refine ⟨hpasses, Or.inr ?_⟩
    rcases hleaves with hlt | hnone
    · rw [List.getElem?_eq_getElem hlt] at hfile
      cases hfile
    · rw [← hsound'.frame.dataManifests]
      exact hnone
  | some dataFile =>
    rw [hfile] at hget
    dsimp only at hget
    rw [hsound'.frame.path, hsound'.frame.options] at hget
    obtain ⟨hpath, rfl⟩ := Prod.mk.inj hget
    exact ⟨hpasses, Or.inl ⟨dataFile, List.mem_of_getElem? hfile, hpath⟩⟩

/-- Nothing has been read yet. -/
theorem passes_initialized (h : Sound ctx op l₀ [] l₀) : Passes ctx op types l₀ l₀ := by
  obtain ⟨-, -, -, r, hr, hplaced⟩ := h
  have hlog := hplaced.log_eq
  by_cases hfin : r.isFinished = true
  · have hcur : l₀.currentDataManifest = 0 := by
      by_contra hne
      obtain ⟨k, hk⟩ := Nat.exists_eq_succ_of_ne_zero hne
      rw [hfin, hk, Nat.succ_eq_add_one, schedule_succ] at hlog
      simp at hlog
    refine ⟨by rw [hcur]; exact List.forall_mem_nil _, fun r' hr' hfin' => ?_⟩
    rw [hr] at hr'
    cases hr'
    rw [hfin] at hfin'
    cases hfin'
  · rw [if_neg hfin] at hlog
    simp at hlog

/-- **A scan that comes to its end** has read all data manifests through. -/
theorem readThrough_of_scanFiles (hop : op.wanted true = IcebergManifestEntry.live)
    (hsound : Sound ctx op l₀ [] l₀) (hempty : l₀.dataFiles = [])
    (hleft : leftOf ctx op (firstTypes ctx l₀) l₀ l₀ = entriesFrom ctx l₀ op (firstTypes ctx l₀) 0)
    (hnamed : ∀ dataFile ∈ entriesFrom ctx l₀ op (firstTypes ctx l₀) 0,
      fullPath ctx l₀.path l₀.options dataFile.filePath ≠ .ok "")
    (hfits : (entriesFrom ctx l₀ op (firstTypes ctx l₀) 0).length < 2 ^ 63) {paths : List String}
    (h : (scanFiles ctx l₀).1 = .ok paths) :
    ∀ manifest ∈ l₀.dataManifests, ReadThrough ctx op (firstTypes ctx l₀) l₀ manifest := by
  have htakes : ∀ {log l}, CallSound ctx op l₀ ctx log l₀ l →
      l.dataFiles.Sublist (entriesFrom ctx l₀ op (firstTypes ctx l₀) 0) := by
    intro log l hl
    have hsub := (hl.advances ctx (.refl ctx)).takes
    rw [hempty, hleft, List.nil_append] at hsub
    exact (List.sublist_append_left _ _).trans hsub
  -- what `GetFile` for the next file does to a list that is sound
  have hstep : ∀ {log l} {found : List String}, CallSound ctx op l₀ ctx log l₀ l →
      found.length ≤ l.dataFiles.length →
        found.length < 2 ^ 63 ∧
          CallSound ctx op l₀ ctx (log ++ getFileEvents ctx found.length l) l₀
            (getFile ctx found.length l).2 ∧
          Returned ctx l₀ found.length (getFile ctx found.length l) := by
    intro log l found hl hle
    have hlt : found.length < 2 ^ 63 := by
      have hlength := (htakes hl).length_le
      omega
    obtain ⟨-, hcall, hreturned⟩ := getFile_sound hop (.refl ctx) hl.sound hlt
    exact ⟨hlt, hl.trans hcall, hreturned⟩
  rw [scanFiles, initializeFiles_again hsound.initialized] at h
  cases hrun : Loop.run (scanRound ctx) (rowBound ctx l₀ + 2) ([], l₀) with
  | none =>
    rw [hrun] at h
    cases h
  | some out =>
    rw [hrun, Option.getD_some] at h
    refine Loop.run_elim
      (fun st : List String × IcebergMultiFileList =>
        (∃ log, CallSound ctx op l₀ ctx log l₀ st.2) ∧
          Passes ctx op (firstTypes ctx l₀) l₀ st.2 ∧ st.1.length ≤ st.2.dataFiles.length)
      (fun _ (out : Outcome IcebergMultiFileList (List String)) => out.1 = .ok paths →
        ∀ manifest ∈ l₀.dataManifests, ReadThrough ctx op (firstTypes ctx l₀) l₀ manifest)
      ?_ ?_ ⟨⟨[], .refl hsound⟩, passes_initialized hsound, Nat.zero_le _⟩ hrun h
    · rintro ⟨found, l⟩ out ⟨⟨log, hl⟩, hpasses, hle⟩ hb hok
      obtain ⟨hlt, hcall, -⟩ := hstep hl hle
      rw [scanRound] at hb
      dsimp only at hb
      rcases hget : getFile ctx found.length l with ⟨e | file, l'⟩
      · rw [hget] at hb
        cases hb
        cases hok
      · rw [hget] at hb hcall
        dsimp only at hb
        split_ifs at hb with hfile
        subst hfile
        obtain ⟨hpasses', ⟨dataFile, hmem, hpath⟩ | hnone⟩ :=
          getFile_passes hop hl.sound hpasses hlt hget
        · exact absurd hpath (hnamed dataFile ((htakes hcall).subset hmem))
        · -- the cursor is at the end of the manifests
          intro manifest hmem
          refine hpasses'.behind manifest ?_
          rwa [List.take_of_length_le (List.getElem?_eq_none_iff.1 hnone)]
    · rintro ⟨found, l⟩ st' ⟨⟨log, hl⟩, hpasses, hle⟩ hb
      obtain ⟨hlt, hcall, hreturned⟩ := hstep hl hle
      rw [scanRound] at hb
      dsimp only at hb
      rcases hget : getFile ctx found.length l with ⟨e | file, l'⟩
      · rw [hget] at hb
        cases hb
      · rw [hget] at hb hcall hreturned
        dsimp only at hb
        split_ifs at hb with hfile
        cases hb
        obtain ⟨dataFile, hfound, -⟩ := hreturned file rfl hfile
        refine ⟨⟨⟨_, hcall⟩, (getFile_passes hop hl.sound hpasses hlt hget).1, ?_⟩, fun _ => id⟩
        rw [List.length_append, List.length_singleton]
        exact (List.getElem?_eq_some_iff.1 hfound).1

end Passes

end IcebergMultiFileList

end DuckIceberg
