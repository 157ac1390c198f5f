import DuckIceberg.Lib.Mirror
import DuckIceberg.ResumedDeletes

/-!
# The files a scan opens

A scan of a table is a sequence of calls: the bind, and the chunks of the data files, each read from
the file that `GetFile` names and passed to `FinalizeChunk`.  Beside its answer a call has a log of
the files that are opened for it: the manifest list, manifests, data files and delete files.
-/

namespace DuckIceberg

open Strings ManifestReader Mirror

/-- What a file is opened as. -/
inductive FileKind
  | manifestList
  | dataManifest
  | deleteManifest
  | dataFile
  | deleteFile
  deriving DecidableEq, Repr

/-- A file that is opened, and the path it is opened under. -/
structure OpenedFile where
  kind : FileKind
  path : String
  deriving DecidableEq, Repr

/-- The file that is opened for this path. -/
def pathOpened (ctx : ClientContext) (kind : FileKind) (icebergPath : String)
    (options : IcebergOptions) (path : String) : List OpenedFile :=
  match fullPath ctx icebergPath options path with
  | .error _ => []
  | .ok path => [⟨kind, path⟩]

namespace IcebergMultiFileList

/-- A call, with the files that are opened for it. -/
abbrev LoggedCall (α : Type) := Logged IcebergMultiFileList Error OpenedFile α

/-! ### Data files -/

/-- The files `InitializeFiles` opens once the snapshot is selected. -/
def setUpOpened (ctx : ClientContext) (l : IcebergMultiFileList) : List OpenedFile :=
  match formats l.snapshot.icebergFormatVersion with
  | none => []
  | some _ =>
    if l.snapshot.snapshotId = invalidIndex then []
    else pathOpened ctx .manifestList l.path l.options l.snapshot.manifestList

/-- The files `InitializeFiles` opens, beside the metadata file. -/
def initializeOpened (ctx : ClientContext) (l : IcebergMultiFileList) : List OpenedFile :=
  if l.initialized then []
  else
    match IcebergSnapshot.getMetaDataPath ctx l.path l.options with
    | .error _ => []
    | .ok icebergMetaPath =>
      match IcebergSnapshot.select ctx icebergMetaPath l.options with
      | .error _ => []
      | .ok snapshot => setUpOpened ctx { l with initialized := true, snapshot }

/-- The files a round of `GetFile` opens. -/
def getFileRoundOpened (ctx : ClientContext) (fileId : ℕ) (l : IcebergMultiFileList) :
    List OpenedFile :=
  if fileId < l.dataFiles.length then []
  else
    match l.dataManifestEntryReader, l.entryProducer with
    | some r, some _ =>
      if r.isFinished then
        match l.dataManifests[l.currentDataManifest]? with
        | none => []
        | some manifest => pathOpened ctx .dataManifest l.path l.options manifest.manifestPath
      else []
    | _, _ => []

/-- The files the loop of `GetFile` opens. -/
def expandOpened (ctx : ClientContext) (fileId : ℕ) (l : IcebergMultiFileList) :
    List OpenedFile :=
  (Loop.states (getFileRound ctx fileId) (l.dataManifests.length - l.currentDataManifest + 3)
    l).flatMap (getFileRoundOpened ctx fileId)

/-- `InitializeFiles` -/
def initializeLogged (ctx : ClientContext) : LoggedCall Unit := fun l =>
  (initializeFiles ctx l, initializeOpened ctx l)

/-- The loop of `GetFile` -/
def expandLogged (ctx : ClientContext) (fileId : ℕ) : LoggedCall Unit := fun l =>
  (expand ctx fileId l, expandOpened ctx fileId l)

/-- What `GetFile` returns once the file has been produced: the file that is opened next. -/
def producedPath (ctx : ClientContext) (fileId : ℕ) : LoggedCall String := fun l =>
  match l.dataFiles[fileId]? with
  | none => Logged.ret "" l
  | some dataFile =>
    ((fullPath ctx l.path l.options dataFile.filePath, l),
      pathOpened ctx .dataFile l.path l.options dataFile.filePath)

/-- `GetFile` -/
def getFileLogged (ctx : ClientContext) (fileId : ℕ) : LoggedCall String :=
  (initializeLogged ctx).bind fun _ => (expandLogged ctx fileId).bind fun _ =>
    producedPath ctx fileId

theorem getFileLogged_outcome (ctx : ClientContext) (fileId : ℕ) (l : IcebergMultiFileList) :
    (getFileLogged ctx fileId l).1 = getFile ctx fileId l := by
  unfold getFileLogged Logged.bind initializeLogged expandLogged producedPath getFile
  dsimp only
  rcases initializeFiles ctx l with ⟨e | u, l₁⟩
  · rfl
  · dsimp only [Logged.next]
    rcases expand ctx fileId l₁ with ⟨e | u, l₂⟩
    · rfl
    · dsimp only [Logged.next]
      cases l₂.dataFiles[fileId]? <;> rfl

/-! ### Deletes -/

/-- The files a round of `ProcessDeletes` opens. -/
def collectRoundOpened (ctx : ClientContext) (st : CollectState) : List OpenedFile :=
  match st.1.deleteManifests[st.1.currentDeleteManifest]? with
  | none => []
  | some manifest =>
    match st.1.deleteManifestEntryReader, st.1.entryProducer with
    | some r, some _ =>
      if r.isFinished then
        pathOpened ctx .deleteManifest st.1.path st.1.options manifest.manifestPath
      else []
    | _, _ => []

/-- The loop of `ProcessDeletes` over the delete manifests, with `delete_files` -/
def collectLogged (ctx : ClientContext) : LoggedCall (List IcebergManifestEntry) := fun l =>
  ((match collect ctx l with
    | (.error e, l, _) => (.error e, l)
    | (.ok _, l, deleteFiles) => (.ok deleteFiles, l)),
    (Loop.states (collectRound ctx) (collectFuel ctx l) (l, [])).flatMap (collectRoundOpened ctx))

/-- The loop of `ProcessDeletes` over `delete_files` -/
def scanDeletesLogged (ctx : ClientContext) (deleteFiles : List IcebergManifestEntry) :
    LoggedCall Unit := fun l =>
  ((scanDeleteFiles ctx deleteFiles l).1,
    (scanDeleteFiles ctx deleteFiles l).2.map fun entry => ⟨.deleteFile, entry.filePath⟩)

/-- `ProcessDeletes` -/
def processDeletesLogged (ctx : ClientContext) : LoggedCall Unit :=
  (collectLogged ctx).bind (scanDeletesLogged ctx)

theorem processDeletesLogged_outcome (ctx : ClientContext) (l : IcebergMultiFileList) :
    (processDeletesLogged ctx l).1 = (processDeletes ctx l).1 := by
  unfold processDeletesLogged Logged.bind collectLogged scanDeletesLogged processDeletes
  dsimp only
  rcases collect ctx l with ⟨e | u, l₁, deleteFiles⟩ <;> rfl

/-- The critical section of `FinalizeChunk` -/
def deletesLogged (ctx : ClientContext) (filePath : String) :
    LoggedCall (Option (Finset ℤ)) := fun l =>
  if l.DeletesProcessed then Logged.ret (l.getDeletesForFile filePath) l
  else
    (processDeletesLogged ctx).bind (fun _ l => Logged.ret (l.getDeletesForFile filePath) l) l

theorem deletesLogged_outcome (ctx : ClientContext) (filePath : String)
    (l : IcebergMultiFileList) : (deletesLogged ctx filePath l).1 = deletesOf ctx filePath l := by
  unfold deletesLogged deletesOf
  split_ifs
  · rfl
  · have hprocess := processDeletesLogged_outcome ctx l
    unfold Logged.bind
    dsimp only
    rw [hprocess]
    rcases (processDeletes ctx l).1 with ⟨e | u, l₁⟩ <;> rfl

/-- The rows that stay, where there are deletes. -/
def applyDeletes {ρ : Type} (rowId : ρ → ℤ) (chunk : List ρ) : Option (Finset ℤ) → List ρ
  | none => chunk
  | some deleteData => IcebergDeleteData.apply deleteData rowId chunk

/-- `FinalizeChunk` -/
def finalizeLogged {ρ : Type} (ctx : ClientContext) (fileId : ℕ) (rowId : ρ → ℤ)
    (chunk : List ρ) : LoggedCall (List ρ) := fun l =>
  match l.dataFiles[fileId]? with
  | none => ((.error ⟨.internal, "Attempted to access index out of range of a vector"⟩, l), [])
  | some dataFile =>
    (deletesLogged ctx dataFile.filePath).bind
      (fun deletes => Logged.ret (applyDeletes rowId chunk deletes)) l

theorem finalizeLogged_outcome {ρ : Type} (ctx : ClientContext) (fileId : ℕ) (rowId : ρ → ℤ)
    (chunk : List ρ) (l : IcebergMultiFileList) :
    (finalizeLogged ctx fileId rowId chunk l).1 = finalizeChunk ctx fileId rowId chunk l := by
  unfold finalizeLogged finalizeChunk
  cases l.dataFiles[fileId]? with
  | none => rfl
  | some dataFile =>
    have hdeletes := deletesLogged_outcome ctx dataFile.filePath l
    unfold Logged.bind
    dsimp only
    rw [hdeletes]
    rcases deletesOf ctx dataFile.filePath l with ⟨e | (_ | deletes), l₁⟩ <;> rfl

/-! ### Scans -/

/-- What the scan of a data file delivers: its chunks before `FinalizeChunk`, by the path of the file,
and the column `file_row_number` of a row. -/
structure DataFileScan (ρ : Type) where
  chunks : String → Except Error (List (List ρ))
  rowId : ρ → ℤ

/-- A call of a scan: the bind, or the chunk with this number of a data file. -/
inductive ScanCall
  | bind
  | chunk (fileId chunkId : ℕ)
  deriving DecidableEq, Repr

/-- What a call returns. -/
inductive ScanAnswer (ρ : Type)
  | columns (columns : List (String × LogicalType))
  /-- there is no data file or no chunk with the number -/
  | finished
  | rows (rows : List ρ)

variable {ρ : Type}

/-- The scan of the data file that `GetFile` has named. -/
def openDataFile (files : DataFileScan ρ) (path : String) : LoggedCall (List (List ρ)) := fun l =>
  ((files.chunks path, l), [])

/-- A chunk of a data file, once `GetFile` has named the file. -/
def scanChunk (ctx : ClientContext) (files : DataFileScan ρ) (fileId chunkId : ℕ)
    (path : String) : LoggedCall (ScanAnswer ρ) :=
  if path = "" then Logged.ret .finished
  else
    (openDataFile files path).bind fun chunks =>
      match chunks[chunkId]? with
      | none => Logged.ret .finished
      | some chunk =>
        (finalizeLogged ctx fileId files.rowId chunk).bind fun rows => Logged.ret (.rows rows)

/-- Execute a call. -/
def scanCall (ctx : ClientContext) (files : DataFileScan ρ) :
    ScanCall → LoggedCall (ScanAnswer ρ)
  | .bind =>
    (initializeLogged ctx).bind fun _ l =>
      Logged.ret (.columns (l.snapshot.schema.map fun c => (c.name, c.type))) l
  | .chunk fileId chunkId =>
    (getFileLogged ctx fileId).bind (scanChunk ctx files fileId chunkId)

/-- The answers of the calls, with the files that are opened for each. -/
def scan (ctx : ClientContext) (files : DataFileScan ρ) :
    List ScanCall → IcebergMultiFileList → List (Except Error (ScanAnswer ρ) × List OpenedFile)
  | [], _ => []
  | c :: calls, l =>
    ((scanCall ctx files c l).1.1, (scanCall ctx files c l).2) ::
      scan ctx files calls (scanCall ctx files c l).1.2

end IcebergMultiFileList

end DuckIceberg
