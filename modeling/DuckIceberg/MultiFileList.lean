import DuckIceberg.ManifestFile
import DuckIceberg.Metadata

/-!
# The list of data files

`IcebergMultiFileList` without its deletes: the list is initialised by its first use, and the data
files are produced on demand, by a reader that stops in the middle of a manifest.
-/

namespace DuckIceberg

open Strings Stride ManifestReader

/-- `IcebergMultiFileList`.  An iterator into a vector of manifests is an index; before
`InitializeFiles` sets them they are the end of the vector, which is empty. -/
structure IcebergMultiFileList where
  /-- `GetPath()` -/
  path : String
  options : IcebergOptions
  manifestReader : Option ManifestReader := none
  dataManifestEntryReader : Option ManifestReader := none
  deleteManifestEntryReader : Option ManifestReader := none
  manifestProducer : Option (ManifestFormat IcebergManifest) := none
  entryProducer : Option (ManifestFormat IcebergManifestEntry) := none
  dataFiles : List IcebergManifestEntry := []
  dataManifests : List IcebergManifest := []
  deleteManifests : List IcebergManifest := []
  currentDataManifest : ℕ := 0
  currentDeleteManifest : ℕ := 0
  deleteData : CIMap (Finset ℤ) := .empty
  initialized : Bool := false
  snapshot : IcebergSnapshot := {}

/-- What dereferencing a null `unique_ptr` throws. -/
def nullPointer : Error := ⟨.internal, "Attempted to dereference unique_ptr that is NULL!"⟩

/-- The functions that `InitializeFiles` and `Load` choose by the format version. -/
def formats (version : ℕ) :
    Option (ManifestFormat IcebergManifest × ManifestFormat IcebergManifestEntry) :=
  if version = 1 then some (icebergManifestV1, icebergManifestEntryV1)
  else if version = 2 then some (icebergManifestV2, icebergManifestEntryV2)
  else none

/-- The path a file is opened under. -/
def fullPath (ctx : ClientContext) (icebergPath : String) (options : IcebergOptions)
    (path : String) : Except Error String :=
  if options.allowMovedPaths then IcebergUtils.getFullPath ctx icebergPath path else .ok path

/-- The scan of a manifest list or of a manifest, which has not reported its end. -/
def openAvro (ctx : ClientContext) (icebergPath : String) (options : IcebergOptions)
    (path : String) : Except Error AvroScan := do
  let scan ← ctx.readAvro (← fullPath ctx icebergPath options path)
  return { scan with finished := false }

namespace IcebergMultiFileList

/-- The constructor -/
def ofPath (path : String) (options : IcebergOptions) : IcebergMultiFileList := { path, options }

/-! ### Initialisation -/

/-- `InitializeFiles`, once the manifest reader has its scan -/
def readManifests (op : ManifestFormat IcebergManifest) (r : ManifestReader)
    (l : IcebergMultiFileList) : Outcome IcebergMultiFileList Unit :=
  match readAll op r [] with
  | (.error e, r, _) => (.error e, { l with manifestReader := some r })
  | (.ok _, r, allManifests) =>
    (.ok (),
      { l with
        manifestReader := some r
        dataManifests := l.dataManifests ++ allManifests.filter (·.content == .data)
        deleteManifests := l.deleteManifests ++ allManifests.filter (·.content != .data)
        currentDataManifest := 0
        currentDeleteManifest := 0 })

/-- `InitializeFiles`, once the readers are set up -/
def openManifestList (ctx : ClientContext) (op : ManifestFormat IcebergManifest)
    (l : IcebergMultiFileList) : Outcome IcebergMultiFileList Unit :=
  if l.snapshot.snapshotId = invalidIndex then
    (.ok (), { l with currentDataManifest := 0, currentDeleteManifest := 0 })
  else
    match openAvro ctx l.path l.options l.snapshot.manifestList with
    | .error e => (.error e, l)
    | .ok scan =>
      match (make op).initializeWith scan with
      | (.error e, r) => (.error e, { l with manifestReader := some r })
      | (.ok _, r) => readManifests op r l

/-- `InitializeFiles`, once the snapshot is selected -/
def setUpReaders (ctx : ClientContext) (l : IcebergMultiFileList) :
    Outcome IcebergMultiFileList Unit :=
  match formats l.snapshot.icebergFormatVersion with
  | none =>
    (.error ⟨.invalidInput, "Reading from Iceberg version " ++
      toString l.snapshot.icebergFormatVersion ++ " is not supported yet"⟩, l)
  | some (manifestOp, entryOp) =>
    openManifestList ctx manifestOp
      { l with
        dataManifestEntryReader := some { make entryOp with skipDeleted := true }
        deleteManifestEntryReader := some { make entryOp with skipDeleted := true }
        manifestReader := some (make manifestOp)
        manifestProducer := some manifestOp
        entryProducer := some entryOp }

/-- `InitializeFiles` -/
def initializeFiles (ctx : ClientContext) (l : IcebergMultiFileList) :
    Outcome IcebergMultiFileList Unit :=
  if l.initialized then (.ok (), l)
  else
    match IcebergSnapshot.getMetaDataPath ctx l.path l.options with
    | .error e => (.error e, { l with initialized := true })
    | .ok icebergMetaPath =>
      match IcebergSnapshot.select ctx icebergMetaPath l.options with
      | .error e => (.error e, { l with initialized := true })
      | .ok snapshot => setUpReaders ctx { l with initialized := true, snapshot }

/-- `Bind`: the names and the types it adds -/
def bind (ctx : ClientContext) (l : IcebergMultiFileList) :
    Outcome IcebergMultiFileList (List (String × LogicalType)) :=
  match initializeFiles ctx l with
  | (.error e, l) => (.error e, l)
  | (.ok _, l) => (.ok (l.snapshot.schema.map fun c => (c.name, c.type)), l)

/-! ### Files on demand -/

/-- The part of a round of `GetFile` that reads, with the reader on a manifest. -/
def readDataFiles (fileId : ℕ) (op : ManifestFormat IcebergManifestEntry) (r : ManifestReader)
    (l : IcebergMultiFileList) :
    Loop.Step IcebergMultiFileList (Outcome IcebergMultiFileList Unit) :=
  let remaining := idx (idx (fileId + 1) + (2 ^ 64 - l.dataFiles.length))
  match r.readEntries remaining (appendTo op) l.dataFiles with
  | (.error e, r, dataFiles) =>
    .done (.error e, { l with dataManifestEntryReader := some r, dataFiles })
  | (.ok _, r, dataFiles) =>
    .next { l with
      dataManifestEntryReader := some r
      dataFiles
      currentDataManifest :=
        if r.isFinished then l.currentDataManifest + 1 else l.currentDataManifest }

/-- One round of the loop of `GetFile`. -/
def getFileRound (ctx : ClientContext) (fileId : ℕ) (l : IcebergMultiFileList) :
    Loop.Step IcebergMultiFileList (Outcome IcebergMultiFileList Unit) :=
  if fileId < l.dataFiles.length then .done (.ok (), l)
  else
    match l.dataManifestEntryReader, l.entryProducer with
    | some r, some op =>
      if r.isFinished then
        match l.dataManifests[l.currentDataManifest]? with
        | none => .done (.ok (), l)
        | some manifest =>
          match openAvro ctx l.path l.options manifest.manifestPath with
          | .error e => .done (.error e, l)
          | .ok scan =>
            match r.initializeWith scan with
            | (.error e, r) => .done (.error e, { l with dataManifestEntryReader := some r })
            | (.ok _, r) => readDataFiles fileId op r l
      else readDataFiles fileId op r l
    | _, _ => .done (.error nullPointer, l)

/-- The loop of `GetFile`: every round but the last finishes a manifest. -/
def expand (ctx : ClientContext) (fileId : ℕ) (l : IcebergMultiFileList) :
    Outcome IcebergMultiFileList Unit :=
  (Loop.run (getFileRound ctx fileId) (l.dataManifests.length - l.currentDataManifest + 3) l).getD
    (.error ⟨.diverged, "GetFile"⟩, l)

/-- `GetFile` -/
def getFile (ctx : ClientContext) (fileId : ℕ) (l : IcebergMultiFileList) :
    Outcome IcebergMultiFileList String :=
  match initializeFiles ctx l with
  | (.error e, l) => (.error e, l)
  | (.ok _, l) =>
    match expand ctx fileId l with
    | (.error e, l) => (.error e, l)
    | (.ok _, l) =>
      match l.dataFiles[fileId]? with
      | none => (.ok "", l)
      | some dataFile => (fullPath ctx l.path l.options dataFile.filePath, l)

/-- `FileExpandResult` -/
inductive FileExpandResult
  | noFiles
  | singleFile
  | multipleFiles
  deriving DecidableEq, Repr

/-- The number of files, as `GetExpandResult` reports it. -/
def expandResult (n : ℕ) : FileExpandResult :=
  if 1 < n then .multipleFiles else if n = 1 then .singleFile else .noFiles

/-- `GetExpandResult` -/
def getExpandResult (ctx : ClientContext) (l : IcebergMultiFileList) :
    Outcome IcebergMultiFileList FileExpandResult :=
  match getFile ctx 1 l with
  | (.error e, l) => (.error e, l)
  | (.ok _, l) => (.ok (expandResult l.dataFiles.length), l)

/-- One round of the loop of `GetTotalFileCount`. -/
def countRound (ctx : ClientContext) (st : ℕ × IcebergMultiFileList) :
    Loop.Step (ℕ × IcebergMultiFileList) (Outcome IcebergMultiFileList ℕ) :=
  match getFile ctx st.1 st.2 with
  | (.error e, l) => .done (.error e, l)
  | (.ok file, l) => if file = "" then .done (.ok l.dataFiles.length, l) else .next (st.1 + 1, l)

/-- The rows that a chunk and the deliveries after it can hold. -/
def rowsWithin (deliveries : ℕ) : ℕ := (deliveries + 1) * standardVectorSize

/-- The rows a manifest can have. -/
def manifestBound (ctx : ClientContext) (l : IcebergMultiFileList) (manifest : IcebergManifest) :
    ℕ :=
  match openAvro ctx l.path l.options manifest.manifestPath with
  | .error _ => 0
  | .ok scan => rowsWithin scan.stream.length

/-- A bound on the files there are: the rows that the reader and the manifests it has not opened
can still deliver. -/
def rowBound (ctx : ClientContext) (l : IcebergMultiFileList) : ℕ :=
  l.dataFiles.length +
    (l.dataManifestEntryReader.elim 0 fun r => rowsWithin r.stream.length) +
    ((l.dataManifests.drop l.currentDataManifest).map (manifestBound ctx l)).sum

/-- `GetTotalFileCount` -/
def getTotalFileCount (ctx : ClientContext) (l : IcebergMultiFileList) :
    Outcome IcebergMultiFileList ℕ :=
  let initialized := (initializeFiles ctx l).2
  (Loop.run (countRound ctx) (rowBound ctx initialized + 2) (l.dataFiles.length, l)).getD
    (.error ⟨.diverged, "GetTotalFileCount"⟩, initialized)

/-- `GetCardinality`: the estimated and the greatest cardinality -/
def getCardinality (ctx : ClientContext) (l : IcebergMultiFileList) :
    Outcome IcebergMultiFileList (Option (ℕ × ℕ)) :=
  match getTotalFileCount ctx l with
  | (.error e, l) => (.error e, l)
  | (.ok totalFileCount, l) => (.ok (if totalFileCount = 0 then some (0, 0) else none), l)

end IcebergMultiFileList

end DuckIceberg
