import DuckIceberg.MultiFileList

/-!
# Deletes

`IcebergMultiFileList::ProcessDeletes` and `IcebergMultiFileReader::FinalizeChunk`: the rows that
delete files name are collected when the first chunk is finalised, and are taken out of every chunk
of the file they name.

`processDeletes` returns, beside its outcome, the entries that `ScanDeleteFile` was called for, in
order: a record of the calls that the program does not keep.
-/

namespace DuckIceberg

open Strings ManifestReader

/-! ### The rows of a file -/

/-- `delete_data[path]`, with `AddRow` -/
def addRow (deleteData : CIMap (Finset ℤ)) (path : String) (rowId : ℤ) : CIMap (Finset ℤ) :=
  deleteData.update path ∅ (insert rowId)

/-- The rows named by a list of pairs of a path and a row. -/
def addRows (deleteData : CIMap (Finset ℤ)) (pairs : List (String × ℤ)) : CIMap (Finset ℤ) :=
  pairs.foldl (fun m p => addRow m p.1 p.2) deleteData

namespace IcebergDeleteData

/-- The loop of `Apply`: the positions of the rows that stay -/
def selection (tempInvalidRows : Finset ℤ) (rowIds : List ℤ) : List ℕ :=
  (List.range rowIds.length).filter fun tupleIdx => rowIds.getD tupleIdx 0 ∉ tempInvalidRows

/-- `Apply`, on the rows of a chunk; `rowId` is the column `file_row_number` -/
def apply {ρ : Type} (tempInvalidRows : Finset ℤ) (rowId : ρ → ℤ) (chunk : List ρ) : List ρ :=
  (selection tempInvalidRows (chunk.map rowId)).filterMap fun tupleIdx => chunk[tupleIdx]?

/-- The rows of a chunk that are left are those that are not invalid. -/
theorem apply_eq_filter {ρ : Type} (tempInvalidRows : Finset ℤ) (rowId : ρ → ℤ) (chunk : List ρ) :
    apply tempInvalidRows rowId chunk = chunk.filter fun x => rowId x ∉ tempInvalidRows := by
  unfold apply selection
  rw [List.length_map]
  induction chunk using List.reverseRecOn with
  | nil => rfl
  | append_singleton chunk x ih =>
    have hold : ∀ i ∈ List.range chunk.length,
        ((chunk ++ [x]).map rowId).getD i 0 = (chunk.map rowId).getD i 0 := by
      intro i hi
      have hlt : i < (chunk.map rowId).length := by simpa using hi
      rw [List.map_append, List.getD_eq_getElem?_getD, List.getD_eq_getElem?_getD,
        List.getElem?_append_left hlt]
    have hlast : ((chunk ++ [x]).map rowId).getD chunk.length 0 = rowId x := by
      simp [List.getD_eq_getElem?_getD]
    rw [List.length_append, List.length_singleton, List.range_succ, List.filter_append,
      List.filterMap_append, List.filter_append]
    congr 1
    · rw [← ih, List.filter_congr fun i hi => by rw [hold i hi]]
      refine List.filterMap_congr fun i hi => ?_
      have hlt : i < chunk.length := by simpa using (List.mem_filter.1 hi).1
      exact List.getElem?_append_left hlt
    · rw [List.filter_singleton, List.filter_singleton, hlast]
      by_cases hx : rowId x ∈ tempInvalidRows <;> simp [hx]

end IcebergDeleteData

/-! ### Delete files -/

/-- The columns of a chunk of a delete file, read as paths and rows -/
def batchPairs (b : Batch) : Except Error (List (String × ℤ)) := do
  let names ← (← column b.data 0).varchars
  let rowIds ← (← column b.data 1).int64s
  return (List.range b.size).map fun i => (names.getD i "", rowIds.getD i 0)

/-- The variables of the loop over the rows of a chunk.  A reference to a value of the map is the
key it was looked up under: the values of an `unordered_map` stay where they are. -/
structure ScanState where
  deleteData : CIMap (Finset ℤ)
  currentFilePath : String
  deletes : String

/-- `delete_data[path]`, which creates what is missing -/
def touch (deleteData : CIMap (Finset ℤ)) (path : String) : CIMap (Finset ℤ) :=
  deleteData.update path ∅ id

/-- The references are bound to a path and to its rows. -/
def ScanState.rebind (deleteData : CIMap (Finset ℤ)) (path : String) : ScanState :=
  ⟨touch deleteData path, path, path⟩

/-- One round of the loop over the rows: the references are bound again where the path changes. -/
def scanRow (st : ScanState) (row : String × ℤ) : ScanState :=
  let st := if row.1 ≠ st.currentFilePath then .rebind st.deleteData row.1 else st
  { st with deleteData := addRow st.deleteData st.deletes row.2 }

/-- The loop of `ScanDeleteFile` over the rows of a chunk -/
def scanRows (deleteData : CIMap (Finset ℤ)) (rows : List (String × ℤ)) : CIMap (Finset ℤ) :=
  match rows with
  | [] => deleteData
  | first :: _ => (rows.foldl scanRow (.rebind deleteData first.1)).deleteData

/-- The loop of `ScanDeleteFile`.  Its last call, which delivers no rows, looks the columns up
too. -/
def scanDeleteChunks (returnTypes : List LogicalType) :
    List (Except Error Batch) → CIMap (Finset ℤ) → Outcome (CIMap (Finset ℤ)) Unit
  | [], deleteData =>
    if returnTypes.length < 2 then
      (.error ⟨.internal, "Attempted to access index out of range of a vector"⟩, deleteData)
    else (.ok (), deleteData)
  | .error e :: _, deleteData => (.error e, deleteData)
  | .ok b :: stream, deleteData =>
    match batchPairs b with
    | .error e => (.error e, deleteData)
    | .ok pairs => scanDeleteChunks returnTypes stream (scanRows deleteData pairs)

namespace IcebergMultiFileList

/-- `ScanDeleteFile` -/
def scanDeleteFile (ctx : ClientContext) (deleteFilePath : String) (l : IcebergMultiFileList) :
    Outcome IcebergMultiFileList Unit :=
  match ctx.parquetScan deleteFilePath with
  | .error e => (.error e, l)
  | .ok scan =>
    match scanDeleteChunks scan.returnTypes scan.stream l.deleteData with
    | (res, deleteData) => (res, { l with deleteData })

/-- `GetDeletesForFile` -/
def getDeletesForFile (l : IcebergMultiFileList) (filePath : String) : Option (Finset ℤ) :=
  l.deleteData.find? filePath

/-! ### Delete manifests -/

/-- The variables of the loop of `ProcessDeletes`: the list, and `delete_files`. -/
abbrev CollectState := IcebergMultiFileList × List IcebergManifestEntry

/-- The part of a round of `ProcessDeletes` that reads, with the reader on a manifest. -/
def readDeleteFiles (op : ManifestFormat IcebergManifestEntry) (r : ManifestReader)
    (st : CollectState) : Loop.Step CollectState (Except Error Unit × CollectState) :=
  match r.readEntries standardVectorSize (appendTo op) st.2 with
  | (.error e, r, deleteFiles) =>
    .done (.error e, { st.1 with deleteManifestEntryReader := some r }, deleteFiles)
  | (.ok _, r, deleteFiles) =>
    .next ({ st.1 with
      deleteManifestEntryReader := some r
      currentDeleteManifest :=
        if r.isFinished then st.1.currentDeleteManifest + 1 else st.1.currentDeleteManifest },
      deleteFiles)

/-- One round of the loop of `ProcessDeletes`. -/
def collectRound (ctx : ClientContext) (st : CollectState) :
    Loop.Step CollectState (Except Error Unit × CollectState) :=
  match st.1.deleteManifests[st.1.currentDeleteManifest]? with
  | none => .done (.ok (), st)
  | some manifest =>
    match st.1.deleteManifestEntryReader, st.1.entryProducer with
    | some r, some op =>
      if r.isFinished then
        match openAvro ctx st.1.path st.1.options manifest.manifestPath with
        | .error e => .done (.error e, st)
        | .ok scan =>
          match r.initializeWith scan with
          | (.error e, r) =>
            .done (.error e, { st.1 with deleteManifestEntryReader := some r }, st.2)
          | (.ok _, r) => readDeleteFiles op r st
      else readDeleteFiles op r st
    | _, _ => .done (.error nullPointer, st)

/-- The rounds that a manifest can take. -/
def manifestRounds (ctx : ClientContext) (l : IcebergMultiFileList) (manifest : IcebergManifest) :
    ℕ :=
  match openAvro ctx l.path l.options manifest.manifestPath with
  | .error _ => 1
  | .ok scan => (scan.stream.length + 1) * (standardVectorSize + 1) + 1

/-- The loop of `ProcessDeletes` over the delete manifests, which collects `delete_files`. -/
def collect (ctx : ClientContext) (l : IcebergMultiFileList) : Except Error Unit × CollectState :=
  let manifests := l.deleteManifests.drop l.currentDeleteManifest
  let rounds := (l.deleteManifestEntryReader.elim 0 readFuel) +
    (manifests.map (manifestRounds ctx l)).sum
  (Loop.run (collectRound ctx) (rounds + 1) (l, [])).getD
    (.error ⟨.diverged, "ProcessDeletes"⟩, l, [])

/-- The loop of `ProcessDeletes` over `delete_files`, with the entries it has called
`ScanDeleteFile` for. -/
def scanDeleteFiles (ctx : ClientContext) : List IcebergManifestEntry → IcebergMultiFileList →
    Outcome IcebergMultiFileList Unit × List IcebergManifestEntry
  | [], l => ((.ok (), l), [])
  | entry :: deleteFiles, l =>
    match scanDeleteFile ctx entry.filePath l with
    | (.error e, l) => ((.error e, l), [entry])
    | (.ok _, l) =>
      match scanDeleteFiles ctx deleteFiles l with
      | (out, scanned) => (out, entry :: scanned)

/-- `ProcessDeletes`, with the entries it has called `ScanDeleteFile` for -/
def processDeletes (ctx : ClientContext) (l : IcebergMultiFileList) :
    Outcome IcebergMultiFileList Unit × List IcebergManifestEntry :=
  match collect ctx l with
  | (.error e, l, _) => ((.error e, l), [])
  | (.ok _, l, deleteFiles) => scanDeleteFiles ctx deleteFiles l

/-- `current_delete_manifest == delete_manifests.end()`; the iterator never gets past the end -/
def DeletesProcessed (l : IcebergMultiFileList) : Prop :=
  l.deleteManifests.length ≤ l.currentDeleteManifest

instance (l : IcebergMultiFileList) : Decidable l.DeletesProcessed := Nat.decLe _ _

/-- The critical section of `FinalizeChunk`: the deletes of the file with this path -/
def deletesOf (ctx : ClientContext) (filePath : String) (l : IcebergMultiFileList) :
    Outcome IcebergMultiFileList (Option (Finset ℤ)) :=
  if l.DeletesProcessed then (.ok (l.getDeletesForFile filePath), l)
  else
    match (processDeletes ctx l).1 with
    | (.error e, l) => (.error e, l)
    | (.ok _, l) => (.ok (l.getDeletesForFile filePath), l)

/-- `FinalizeChunk`: the rows of the chunk that are left -/
def finalizeChunk {ρ : Type} (ctx : ClientContext) (fileId : ℕ) (rowId : ρ → ℤ) (chunk : List ρ)
    (l : IcebergMultiFileList) : Outcome IcebergMultiFileList (List ρ) :=
  match l.dataFiles[fileId]? with
  | none => (.error ⟨.internal, "Attempted to access index out of range of a vector"⟩, l)
  | some dataFile =>
    match deletesOf ctx dataFile.filePath l with
    | (.error e, l) => (.error e, l)
    | (.ok none, l) => (.ok chunk, l)
    | (.ok (some deleteData), l) => (.ok (IcebergDeleteData.apply deleteData rowId chunk), l)

end IcebergMultiFileList

end DuckIceberg
