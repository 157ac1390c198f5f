import DuckIceberg.ReadRuns

/-!
# Files as they are written

The other direction of the readers in format version 2: `entryScan` and `manifestScan` lay the
entries of a manifest or of a manifest list out in columns, and deliver them in given chunks.
Reading gives the entries back (`entryScan_readable`, `manifestScan_readable`), so every list of
chunks is the content of some file.
-/

namespace DuckIceberg

open Strings Stride

/-! ### Enumerators as numbers -/

/-- The number of a status. -/
def IcebergManifestEntryStatusType.toInt32 : IcebergManifestEntryStatusType → ℤ
  | .existing => 0
  | .added => 1
  | .deleted => 2
  | .other v => v

/-- The number of a content type. -/
def IcebergManifestEntryContentType.toInt32 : IcebergManifestEntryContentType → ℤ
  | .data => 0
  | .positionDeletes => 1
  | .equalityDeletes => 2
  | .other v => v

/-- The number of a content type. -/
def IcebergManifestContentType.toInt32 : IcebergManifestContentType → ℤ
  | .data => 0
  | .delete => 1
  | .other v => v

/-- The entry survives being written and read. -/
def IcebergManifestEntry.Writable (e : IcebergManifestEntry) : Prop :=
  .ofInt32 e.status.toInt32 = e.status ∧ .ofInt32 e.content.toInt32 = e.content

instance (e : IcebergManifestEntry) : Decidable e.Writable := instDecidableAnd

/-- The manifest survives being written and read. -/
def IcebergManifest.Writable (m : IcebergManifest) : Prop := .ofInt32 m.content.toInt32 = m.content

instance (m : IcebergManifest) : Decidable m.Writable :=
  inferInstanceAs (Decidable (IcebergManifestContentType.ofInt32 m.content.toInt32 = m.content))

/-! ### Scans that deliver given rows -/

/-- The delivery of `n` rows into a chunk laid out for `types`; any other chunk is refused. -/
def deliver (types : List LogicalType) (data : List Vector) (n : ℕ) : Fetch := fun ts =>
  if h : ts = types ∧ 0 < n ∧ n ≤ standardVectorSize then .ok ⟨data, n, h.2.1, h.2.2⟩
  else .error ⟨.internal, "Vector::Reference used on vector of different type"⟩

/-- A chunk a scan can deliver. -/
def Deliverable {α : Type} (es : List α) : Prop := 0 < es.length ∧ es.length ≤ standardVectorSize

instance {α : Type} (es : List α) : Decidable (Deliverable es) := instDecidableAnd

/-- What the reader makes of a delivery whose columns `op` reads back. -/
theorem piece_deliver {α : Type} (op : ManifestFormat α) {m : NameMap} {types : List LogicalType}
    {data : List Vector} {es : List α} (hes : Deliverable es)
    (h : ∀ chunk : DataChunk, chunk.data = data → chunk.size = es.length →
      op.rows m chunk = .ok es) :
    ManifestReader.piece op m types (deliver types data es.length) = .rows es := by
  have hd : deliver types data es.length types = .ok ⟨data, es.length, hes.1, hes.2⟩ :=
    dif_pos ⟨rfl, hes⟩
  simp only [ManifestReader.piece, hd]
  rw [h _ rfl rfl]

/-! ### Manifests -/

/-- An entry for a data file, with this status. -/
def IcebergManifestEntry.ofPath (status : IcebergManifestEntryStatusType) (filePath : String) :
    IcebergManifestEntry :=
  ⟨status, .data, filePath, "PARQUET", 1⟩

/-- An entry for a delete file with this content. -/
def IcebergManifestEntry.ofDeletes (content : IcebergManifestEntryContentType)
    (filePath : String) : IcebergManifestEntry :=
  ⟨.added, content, filePath, "PARQUET", 1⟩

/-- The columns of a manifest that the reader needs, and others that its data files may have, such
as the `partition` that differs between partition specs. -/
def entryColumns (others : List (String × LogicalType)) : List (String × LogicalType) :=
  [("status", .simple .integer),
    ("data_file", .struct ([("content", .simple .integer), ("file_path", .simple .varchar),
      ("file_format", .simple .varchar), ("record_count", .simple .bigint)] ++ others))]

/-- The columns of a chunk of entries. -/
def entryVectors (es : List IcebergManifestEntry) : List Vector :=
  [.int32 (es.map fun e => e.status.toInt32),
    .struct [.int32 (es.map fun e => e.content.toInt32),
      .varchar (es.map IcebergManifestEntry.filePath),
      .varchar (es.map IcebergManifestEntry.fileFormat),
      .int64 (es.map IcebergManifestEntry.recordCount)]]

/-- A manifest with these entries, delivered in these chunks. -/
def entryScan (others : List (String × LogicalType)) (chunks : List (List IcebergManifestEntry)) :
    AvroScan where
  columns := entryColumns others
  stream := chunks.map fun es =>
    deliver ((entryColumns others).map Prod.snd) (entryVectors es) es.length

/-- The columns the reader needs are where `entryColumns` puts them. -/
structure EntryNames (m : NameMap) : Prop where
  status : m.find? "status" = some ⟨0, []⟩
  content : m.find? "content" = some ⟨1, [0]⟩
  filePath : m.find? "file_path" = some ⟨1, [1]⟩
  fileFormat : m.find? "file_format" = some ⟨1, [2]⟩
  recordCount : m.find? "record_count" = some ⟨1, [3]⟩

/-- The other columns of a manifest do not get in the way of those that the reader needs. -/
structure Apart (others : List (String × LogicalType)) : Prop where
  populates : (ManifestReader.populate entryNameMapping (entryColumns others).zipIdx .empty).1 =
    .ok ()
  names : EntryNames (ManifestReader.nameMap icebergManifestEntryV2 (entryScan others []))

theorem apart_nil : Apart [] where
  populates := by decide +kernel
  names := by constructor <;> decide +kernel

/-- A partition by one integer. -/
def partitionColumn : String × LogicalType := ("partition", .struct [("id", .simple .integer)])

theorem apart_partition : Apart [partitionColumn] where
  populates := by decide +kernel
  names := by constructor <;> decide +kernel

/-- **Round trip of a chunk**: the entries written are the entries read. -/
theorem rows_entryVectors {m : NameMap} (hm : EntryNames m) {es : List IcebergManifestEntry}
    (hes : ∀ e ∈ es, e.Writable) {chunk : DataChunk} (hdata : chunk.data = entryVectors es)
    (hsize : chunk.size = es.length) : icebergManifestEntryV2.rows m chunk = .ok es := by
  have hrow : IcebergManifestEntryV2.row m chunk = .ok fun i =>
      { status := .ofInt32 ((es.map fun e => e.status.toInt32).getD i 0)
        content := .ofInt32 ((es.map fun e => e.content.toInt32).getD i 0)
        filePath := (es.map IcebergManifestEntry.filePath).getD i ""
        fileFormat := (es.map IcebergManifestEntry.fileFormat).getD i ""
        recordCount := (es.map IcebergManifestEntry.recordCount).getD i 0 } := by
    simp only [IcebergManifestEntryV2.row, NameMap.atName, hm.status, hm.content, hm.filePath,
      hm.fileFormat, hm.recordCount, hdata]
    rfl
  have hslice : icebergManifestEntryV2.rows m chunk = .ok (slice (fun i =>
      { status := .ofInt32 ((es.map fun e => e.status.toInt32).getD i 0)
        content := .ofInt32 ((es.map fun e => e.content.toInt32).getD i 0)
        filePath := (es.map IcebergManifestEntry.filePath).getD i ""
        fileFormat := (es.map IcebergManifestEntry.fileFormat).getD i ""
        recordCount := (es.map IcebergManifestEntry.recordCount).getD i 0 }) 0 chunk.size) := by
    rw [ManifestFormat.rows]
    exact congrArg _ hrow
  rw [hslice, hsize]
  congr 1
  refine List.ext_getElem (by simp) fun i h1 h2 => ?_
  obtain ⟨hstatus, hcontent⟩ := hes es[i] (List.getElem_mem h2)
  simp [slice, h2, hstatus, hcontent]

/-- **Round trip of a manifest.** -/
theorem entryScan_readable {others : List (String × LogicalType)} (ho : Apart others)
    {chunks : List (List IcebergManifestEntry)} (hd : ∀ es ∈ chunks, Deliverable es)
    (hw : ∀ es ∈ chunks, ∀ e ∈ es, e.Writable) :
    ManifestReader.Readable icebergManifestEntryV2 (entryScan others chunks).returnTypes
      (entryScan others chunks) chunks where
  populates := ho.populates
  verifies := by
    show IcebergManifestEntryV2.verifySchema _ = true
    have hm : EntryNames (ManifestReader.nameMap icebergManifestEntryV2 (entryScan others chunks)) :=
      ho.names
    simp [IcebergManifestEntryV2.verifySchema, IcebergManifestEntryV1.verifySchema, NameMap.count,
      hm.status, hm.filePath, hm.fileFormat, hm.recordCount, hm.content]
  unread := rfl
  delivers := by
    rw [entryScan, List.map_map]
    refine List.map_congr_left fun es hes => ?_
    exact piece_deliver icebergManifestEntryV2 (hd es hes) fun chunk hdata hsize =>
      rows_entryVectors ho.names (hw es hes) hdata hsize

/-- It is read into no other chunk than one for its own columns. -/
theorem returnTypes_of_readable {others : List (String × LogicalType)}
    {chunks chunks' : List (List IcebergManifestEntry)} {types : List LogicalType}
    (hne : chunks ≠ [])
    (h : ManifestReader.Readable icebergManifestEntryV2 types (entryScan others chunks) chunks') :
    (entryScan others chunks).returnTypes = types := by
  by_contra htypes
  obtain ⟨es, chunks, rfl⟩ := List.exists_cons_of_ne_nil hne
  have hdelivers := h.delivers
  cases chunks' with
  | nil => cases hdelivers
  | cons es' chunks' =>
    have hhead := (List.cons.inj hdelivers).1
    have hrefused : deliver ((entryColumns others).map Prod.snd) (entryVectors es) es.length types =
        .error ⟨.internal, "Vector::Reference used on vector of different type"⟩ :=
      dif_neg fun hfits => htypes hfits.1.symm
    dsimp only [ManifestReader.piece] at hhead
    rw [hrefused] at hhead
    cases hhead

/-! ### Manifest lists -/

/-- The columns of a manifest list that the reader needs. -/
def manifestColumns : List (String × LogicalType) :=
  [("manifest_path", .simple .varchar), ("content", .simple .integer),
    ("sequence_number", .simple .bigint)]

/-- The columns of a chunk of manifests. -/
def manifestVectors (ms : List IcebergManifest) : List Vector :=
  [.varchar (ms.map IcebergManifest.manifestPath),
    .int32 (ms.map fun m => m.content.toInt32),
    .int64 (ms.map IcebergManifest.sequenceNumber)]

/-- A manifest list with these manifests, delivered in these chunks. -/
def manifestScan (chunks : List (List IcebergManifest)) : AvroScan where
  columns := manifestColumns
  stream := chunks.map fun ms =>
    deliver (manifestColumns.map Prod.snd) (manifestVectors ms) ms.length

theorem manifestNames_find :
    let m := ManifestReader.nameMap icebergManifestV2 (manifestScan [])
    m.find? "manifest_path" = some ⟨0, []⟩ ∧ m.find? "content" = some ⟨1, []⟩ ∧
      m.find? "sequence_number" = some ⟨2, []⟩ := by
  decide +kernel

theorem manifestNames_complete :
    (ManifestReader.populate manifestNameMapping manifestColumns.zipIdx .empty).1 = .ok () ∧
      IcebergManifestV2.verifySchema
        (ManifestReader.nameMap icebergManifestV2 (manifestScan [])) = true := by
  constructor <;> decide +kernel

/-- **Round trip of a chunk**: the manifests written are the manifests read. -/
theorem rows_manifestVectors {ms : List IcebergManifest} (hms : ∀ m ∈ ms, m.Writable)
    {chunk : DataChunk} (hdata : chunk.data = manifestVectors ms)
    (hsize : chunk.size = ms.length) :
    icebergManifestV2.rows (ManifestReader.nameMap icebergManifestV2 (manifestScan [])) chunk =
      .ok ms := by
  obtain ⟨h1, h2, h3⟩ := manifestNames_find
  have hrow : IcebergManifestV2.row (ManifestReader.nameMap icebergManifestV2 (manifestScan []))
      chunk = .ok fun i =>
      { manifestPath := (ms.map IcebergManifest.manifestPath).getD i ""
        content := .ofInt32 ((ms.map fun m => m.content.toInt32).getD i 0)
        sequenceNumber := (ms.map IcebergManifest.sequenceNumber).getD i 0 } := by
    simp only [IcebergManifestV2.row, NameMap.atName, h1, h2, h3, hdata]
    rfl
  have hslice : icebergManifestV2.rows
      (ManifestReader.nameMap icebergManifestV2 (manifestScan [])) chunk = .ok (slice (fun i =>
      { manifestPath := (ms.map IcebergManifest.manifestPath).getD i ""
        content := .ofInt32 ((ms.map fun m => m.content.toInt32).getD i 0)
        sequenceNumber := (ms.map IcebergManifest.sequenceNumber).getD i 0 }) 0 chunk.size) := by
    rw [ManifestFormat.rows]
    exact congrArg _ hrow
  rw [hslice, hsize]
  congr 1
  refine List.ext_getElem (by simp) fun i h1 h2 => ?_
  have hcontent := hms ms[i] (List.getElem_mem h2)
  simp only [IcebergManifest.Writable] at hcontent
  simp [slice, h2, hcontent]

/-- **Round trip of a manifest list.** -/
theorem manifestScan_readable {chunks : List (List IcebergManifest)}
    (hd : ∀ ms ∈ chunks, Deliverable ms) (hw : ∀ ms ∈ chunks, ∀ m ∈ ms, m.Writable) :
    ManifestReader.Readable icebergManifestV2 (manifestScan chunks).returnTypes
      (manifestScan chunks) chunks where
  populates := manifestNames_complete.1
  verifies := manifestNames_complete.2
  unread := rfl
  delivers := by
    rw [manifestScan, List.map_map]
    refine List.map_congr_left fun ms hms => ?_
    exact piece_deliver icebergManifestV2 (hd ms hms) fun chunk hdata hsize =>
      rows_manifestVectors (hw ms hms) hdata hsize

end DuckIceberg
