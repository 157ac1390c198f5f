import DuckIceberg.AvroScan

/-!
# The four manifest formats

`iceberg_manifest.cpp` has one group of static functions for each of manifest lists and
manifests, in format versions 1 and 2: `PopulateNameMapping` says where the columns of a file
are, `VerifySchema` whether all that is needed is there, `ProduceEntries` appends the entries of a
slice of a chunk.  A `ManifestFormat` packs such a group together with the statement of what its
producer does: it looks its columns up once, and then goes through the slice row by row.
-/

namespace DuckIceberg

open Strings

/-- `ManifestReaderInput` -/
structure ManifestReaderInput where
  nameToVec : NameMap
  skipDeleted : Bool := false

/-! ### Manifest lists -/

/-- `ManifestNameMapping` -/
def manifestNameMapping (columnId : ℕ) (_type : LogicalType) (name : String) (nameToVec : NameMap) :
    Except Error NameMap :=
  .ok (NormMap.insert nameToVec name ⟨columnId, []⟩)

/-- The loop of the two manifest list producers. -/
def produceManifests (row : ℕ → IcebergManifest) (offset count : ℕ)
    (result : List IcebergManifest) : List IcebergManifest × ℕ :=
  ((List.range count).foldl (fun result i => result ++ [row (i + offset)]) result, count)

namespace IcebergManifestV1

/-- The columns `ProduceEntries` looks up, and the manifest it reads from a row of them. -/
def row (nameToVec : NameMap) (chunk : DataChunk) : Except Error (ℕ → IcebergManifest) := do
  let manifestPath ← (← column chunk.data (← nameToVec.atName "manifest_path").index).varchars
  return fun index =>
    { manifestPath := manifestPath.getD index ""
      sequenceNumber := 0
      content := .data }

/-- `IcebergManifestV1::ProduceEntries` -/
def produceEntries (chunk : DataChunk) (offset count : ℕ) (input : ManifestReaderInput)
    (result : List IcebergManifest) : Except Error (List IcebergManifest × ℕ) := do
  let manifest ← row input.nameToVec chunk
  return produceManifests manifest offset count result

/-- `IcebergManifestV1::VerifySchema` -/
def verifySchema (nameToVec : NameMap) : Bool := nameToVec.count "manifest_path"

end IcebergManifestV1

namespace IcebergManifestV2

/-- The columns `ProduceEntries` looks up, and the manifest it reads from a row of them. -/
def row (nameToVec : NameMap) (chunk : DataChunk) : Except Error (ℕ → IcebergManifest) := do
  let manifestPath ← (← column chunk.data (← nameToVec.atName "manifest_path").index).varchars
  let content ← (← column chunk.data (← nameToVec.atName "content").index).int32s
  let sequenceNumber ← (← column chunk.data (← nameToVec.atName "sequence_number").index).int64s
  return fun index =>
    { manifestPath := manifestPath.getD index ""
      content := .ofInt32 (content.getD index 0)
      sequenceNumber := sequenceNumber.getD index 0 }

/-- `IcebergManifestV2::ProduceEntries` -/
def produceEntries (chunk : DataChunk) (offset count : ℕ) (input : ManifestReaderInput)
    (result : List IcebergManifest) : Except Error (List IcebergManifest × ℕ) := do
  let manifest ← row input.nameToVec chunk
  return produceManifests manifest offset count result

/-- `IcebergManifestV2::VerifySchema` -/
def verifySchema (nameToVec : NameMap) : Bool :=
  IcebergManifestV1.verifySchema nameToVec && nameToVec.count "content"

end IcebergManifestV2

/-! ### Manifests -/

/-- `EntryNameMapping`: the children of `data_file` are mapped under their own names. -/
def entryNameMapping (columnId : ℕ) (type : LogicalType) (name : String) (nameToVec : NameMap) :
    Except Error NameMap :=
  let lname := lower name
  if lname ≠ "data_file" then
    .ok (NormMap.insert nameToVec lname ⟨columnId, []⟩)
  else
    match type with
    | .struct children =>
      .ok (children.zipIdx.foldl
        (fun m child => NormMap.insert m (lower child.1.1) ⟨columnId, [child.2]⟩) nameToVec)
    | _ => .error ⟨.invalidInput, "The 'data_file' of the manifest should be a STRUCT"⟩

/-- The loop of the two manifest producers. -/
def produceManifestEntries (skipDeleted : Bool) (row : ℕ → IcebergManifestEntry)
    (offset count : ℕ) (result : List IcebergManifestEntry) : List IcebergManifestEntry × ℕ :=
  (List.range count).foldl
    (fun acc i =>
      let entry := row (i + offset)
      if skipDeleted && entry.status == .deleted then acc else (acc.1 ++ [entry], acc.2 + 1))
    (result, 0)

namespace IcebergManifestEntryV1

/-- The columns `ProduceEntries` looks up, and the entry it reads from a row of them. -/
def row (nameToVec : NameMap) (chunk : DataChunk) : Except Error (ℕ → IcebergManifestEntry) := do
  let status ← (← column chunk.data (← nameToVec.atName "status").index).int32s
  let filePathIdx ← nameToVec.atName "file_path"
  let childEntries ← (← column chunk.data filePathIdx.index).entries
  let filePath ← (← column childEntries (← filePathIdx.child)).varchars
  let fileFormat ← (← column childEntries (← (← nameToVec.atName "file_format").child)).varchars
  let recordCount ← (← column childEntries (← (← nameToVec.atName "record_count").child)).int64s
  return fun index =>
    { status := .ofInt32 (status.getD index 0)
      content := .data
      filePath := filePath.getD index ""
      fileFormat := fileFormat.getD index ""
      recordCount := recordCount.getD index 0 }

/-- `IcebergManifestEntryV1::ProduceEntries` -/
def produceEntries (chunk : DataChunk) (offset count : ℕ) (input : ManifestReaderInput)
    (result : List IcebergManifestEntry) : Except Error (List IcebergManifestEntry × ℕ) := do
  let entry ← row input.nameToVec chunk
  return produceManifestEntries input.skipDeleted entry offset count result

/-- `IcebergManifestEntryV1::VerifySchema` -/
def verifySchema (nameToVec : NameMap) : Bool :=
  nameToVec.count "status" && nameToVec.count "file_path" && nameToVec.count "file_format" &&
    nameToVec.count "record_count"

end IcebergManifestEntryV1

namespace IcebergManifestEntryV2

/-- The columns `ProduceEntries` looks up, and the entry it reads from a row of them. -/
def row (nameToVec : NameMap) (chunk : DataChunk) : Except Error (ℕ → IcebergManifestEntry) := do
  let status ← (← column chunk.data (← nameToVec.atName "status").index).int32s
  let filePathIdx ← nameToVec.atName "file_path"
  let childEntries ← (← column chunk.data filePathIdx.index).entries
  let content ← (← column childEntries (← (← nameToVec.atName "content").child)).int32s
  let filePath ← (← column childEntries (← filePathIdx.child)).varchars
  let fileFormat ← (← column childEntries (← (← nameToVec.atName "file_format").child)).varchars
  let recordCount ← (← column childEntries (← (← nameToVec.atName "record_count").child)).int64s
  return fun index =>
    { status := .ofInt32 (status.getD index 0)
      content := .ofInt32 (content.getD index 0)
      filePath := filePath.getD index ""
      fileFormat := fileFormat.getD index ""
      recordCount := recordCount.getD index 0 }

/-- `IcebergManifestEntryV2::ProduceEntries` -/
def produceEntries (chunk : DataChunk) (offset count : ℕ) (input : ManifestReaderInput)
    (result : List IcebergManifestEntry) : Except Error (List IcebergManifestEntry × ℕ) := do
  let entry ← row input.nameToVec chunk
  return produceManifestEntries input.skipDeleted entry offset count result

/-- `IcebergManifestEntryV2::VerifySchema` -/
def verifySchema (nameToVec : NameMap) : Bool :=
  IcebergManifestEntryV1.verifySchema nameToVec && nameToVec.count "content"

end IcebergManifestEntryV2

/-! ### What a producer does -/

/-- A slice of the rows of a chunk. -/
def slice {α : Type} (row : ℕ → α) (offset count : ℕ) : List α :=
  (List.range count).map fun i => row (i + offset)

@[simp] theorem slice_length {α : Type} (row : ℕ → α) (offset count : ℕ) :
    (slice row offset count).length = count := by
  simp [slice]

/-- A slice that lies inside the first `size` rows. -/
theorem slice_eq_take_drop {α : Type} (row : ℕ → α) {offset count size : ℕ}
    (h : offset + count ≤ size) :
    slice row offset count = ((slice row 0 size).drop offset).take count := by
  refine List.ext_getElem (by simp; omega) fun i h1 h2 => ?_
  simp [slice, Nat.add_comm]

theorem produceManifests_eq (row : ℕ → IcebergManifest) (offset count : ℕ)
    (result : List IcebergManifest) :
    produceManifests row offset count result = (result ++ slice row offset count, count) := by
  unfold produceManifests slice
  congr 1
  induction count with
  | zero => simp
  | succ n ih => simp [List.range_succ, ih]

/-- A loop that pushes the rows not skipped, and counts them. -/
theorem foldl_push_unless {α : Type} (skip : α → Bool) (row : ℕ → α) (offset count : ℕ)
    (result : List α) :
    (List.range count).foldl
        (fun acc i =>
          if skip (row (i + offset)) then acc else (acc.1 ++ [row (i + offset)], acc.2 + 1))
        (result, 0) =
      (result ++ (slice row offset count).filter fun e => !skip e,
        (slice row offset count).countP fun e => !skip e) := by
  unfold slice
  induction count with
  | zero => simp
  | succ n ih =>
    rw [List.range_succ, List.foldl_append, ih, List.map_append, List.filter_append,
      List.countP_append]
    cases h : skip (row (n + offset)) <;> simp [h]

theorem produceManifestEntries_eq (skipDeleted : Bool) (row : ℕ → IcebergManifestEntry)
    (offset count : ℕ) (result : List IcebergManifestEntry) :
    produceManifestEntries skipDeleted row offset count result =
      (result ++ (slice row offset count).filter fun e => !(skipDeleted && e.status == .deleted),
        (slice row offset count).countP fun e => !(skipDeleted && e.status == .deleted)) :=
  foldl_push_unless (fun e : IcebergManifestEntry => skipDeleted && e.status == .deleted)
    row offset count result

/-- One group of functions of `iceberg_manifest.cpp`, with `OP::entry_type = α`: where the columns
are, whether they suffice, and how the entries of a slice are appended. -/
structure ManifestFormat (α : Type) where
  populateNameMapping : ℕ → LogicalType → String → NameMap → Except Error NameMap
  verifySchema : NameMap → Bool
  produceEntries :
    DataChunk → ℕ → ℕ → ManifestReaderInput → List α → Except Error (List α × ℕ)
  /-- the columns looked up, and the entry in a row of them -/
  row : NameMap → DataChunk → Except Error (ℕ → α)
  /-- the entries left out under `skip_deleted` -/
  skipped : α → Bool
  produceEntries_eq : ∀ chunk offset count input result,
    produceEntries chunk offset count input result =
      (row input.nameToVec chunk).map fun entry =>
        (result ++ (slice entry offset count).filter
            fun e => !(input.skipDeleted && skipped e),
          (slice entry offset count).countP fun e => !(input.skipDeleted && skipped e))

/-- `IcebergManifestV1` -/
def icebergManifestV1 : ManifestFormat IcebergManifest where
  populateNameMapping := manifestNameMapping
  verifySchema := IcebergManifestV1.verifySchema
  produceEntries := IcebergManifestV1.produceEntries
  row := IcebergManifestV1.row
  skipped := fun _ => false
  produceEntries_eq chunk offset count input result := by
    unfold IcebergManifestV1.produceEntries
    cases IcebergManifestV1.row input.nameToVec chunk with
    | error e => rfl
    | ok row =>
      show Except.ok _ = Except.ok _
      rw [produceManifests_eq]
      simp

/-- `IcebergManifestV2` -/
def icebergManifestV2 : ManifestFormat IcebergManifest where
  populateNameMapping := manifestNameMapping
  verifySchema := IcebergManifestV2.verifySchema
  produceEntries := IcebergManifestV2.produceEntries
  row := IcebergManifestV2.row
  skipped := fun _ => false
  produceEntries_eq chunk offset count input result := by
    unfold IcebergManifestV2.produceEntries
    cases IcebergManifestV2.row input.nameToVec chunk with
    | error e => rfl
    | ok row =>
      show Except.ok _ = Except.ok _
      rw [produceManifests_eq]
      simp

/-- `IcebergManifestEntryV1` -/
def icebergManifestEntryV1 : ManifestFormat IcebergManifestEntry where
  populateNameMapping := entryNameMapping
  verifySchema := IcebergManifestEntryV1.verifySchema
  produceEntries := IcebergManifestEntryV1.produceEntries
  row := IcebergManifestEntryV1.row
  skipped := fun e => e.status == .deleted
  produceEntries_eq chunk offset count input result := by
    unfold IcebergManifestEntryV1.produceEntries
    cases IcebergManifestEntryV1.row input.nameToVec chunk with
    | error e => rfl
    | ok row => exact congrArg Except.ok (produceManifestEntries_eq _ _ _ _ _)

/-- `IcebergManifestEntryV2` -/
def icebergManifestEntryV2 : ManifestFormat IcebergManifestEntry where
  populateNameMapping := entryNameMapping
  verifySchema := IcebergManifestEntryV2.verifySchema
  produceEntries := IcebergManifestEntryV2.produceEntries
  row := IcebergManifestEntryV2.row
  skipped := fun e => e.status == .deleted
  produceEntries_eq chunk offset count input result := by
    unfold IcebergManifestEntryV2.produceEntries
    cases IcebergManifestEntryV2.row input.nameToVec chunk with
    | error e => rfl
    | ok row => exact congrArg Except.ok (produceManifestEntries_eq _ _ _ _ _)

namespace ManifestFormat

variable {α : Type} (op : ManifestFormat α)

/-- The entries in the rows of a chunk, deleted ones included. -/
def rows (nameToVec : NameMap) (chunk : DataChunk) : Except Error (List α) :=
  (op.row nameToVec chunk).map fun entry => slice entry 0 chunk.size

/-- The entries a reader with this `skip_deleted` appends. -/
def wanted (skipDeleted : Bool) (e : α) : Bool := !(skipDeleted && op.skipped e)

@[simp] theorem wanted_false (e : α) : op.wanted false e = true := rfl

theorem rows_length {nameToVec : NameMap} {chunk : DataChunk} {es : List α}
    (h : op.rows nameToVec chunk = .ok es) : es.length = chunk.size := by
  unfold rows at h
  cases hr : op.row nameToVec chunk with
  | error e => rw [hr] at h; cases h
  | ok row =>
    rw [hr] at h
    cases h
    simp

/-- **What a producer appends**: the wanted entries of the slice, in order. -/
theorem produceEntries_of_rows (input : ManifestReaderInput) {chunk : DataChunk} {es : List α}
    (h : op.rows input.nameToVec chunk = .ok es) {offset count : ℕ}
    (hle : offset + count ≤ chunk.size) (result : List α) :
    op.produceEntries chunk offset count input result =
      .ok (result ++ ((es.drop offset).take count).filter (op.wanted input.skipDeleted),
        ((es.drop offset).take count).countP (op.wanted input.skipDeleted)) := by
  unfold rows at h
  rw [op.produceEntries_eq]
  cases hr : op.row input.nameToVec chunk with
  | error e => rw [hr] at h; cases h
  | ok row =>
    rw [hr] at h
    cases h
    rw [← slice_eq_take_drop row hle]
    rfl

/-- A producer that cannot look its columns up appends nothing. -/
theorem produceEntries_of_error (input : ManifestReaderInput) {chunk : DataChunk} {e : Error}
    (h : op.rows input.nameToVec chunk = .error e) (offset count : ℕ) (result : List α) :
    op.produceEntries chunk offset count input result = .error e := by
  unfold rows at h
  rw [op.produceEntries_eq]
  cases hr : op.row input.nameToVec chunk with
  | error e' => rw [hr] at h; cases h; rfl
  | ok row => rw [hr] at h; cases h

end ManifestFormat

end DuckIceberg
