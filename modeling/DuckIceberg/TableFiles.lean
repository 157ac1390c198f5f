import DuckIceberg.ManifestFile
import DuckIceberg.Metadata

/-!
# The files of a table

A file system that holds the metadata file of one table and the Avro and Parquet files that are
listed with it, as a `ClientContext`.  A path that ends in `.json` is the path of the metadata file
itself, so a table that is opened by such a path is found without a version hint.
-/

namespace DuckIceberg

/-- A delete file with these pairs of a path and a row. -/
def deleteScan (pairs : List (String × ℤ)) (h : Deliverable pairs) : ParquetScan where
  returnTypes := [.simple .varchar, .simple .bigint]
  stream := [.ok ⟨[.varchar (pairs.map Prod.fst), .int64 (pairs.map Prod.snd)], pairs.length,
    h.1, h.2⟩]

/-- No Parquet files at all. -/
def noParquet (_ : String) : Option ParquetScan := none

/-- The files of a table, by path. -/
structure TableFiles where
  metadataPath : String
  /-- the text of the metadata file, and the document it is read to -/
  metadata : String × Json
  avro : List (String × AvroScan)
  parquet : String → Option ParquetScan

namespace TableFiles

/-- What opening a path that is not there throws. -/
def missing (path : String) : Error :=
  ⟨.io, "Cannot open file \"" ++ path ++ "\": No such file or directory"⟩

/-- The file under this path. -/
def openFile {α : Type} (files : String → Option α) (path : String) : Except Error α :=
  match files path with
  | some file => .ok file
  | none => .error (missing path)

theorem lookup_of_mem {κ α : Type} [DecidableEq κ] {l : List (κ × α)}
    (hl : (l.map Prod.fst).Nodup) {k : κ} {a : α} (h : (k, a) ∈ l) : l.lookup k = some a := by
  obtain ⟨pre, post, rfl⟩ := List.append_of_mem h
  refine List.lookup_eq_some_iff.2 ⟨pre, post, rfl, fun p hp => ?_⟩
  rw [List.map_append, List.nodup_append] at hl
  simpa using (hl.2.2 p.1 (List.mem_map_of_mem hp) k (by simp)).symm

/-- The context of a session that sees these files. -/
def context (t : TableFiles) : ClientContext where
  joinPath a b := a ++ "/" ++ b
  fileExists path := .ok (path == t.metadataPath)
  readFile path :=
    if path = t.metadataPath then .ok t.metadata.1 else .error (missing path)
  glob _ := .ok []
  uncompressGzip _ := .error ⟨.io, "Input is not a GZIP stream"⟩
  format _ first second := .ok ("v" ++ first ++ second ++ ".metadata.json")
  yyjsonRead text := if text = t.metadata.1 then some t.metadata.2 else none
  unsafeVersionGuessing := false
  fromEpochMs ms := .ok (ms * 1000)
  getEpochMs ts := ts / 1000
  timestampToString ts := toString ts
  readAvro := openFile fun path => t.avro.lookup path
  parquetScan := openFile t.parquet

/-- The metadata file of a table with one snapshot, of format version 2 and without columns. -/
def oneSnapshot : String × Json :=
  ("\x7b\"format-version\": 2, \"current-schema-id\": 0, \"schemas\": " ++
    "[\x7b\"schema-id\": 0, \"type\": \"struct\", \"fields\": []\x7d], \"snapshots\": " ++
    "[\x7b\"snapshot-id\": 1, \"sequence-number\": 1, \"timestamp-ms\": 0, " ++
    "\"manifest-list\": \"snap-1.avro\"\x7d]\x7d",
  .obj [("format-version", .int 2), ("current-schema-id", .int 0),
    ("schemas", .arr [.obj [("schema-id", .int 0), ("type", .str "struct"), ("fields", .arr [])]]),
    ("snapshots", .arr [.obj [("snapshot-id", .int 1), ("sequence-number", .int 1),
      ("timestamp-ms", .int 0), ("manifest-list", .str "snap-1.avro")]])])

/-- The snapshot of that metadata file. -/
def snapshotOne : IcebergSnapshot where
  snapshotId := 1
  sequenceNumber := 1
  manifestList := "snap-1.avro"
  icebergFormatVersion := 2

/-- A table with one snapshot and these Avro and Parquet files. -/
def table (avro : List (String × AvroScan)) (parquet : String → Option ParquetScan) : TableFiles :=
  ⟨"v1.metadata.json", oneSnapshot, avro, parquet⟩

/-- The snapshot that is selected does not depend on the Avro and Parquet files. -/
theorem select_table (avro : List (String × AvroScan)) (parquet : String → Option ParquetScan) :
    IcebergSnapshot.select (table avro parquet).context "v1.metadata.json" {} =
      .ok snapshotOne := by
  have hread : IcebergSnapshot.readMetaData (table avro parquet).context "v1.metadata.json"
      "none" = .ok oneSnapshot.1 := by
    rw [IcebergSnapshot.readMetaData, if_neg (by decide +kernel)]
    simp only [IcebergUtils.fileToString, context, table, if_true]
  have hdoc : (table avro parquet).context.yyjsonRead oneSnapshot.1 = some oneSnapshot.2 := by
    simp only [context, table, if_true]
  have hinfo : IcebergSnapshot.getFileParseInfo (table avro parquet).context "v1.metadata.json"
      "none" = IcebergSnapshot.getParseInfo oneSnapshot.2 := by
    simp only [IcebergSnapshot.getFileParseInfo, hread, bind, Except.bind, hdoc]
  show IcebergSnapshot.getLatestSnapshot _ _ _ = _
  rw [IcebergSnapshot.getLatestSnapshot]
  show (IcebergSnapshot.getFileParseInfo _ _ "none").bind _ = _
  rw [hinfo]
  rfl

end TableFiles

end DuckIceberg
