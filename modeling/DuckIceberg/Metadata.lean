import DuckIceberg.AvroScan
import DuckIceberg.Schema

/-!
# The table metadata file

`IcebergSnapshot`: which metadata file a table path stands for, what is taken from it, and how a
snapshot of it is selected and parsed.  What the functions use of DuckDB, of the file system and
of the table functions of other extensions is a `ClientContext`.
-/

namespace DuckIceberg

open Strings Json IcebergUtils

/-! ### The world outside -/

/-- A scan of a Parquet file by `parquet_scan`: the column types found by its bind, and the calls of
its function that deliver rows or throw. -/
structure ParquetScan where
  returnTypes : List LogicalType
  stream : List (Except Error Batch)

/-- What the code reaches through a `ClientContext`. -/
structure ClientContext where
  /-- `FileSystem::JoinPath` -/
  joinPath : String → String → String
  /-- `FileSystem::FileExists` -/
  fileExists : String → Except Error Bool
  /-- `FileSystem::OpenFile`, with `Read` of all there is -/
  readFile : String → Except Error String
  /-- `FileSystem::Glob` -/
  glob : String → Except Error (List String)
  /-- `GZipFileSystem::UncompressGZIPString` -/
  uncompressGzip : String → Except Error String
  /-- `StringUtil::Format` of a format with two strings -/
  format : String → String → String → Except Error String
  /-- `yyjson_read` -/
  yyjsonRead : String → Option Json
  /-- the setting `unsafe_enable_version_guessing` -/
  unsafeVersionGuessing : Bool
  /-- `Timestamp::FromEpochMs` -/
  fromEpochMs : ℕ → Except Error ℤ
  /-- `Timestamp::GetEpochMs` -/
  getEpochMs : ℤ → ℤ
  /-- `Timestamp::ToString` -/
  timestampToString : ℤ → String
  /-- the constructor of `AvroScan`: `read_avro` is bound and initialised -/
  readAvro : String → Except Error AvroScan
  /-- the bind and the initialisation of `parquet_scan` -/
  parquetScan : String → Except Error ParquetScan

/-! ### Options -/

/-- `SnapshotSource` -/
inductive SnapshotSource
  | latest
  | fromTimestamp
  | fromId
  deriving DecidableEq, Repr

/-- `UNKNOWN_TABLE_VERSION` -/
def unknownTableVersion : String := "?"

/-- `DEFAULT_TABLE_VERSION_FORMAT` -/
def defaultTableVersionFormat : String := "v%s%s.metadata.json,%s%s.metadata.json"

/-- `DEFAULT_VERSION_HINT_FILE` -/
def defaultVersionHintFile : String := "version-hint.text"

/-- `IcebergOptions` -/
structure IcebergOptions where
  allowMovedPaths : Bool := false
  metadataCompressionCodec : String := "none"
  skipSchemaInference : Bool := false
  tableVersion : String := unknownTableVersion
  versionNameFormat : String := defaultTableVersionFormat
  snapshotSource : SnapshotSource := .latest
  snapshotId : ℕ := 0
  snapshotTimestamp : ℤ := 0

/-- `DConstants::INVALID_INDEX` -/
def invalidIndex : ℕ := 2 ^ 64 - 1

namespace IcebergUtils

/-- `IcebergUtils::FileToString` -/
def fileToString (ctx : ClientContext) (path : String) : Except Error String := ctx.readFile path

/-- `IcebergUtils::GzFileToString` -/
def gzFileToString (ctx : ClientContext) (path : String) : Except Error String := do
  let gzippedString ← fileToString ctx path
  ctx.uncompressGzip gzippedString

/-- `IcebergUtils::GetFullPath` -/
def getFullPath (ctx : ClientContext) (icebergPath relativeFilePath : String) :
    Except Error String :=
  match rfind relativeFilePath "/metadata/" with
  | some found => .ok (ctx.joinPath icebergPath (substrFrom relativeFilePath (found + 1)))
  | none =>
    match rfind relativeFilePath "/data/" with
    | some found => .ok (ctx.joinPath icebergPath (substrFrom relativeFilePath (found + 1)))
    | none => .error ⟨.io, "Did not recognize iceberg path"⟩

end IcebergUtils

/-! ### Snapshots -/

/-- `SnapshotParseInfo` -/
structure SnapshotParseInfo where
  snapshots : Option Json
  schemas : List Json
  icebergVersion : ℕ
  schemaId : ℕ

/-- `IcebergSnapshot`.  The numbers of a snapshot nobody has parsed are indeterminate, and not
looked at. -/
structure IcebergSnapshot where
  snapshotId : ℕ := 0
  sequenceNumber : ℕ := 0
  manifestList : String := ""
  timestampMs : ℤ := 0
  icebergFormatVersion : ℕ := 0
  schemaId : ℕ := 0
  schema : List IcebergColumnDefinition := []
  metadataCompressionCodec : String := "none"

namespace IcebergSnapshot

/-- `GetParseInfo` of a document -/
def getParseInfo (root : Json) : Except Error SnapshotParseInfo := do
  let icebergVersion ← tryGetNumFromObject (some root) "format-version"
  let snapshots := objGet (some root) "snapshots"
  if (objGet (some root) "current-schema-id").isSome then
    let schemaId ← tryGetNumFromObject (some root) "current-schema-id"
    return { snapshots, icebergVersion, schemaId, schemas := elems (objGet (some root) "schemas") }
  else
    match objGet (some root) "schema" with
    | none => throw ⟨.io, "Neither a valid schema or schemas field was found"⟩
    | some schema =>
      let foundSchemaId ← tryGetNumFromObject (some schema) "schema-id"
      return { snapshots, icebergVersion, schemaId := foundSchemaId, schemas := [schema] }

/-- `ReadMetaData` -/
def readMetaData (ctx : ClientContext) (path metadataCompressionCodec : String) :
    Except Error String :=
  if metadataCompressionCodec = "gzip" ∨ endsWith path "gz.metadata.json" then
    gzFileToString ctx path
  else fileToString ctx path

/-- `GetParseInfo` of a file -/
def getFileParseInfo (ctx : ClientContext) (path metadataCompressionCodec : String) :
    Except Error SnapshotParseInfo := do
  let metadataJson ← readMetaData ctx path metadataCompressionCodec
  match ctx.yyjsonRead metadataJson with
  | none => throw ⟨.invalidInput, "Fails to parse iceberg metadata from " ++ path⟩
  | some doc => getParseInfo doc

/-- The loop of `FindLatestSnapshotInternal` -/
def findLatest : List Json → ℕ → Option Json → Except Error (Option Json)
  | [], _, maxSnapshot => .ok maxSnapshot
  | snapshot :: snapshots, maxTimestamp, maxSnapshot => do
    let timestamp ← tryGetNumFromObject (some snapshot) "timestamp-ms"
    if maxTimestamp ≤ timestamp then findLatest snapshots timestamp (some snapshot)
    else findLatest snapshots maxTimestamp maxSnapshot

/-- `FindLatestSnapshotInternal` -/
def findLatestSnapshotInternal (snapshots : Option Json) : Except Error (Option Json) :=
  findLatest (elems snapshots) 0 none

/-- The loop of `FindSnapshotByIdInternal` -/
def findById (targetId : ℕ) : List Json → Except Error (Option Json)
  | [] => .ok none
  | snapshot :: snapshots => do
    let snapshotId ← tryGetNumFromObject (some snapshot) "snapshot-id"
    if snapshotId = targetId then return some snapshot
    else findById targetId snapshots

/-- `FindSnapshotByIdInternal` -/
def findSnapshotByIdInternal (snapshots : Option Json) (targetId : ℕ) :
    Except Error (Option Json) :=
  findById targetId (elems snapshots)

/-- The loop of `FindSnapshotByIdTimestampInternal`; the milliseconds of the timestamp are
compared as an unsigned number. -/
def findByTimestamp (timestampMillis : ℕ) :
    List Json → ℕ → Option Json → Except Error (Option Json)
  | [], _, maxSnapshot => .ok maxSnapshot
  | snapshot :: snapshots, maxMillis, maxSnapshot => do
    let currMillis ← tryGetNumFromObject (some snapshot) "timestamp-ms"
    if currMillis ≤ timestampMillis ∧ maxMillis ≤ currMillis then
      findByTimestamp timestampMillis snapshots currMillis (some snapshot)
    else findByTimestamp timestampMillis snapshots maxMillis maxSnapshot

/-- `FindSnapshotByIdTimestampInternal` -/
def findSnapshotByIdTimestampInternal (ctx : ClientContext) (snapshots : Option Json)
    (timestamp : ℤ) : Except Error (Option Json) :=
  findByTimestamp (ctx.getEpochMs timestamp % 2 ^ 64).toNat (elems snapshots) 0 none

/-- `ParseSnapShot` -/
def parseSnapShot (ctx : ClientContext) (snapshot : Option Json) (icebergFormatVersion schemaId : ℕ)
    (schemas : List Json) (options : IcebergOptions) : Except Error IcebergSnapshot := do
  let ret : IcebergSnapshot ←
    match snapshot with
    | some (.obj ms) => do
      let sequenceNumber ←
        if icebergFormatVersion = 2 then
          tryGetNumFromObject (some (.obj ms)) "sequence-number"
        else pure 0
      let snapshotId ← tryGetNumFromObject (some (.obj ms)) "snapshot-id"
      let timestampMs ← ctx.fromEpochMs (← tryGetNumFromObject (some (.obj ms)) "timestamp-ms")
      let manifestList ← tryGetStrFromObject (some (.obj ms)) "manifest-list"
      pure { snapshotId, sequenceNumber, timestampMs, manifestList,
             metadataCompressionCodec := options.metadataCompressionCodec }
    | some _ => throw ⟨.io, "Invalid snapshot field found parsing iceberg metadata.json"⟩
    | none => pure { snapshotId := invalidIndex }
  let schema ← if options.skipSchemaInference then pure [] else parseSchema schemaId schemas
  return { ret with icebergFormatVersion, schemaId, schema }

/-- `GetLatestSnapshot` -/
def getLatestSnapshot (ctx : ClientContext) (path : String) (options : IcebergOptions) :
    Except Error IcebergSnapshot := do
  let info ← getFileParseInfo ctx path options.metadataCompressionCodec
  let latestSnapshot ← findLatestSnapshotInternal info.snapshots
  parseSnapShot ctx latestSnapshot info.icebergVersion info.schemaId info.schemas options

/-- `GetSnapshotById` -/
def getSnapshotById (ctx : ClientContext) (path : String) (snapshotId : ℕ)
    (options : IcebergOptions) : Except Error IcebergSnapshot := do
  let info ← getFileParseInfo ctx path options.metadataCompressionCodec
  match ← findSnapshotByIdInternal info.snapshots snapshotId with
  | none => throw ⟨.io, "Could not find snapshot with id " ++ toString snapshotId⟩
  | some snapshot =>
    parseSnapShot ctx (some snapshot) info.icebergVersion info.schemaId info.schemas options

/-- `GetSnapshotByTimestamp` -/
def getSnapshotByTimestamp (ctx : ClientContext) (path : String) (timestamp : ℤ)
    (options : IcebergOptions) : Except Error IcebergSnapshot := do
  let info ← getFileParseInfo ctx path options.metadataCompressionCodec
  match ← findSnapshotByIdTimestampInternal ctx info.snapshots timestamp with
  | none =>
    throw ⟨.io, "Could not find latest snapshots for timestamp " ++ ctx.timestampToString timestamp⟩
  | some snapshot =>
    parseSnapShot ctx (some snapshot) info.icebergVersion info.schemaId info.schemas options

/-! ### The path of the metadata file -/

/-- The suffix of a file that is compressed by the codec of the options. -/
def compressionSuffix (options : IcebergOptions) : String :=
  if options.metadataCompressionCodec = "gzip" then ".gz" else ""

/-- The loop of `GenerateMetaDataUrl` -/
def generateUrl (ctx : ClientContext) (metaPath tableVersion : String) (options : IcebergOptions) :
    List String → Except Error String
  | [] => .error ⟨.io, "Iceberg metadata file not found for table version '" ++ tableVersion ++
      "' using '" ++ options.metadataCompressionCodec ++ "' compression and format(s): '" ++
      options.versionNameFormat ++ "'"⟩
  | tryFormat :: formats => do
    let url := ctx.joinPath metaPath
      (← ctx.format tryFormat tableVersion (compressionSuffix options))
    if ← ctx.fileExists url then return url
    else generateUrl ctx metaPath tableVersion options formats

/-- `GenerateMetaDataUrl` -/
def generateMetaDataUrl (ctx : ClientContext) (metaPath tableVersion : String)
    (options : IcebergOptions) : Except Error String :=
  generateUrl ctx metaPath tableVersion options (split options.versionNameFormat ',')

/-- `GetTableVersionFromHint` -/
def getTableVersionFromHint (ctx : ClientContext) (metaPath versionFile : String) :
    Except Error String :=
  fileToString ctx (ctx.joinPath metaPath versionFile)

/-- `PickTableVersion`: the greatest, and the empty string if there is none -/
def pickTableVersion (foundMetadata : List String) : String :=
  foundMetadata.foldl (fun a b => if a < b then b else a) ""

/-- The loop of `GuessTableVersion` -/
def guessVersion (ctx : ClientContext) (metaPath : String) (options : IcebergOptions) :
    List String → Except Error String
  | [] => .error ⟨.io, "Could not guess Iceberg table version using '" ++
      options.metadataCompressionCodec ++ "' compression and format(s): '" ++
      options.versionNameFormat ++ "'"⟩
  | tryFormat :: formats => do
    let globPattern ← ctx.format tryFormat "*" (compressionSuffix options)
    let foundVersions ← ctx.glob (ctx.joinPath metaPath globPattern)
    let selectedMetadata := pickTableVersion foundVersions
    if selectedMetadata ≠ "" then return selectedMetadata
    else guessVersion ctx metaPath options formats

/-- `GuessTableVersion` -/
def guessTableVersion (ctx : ClientContext) (metaPath : String) (options : IcebergOptions) :
    Except Error String :=
  guessVersion ctx metaPath options (split options.versionNameFormat ',')

/-- `GetMetaDataPath` -/
def getMetaDataPath (ctx : ClientContext) (path : String) (options : IcebergOptions) :
    Except Error String := do
  let metaPath := ctx.joinPath path "metadata"
  let tableVersion := options.tableVersion
  if endsWith path ".json" then
    return path
  if endsWith tableVersion ".text" ∨ endsWith tableVersion ".txt" then
    let versionHint ← getTableVersionFromHint ctx metaPath tableVersion
    return ← generateMetaDataUrl ctx metaPath versionHint options
  if tableVersion ≠ unknownTableVersion then
    return ← generateMetaDataUrl ctx metaPath tableVersion options
  if ← ctx.fileExists (ctx.joinPath metaPath defaultVersionHintFile) then
    let versionHint ← getTableVersionFromHint ctx metaPath defaultVersionHintFile
    return ← generateMetaDataUrl ctx metaPath versionHint options
  if ¬ ctx.unsafeVersionGuessing then
    throw ⟨.io, "Failed to read iceberg table. No version was provided and no version-hint could " ++
      "be found, globbing the filesystem to locate the latest version is disabled by default as " ++
      "this is considered unsafe and could result in reading uncommitted data. To enable this " ++
      "use 'SET unsafe_enable_version_guessing = true;'"⟩
  guessTableVersion ctx metaPath options

/-- The snapshot the options select: the `switch` of `InitializeFiles` -/
def select (ctx : ClientContext) (icebergMetaPath : String) (options : IcebergOptions) :
    Except Error IcebergSnapshot :=
  match options.snapshotSource with
  | .latest => getLatestSnapshot ctx icebergMetaPath options
  | .fromId => getSnapshotById ctx icebergMetaPath options.snapshotId options
  | .fromTimestamp => getSnapshotByTimestamp ctx icebergMetaPath options.snapshotTimestamp options

end IcebergSnapshot

end DuckIceberg
