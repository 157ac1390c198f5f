import DuckIceberg.ScanInto

/-!
# The eager loader

`IcebergTable::Load` reads the manifest list of a snapshot and all of its manifests.  It is what
`iceberg_metadata` lists.
-/

namespace DuckIceberg

open ManifestReader

/-- `IcebergTableEntry` -/
structure IcebergTableEntry where
  manifest : IcebergManifest
  manifestEntries : List IcebergManifestEntry
  deriving DecidableEq, Repr

/-- `IcebergTable` -/
structure IcebergTable where
  path : String
  snapshot : IcebergSnapshot
  entries : List IcebergTableEntry

/-- `ScanAvroMetadata` of the file under this path, whose reader skips nothing -/
def scanAvroMetadata {α : Type} (ctx : ClientContext) (op : ManifestFormat α) (icebergPath : String)
    (options : IcebergOptions) (path : String) : Except Error (List α) :=
  match scanInto ctx icebergPath options op (make op) path [] with
  | (.error e, _, _) => .error e
  | (.ok _, _, ret) => .ok ret

/-- `ReadManifestEntries` -/
def readManifestEntries (ctx : ClientContext) (op : ManifestFormat IcebergManifestEntry)
    (icebergPath : String) (options : IcebergOptions) :
    List IcebergManifest → Except Error (List IcebergTableEntry)
  | [] => .ok []
  | manifest :: manifests => do
    let manifestEntries ← scanAvroMetadata ctx op icebergPath options manifest.manifestPath
    let result ← readManifestEntries ctx op icebergPath options manifests
    return ⟨manifest, manifestEntries⟩ :: result

namespace IcebergTable

/-- `IcebergTable::Load`.  The full path of the manifest list is made before the version is looked
at. -/
def load (ctx : ClientContext) (icebergPath : String) (snapshot : IcebergSnapshot)
    (options : IcebergOptions) : Except Error IcebergTable := do
  let _ ← fullPath ctx icebergPath options snapshot.manifestList
  match formats snapshot.icebergFormatVersion with
  | none =>
    throw ⟨.invalidInput, "iceberg_format_version " ++ toString snapshot.icebergFormatVersion ++
      " not handled"⟩
  | some (manifestOp, entryOp) =>
    let manifests ← scanAvroMetadata ctx manifestOp icebergPath options snapshot.manifestList
    let entries ← readManifestEntries ctx entryOp icebergPath options manifests
    return ⟨icebergPath, snapshot, entries⟩

/-- `GetPaths` -/
def getPaths (type : IcebergManifestContentType) (t : IcebergTable) : List String :=
  (t.entries.filter (·.manifest.content == type)).flatMap fun entry =>
    (entry.manifestEntries.filter IcebergManifestEntry.live).map (·.filePath)

end IcebergTable

end DuckIceberg
