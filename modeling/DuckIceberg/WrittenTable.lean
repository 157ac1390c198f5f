import DuckIceberg.Lib.Pieces
import DuckIceberg.SchemaTypes
import DuckIceberg.SnapshotSelection
import DuckIceberg.TableScan

/-!
# Tables as they are written

A table with its snapshots, their manifests and the files that these name, and what its files say when
they are written in format version 2: the metadata file encodes the schemas and the snapshots, and the
Avro and Parquet files deliver the entries, the positions and the rows in vectors.

* `WrittenTable.rowsAt`: the rows of a snapshot, by the positions that its delete files name;
* `WrittenTable.Stored`: the files that a session sees are those of the table;
* `Stored.recorded`: what they record for the snapshot that the options select, which can be read and
  holds its contents.
-/

namespace DuckIceberg

open Strings Json IcebergUtils Stride ManifestReader LastMax

/-! ### Tables -/

/-- The manifests of a snapshot, with their entries. -/
abbrev WrittenManifests := List (IcebergManifest × List IcebergManifestEntry)

/-- The live entries of the manifests with such a content. -/
def WrittenManifests.live (ms : WrittenManifests) (content : IcebergManifestContentType → Bool) :
    List IcebergManifestEntry :=
  (ms.filter fun m => content m.1.content).flatMap fun m => m.2.filter IcebergManifestEntry.live

/-- The live data files. -/
def WrittenManifests.dataFiles (ms : WrittenManifests) : List IcebergManifestEntry :=
  ms.live (· == .data)

/-- The live delete files. -/
def WrittenManifests.deleteFiles (ms : WrittenManifests) : List IcebergManifestEntry :=
  ms.live (· != .data)

/-- A snapshot. -/
structure WrittenSnapshot where
  snapshotId : ℕ
  sequenceNumber : ℕ
  timestampMs : ℕ
  manifestList : String
  manifests : WrittenManifests

/-- The rows of a data file in the vectors they are read in, each with its number in the file. -/
def numberedFrom {α : Type} : ℕ → List (List α) → List (List (α × ℕ))
  | _, [] => []
  | n, chunk :: chunks => chunk.zipIdx n :: numberedFrom (n + chunk.length) chunks

theorem flatten_numberedFrom {α : Type} (n : ℕ) (chunks : List (List α)) :
    (numberedFrom n chunks).flatten = chunks.flatten.zipIdx n := by
  induction chunks generalizing n with
  | nil => rfl
  | cons chunk chunks ih =>
    rw [numberedFrom, List.flatten_cons, ih, List.flatten_cons, List.zipIdx_append]

/-- A vector of the pairs of a position delete file. -/
abbrev Positions := {pairs : List (String × ℤ) // Deliverable pairs}

/-- A file of position deletes in these vectors. -/
def positionScan (chunks : List Positions) : ParquetScan where
  returnTypes := [.simple .varchar, .simple .bigint]
  stream := chunks.map fun ps =>
    .ok ⟨[.varchar (ps.1.map Prod.fst), .int64 (ps.1.map Prod.snd)], ps.1.length, ps.2.1, ps.2.2⟩

/-- A table: its schemas, the columns its files are partitioned by, its snapshots, and its delete files
and data files by their paths. -/
structure WrittenTable (α : Type) where
  schemas : List IcebergSchema
  currentSchema : IcebergSchema
  partition : List (String × LogicalType)
  snapshots : List WrittenSnapshot
  deleteFiles : List (String × List Positions)
  dataFiles : List (String × List (List α))

namespace WrittenTable

variable {α : Type}

/-- The positions in a delete file. -/
def positionsIn (w : WrittenTable α) (path : String) : List (String × ℤ) :=
  ((w.deleteFiles.lookup path).getD []).flatMap Subtype.val

/-- The vectors of a data file. -/
def chunksIn (w : WrittenTable α) (path : String) : List (List α) :=
  (w.dataFiles.lookup path).getD []

/-- The positions that the delete files name. -/
def deletedIn (w : WrittenTable α) (ms : WrittenManifests) : List (String × ℤ) :=
  ms.deleteFiles.flatMap fun e => w.positionsIn e.filePath

/-- The rows of the data files, without those at a position that is deleted. -/
def rowsIn (w : WrittenTable α) (ms : WrittenManifests) : List α :=
  ms.dataFiles.flatMap fun e =>
    ((w.chunksIn e.filePath).flatten.zipIdx.filter fun x =>
      !(w.deletedIn ms).contains (e.filePath, (x.2 : ℤ))).map Prod.fst

/-- The manifests of the snapshot, and none without a snapshot. -/
def manifestsOf (o : Option WrittenSnapshot) : WrittenManifests :=
  o.elim [] WrittenSnapshot.manifests

/-- **The rows of the table** at a snapshot. -/
def rowsAt (w : WrittenTable α) (o : Option WrittenSnapshot) : List α := w.rowsIn (manifestsOf o)

/-- The snapshot that the options ask for: the latest, the one with an id, or the one that was current
at a time.  Of the snapshots made at one time it is the last, and a table without snapshots has no
latest. -/
def Selected (w : WrittenTable α) (options : IcebergOptions) (o : Option WrittenSnapshot) : Prop :=
  match options.snapshotSource with
  | .latest => IsLastMax WrittenSnapshot.timestampMs w.snapshots o
  | .fromId => ∃ s ∈ w.snapshots, s.snapshotId = options.snapshotId ∧ o = some s
  | .fromTimestamp => ∃ ts : ℕ, options.snapshotTimestamp = ts ∧ ts < 2 ^ 63 ∧ o.isSome = true ∧
      IsLastMax WrittenSnapshot.timestampMs (w.snapshots.filter (·.timestampMs * 1000 ≤ ts)) o

/-! ### Well-formed tables -/

/-- The manifests of a snapshot of the table: no manifest is listed twice, what they say can be written,
a delete manifest with more entries than a vector has only live ones, all deletes are positions, the
files they name are there, and a position names a data file in its own letters. -/
structure ManifestsValid (w : WrittenTable α) (ms : WrittenManifests) : Prop where
  distinct : (ms.map Prod.fst).Nodup
  manifests : ∀ m ∈ ms, m.1.Writable
  entries : ∀ m ∈ ms, ∀ e ∈ m.2, e.Writable
  offered : ∀ m ∈ ms, m.1.content ≠ .data →
    m.2.length ≤ standardVectorSize ∨ ∀ e ∈ m.2, e.live = true
  positions : ∀ e ∈ ms.deleteFiles, e.content = .positionDeletes
  deleteFiles : ∀ e ∈ ms.deleteFiles, (w.deleteFiles.lookup e.filePath).isSome = true
  dataFiles : ∀ e ∈ ms.dataFiles, (w.dataFiles.lookup e.filePath).isSome = true
  letters : ∀ e ∈ ms.dataFiles, ∀ p ∈ w.deletedIn ms, ciEquals p.1 e.filePath → p.1 = e.filePath
  fewFiles : ms.dataFiles.length < 2 ^ 63

/-- The table can be written. -/
structure Valid (w : WrittenTable α) : Prop where
  schema : w.schemas.find? (IcebergSchema.hasId (Json.int w.currentSchema.schemaId).getUInt) =
    some w.currentSchema
  partition : Apart w.partition
  ids : (w.snapshots.map WrittenSnapshot.snapshotId).Nodup
  idRange : ∀ s ∈ w.snapshots, s.snapshotId < invalidIndex
  times : ∀ s ∈ w.snapshots, s.timestampMs * 1000 < 2 ^ 63
  lists : ∀ s ∈ w.snapshots, '\x00' ∉ s.manifestList.toList
  manifests : ∀ s ∈ w.snapshots, w.ManifestsValid s.manifests

/-! ### The files of a table -/

end WrittenTable

/-- The value encodes this snapshot.  It may have other members, in any order. -/
def WrittenSnapshot.Encodes (s : WrittenSnapshot) (v : Json) : Prop :=
  ∃ members, v = .obj members ∧ member "snapshot-id" members = some (.int s.snapshotId) ∧
    member "sequence-number" members = some (.int s.sequenceNumber) ∧
    member "timestamp-ms" members = some (.int s.timestampMs) ∧
    member "manifest-list" members = some (.str s.manifestList)

namespace WrittenTable

variable {α : Type}

/-- The document encodes the schemas and the snapshots of the table. -/
def Encodes (w : WrittenTable α) (doc : Json) : Prop :=
  ∃ members schemas snapshots, doc = .obj members ∧
    member "format-version" members = some (.int 2) ∧
    member "current-schema-id" members = some (.int w.currentSchema.schemaId) ∧
    member "schemas" members = some (.arr schemas) ∧
    List.Forall₂ IcebergSchema.Encodes w.schemas schemas ∧
    member "snapshots" members = some (.arr snapshots) ∧
    List.Forall₂ WrittenSnapshot.Encodes w.snapshots snapshots

/-- The session finds the table under the path: its metadata file, and the files of all its snapshots
under the paths that name them. -/
structure Stored (w : WrittenTable α) (ctx : ClientContext) (path : String)
    (options : IcebergOptions) (files : IcebergMultiFileList.DataFileScan (α × ℕ)) : Prop where
  clock : SnapshotsState.Clock ctx
  metadata : ∃ metaPath text doc, IcebergSnapshot.getMetaDataPath ctx path options = .ok metaPath ∧
    IcebergSnapshot.readMetaData ctx metaPath options.metadataCompressionCodec = .ok text ∧
    ctx.yyjsonRead text = some doc ∧ w.Encodes doc
  lists : ∀ s ∈ w.snapshots, openAvro ctx path options s.manifestList =
    .ok (manifestScan (cutEvery standardVectorSize (s.manifests.map Prod.fst)))
  manifests : ∀ s ∈ w.snapshots, ∀ m ∈ s.manifests, openAvro ctx path options m.1.manifestPath =
    .ok (entryScan w.partition (cutEvery standardVectorSize m.2))
  deleteFiles : ∀ file chunks, w.deleteFiles.lookup file = some chunks →
    ctx.parquetScan file = .ok (positionScan chunks)
  dataFiles : ∀ file chunks, w.dataFiles.lookup file = some chunks →
    ∃ p, fullPath ctx path options file = .ok p ∧ p ≠ "" ∧
      files.chunks p = .ok (numberedFrom 0 chunks)
  rowIds : ∀ x, files.rowId x = (x.2 : ℤ)

/-! ### The snapshot that is selected -/

variable {w : WrittenTable α} {ctx : ClientContext} {path : String}
  {options : IcebergOptions} {files : IcebergMultiFileList.DataFileScan (α × ℕ)}

/-- The columns that a snapshot is parsed with. -/
def columns (w : WrittenTable α) (options : IcebergOptions) : List IcebergColumnDefinition :=
  if options.skipSchemaInference then [] else w.currentSchema.fields.map IcebergField.column

/-- The number that the id of the current schema is read as. -/
def schemaId (w : WrittenTable α) : ℕ := (Json.int w.currentSchema.schemaId).getUInt

/-- What the encoding of the snapshot is parsed as. -/
def parsed (w : WrittenTable α) (options : IcebergOptions) :
    Option WrittenSnapshot → IcebergSnapshot
  | none =>
    { snapshotId := invalidIndex, icebergFormatVersion := 2, schemaId := w.schemaId
      schema := w.columns options }
  | some s =>
    { snapshotId := s.snapshotId
      sequenceNumber := (Json.int s.sequenceNumber).getUInt
      timestampMs := (s.timestampMs * 1000 : ℕ)
      manifestList := s.manifestList
      metadataCompressionCodec := options.metadataCompressionCodec
      icebergFormatVersion := 2, schemaId := w.schemaId, schema := w.columns options }

theorem getUInt_natCast {n : ℕ} (h : n < 2 ^ 64) : (Json.int n).getUInt = n := by
  rw [getUInt]
  omega

theorem tryGetNum_of_member {members : List (String × Json)} {field : String} {n : ℤ}
    (h : member field members = some (.int n)) :
    tryGetNumFromObject (some (.obj members)) field = .ok (Json.int n).getUInt := by
  rw [tryGetNumFromObject, objGet, h]

/-- What is read of the value that encodes a snapshot. -/
structure Reads (w : WrittenTable α) (ctx : ClientContext) (options : IcebergOptions)
    (schemas : List Json) (s : WrittenSnapshot) (v : Json) : Prop where
  hasId : tryGetNumFromObject (some v) "snapshot-id" = .ok s.snapshotId
  hasTime : tryGetNumFromObject (some v) "timestamp-ms" = .ok s.timestampMs
  parses : IcebergSnapshot.parseSnapShot ctx (some v) 2 w.schemaId schemas options =
    .ok (w.parsed options (some s))

theorem Reads.id_eq {schemas : List Json} {s : WrittenSnapshot} {v : Json}
    (h : w.Reads ctx options schemas s v) : num "snapshot-id" v = s.snapshotId :=
  num_of_ok h.hasId

theorem Reads.time_eq {schemas : List Json} {s : WrittenSnapshot} {v : Json}
    (h : w.Reads ctx options schemas s v) : num "timestamp-ms" v = s.timestampMs :=
  num_of_ok h.hasTime

/-- The columns of the current schema are read. -/
theorem parseSchema_current (hw : w.Valid) {schemas : List Json}
    (hschemas : List.Forall₂ IcebergSchema.Encodes w.schemas schemas) :
    parseSchema w.schemaId schemas = .ok (w.currentSchema.fields.map IcebergField.column) :=
  IcebergSchema.parseSchema_of_encodes hschemas _ hw.schema

/-- **A snapshot that is written is read.** -/
theorem reads_of_encodes (hw : w.Valid) (hclock : SnapshotsState.Clock ctx) {schemas : List Json}
    (hschemas : List.Forall₂ IcebergSchema.Encodes w.schemas schemas) {s : WrittenSnapshot}
    (hs : s ∈ w.snapshots) {v : Json} (hv : s.Encodes v) : w.Reads ctx options schemas s v := by
  obtain ⟨members, rfl, hid, hsequence, htime, hlist⟩ := hv
  have hidRange := hw.idRange s hs
  have htimeRange := hw.times s hs
  have hid' : tryGetNumFromObject (some (.obj members)) "snapshot-id" = .ok s.snapshotId := by
    rw [tryGetNum_of_member hid, getUInt_natCast (by rw [invalidIndex] at hidRange; omega)]
  have htime' : tryGetNumFromObject (some (.obj members)) "timestamp-ms" =
      .ok s.timestampMs := by
    rw [tryGetNum_of_member htime, getUInt_natCast (by omega)]
  have hlist' : tryGetStrFromObject (some (.obj members)) "manifest-list" =
      .ok s.manifestList := by
    rw [tryGetStr_of_member hlist, cString_of_notMem (hw.lists s hs)]
  refine ⟨hid', htime', ?_⟩
  unfold IcebergSnapshot.parseSnapShot parsed columns
  simp only [tryGetNum_of_member hsequence, hid', htime', hlist', hclock.fromEpochMs _ htimeRange,
    parseSchema_current hw hschemas, bind, Except.bind, pure, Except.pure, if_true]
  split_ifs <;> rfl

theorem forall₂_reads (hw : w.Valid) (hclock : SnapshotsState.Clock ctx)
    {schemas snapshots : List Json}
    (hschemas : List.Forall₂ IcebergSchema.Encodes w.schemas schemas)
    (h : List.Forall₂ WrittenSnapshot.Encodes w.snapshots snapshots) :
    List.Forall₂ (w.Reads ctx options schemas) w.snapshots snapshots := by
  have hall : ∀ s ∈ w.snapshots, ∀ v, s.Encodes v → w.Reads ctx options schemas s v :=
    fun s hs v hv => reads_of_encodes hw hclock hschemas hs hv
  generalize w.snapshots = l at h hall
  induction h with
  | nil => exact .nil
  | cons hv _ ih =>
    obtain ⟨hhead, htail⟩ := List.forall_mem_cons.1 hall
    exact .cons (hhead _ hv) (ih htail)

/-- A table without snapshots is read as one without files. -/
theorem parseSnapShot_none (hw : w.Valid) {schemas : List Json}
    (hschemas : List.Forall₂ IcebergSchema.Encodes w.schemas schemas) :
    IcebergSnapshot.parseSnapShot ctx none 2 w.schemaId schemas options =
      .ok (w.parsed options none) := by
  unfold IcebergSnapshot.parseSnapShot parsed columns
  simp only [parseSchema_current hw hschemas, bind, Except.bind, pure, Except.pure]
  split_ifs <;> rfl

/-- The parts of the document. -/
theorem getParseInfo_of_encodes {doc : Json} (h : w.Encodes doc) :
    ∃ schemas snapshots, IcebergSnapshot.getParseInfo doc =
        .ok ⟨some (.arr snapshots), schemas, 2, w.schemaId⟩ ∧
      List.Forall₂ IcebergSchema.Encodes w.schemas schemas ∧
      List.Forall₂ WrittenSnapshot.Encodes w.snapshots snapshots := by
  obtain ⟨members, schemas, snapshots, rfl, hversion, hcurrent, harr, hschemas, hlist, hsnapshots⟩ :=
    h
  refine ⟨schemas, snapshots, ?_, hschemas, hsnapshots⟩
  unfold IcebergSnapshot.getParseInfo
  simp only [tryGetNum_of_member hversion, tryGetNum_of_member hcurrent, objGet, harr, hlist,
    hcurrent, elems, bind, Except.bind, pure, Except.pure, Option.isSome_some, if_true]
  rfl

theorem exists_of_mem_forall₂ {β γ : Type} {R : β → γ → Prop} {l : List β} {l' : List γ}
    (h : List.Forall₂ R l l') {x : β} (hx : x ∈ l) : ∃ y ∈ l', R x y := by
  induction h with
  | nil => cases hx
  | @cons x' y l l' hxy _ ih =>
    rcases List.mem_cons.1 hx with rfl | hx
    · exact ⟨y, List.mem_cons_self, hxy⟩
    · obtain ⟨z, hz, hxz⟩ := ih hx
      exact ⟨z, List.mem_cons_of_mem _ hz, hxz⟩

section Searches

variable {schemas snapshots : List Json} {o : Option WrittenSnapshot}

theorem hasTimes (h : List.Forall₂ (w.Reads ctx options schemas) w.snapshots snapshots) :
    ∀ v ∈ snapshots, IcebergSnapshot.HasNum "timestamp-ms" v := by
  intro v hv
  obtain ⟨s, -, hsv⟩ := exists_of_mem_forall₂ h.flip hv
  exact ⟨_, hsv.hasTime⟩

/-- The latest snapshot is found. -/
theorem findLatest_reads (h : List.Forall₂ (w.Reads ctx options schemas) w.snapshots snapshots)
    (ho : IsLastMax WrittenSnapshot.timestampMs w.snapshots o) :
    ∃ v, IcebergSnapshot.findLatest snapshots 0 none = .ok v ∧
      Option.Rel (w.Reads ctx options schemas) o v := by
  refine ⟨_, IcebergSnapshot.findLatest_eq (hasTimes h) 0 none, ?_⟩
  rw [← ho.eq_lastMax]
  exact lastMax_forall₂ (fun s v hsv => hsv.time_eq.symm) h

/-- The snapshot that was current is found. -/
theorem findByTimestamp_reads
    (h : List.Forall₂ (w.Reads ctx options schemas) w.snapshots snapshots) {ms : ℕ}
    (ho : IsLastMax WrittenSnapshot.timestampMs (w.snapshots.filter (·.timestampMs ≤ ms)) o) :
    ∃ v, IcebergSnapshot.findByTimestamp ms snapshots 0 none = .ok v ∧
      Option.Rel (w.Reads ctx options schemas) o v := by
  refine ⟨_, IcebergSnapshot.findByTimestamp_eq (hasTimes h) ms 0 none, ?_⟩
  rw [← ho.eq_lastMax]
  refine lastMax_forall₂ (fun s v hsv => hsv.time_eq.symm) (List.rel_filter ?_ h)
  intro s v hsv
  simp only [decide_eq_true_eq, hsv.time_eq]

/-- The snapshot with the id is found. -/
theorem findById_reads (hw : w.Valid)
    (h : List.Forall₂ (w.Reads ctx options schemas) w.snapshots snapshots) {s : WrittenSnapshot}
    (hs : s ∈ w.snapshots) :
    ∃ v, IcebergSnapshot.findById s.snapshotId snapshots = .ok (some v) ∧
      w.Reads ctx options schemas s v := by
  have hids : snapshots.map (num "snapshot-id") = w.snapshots.map WrittenSnapshot.snapshotId := by
    clear hs
    generalize w.snapshots = l at h
    induction h with
    | nil => rfl
    | cons hsv _ ih => rw [List.map_cons, List.map_cons, hsv.id_eq, ih]
  have hnums : ∀ v ∈ snapshots, IcebergSnapshot.HasNum "snapshot-id" v := by
    intro v hv
    obtain ⟨s', -, hsv⟩ := exists_of_mem_forall₂ h.flip hv
    exact ⟨_, hsv.hasId⟩
  obtain ⟨v, hv, hsv⟩ := exists_of_mem_forall₂ h hs
  refine ⟨v, ?_, hsv⟩
  rw [← hsv.id_eq]
  exact IcebergSnapshot.findById_eq hnums (hids ▸ hw.ids) hv

end Searches

/-- What a search of the snapshots has found is parsed. -/
theorem parses_found (hw : w.Valid) {schemas : List Json}
    (hschemas : List.Forall₂ IcebergSchema.Encodes w.schemas schemas)
    {o : Option WrittenSnapshot} {v : Option Json}
    (h : Option.Rel (w.Reads ctx options schemas) o v) :
    IcebergSnapshot.parseSnapShot ctx v 2 w.schemaId schemas options = .ok (w.parsed options o) := by
  cases h with
  | none => exact parseSnapShot_none hw hschemas
  | some hsv => exact hsv.parses

/-- **The options select** the snapshot that they ask for. -/
theorem Stored.selects (h : w.Stored ctx path options files) (hw : w.Valid)
    {o : Option WrittenSnapshot} (ho : w.Selected options o) :
    IcebergMultiFileList.Selects ctx path options (w.parsed options o) := by
  obtain ⟨metaPath, text, doc, hpath, hread, hdoc, hencodes⟩ := h.metadata
  obtain ⟨schemas, snapshots, hinfo, hschemas, hsnapshots⟩ := getParseInfo_of_encodes hencodes
  have hfile : IcebergSnapshot.getFileParseInfo ctx metaPath options.metadataCompressionCodec =
      .ok ⟨some (.arr snapshots), schemas, 2, w.schemaId⟩ := by
    unfold IcebergSnapshot.getFileParseInfo
    simp only [hread, bind, Except.bind, hdoc]
    exact hinfo
  have hreads : List.Forall₂ (w.Reads ctx options schemas) w.snapshots snapshots :=
    forall₂_reads hw h.clock hschemas hsnapshots
  refine ⟨metaPath, hpath, ?_⟩
  unfold Selected at ho
  unfold IcebergSnapshot.select
  cases hsource : options.snapshotSource with
  | latest =>
    rw [hsource] at ho
    obtain ⟨v, hfind, hv⟩ := findLatest_reads hreads ho
    dsimp only
    unfold IcebergSnapshot.getLatestSnapshot IcebergSnapshot.findLatestSnapshotInternal
    simp only [hfile, bind, Except.bind, elems, hfind]
    exact parses_found hw hschemas hv
  | fromId =>
    rw [hsource] at ho
    obtain ⟨s, hs, hid, rfl⟩ := ho
    obtain ⟨v, hfind, hv⟩ := findById_reads hw hreads hs
    dsimp only
    unfold IcebergSnapshot.getSnapshotById IcebergSnapshot.findSnapshotByIdInternal
    rw [hid] at hfind
    simp only [hfile, bind, Except.bind, elems, hfind]
    exact hv.parses
  | fromTimestamp =>
    rw [hsource] at ho
    obtain ⟨ts, hts, hrange, hsome, hlast⟩ := ho
    have hmillis : (ctx.getEpochMs options.snapshotTimestamp % 2 ^ 64).toNat = ts / 1000 := by
      rw [hts, h.clock.getEpochMs ts hrange]
      omega
    have hfilter : (w.snapshots.filter (·.timestampMs * 1000 ≤ ts)) =
        w.snapshots.filter (·.timestampMs ≤ ts / 1000) := by
      refine List.filter_congr fun s _ => ?_
      rw [decide_eq_decide]
      omega
    rw [hfilter] at hlast
    obtain ⟨v, hfind, hv⟩ := findByTimestamp_reads hreads hlast
    dsimp only
    unfold IcebergSnapshot.getSnapshotByTimestamp IcebergSnapshot.findSnapshotByIdTimestampInternal
    rw [← hmillis] at hfind
    simp only [hfile, bind, Except.bind, elems, hfind]
    cases hv with
    | none => cases hsome
    | some hsv => exact hsv.parses

/-! ### What the files record -/

open IcebergMultiFileList

/-- The deliveries of a list of entries or of manifests. -/
abbrev vectors {β : Type} (l : List β) : List (List β) := cutEvery standardVectorSize l

theorem flatten_vectors {β : Type} (l : List β) : (vectors l).flatten = l :=
  flatten_cutEvery standardVectorSize_pos l

theorem deliverable_vectors {β : Type} {l es : List β} (h : es ∈ vectors l) : Deliverable es :=
  length_of_mem_cutEvery standardVectorSize_pos h

theorem mem_of_mem_vectors {β : Type} {l es : List β} (h : es ∈ vectors l) {e : β} (he : e ∈ es) :
    e ∈ l :=
  mem_of_mem_cutEvery standardVectorSize_pos h he

theorem mem_snapshots_of_selected {s : WrittenSnapshot} (h : w.Selected options (some s)) :
    s ∈ w.snapshots := by
  unfold Selected at h
  split at h
  · obtain ⟨-, pre, post, hl, -⟩ := h
    rw [hl]
    exact List.mem_append_right _ List.mem_cons_self
  · obtain ⟨s', hs', -, heq⟩ := h
    rw [Option.some.inj heq]
    exact hs'
  · obtain ⟨ts, -, -, -, -, pre, post, hl, -⟩ := h
    refine List.mem_of_mem_filter (p := fun s => decide (s.timestampMs * 1000 ≤ ts)) ?_
    rw [hl]
    exact List.mem_append_right _ List.mem_cons_self

/-- The manifests without a snapshot. -/
theorem manifestsValid_nil (w : WrittenTable α) : w.ManifestsValid [] where
  distinct := List.nodup_nil
  manifests := List.forall_mem_nil _
  entries := List.forall_mem_nil _
  offered := List.forall_mem_nil _
  positions := List.forall_mem_nil _
  deleteFiles := List.forall_mem_nil _
  dataFiles := List.forall_mem_nil _
  letters := List.forall_mem_nil _
  fewFiles := by decide

theorem Valid.manifestsOf (hw : w.Valid) {o : Option WrittenSnapshot} (ho : w.Selected options o) :
    w.ManifestsValid (manifestsOf o) := by
  cases o with
  | none => exact manifestsValid_nil w
  | some s => exact hw.manifests s (mem_snapshots_of_selected ho)

/-- The manifest list of the snapshot that is selected. -/
theorem Stored.manifestListIs (h : w.Stored ctx path options files) (hw : w.Valid)
    {o : Option WrittenSnapshot} (ho : w.Selected options o) :
    ManifestListIs ctx path options icebergManifestV2 (w.parsed options o)
      (vectors ((WrittenTable.manifestsOf o).map Prod.fst)) := by
  cases o with
  | none => exact Or.inl ⟨rfl, rfl⟩
  | some s =>
    have hs := mem_snapshots_of_selected ho
    have hid : (w.parsed options (some s)).snapshotId ≠ invalidIndex := (hw.idRange s hs).ne
    refine Or.inr ⟨hid, _, h.lists s hs, ?_⟩
    refine manifestScan_readable (fun ms hms => deliverable_vectors hms) fun ms hms m hm => ?_
    obtain ⟨m, hmem, rfl⟩ := List.mem_map.1 (mem_of_mem_vectors hms hm)
    exact (hw.manifests s hs).manifests m hmem

/-- What the files record of the snapshot that is selected. -/
def Stored.recorded (h : w.Stored ctx path options files) (hw : w.Valid)
    (o : Option WrittenSnapshot) (ho : w.Selected options o) : Recorded ctx path options where
  snapshot := w.parsed options o
  manifestOp := icebergManifestV2
  entryOp := icebergManifestEntryV2
  chunks := vectors ((WrittenTable.manifestsOf o).map Prod.fst)
  entries m := vectors (((WrittenTable.manifestsOf o).lookup m).getD [])
  types _ := (entryColumns w.partition).map Prod.snd
  selects := h.selects hw ho
  supported := by cases o <;> rfl
  manifestList := h.manifestListIs hw ho

section Recorded

variable (h : w.Stored ctx path options files) (hw : w.Valid) {o : Option WrittenSnapshot}
  (ho : w.Selected options o)

theorem recorded_entries {m : IcebergManifest × List IcebergManifestEntry}
    (hm : m ∈ WrittenTable.manifestsOf o) :
    (h.recorded hw o ho).entries m.1 = vectors m.2 := by
  have hlookup := TableFiles.lookup_of_mem (hw.manifestsOf ho).distinct (k := m.1) (a := m.2) hm
  show vectors (((WrittenTable.manifestsOf o).lookup m.1).getD []) = _
  rw [hlookup, Option.getD_some]

theorem mem_manifestsOf {m : IcebergManifest}
    (hm : m ∈ (h.recorded hw o ho).chunks.flatten) :
    ∃ es, (m, es) ∈ WrittenTable.manifestsOf o := by
  have hm' : m ∈ (WrittenTable.manifestsOf o).map Prod.fst := by
    rw [← flatten_vectors ((WrittenTable.manifestsOf o).map Prod.fst)]
    exact hm
  obtain ⟨⟨m, es⟩, hmem, rfl⟩ := List.mem_map.1 hm'
  exact ⟨es, hmem⟩

/-- The live entries of the manifests with a content. -/
theorem recorded_live (content : IcebergManifestContentType → Bool) :
    (h.recorded hw o ho).live ((h.recorded hw o ho).chunks.flatten.filter fun m =>
      content m.content) = (WrittenTable.manifestsOf o).live content := by
  have hflat : (h.recorded hw o ho).chunks.flatten = (WrittenTable.manifestsOf o).map Prod.fst :=
    flatten_vectors _
  rw [hflat, List.filter_map, Recorded.live, List.flatMap_map, WrittenManifests.live]
  refine List.flatMap_congr fun m hm => ?_
  rw [recorded_entries h hw ho (List.mem_of_mem_filter hm), flatten_vectors]

theorem recorded_dataFiles :
    (h.recorded hw o ho).dataFiles = (WrittenTable.manifestsOf o).dataFiles :=
  recorded_live h hw ho (· == .data)

theorem recorded_deleteFiles :
    (h.recorded hw o ho).live (h.recorded hw o ho).deleteManifests =
      (WrittenTable.manifestsOf o).deleteFiles :=
  recorded_live h hw ho (· != .data)

/-- Every manifest of the snapshot can be read. -/
theorem recorded_opens {m : IcebergManifest} (hm : m ∈ (h.recorded hw o ho).chunks.flatten) :
    (h.recorded hw o ho).Opens m := by
  obtain ⟨es, hmem⟩ := mem_manifestsOf h hw ho hm
  have hopen : openAvro ctx path options m.manifestPath =
      .ok (entryScan w.partition (vectors es)) := by
    cases o with
    | none => cases hmem
    | some s => exact h.manifests s (mem_snapshots_of_selected ho) _ hmem
  refine ⟨_, hopen, rfl, ?_⟩
  rw [recorded_entries h hw ho hmem]
  exact entryScan_readable hw.partition (fun es' hes => deliverable_vectors hes)
    fun es' hes e he => (hw.manifestsOf ho).entries _ hmem e (mem_of_mem_vectors hes he)

/-- No manifest is passed over. -/
theorem recorded_passedOver : (h.recorded hw o ho).passedOver = [] :=
  lost_cutEvery (Or.inr fun _ _ => rfl)

/-- **The files can be read**, and nothing is lost of them. -/
theorem recorded_readable : (h.recorded hw o ho).Readable where
  opens m hm := recorded_opens h hw ho (List.mem_of_mem_filter hm)
  layout _ _ _ _ := rfl
  listed := by
    rw [recorded_passedOver]
    exact List.forall_mem_nil _
  listedDeletes := by
    rw [recorded_passedOver]
    exact List.forall_mem_nil _
  delivered := delivered_of_opens
    (fun m hm => recorded_opens h hw ho (mem_flatten_of_mem_keptDeletes hm)) fun _ _ _ _ => rfl
  offered m hm := by
    obtain ⟨es, hmem⟩ := mem_manifestsOf h hw ho (mem_flatten_of_mem_keptDeletes hm)
    have hcontent : m.content ≠ .data := by
      have := (List.mem_filter.1 hm).2
      simpa using this
    have hlost : lost standardVectorSize IcebergManifestEntry.live 0 (vectors es) = [] :=
      lost_cutEvery ((hw.manifestsOf ho).offered _ hmem hcontent)
    have hnone : ∀ e ∈ lost standardVectorSize IcebergManifestEntry.live 0 (vectors es),
        e.live = false := by
      rw [hlost]
      exact List.forall_mem_nil _
    have hall := (lost_live_iff 0 standardVectorSize_pos (vectors es)).1 hnone
    rw [recorded_entries h hw ho hmem]
    intro pre p post heq
    have hpiece := hall pre p post heq
    rw [Nat.zero_add] at hpiece
    exact hpiece
  fewFiles := by
    rw [recorded_dataFiles]
    exact (hw.manifestsOf ho).fewFiles

end Recorded

end WrittenTable

end DuckIceberg
