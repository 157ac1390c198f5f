import DuckIceberg.LoadedFiles
import DuckIceberg.MetadataFunction
import DuckIceberg.NamedParameters

/-!
# What is listed and what is scanned

`iceberg_metadata` from its bind to its last row, beside an `iceberg_scan` with the same parameters.

* `bind_eq_ok_iff`: the bind loads the snapshot that the scan selects;
* `listed_files_are_scanned`: the files of its rows that are data and not deleted are those the scan
  returns.
-/

namespace DuckIceberg

open Strings Stride Drain ManifestReader

/-! ### The bind -/

/-- `IcebergManifest::Names` with `IcebergManifest::Types` -/
def IcebergManifest.columns : List (String × LogicalType) :=
  [("manifest_path", .simple .varchar), ("manifest_sequence_number", .simple .bigint),
    ("manifest_content", .simple .varchar)]

/-- `IcebergManifestEntry::Names` with `IcebergManifestEntry::Types` -/
def IcebergManifestEntry.columns : List (String × LogicalType) :=
  [("status", .simple .varchar), ("content", .simple .varchar), ("file_path", .simple .varchar),
    ("file_format", .simple .varchar), ("record_count", .simple .bigint)]

/-- The snapshot that `IcebergMetaDataBind` reads, after its second argument. -/
def snapshotToScan (ctx : ClientContext) (icebergMetaPath : String) (input : Option ParameterValue)
    (options : IcebergOptions) : Except Error IcebergSnapshot :=
  match input with
  | none => IcebergSnapshot.getLatestSnapshot ctx icebergMetaPath options
  | some (.ubigint id) => IcebergSnapshot.getSnapshotById ctx icebergMetaPath id options
  | some (.timestamp t) => IcebergSnapshot.getSnapshotByTimestamp ctx icebergMetaPath t options
  | some _ => .error ⟨.invalidInput, "Unknown argument type in IcebergScanBindReplace."⟩

/-- `IcebergMetaDataBind`, with the columns of the function -/
def icebergMetaDataBind (ctx : ClientContext) (icebergPath : String) (input : Option ParameterValue)
    (parameters : List (String × ParameterValue)) :
    Except Error (IcebergTable × List (String × LogicalType)) := do
  let options ← metadataOptions parameters
  let icebergMetaPath ← IcebergSnapshot.getMetaDataPath ctx icebergPath options
  let snapshot ← snapshotToScan ctx icebergMetaPath input options
  let icebergTable ← IcebergTable.load ctx icebergPath snapshot options
  return (icebergTable, IcebergManifest.columns ++ IcebergManifestEntry.columns)

/-- The second argument that asks for the snapshot of a scan. -/
def IcebergOptions.selector (options : IcebergOptions) : Option ParameterValue :=
  match options.snapshotSource with
  | .latest => none
  | .fromId => some (.ubigint options.snapshotId)
  | .fromTimestamp => some (.timestamp options.snapshotTimestamp)

/-- The options without what they say of the snapshot. -/
def IcebergOptions.atLatest (options : IcebergOptions) : IcebergOptions :=
  { options with snapshotSource := .latest, snapshotId := 0, snapshotTimestamp := 0 }

section Bind

variable {ctx : ClientContext} {path : String} {options : IcebergOptions}

/-- The argument selects what the options of the scan select. -/
theorem snapshotToScan_eq (metaPath : String) :
    snapshotToScan ctx metaPath options.selector options.atLatest =
      IcebergSnapshot.select ctx metaPath options := by
  unfold IcebergOptions.selector IcebergSnapshot.select
  cases options.snapshotSource <;> rfl

theorem scanAvroMetadata_atLatest {α : Type} (op : ManifestFormat α) (file : String) :
    scanAvroMetadata ctx op path options.atLatest file = scanAvroMetadata ctx op path options file :=
  rfl

theorem load_atLatest (snapshot : IcebergSnapshot) :
    IcebergTable.load ctx path snapshot options.atLatest =
      IcebergTable.load ctx path snapshot options := by
  have hentries : ∀ op manifests, readManifestEntries ctx op path options.atLatest manifests =
      readManifestEntries ctx op path options manifests := by
    intro op manifests
    induction manifests with
    | nil => rfl
    | cons manifest manifests ih => rw [readManifestEntries, ih, scanAvroMetadata_atLatest]; rfl
  unfold IcebergTable.load
  simp only [hentries, scanAvroMetadata_atLatest]
  rfl

/-- A loaded table is one of the snapshot that was asked for. -/
theorem load_snapshot {snapshot : IcebergSnapshot} {t : IcebergTable}
    (h : IcebergTable.load ctx path snapshot options = .ok t) : t.snapshot = snapshot := by
  cases hf : formats snapshot.icebergFormatVersion with
  | none =>
    rw [IcebergTable.load, bind_eq_ok] at h
    obtain ⟨full, -, h⟩ := h
    rw [hf] at h
    cases h
  | some ops =>
    obtain ⟨manifests, entries, -, -, rfl⟩ := (IcebergTable.load_eq_ok hf).1 h
    rfl

open IcebergMultiFileList in
/-- **The bind** loads the snapshot that a scan with the same parameters selects. -/
theorem bind_eq_ok_iff {base : String → ParameterValue → Except Error Bool} {ps ps' : NamedParameters}
    (hshare : Share metadataNames ps ps') (hscan : parseOptions base ps.map.entries = .ok options)
    {t : IcebergTable} {columns : List (String × LogicalType)} :
    icebergMetaDataBind ctx path options.selector ps'.map.entries = .ok (t, columns) ↔
      (∃ snapshot, Selects ctx path options snapshot ∧
        IcebergTable.load ctx path snapshot options = .ok t) ∧
      columns = IcebergManifest.columns ++ IcebergManifestEntry.columns := by
  obtain rfl := options_of_parseOptions ps hscan
  set options := optionsOf scanNames ps.map.entries
  have hoptions : metadataOptions ps'.map.entries = .ok options.atLatest :=
    metadataOptions_share hshare
  have hpath : IcebergSnapshot.getMetaDataPath ctx path options.atLatest =
      IcebergSnapshot.getMetaDataPath ctx path options := getMetaDataPath_congr ctx path rfl rfl rfl
  rw [icebergMetaDataBind, hoptions]
  show (IcebergSnapshot.getMetaDataPath ctx path options.atLatest >>= _) = _ ↔ _
  simp only [hpath, snapshotToScan_eq, load_atLatest, bind_eq_ok, Selects]
  constructor
  · rintro ⟨metaPath, hmeta, snapshot, hselect, t', hload, h⟩
    cases h
    exact ⟨⟨snapshot, ⟨metaPath, hmeta, hselect⟩, hload⟩, rfl⟩
  · rintro ⟨⟨snapshot, ⟨metaPath, hmeta, hselect⟩, hload⟩, rfl⟩
    exact ⟨metaPath, hmeta, snapshot, hselect, t, hload, rfl⟩

end Bind

/-! ### The rows -/

namespace MetadataState

/-- The files of the rows of data manifests that are not deleted. -/
def listedFiles (rows : List MetadataRow) : List String :=
  (rows.filter fun r => r.manifestContent = "DATA" ∧ r.status ≠ "DELETED").map (·.filePath)

/-- What a row says of its pair. -/
theorem row_of_valid {p : IcebergManifest × IcebergManifestEntry} (h : Valid p) :
    ((row p).manifestContent = "DATA" ↔ p.1.content = .data) ∧
      ((row p).status ≠ "DELETED" ↔ p.2.live) ∧ (row p).filePath = p.2.filePath := by
  obtain ⟨⟨manifestPath, sequenceNumber, manifestContent⟩, ⟨status, content, file, format, count⟩⟩ := p
  obtain ⟨hmanifest, hstatus, hcontent⟩ := h
  cases manifestContent with
  | other v => exact absurd rfl (hmanifest v)
  | data | delete =>
    cases status with
    | other v => exact absurd rfl (hstatus v)
    | existing | added | deleted =>
      cases content with
      | other v => exact absurd rfl (hcontent v)
      | data | positionDeletes | equalityDeletes =>
        simp [row, metadataRow, IcebergManifestContentType.toText,
          IcebergManifestEntryStatusType.toText, IcebergManifestEntryContentType.toText,
          IcebergManifestEntry.live, bind, Except.bind, pure, Except.pure, Except.toOption]

/-- The files that the rows list are the paths of the table. -/
theorem listedFiles_pairs {t : IcebergTable} (hvalid : ∀ p ∈ pairs t.entries, Valid p) :
    listedFiles ((pairs t.entries).map row) = t.getPaths .data := by
  have hrows : ∀ ps : List (IcebergManifest × IcebergManifestEntry), (∀ p ∈ ps, Valid p) →
      listedFiles (ps.map row) =
        (ps.filter fun p => p.1.content = .data ∧ p.2.live).map fun p => p.2.filePath := by
    intro ps hps
    induction ps with
    | nil => rfl
    | cons p ps ih =>
      obtain ⟨hp, hps⟩ := List.forall_mem_cons.1 hps
      obtain ⟨hcontent, hstatus, hfile⟩ := row_of_valid hp
      have hkept : ((row p).manifestContent = "DATA" ∧ (row p).status ≠ "DELETED") ↔
          p.1.content = .data ∧ p.2.live := by rw [hcontent, hstatus]
      replace ih := ih hps
      unfold listedFiles at ih ⊢
      rw [List.map_cons, List.filter_cons, List.filter_cons]
      simp only [hkept]
      split_ifs
      · rw [List.map_cons, List.map_cons, ih, hfile]
      · exact ih
  rw [hrows _ hvalid]
  unfold pairs IcebergTable.getPaths
  induction t.entries with
  | nil => rfl
  | cons entry entries ih =>
    rw [List.flatMap_cons, List.filter_append, List.map_append, ih, List.filter_cons]
    by_cases hdata : entry.manifest.content = .data
    · simp [hdata, List.filter_map, Function.comp_def]
    · simp [hdata, List.filter_map, Function.comp_def]

/-- The calls up to the first without rows deliver the rows of all pairs. -/
theorem drain_call (t : IcebergTable) (hvalid : ∀ p ∈ pairs t.entries, Valid p) :
    ∃ n outs, drain (call t) n {} = some (.ok outs) ∧ outs.flatten = (pairs t.entries).map row := by
  have hstart : rest t.entries {} = pairs t.entries := rest_head t.entries 0
  have hcall : ∀ st, (∀ p ∈ rest t.entries st, Valid p) → ∃ out st', call t st = (.ok out, st') ∧
      (∀ p ∈ rest t.entries st', Valid p) ∧
      (rest t.entries st).map row = out ++ (rest t.entries st').map row ∧
      (out = [] → (rest t.entries st).map row = []) ∧ out.length ≤ standardVectorSize := by
    intro st hst
    obtain ⟨out, st', hcall, hle, ⟨taken, htaken, rfl⟩, hend⟩ := call_spec t st hst
    refine ⟨_, st', hcall, fun p hp => hst p ?_, ?_, fun hnil => ?_, hle⟩
    · rw [htaken]
      exact List.mem_append_right _ hp
    · rw [htaken, List.map_append, List.nil_append]
    · -- a call without rows has come to the end
      rcases hend with hfull | hrest
      · rw [hnil] at hfull
        exact absurd hfull (by decide)
      · rw [htaken, hrest, List.append_nil]
        exact hnil
  obtain ⟨outs, hdrain, hflat, -⟩ := drain_spec _ (fun st => (rest t.entries st).map row) _ hcall _ {}
    (by rw [hstart]; exact hvalid) (Nat.lt_succ_self _)
  exact ⟨_, outs, hdrain, by rw [hflat, hstart]⟩

end MetadataState

/-! ### Regular tables -/

open IcebergMultiFileList IcebergTable in
/-- A table that `Load` passes over nothing of is regular once it is initialised. -/
theorem IcebergMultiFileList.Recorded.regular {ctx : ClientContext} {path : String}
    {options : IcebergOptions} (t : Recorded ctx path options) {types : List LogicalType}
    (hopens : ∀ m ∈ t.dataManifests, t.Opens m) (htypes : ∀ m ∈ t.dataManifests, t.types m = types)
    (hpassed : ∀ m ∈ t.passedOver, m.content ≠ .data)
    (hoffered : ∀ m ∈ t.dataManifests,
      ∀ e ∈ lost standardVectorSize (fun _ => true) 0 (t.entries m), e.live = false)
    (hnamed : ∀ e ∈ t.dataFiles, fullPath ctx path options e.filePath ≠ .ok "")
    (hfits : t.dataFiles.length < 2 ^ 63) :
    Regular ctx (initializeFiles ctx (ofPath path options)).2 := by
  obtain ⟨r, hinit⟩ := initializeFiles_recorded t
  rw [hinit]
  set l₀ := initializedWith (ofPath path options) t.snapshot t.manifestOp t.entryOp r
    (kept standardVectorSize (fun _ => true) 0 t.chunks)
  have hdata : l₀.dataManifests = t.dataManifests := by
    refine (kept_filter_eq_iff _ _ _).2 fun m hm => ?_
    simpa using hpassed m hm
  have hopens' : ∀ m ∈ t.dataManifests, ∃ scan,
      openAvro ctx path options m.manifestPath = .ok scan ∧ scan.returnTypes = types ∧
        Readable t.entryOp types scan (t.entries m) := by
    intro m hm
    obtain ⟨scan, hopen, hreturn, hread⟩ := hopens m hm
    rw [htypes m hm] at hreturn hread
    exact ⟨scan, hopen, hreturn, hread⟩
  have hfirst : ∀ m ∈ t.dataManifests, firstTypes ctx l₀ = types := by
    intro m hm
    rw [firstTypes, hdata]
    cases hms : t.dataManifests with
    | nil =>
      rw [hms] at hm
      cases hm
    | cons m₀ ms =>
      obtain ⟨scan, hopen, hreturn, -⟩ := hopens' m₀ (by rw [hms]; exact List.mem_cons_self)
      have hopen₀ : openAvro ctx l₀.path l₀.options m₀.manifestPath = .ok scan := hopen
      dsimp only
      rw [hopen₀]
      exact hreturn
  have hdeliveries : ∀ m ∈ t.dataManifests,
      deliveries ctx l₀ t.entryOp (firstTypes ctx l₀) m = (t.entries m).map .rows := by
    intro m hm
    obtain ⟨scan, hopen, -, hread⟩ := hopens' m hm
    have hopen₀ : openAvro ctx l₀.path l₀.options m.manifestPath = .ok scan := hopen
    rw [hfirst m hm, deliveries, hopen₀]
    exact hread.delivers
  have hentries : dataEntries ctx l₀ = t.dataFiles := by
    show pending ((l₀.dataManifests.drop 0).map
      (deliveries ctx l₀ t.entryOp (firstTypes ctx l₀))) = _
    rw [hdata, List.drop_zero, List.map_congr_left hdeliveries, pending, List.flatMap_map]
    simp only [rowsOf_map_rows]
    rfl
  refine ⟨?_, ?_, ?_, ?_⟩
  · intro m hm scan hopen
    rw [hdata] at hm
    obtain ⟨scan', hopen', hreturn, -⟩ := hopens' m hm
    obtain rfl := Except.ok.inj (hopen'.symm.trans hopen)
    rw [hreturn, hfirst m hm]
  · intro op hop m hm
    obtain rfl := Option.some.inj hop
    rw [hdata] at hm
    rw [hdeliveries m hm, chunksOf_map_rows]
    exact hoffered m hm
  · rw [hentries]
    exact hnamed
  · rw [hentries]
    exact hfits

/-! ### Beside a scan -/

open IcebergMultiFileList IcebergTable in
/-- **What is listed is what is scanned**: where `iceberg_metadata` can load a regular table, the rows
of its calls list the data files that are not deleted, and a scan with the same parameters, for the
snapshot of its second argument, returns their full paths, or fails where one of them has none. -/
theorem listed_files_are_scanned {ctx : ClientContext} {path : String} {options : IcebergOptions}
    {base : String → ParameterValue → Except Error Bool} {ps ps' : NamedParameters}
    (hshare : Share metadataNames ps ps') (hscan : parseOptions base ps.map.entries = .ok options)
    {t : IcebergTable} {columns : List (String × LogicalType)}
    (hbind : icebergMetaDataBind ctx path options.selector ps'.map.entries = .ok (t, columns))
    (hid : t.snapshot.snapshotId ≠ invalidIndex)
    (hvalid : ∀ p ∈ MetadataState.pairs t.entries, MetadataState.Valid p)
    (hregular : Regular ctx (initializeFiles ctx (ofPath path options)).2) :
    ∃ n outs, drain (MetadataState.call t) n {} = some (.ok outs) ∧
      (scanFiles ctx (ofPath path options)).1 =
        (MetadataState.listedFiles outs.flatten).mapM (fullPath ctx path options) := by
  obtain ⟨⟨snapshot, hs, hload⟩, -⟩ := (bind_eq_ok_iff hshare hscan).1 hbind
  rw [load_snapshot hload] at hid
  obtain ⟨n, outs, hdrain, hrows⟩ := MetadataState.drain_call t hvalid
  refine ⟨n, outs, hdrain, ?_⟩
  rw [hrows, MetadataState.listedFiles_pairs hvalid]
  obtain ⟨l₀, hinit⟩ := initializes_of_load hs hid hload
  rw [hinit] at hregular
  dsimp only at hregular
  obtain ⟨op, hop, hprod, -⟩ := sound_initialized hinit
  obtain ⟨-, -, -, -, -, -, hpath, hoptions, -⟩ := manifests_of_initialized hs hid hinit
  have hread := ((hregular.load_ok_iff hs hid hinit hprod).1 ⟨t, hload⟩).1
  rw [scanFiles_initializes hinit, hregular.getPaths_eq hs hid hinit hload, List.mapM_map,
    scanFiles_eq_mapM hop (hregular.expanding hinit hprod hread) hregular.fits hregular.named, hpath,
    hoptions]
  rfl

/-- No named parameters. -/
def noParameters : NamedParameters := ⟨.empty, List.forall_mem_nil _⟩

open IcebergMultiFileList in
/-- The files after a deleted one are listed and scanned. -/
theorem listed_files_are_scanned_deleted_first :
    let ctx := (manifestFiles deletedFirst noParquet).context
    ∃ t columns n outs,
      icebergMetaDataBind ctx "v1.metadata.json" none noParameters.map.entries = .ok (t, columns) ∧
      drain (MetadataState.call t) n {} = some (.ok outs) ∧
      (scanFiles ctx (ofPath "v1.metadata.json" {})).1 =
        (MetadataState.listedFiles outs.flatten).mapM (fullPath ctx "v1.metadata.json" {}) := by
  intro ctx
  have hloaded : (icebergMetaDataBind ctx "v1.metadata.json" none
      noParameters.map.entries).toOption.map
        (fun loaded => (MetadataState.pairs loaded.1.entries, loaded.1.snapshot.snapshotId)) =
      some ((IcebergManifestEntry.ofPath .deleted "d" :: ["a", "b", "c"].map (.ofPath .added)).map
        (⟨"m.avro", 1, .data⟩, ·), 1) := by
    decide +kernel
  cases hbind : icebergMetaDataBind ctx "v1.metadata.json" none noParameters.map.entries with
  | error e =>
    rw [hbind] at hloaded
    cases hloaded
  | ok loaded =>
    rw [hbind] at hloaded
    obtain ⟨hpairs, hid⟩ := Prod.mk.inj (Option.some.inj hloaded)
    have hvalid : ∀ p ∈ MetadataState.pairs loaded.1.entries, MetadataState.Valid p := by
      rw [hpairs]
      simp [MetadataState.Valid, IcebergManifestEntry.ofPath]
    have hoffered : ∀ m ∈ deletedFirstTable.dataManifests,
        ∀ e ∈ lost standardVectorSize (fun _ => true) 0 (deletedFirstTable.entries m),
          e.live = false := by
      decide +kernel
    have hregular := deletedFirstTable.regular deletedFirst_opens (fun _ _ => rfl) (by decide +kernel)
      hoffered (by decide +kernel) (by decide +kernel)
    have hscan : parseOptions (fun _ _ => .ok false) noParameters.map.entries = .ok {} := rfl
    obtain ⟨n, outs, hdrain, hfiles⟩ := listed_files_are_scanned (fun _ _ => rfl) hscan hbind
      (by rw [hid]; decide) hvalid hregular
    exact ⟨_, _, n, outs, rfl, hdrain, hfiles⟩

end DuckIceberg
