import DuckIceberg.IcebergTable
import DuckIceberg.ScannedFiles

/-!
# The eager and the lazy loader

`IcebergTable::Load` reads every manifest of a snapshot at once, a scan reads the data manifests as
it needs their files.

* `Regular.load_ok_iff`, `Regular.scanFiles_eq_ok`: when each of them returns;
* `loaders_agree_iff`: they find the same files, and fail together but for delete manifests, which
  only `Load` reads, and for full paths, which only the scan makes.
-/

namespace DuckIceberg

open Strings Stride ManifestReader

namespace IcebergTable

open IcebergMultiFileList

variable {ctx : ClientContext} {path : String} {options : IcebergOptions}

/-- The eager reader returns on the files that can be read, and keeps what its requests do not pass
over. -/
theorem scanAvroMetadata_eq_ok {α : Type} {op : ManifestFormat α} {file : String}
    {entries : List α} : scanAvroMetadata ctx op path options file = .ok entries ↔
      ∃ scan chunks, openAvro ctx path options file = .ok scan ∧
        Readable op scan.returnTypes scan chunks ∧
        entries = kept standardVectorSize (fun _ => true) 0 chunks := by
  have hlayout : ∀ scan, (make op).layout scan = scan.returnTypes := fun _ => rfl
  have hkept : ∀ chunks, keptEntries op (make op).skipDeleted chunks =
      kept standardVectorSize (fun _ => true) 0 chunks := keptEntries_false
  constructor
  · intro h
    rw [scanAvroMetadata] at h
    rcases hscan : scanInto ctx path options op (make op) file [] with ⟨e | u, r, entries'⟩
    · rw [hscan] at h
      cases h
    rw [hscan] at h
    cases h
    obtain ⟨scan, chunks, hopen, hread, rfl, -⟩ := readable_of_scanInto (make_readerOf op) hscan
    rw [hlayout] at hread
    refine ⟨scan, chunks, hopen, hread, ?_⟩
    rw [List.nil_append, hkept]
  · rintro ⟨scan, chunks, hopen, hread, rfl⟩
    rw [← hlayout] at hread
    obtain ⟨r, hscan, -⟩ := scanInto_of_readable (make_readerOf op) hopen hread []
    rw [scanAvroMetadata, hscan, List.nil_append, hkept]

/-- One entry for each manifest. -/
theorem readManifestEntries_eq_ok {op : ManifestFormat IcebergManifestEntry}
    {manifests : List IcebergManifest} {entries : List IcebergTableEntry} :
    readManifestEntries ctx op path options manifests = .ok entries ↔
      List.Forall₂ (fun manifest entry => entry.manifest = manifest ∧
        scanAvroMetadata ctx op path options manifest.manifestPath = .ok entry.manifestEntries)
        manifests entries := by
  induction manifests generalizing entries with
  | nil =>
    rw [readManifestEntries, List.forall₂_nil_left_iff]
    exact ⟨fun h => (Except.ok.inj h).symm, fun h => by rw [h]⟩
  | cons manifest manifests ih =>
    rw [readManifestEntries, bind_eq_ok, List.forall₂_cons_left_iff]
    constructor
    · rintro ⟨manifestEntries, hscan, h⟩
      obtain ⟨others, hothers, h⟩ := bind_eq_ok.1 h
      cases h
      exact ⟨_, others, ⟨rfl, hscan⟩, ih.1 hothers, rfl⟩
    · rintro ⟨⟨manifest', manifestEntries⟩, others, ⟨rfl, hscan⟩, hothers, rfl⟩
      exact ⟨manifestEntries, hscan, bind_eq_ok.2 ⟨others, ih.2 hothers, rfl⟩⟩

/-- The manifests of a table are loaded when each of them is. -/
theorem readManifestEntries_ok_iff {op : ManifestFormat IcebergManifestEntry}
    {manifests : List IcebergManifest} :
    (∃ entries, readManifestEntries ctx op path options manifests = .ok entries) ↔
      ∀ manifest ∈ manifests, ∃ entries,
        scanAvroMetadata ctx op path options manifest.manifestPath = .ok entries := by
  induction manifests with
  | nil => exact iff_of_true ⟨[], rfl⟩ (List.forall_mem_nil _)
  | cons manifest manifests ih =>
    rw [List.forall_mem_cons, ← ih]
    constructor
    · rintro ⟨entries, h⟩
      obtain ⟨manifestEntries, hscan, h⟩ := bind_eq_ok.1 h
      obtain ⟨others, hothers, -⟩ := bind_eq_ok.1 h
      exact ⟨⟨manifestEntries, hscan⟩, others, hothers⟩
    · rintro ⟨⟨manifestEntries, hscan⟩, others, hothers⟩
      exact ⟨⟨manifest, manifestEntries⟩ :: others,
        bind_eq_ok.2 ⟨manifestEntries, hscan, bind_eq_ok.2 ⟨others, hothers, rfl⟩⟩⟩

theorem load_eq_ok {snapshot : IcebergSnapshot} {manifestOp : ManifestFormat IcebergManifest}
    {op : ManifestFormat IcebergManifestEntry}
    (hf : formats snapshot.icebergFormatVersion = some (manifestOp, op)) {t : IcebergTable} :
    load ctx path snapshot options = .ok t ↔ ∃ manifests entries,
      scanAvroMetadata ctx manifestOp path options snapshot.manifestList = .ok manifests ∧
        readManifestEntries ctx op path options manifests = .ok entries ∧
        t = ⟨path, snapshot, entries⟩ := by
  rw [load, bind_eq_ok]
  simp only [hf, bind_eq_ok]
  constructor
  · rintro ⟨-, -, manifests, hmanifests, entries, hentries, h⟩
    cases h
    exact ⟨manifests, entries, hmanifests, hentries, rfl⟩
  · rintro ⟨manifests, entries, hmanifests, hentries, rfl⟩
    obtain ⟨scan, -, hopen, -⟩ := scanAvroMetadata_eq_ok.1 hmanifests
    rw [openAvro, bind_eq_ok] at hopen
    obtain ⟨full, hfull, -⟩ := hopen
    exact ⟨full, hfull, manifests, hmanifests, entries, hentries, rfl⟩

section Loaders

variable {snapshot : IcebergSnapshot} {l₀ : IcebergMultiFileList}

theorem selects_unique {snapshot' : IcebergSnapshot} (h : Selects ctx path options snapshot)
    (h' : Selects ctx path options snapshot') : snapshot' = snapshot := by
  obtain ⟨metaPath, hpath, hselect⟩ := h
  obtain ⟨metaPath', hpath', hselect'⟩ := h'
  rw [hpath] at hpath'
  cases hpath'
  rw [hselect] at hselect'
  exact (Except.ok.inj hselect').symm

/-- The two loaders read the same manifest list. -/
theorem manifests_of_initialized (hs : Selects ctx path options snapshot)
    (hid : snapshot.snapshotId ≠ invalidIndex)
    (h : initializeFiles ctx (ofPath path options) = (.ok (), l₀)) :
    ∃ manifestOp op manifests, formats snapshot.icebergFormatVersion = some (manifestOp, op) ∧
      scanAvroMetadata ctx manifestOp path options snapshot.manifestList = .ok manifests ∧
      l₀.entryProducer = some op ∧ l₀.path = path ∧ l₀.options = options ∧
      l₀.dataManifests = manifests.filter (·.content == .data) ∧
      l₀.deleteManifests = manifests.filter (·.content != .data) := by
  obtain ⟨snapshot', manifestOp, op, chunks, hs', hf, hm⟩ := initializes_of_ok rfl h
  obtain rfl := selects_unique hs hs'
  obtain ⟨r, hinit⟩ := initializeFiles_spec (l := ofPath path options) rfl hs hf hm
  rw [h] at hinit
  cases hinit
  rcases hm with ⟨hinvalid, -⟩ | ⟨-, scan, hopen, hread⟩
  · exact absurd hinvalid hid
  · exact ⟨manifestOp, op, _, hf, scanAvroMetadata_eq_ok.2 ⟨scan, chunks, hopen, hread, rfl⟩, rfl,
      rfl, rfl, rfl, rfl⟩

/-- A list is initialised when the table is loaded. -/
theorem initializes_of_load (hs : Selects ctx path options snapshot)
    (hid : snapshot.snapshotId ≠ invalidIndex) {t : IcebergTable}
    (h : load ctx path snapshot options = .ok t) :
    ∃ l₀, initializeFiles ctx (ofPath path options) = (.ok (), l₀) := by
  cases hf : formats snapshot.icebergFormatVersion with
  | none =>
    rw [load, bind_eq_ok] at h
    obtain ⟨full, -, h⟩ := h
    rw [hf] at h
    cases h
  | some ops =>
    obtain ⟨manifestOp, op⟩ := ops
    obtain ⟨manifests, entries, hmanifests, -, -⟩ := (load_eq_ok hf).1 h
    obtain ⟨scan, chunks, hopen, hread, -⟩ := scanAvroMetadata_eq_ok.1 hmanifests
    obtain ⟨r, hinit⟩ := initializeFiles_spec (l := ofPath path options) rfl hs hf
      (Or.inr ⟨hid, scan, hopen, hread⟩)
    exact ⟨_, hinit⟩

variable (ctx l₀) in
/-- The data manifests of an initialised list are alike in their columns, `Load` passes over none of
their live entries, and no live entry is found under the empty path, which ends a scan. -/
structure Regular : Prop where
  types : ∀ manifest ∈ l₀.dataManifests, ∀ scan,
    openAvro ctx l₀.path l₀.options manifest.manifestPath = .ok scan →
      scan.returnTypes = firstTypes ctx l₀
  offered : ∀ op, l₀.entryProducer = some op → ∀ manifest ∈ l₀.dataManifests,
    ∀ e ∈ lost standardVectorSize (fun _ => true) 0
      (chunksOf (deliveries ctx l₀ op (firstTypes ctx l₀) manifest)), e.live = false
  named : ∀ e ∈ dataEntries ctx l₀, fullPath ctx l₀.path l₀.options e.filePath ≠ .ok ""
  fits : (dataEntries ctx l₀).length < 2 ^ 63

/-- `Load` reads this manifest. -/
def Loads (ctx : ClientContext) (l₀ : IcebergMultiFileList) (manifest : IcebergManifest) : Prop :=
  ∀ op, l₀.entryProducer = some op → ∃ entries,
    scanAvroMetadata ctx op l₀.path l₀.options manifest.manifestPath = .ok entries

theorem loads_iff {op : ManifestFormat IcebergManifestEntry} (hprod : l₀.entryProducer = some op)
    {manifest : IcebergManifest} : Loads ctx l₀ manifest ↔ ∃ entries,
      scanAvroMetadata ctx op l₀.path l₀.options manifest.manifestPath = .ok entries := by
  refine ⟨fun h => h op hprod, fun h op' hprod' => ?_⟩
  rw [hprod] at hprod'
  cases hprod'
  exact h

/-- A data manifest is read through by the scan when `Load` reads it. -/
theorem Regular.readThrough_iff (h : Regular ctx l₀) {op : ManifestFormat IcebergManifestEntry}
    {manifest : IcebergManifest} (hmem : manifest ∈ l₀.dataManifests) :
    ReadThrough ctx op (firstTypes ctx l₀) l₀ manifest ↔ ∃ entries,
      scanAvroMetadata ctx op l₀.path l₀.options manifest.manifestPath = .ok entries := by
  constructor
  · rintro ⟨scan, chunks, hopen, hread⟩
    rw [← h.types manifest hmem scan hopen] at hread
    exact ⟨_, scanAvroMetadata_eq_ok.2 ⟨scan, chunks, hopen, hread, rfl⟩⟩
  · rintro ⟨entries, hentries⟩
    obtain ⟨scan, chunks, hopen, hread, -⟩ := scanAvroMetadata_eq_ok.1 hentries
    rw [h.types manifest hmem scan hopen] at hread
    exact ⟨scan, chunks, hopen, hread⟩

/-- The live entries that `Load` finds in a data manifest are those that the scan finds. -/
theorem Regular.live_eq (h : Regular ctx l₀) {op : ManifestFormat IcebergManifestEntry}
    (hprod : l₀.entryProducer = some op) {manifest : IcebergManifest}
    (hmem : manifest ∈ l₀.dataManifests) {entries : List IcebergManifestEntry}
    (hentries : scanAvroMetadata ctx op l₀.path l₀.options manifest.manifestPath = .ok entries) :
    entries.filter IcebergManifestEntry.live =
      (rowsOf (deliveries ctx l₀ op (firstTypes ctx l₀) manifest)).filter
        IcebergManifestEntry.live := by
  obtain ⟨scan, chunks, hopen, hread, rfl⟩ := scanAvroMetadata_eq_ok.1 hentries
  have hdeliveries : deliveries ctx l₀ op (firstTypes ctx l₀) manifest = chunks.map .rows := by
    rw [deliveries, hopen, ← h.types manifest hmem scan hopen]
    exact hread.delivers
  have hoffered := h.offered op hprod manifest hmem
  rw [hdeliveries, chunksOf_map_rows] at hoffered
  rw [hdeliveries, rowsOf_map_rows]
  exact (kept_filter_eq_iff _ _ _).2 hoffered

/-- The paths of a loaded table, manifest by manifest. -/
theorem getPaths_of_forall₂ {scanned : IcebergManifest → List IcebergManifestEntry}
    {manifests : List IcebergManifest} {entries : List IcebergTableEntry}
    (h : List.Forall₂ (fun manifest entry => entry.manifest = manifest ∧
      (manifest.content = .data →
        entry.manifestEntries.filter IcebergManifestEntry.live = scanned manifest))
      manifests entries) :
    getPaths .data ⟨path, snapshot, entries⟩ =
      ((manifests.filter (·.content == .data)).flatMap scanned).map (·.filePath) := by
  induction h with
  | nil => rfl
  | @cons manifest entry manifests entries hentry hall ih =>
    obtain ⟨rfl, hscanned⟩ := hentry
    simp only [getPaths] at ih ⊢
    rw [List.filter_cons, List.filter_cons]
    by_cases hdata : entry.manifest.content = .data
    · rw [if_pos (by simp [hdata]), if_pos (by simp [hdata]), List.flatMap_cons, List.flatMap_cons,
        List.map_append, hscanned hdata, ih]
    · rw [if_neg (by simp [hdata]), if_neg (by simp [hdata]), ih]

/-- The paths of a loaded table are those of the live entries that the scan finds. -/
theorem Regular.getPaths_eq (h : Regular ctx l₀) (hs : Selects ctx path options snapshot)
    (hid : snapshot.snapshotId ≠ invalidIndex)
    (hinit : initializeFiles ctx (ofPath path options) = (.ok (), l₀)) {t : IcebergTable}
    (hload : load ctx path snapshot options = .ok t) :
    t.getPaths .data = (dataEntries ctx l₀).map (·.filePath) := by
  obtain ⟨manifestOp, op, manifests, hf, hmanifests, hprod, rfl, rfl, hdata, -⟩ :=
    manifests_of_initialized hs hid hinit
  obtain ⟨manifests', entries, hmanifests', hentries, rfl⟩ := (load_eq_ok hf).1 hload
  rw [hmanifests] at hmanifests'
  cases hmanifests'
  have hscanned : dataEntries ctx l₀ = (manifests.filter (·.content == .data)).flatMap fun m =>
      (rowsOf (deliveries ctx l₀ op (firstTypes ctx l₀) m)).filter IcebergManifestEntry.live := by
    rw [dataEntries, hprod, ← hdata, Option.elim_some, entriesFrom, List.drop_zero, pending,
      List.flatMap_map]
  rw [hscanned]
  refine getPaths_of_forall₂ ?_
  have hall := readManifestEntries_eq_ok.1 hentries
  rw [List.forall₂_iff_get] at hall ⊢
  refine ⟨hall.1, fun i hi hi' => ⟨(hall.2 i hi hi').1, fun hcontent => ?_⟩⟩
  have hmem : manifests.get ⟨i, hi⟩ ∈ l₀.dataManifests := by
    rw [hdata]
    exact List.mem_filter.2 ⟨List.get_mem _ _, beq_iff_eq.2 hcontent⟩
  exact h.live_eq hprod hmem (hall.2 i hi hi').2

/-- A scan of a fresh list is one of the initialised list. -/
theorem scanFiles_initializes {l : IcebergMultiFileList}
    (h : initializeFiles ctx l = (.ok (), l₀)) : scanFiles ctx l = scanFiles ctx l₀ := by
  have hinit : initializeFiles ctx l₀ = (.ok (), l₀) := by
    have hafter := initialized_after ctx l
    rw [h] at hafter
    exact initializeFiles_again hafter
  have hround : scanRound ctx ([], l) = scanRound ctx ([], l₀) := by
    simp only [scanRound, getFile, h, hinit]
  rw [scanFiles, scanFiles, h, hinit]
  dsimp only
  rw [Loop.run_succ_congr hround]

/-- A list that a scan goes through has been initialised. -/
theorem initializes_of_scanFiles {l : IcebergMultiFileList} {paths : List String}
    (h : (scanFiles ctx l).1 = .ok paths) : ∃ l₀, initializeFiles ctx l = (.ok (), l₀) := by
  rcases hinit : initializeFiles ctx l with ⟨e | u, l₀⟩
  · have hround : scanRound ctx ([], l) = .done (.error e, l₀) := by
      simp only [scanRound, getFile, hinit]
    rw [scanFiles, hinit] at h
    dsimp only at h
    rw [Loop.run_succ_done hround] at h
    cases h
  · exact ⟨l₀, rfl⟩

/-- The list produces the live entries of its data manifests, once these can be read. -/
theorem Regular.expanding (h : Regular ctx l₀)
    (hinit : initializeFiles ctx (ofPath path options) = (.ok (), l₀))
    {op : ManifestFormat IcebergManifestEntry} (hprod : l₀.entryProducer = some op)
    (hread : ∀ manifest ∈ l₀.dataManifests, ReadThrough ctx op (firstTypes ctx l₀) l₀ manifest) :
    Expanding ctx op (firstTypes ctx l₀) (dataEntries ctx l₀) l₀ := by
  obtain ⟨snapshot, manifestOp, op', chunks, hs, hf, hm⟩ := initializes_of_ok rfl hinit
  obtain ⟨r, hinit'⟩ := initializeFiles_spec (l := ofPath path options) rfl hs hf hm
  rw [hinit] at hinit'
  set manifests := kept standardVectorSize (fun _ => true) 0 chunks
  have hl₀ : l₀ = initializedWith (ofPath path options) snapshot manifestOp op' r manifests :=
    (Prod.mk.inj hinit').2
  have hop' : op' = op := by
    rw [hl₀] at hprod
    exact Option.some.inj hprod
  have hpath : l₀.path = path ∧ l₀.options = options := by
    rw [hl₀]
    exact ⟨rfl, rfl⟩
  have hdata : l₀.dataManifests = manifests.filter (·.content == .data) := by
    rw [hl₀]
    rfl
  subst hop'
  have hopens : ∀ m ∈ manifests.filter (·.content == .data), ManifestIs ctx path options op'
      (firstTypes ctx l₀) m (chunksOf (deliveries ctx l₀ op' (firstTypes ctx l₀) m)) := by
    intro m hmem
    rw [← hdata] at hmem
    obtain ⟨scan, entries, hopen, hentries⟩ := hread m hmem
    have hdeliveries : deliveries ctx l₀ op' (firstTypes ctx l₀) m = entries.map .rows := by
      rw [deliveries, hopen]
      exact hentries.delivers
    rw [hdeliveries, chunksOf_map_rows, ← hpath.1, ← hpath.2]
    exact ⟨scan, hopen, h.types m hmem scan hopen, hentries⟩
  have hexpanding : Expanding ctx op' (firstTypes ctx l₀) _
      (initializedWith (ofPath path options) snapshot manifestOp op' r manifests) :=
    expanding_initializedWith hopens r
  have hfiles : dataEntries ctx l₀ = (manifests.filter (·.content == .data)).flatMap fun m =>
      (chunksOf (deliveries ctx l₀ op' (firstTypes ctx l₀) m)).flatten.filter
        IcebergManifestEntry.live := by
    rw [dataEntries, hprod, ← hdata, Option.elim_some, entriesFrom, List.drop_zero, pending,
      List.flatMap_map]
    simp only [rowsOf_eq_flatten]
  rw [hfiles]
  rwa [← hl₀] at hexpanding

/-- **When a scan comes to its end**, and what it finds. -/
theorem Regular.scanFiles_eq_ok (h : Regular ctx l₀)
    (hinit : initializeFiles ctx (ofPath path options) = (.ok (), l₀))
    {op : ManifestFormat IcebergManifestEntry} (hprod : l₀.entryProducer = some op)
    {paths : List String} : (scanFiles ctx l₀).1 = .ok paths ↔
      (∀ manifest ∈ l₀.dataManifests, ReadThrough ctx op (firstTypes ctx l₀) l₀ manifest) ∧
        ((dataEntries ctx l₀).map (·.filePath)).mapM (fullPath ctx l₀.path l₀.options) =
          .ok paths := by
  obtain ⟨op', hop, hprod', hsound, hempty, hleft⟩ := sound_initialized hinit
  rw [hprod] at hprod'
  cases hprod'
  have hentries : dataEntries ctx l₀ = entriesFrom ctx l₀ op (firstTypes ctx l₀) 0 := by
    rw [dataEntries, hprod]
    rfl
  have hnamed := h.named
  have hfits := h.fits
  rw [hentries] at hnamed hfits
  -- where the manifests are read through, the scan finds the paths of their live entries
  have hscan : (∀ manifest ∈ l₀.dataManifests, ReadThrough ctx op (firstTypes ctx l₀) l₀ manifest) →
      (scanFiles ctx l₀).1 =
        ((dataEntries ctx l₀).map (·.filePath)).mapM (fullPath ctx l₀.path l₀.options) := by
    intro hread
    rw [List.mapM_map]
    exact scanFiles_eq_mapM hop (h.expanding hinit hprod hread) h.fits h.named
  constructor
  · intro hok
    have hread := readThrough_of_scanFiles hop hsound hempty hleft hnamed hfits hok
    exact ⟨hread, by rw [← hscan hread]; exact hok⟩
  · rintro ⟨hread, hpaths⟩
    rw [hscan hread, hpaths]

/-- `Load` and a scan of a fresh list agree on these options: they fail together, and list the same
files. -/
def LoadersAgree (ctx : ClientContext) (path : String) (options : IcebergOptions)
    (snapshot : IcebergSnapshot) : Prop :=
  ((∃ t, load ctx path snapshot options = .ok t) ↔
    ∃ paths, (scanFiles ctx (ofPath path options)).1 = .ok paths) ∧
  ∀ t paths, load ctx path snapshot options = .ok t →
    (scanFiles ctx (ofPath path options)).1 = .ok paths → t.getPaths .data = paths

theorem mapM_fullPath (hmoved : options.allowMovedPaths = false) (files : List String) :
    files.mapM (fullPath ctx path options) = .ok files := by
  rw [mapM_eq_ok]
  refine List.forall₂_same.2 fun file _ => ?_
  rw [fullPath, hmoved]
  rfl

/-- A table is loaded when all its manifests can be read. -/
theorem Regular.load_ok_iff (h : Regular ctx l₀) (hs : Selects ctx path options snapshot)
    (hid : snapshot.snapshotId ≠ invalidIndex)
    (hinit : initializeFiles ctx (ofPath path options) = (.ok (), l₀))
    {op : ManifestFormat IcebergManifestEntry} (hprod : l₀.entryProducer = some op) :
    (∃ t, load ctx path snapshot options = .ok t) ↔
      (∀ manifest ∈ l₀.dataManifests, ReadThrough ctx op (firstTypes ctx l₀) l₀ manifest) ∧
        ∀ manifest ∈ l₀.deleteManifests, Loads ctx l₀ manifest := by
  obtain ⟨manifestOp, op', manifests, hf, hmanifests, hprod', rfl, rfl, hdata, hdeletes⟩ :=
    manifests_of_initialized hs hid hinit
  rw [hprod] at hprod'
  cases hprod'
  have hload : (∃ t, load ctx l₀.path snapshot l₀.options = .ok t) ↔
      ∃ entries, readManifestEntries ctx op l₀.path l₀.options manifests = .ok entries := by
    simp only [load_eq_ok hf, hmanifests, Except.ok.injEq]
    constructor
    · rintro ⟨t, _, entries, rfl, hentries, -⟩
      exact ⟨entries, hentries⟩
    · rintro ⟨entries, hentries⟩
      exact ⟨_, manifests, entries, rfl, hentries, rfl⟩
  have hreads : (∀ manifest ∈ l₀.dataManifests,
        ReadThrough ctx op (firstTypes ctx l₀) l₀ manifest) ↔
      ∀ manifest ∈ l₀.dataManifests, ∃ entries,
        scanAvroMetadata ctx op l₀.path l₀.options manifest.manifestPath = .ok entries :=
    forall₂_congr fun _ hmem => h.readThrough_iff hmem
  have hloads : (∀ manifest ∈ l₀.deleteManifests, Loads ctx l₀ manifest) ↔
      ∀ manifest ∈ l₀.deleteManifests, ∃ entries,
        scanAvroMetadata ctx op l₀.path l₀.options manifest.manifestPath = .ok entries :=
    forall₂_congr fun _ _ => loads_iff hprod
  rw [hload, readManifestEntries_ok_iff, hreads, hloads, hdata, hdeletes]
  constructor
  · intro hall
    exact ⟨fun m hm => hall m (List.mem_of_mem_filter hm),
      fun m hm => hall m (List.mem_of_mem_filter hm)⟩
  · rintro ⟨hofData, hofDeletes⟩ m hm
    by_cases hcontent : m.content = .data
    · exact hofData m (List.mem_filter.2 ⟨hm, by simp [hcontent]⟩)
    · exact hofDeletes m (List.mem_filter.2 ⟨hm, by simp [hcontent]⟩)

/-- **The loaders agree** but for the delete manifests and the full paths: a regular table is loaded,
and the paths listed have full paths, exactly when a scan comes to its end and `Load` reads the
delete manifests too; and then the scan finds the full paths of those listed. -/
theorem loaders_agree_iff (hs : Selects ctx path options snapshot)
    (hid : snapshot.snapshotId ≠ invalidIndex)
    (h : Regular ctx (initializeFiles ctx (ofPath path options)).2) :
    ((∃ t, load ctx path snapshot options = .ok t ∧
        ∃ paths, (t.getPaths .data).mapM (fullPath ctx path options) = .ok paths) ↔
      (∃ paths, (scanFiles ctx (ofPath path options)).1 = .ok paths) ∧
        ∀ manifest ∈ (initializeFiles ctx (ofPath path options)).2.deleteManifests,
          Loads ctx (initializeFiles ctx (ofPath path options)).2 manifest) ∧
    (∀ t paths, load ctx path snapshot options = .ok t →
      (scanFiles ctx (ofPath path options)).1 = .ok paths →
        (t.getPaths .data).mapM (fullPath ctx path options) = .ok paths) ∧
    (options.allowMovedPaths = false → (LoadersAgree ctx path options snapshot ↔
      ((∃ paths, (scanFiles ctx (ofPath path options)).1 = .ok paths) →
        ∀ manifest ∈ (initializeFiles ctx (ofPath path options)).2.deleteManifests,
          Loads ctx (initializeFiles ctx (ofPath path options)).2 manifest))) := by
  rcases hinit : initializeFiles ctx (ofPath path options) with ⟨e | u, l₀⟩
  · -- neither gets as far as the manifests
    have hload : ¬ ∃ t, load ctx path snapshot options = .ok t := by
      rintro ⟨t, hload⟩
      obtain ⟨l, hinit'⟩ := initializes_of_load hs hid hload
      rw [hinit] at hinit'
      cases hinit'
    have hscan : ¬ ∃ paths, (scanFiles ctx (ofPath path options)).1 = .ok paths := by
      rintro ⟨paths, hscan⟩
      obtain ⟨l, hinit'⟩ := initializes_of_scanFiles hscan
      rw [hinit] at hinit'
      cases hinit'
    have hlisted : ∀ (P : IcebergTable → List String → Prop) t paths,
        load ctx path snapshot options = .ok t →
          (scanFiles ctx (ofPath path options)).1 = .ok paths → P t paths :=
      fun _ t _ ht _ => absurd ⟨t, ht⟩ hload
    refine ⟨iff_of_false ?_ fun hboth => hscan hboth.1, hlisted _, fun _ =>
      iff_of_true ⟨iff_of_false hload hscan, hlisted _⟩ fun hok => absurd hok hscan⟩
    rintro ⟨t, ht, -⟩
    exact hload ⟨t, ht⟩
  · rw [hinit] at h
    dsimp only at h ⊢
    obtain ⟨op, -, hprod, -⟩ := sound_initialized hinit
    have hload := h.load_ok_iff hs hid hinit hprod
    obtain ⟨-, -, -, -, -, -, hpath, hoptions, -⟩ := manifests_of_initialized hs hid hinit
    have hscan : ∀ paths, (scanFiles ctx (ofPath path options)).1 = .ok paths ↔
        (∀ manifest ∈ l₀.dataManifests, ReadThrough ctx op (firstTypes ctx l₀) l₀ manifest) ∧
          ((dataEntries ctx l₀).map (·.filePath)).mapM (fullPath ctx path options) = .ok paths := by
      intro paths
      rw [scanFiles_initializes hinit, h.scanFiles_eq_ok hinit hprod, hpath, hoptions]
    have hpaths : ∀ t, load ctx path snapshot options = .ok t →
        t.getPaths .data = (dataEntries ctx l₀).map (·.filePath) :=
      fun t ht => h.getPaths_eq hs hid hinit ht
    have hlisted : ∀ t paths, load ctx path snapshot options = .ok t →
        (scanFiles ctx (ofPath path options)).1 = .ok paths →
          (t.getPaths .data).mapM (fullPath ctx path options) = .ok paths := by
      intro t paths ht hok
      rw [hpaths t ht]
      exact ((hscan paths).1 hok).2
    refine ⟨?_, hlisted, fun hmoved => ?_⟩
    · constructor
      · rintro ⟨t, ht, paths, hfull⟩
        rw [hpaths t ht] at hfull
        obtain ⟨hread, hdeletes⟩ := hload.1 ⟨t, ht⟩
        exact ⟨⟨paths, (hscan paths).2 ⟨hread, hfull⟩⟩, hdeletes⟩
      · rintro ⟨⟨paths, hok⟩, hdeletes⟩
        obtain ⟨t, ht⟩ := hload.2 ⟨((hscan paths).1 hok).1, hdeletes⟩
        exact ⟨t, ht, paths, hlisted t paths ht hok⟩
    · constructor
      · rintro ⟨hsucceed, -⟩ hok
        exact (hload.1 (hsucceed.2 hok)).2
      · intro hdeletes
        refine ⟨⟨?_, ?_⟩, ?_⟩
        · intro ht
          exact ⟨_, (hscan _).2 ⟨(hload.1 ht).1, mapM_fullPath hmoved _⟩⟩
        · rintro ⟨paths, hok⟩
          exact hload.2 ⟨((hscan paths).1 hok).1, hdeletes ⟨paths, hok⟩⟩
        · intro t paths ht hok
          have hfull := hlisted t paths ht hok
          rw [mapM_fullPath hmoved] at hfull
          exact Except.ok.inj hfull

/-- The files after a deleted entry are found by both. -/
theorem loaders_agree_deleted_first :
    LoadersAgree (manifestFiles deletedFirst noParquet).context "v1.metadata.json" {}
      TableFiles.snapshotOne := by
  set c := (manifestFiles deletedFirst noParquet).context
  obtain ⟨r, hinit⟩ := initializeFiles_recorded deletedFirstTable
  set l₀ := (initializeFiles c (ofPath "v1.metadata.json" {})).2 with hl₀
  have hlist : l₀ = initializedWith (ofPath "v1.metadata.json" {}) deletedFirstTable.snapshot
      deletedFirstTable.manifestOp deletedFirstTable.entryOp r
      (kept standardVectorSize (fun _ => true) 0 deletedFirstTable.chunks) := by
    rw [hl₀, hinit]
  have hopened : l₀.path = "v1.metadata.json" ∧ l₀.options = {} ∧
      l₀.entryProducer = some deletedFirstTable.entryOp := by
    rw [hlist]
    exact ⟨rfl, rfl, rfl⟩
  have hdata : l₀.dataManifests = deletedFirstTable.dataManifests := by decide +kernel
  have hdeletes : l₀.deleteManifests = [] := by decide +kernel
  have hentries : dataEntries c l₀ =
      [.ofPath .added "a", .ofPath .added "b", .ofPath .added "c"] := by
    decide +kernel
  have htypes : firstTypes c l₀ = (entryColumns []).map Prod.snd := by decide +kernel
  have hregular : Regular c l₀ := by
    refine ⟨?_, ?_, ?_, by rw [hentries]; decide⟩
    · rintro m hm scan hopen
      rw [hdata] at hm
      rw [hopened.1, hopened.2.1] at hopen
      obtain ⟨scan', hopen', hreturn, -⟩ := deletedFirst_opens m hm
      rw [hopen'] at hopen
      cases hopen
      rw [hreturn, htypes]
      rfl
    · intro op hop m hm
      rw [hopened.2.2] at hop
      cases hop
      rw [hdata] at hm
      obtain ⟨scan, hopen, hreturn, hread⟩ := deletedFirst_opens m hm
      have hdeliveries : deliveries c l₀ deletedFirstTable.entryOp (firstTypes c l₀) m =
          (deletedFirstTable.entries m).map .rows := by
        rw [deliveries, hopened.1, hopened.2.1, hopen, htypes]
        exact hread.delivers
      have hkept : ∀ m ∈ deletedFirstTable.dataManifests, lost standardVectorSize (fun _ => true) 0
          (deletedFirstTable.entries m) = [] := by
        decide +kernel
      rw [hdeliveries, chunksOf_map_rows, hkept m hm]
      exact List.forall_mem_nil _
    · rw [hentries, hopened.1, hopened.2.1]
      decide +kernel
  have hagree := ((loaders_agree_iff deletedFirstTable.selects (by decide) hregular).2.2 rfl).2
  refine hagree fun _ => ?_
  rw [← hl₀, hdeletes]
  exact List.forall_mem_nil _

/-- A table whose delete manifest is missing. -/
def manifestGone : TableFiles :=
  .table [("snap-1.avro", manifestScan [[⟨"m.avro", 1, .data⟩, ⟨"d.avro", 2, .delete⟩]]),
    ("m.avro", entryScan [] [[.ofPath .added "a"]])] noParquet

/-- A scan does not open it, `Load` does. -/
theorem not_loadersAgree_gone :
    Selects manifestGone.context "v1.metadata.json" {} TableFiles.snapshotOne ∧
      ¬ LoadersAgree manifestGone.context "v1.metadata.json" {} TableFiles.snapshotOne := by
  refine ⟨selects_table _ _, ?_⟩
  rintro ⟨hsucceed, -⟩
  have hscan : (scanFiles manifestGone.context (ofPath "v1.metadata.json" {})).1 = .ok ["a"] := by
    decide +kernel
  have hload : (load manifestGone.context "v1.metadata.json" TableFiles.snapshotOne {}).isOk =
      false := by
    decide +kernel
  obtain ⟨t, ht⟩ := hsucceed.2 ⟨_, hscan⟩
  rw [ht] at hload
  cases hload

end Loaders

end IcebergTable

end DuckIceberg
