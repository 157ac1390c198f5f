import DuckIceberg.FilesOnDemand
import DuckIceberg.ScanInto
import DuckIceberg.TableFiles

/-!
# Initialisation of the file list

When `InitializeFiles` succeeds, what it leaves then, and what it leaves when it throws.

* `initializeFiles_spec`: on a table whose metadata and manifest list can be read, the lists of
  manifests are those that reading the manifest list to its end keeps;
* `initializes_of_ok`: on any other table it throws;
* `initializeFiles_allOrNothing`: the list counts as initialised even then, so that it does not go on
  like a fresh list.
-/

namespace DuckIceberg

open Strings Stride ManifestReader

namespace IcebergMultiFileList

/-! ### The tables that can be initialised -/

/-- The options select this snapshot of the table. -/
def Selects (ctx : ClientContext) (path : String) (options : IcebergOptions)
    (snapshot : IcebergSnapshot) : Prop :=
  ∃ metaPath, IcebergSnapshot.getMetaDataPath ctx path options = .ok metaPath ∧
    IcebergSnapshot.select ctx metaPath options = .ok snapshot

/-- The table is empty, or its manifest list is opened and read without an exception, and `chunks`
are its manifests. -/
def ManifestListIs (ctx : ClientContext) (path : String) (options : IcebergOptions)
    (op : ManifestFormat IcebergManifest) (snapshot : IcebergSnapshot)
    (chunks : List (List IcebergManifest)) : Prop :=
  snapshot.snapshotId = invalidIndex ∧ chunks = [] ∨
    snapshot.snapshotId ≠ invalidIndex ∧
      ∃ scan, openAvro ctx path options snapshot.manifestList = .ok scan ∧
        Readable op scan.returnTypes scan chunks

/-- No step of `InitializeFiles` throws: the metadata file is found, read and parsed, a snapshot of
a supported version is selected, and its manifest list can be read. -/
def Initializes (ctx : ClientContext) (path : String) (options : IcebergOptions) : Prop :=
  ∃ snapshot manifestOp entryOp chunks, Selects ctx path options snapshot ∧
    formats snapshot.icebergFormatVersion = some (manifestOp, entryOp) ∧
    ManifestListIs ctx path options manifestOp snapshot chunks

/-- A table as its files record it: the selected snapshot, the chunks of its manifest list, and for
each manifest the chunks of its entries and the types of its columns. -/
structure Recorded (ctx : ClientContext) (path : String) (options : IcebergOptions) where
  snapshot : IcebergSnapshot
  manifestOp : ManifestFormat IcebergManifest
  entryOp : ManifestFormat IcebergManifestEntry
  chunks : List (List IcebergManifest)
  entries : IcebergManifest → List (List IcebergManifestEntry)
  types : IcebergManifest → List LogicalType
  selects : Selects ctx path options snapshot
  supported : formats snapshot.icebergFormatVersion = some (manifestOp, entryOp)
  manifestList : ManifestListIs ctx path options manifestOp snapshot chunks

section Recorded

variable {ctx : ClientContext} {path : String} {options : IcebergOptions}

/-- The manifests with data files, in the order of the manifest list. -/
def Recorded.dataManifests (t : Recorded ctx path options) : List IcebergManifest :=
  t.chunks.flatten.filter (·.content == .data)

/-- The other manifests, in the order of the manifest list. -/
def Recorded.deleteManifests (t : Recorded ctx path options) : List IcebergManifest :=
  t.chunks.flatten.filter (·.content != .data)

/-- The entries of these manifests that are not deleted. -/
def Recorded.live (t : Recorded ctx path options) (manifests : List IcebergManifest) :
    List IcebergManifestEntry :=
  manifests.flatMap fun manifest =>
    (t.entries manifest).flatten.filter IcebergManifestEntry.live

/-- The live data files of the snapshot. -/
def Recorded.dataFiles (t : Recorded ctx path options) : List IcebergManifestEntry :=
  t.live t.dataManifests

/-- The manifest is opened and read without an exception. -/
def Recorded.Opens (t : Recorded ctx path options) (manifest : IcebergManifest) : Prop :=
  ManifestIs ctx path options t.entryOp (t.types manifest) manifest (t.entries manifest)

/-- The manifests that reading the manifest list passes over. -/
def Recorded.passedOver (t : Recorded ctx path options) : List IcebergManifest :=
  lost standardVectorSize (fun _ => true) 0 t.chunks

end Recorded

/-- The list once it is initialised, with these manifests. -/
def initializedWith (l : IcebergMultiFileList) (snapshot : IcebergSnapshot)
    (manifestOp : ManifestFormat IcebergManifest) (entryOp : ManifestFormat IcebergManifestEntry)
    (manifestReader : ManifestReader) (manifests : List IcebergManifest) : IcebergMultiFileList :=
  { l with
    initialized := true
    snapshot
    manifestReader := some manifestReader
    dataManifestEntryReader := some { make entryOp with skipDeleted := true }
    deleteManifestEntryReader := some { make entryOp with skipDeleted := true }
    manifestProducer := some manifestOp
    entryProducer := some entryOp
    dataManifests := l.dataManifests ++ manifests.filter (·.content == .data)
    deleteManifests := l.deleteManifests ++ manifests.filter (·.content != .data)
    currentDataManifest := 0
    currentDeleteManifest := 0 }

/-- The snapshot of a table with one snapshot. -/
theorem selects_table (avro : List (String × AvroScan)) (parquet : String → Option ParquetScan) :
    Selects (TableFiles.table avro parquet).context "v1.metadata.json" {} TableFiles.snapshotOne :=
  ⟨"v1.metadata.json", rfl, TableFiles.select_table avro parquet⟩

/-- The manifest list of a table with one snapshot. -/
theorem manifestListIs_table {chunks : List (List IcebergManifest)}
    (avro : List (String × AvroScan)) (parquet : String → Option ParquetScan)
    (hd : ∀ ms ∈ chunks, Deliverable ms) (hw : ∀ ms ∈ chunks, ∀ m ∈ ms, m.Writable) :
    ManifestListIs (TableFiles.table (("snap-1.avro", manifestScan chunks) :: avro) parquet).context
      "v1.metadata.json" {} icebergManifestV2 TableFiles.snapshotOne chunks :=
  Or.inr ⟨by decide, manifestScan chunks, rfl, manifestScan_readable hd hw⟩

/-- The files of a table with one snapshot that has these manifests. -/
def manifestFiles (manifests : List (IcebergManifest × List (List IcebergManifestEntry)))
    (parquet : String → Option ParquetScan) : TableFiles :=
  .table (("snap-1.avro", manifestScan [manifests.map Prod.fst]) ::
    manifests.map fun m => (m.1.manifestPath, entryScan [] m.2)) parquet

/-- What these files record. -/
def recordedOf (manifests : List (IcebergManifest × List (List IcebergManifestEntry)))
    (parquet : String → Option ParquetScan) (hd : Deliverable (manifests.map Prod.fst))
    (hw : ∀ m ∈ manifests, m.1.Writable) :
    Recorded (manifestFiles manifests parquet).context "v1.metadata.json" {} where
  snapshot := TableFiles.snapshotOne
  manifestOp := icebergManifestV2
  entryOp := icebergManifestEntryV2
  chunks := [manifests.map Prod.fst]
  entries m := (manifests.lookup m).getD []
  types _ := (entryColumns []).map Prod.snd
  selects := selects_table _ _
  supported := rfl
  manifestList := manifestListIs_table _ _ (by simpa using hd) (by simpa using hw)

/-- Their manifests are opened under their paths. -/
theorem recordedOf_openAvro {manifests : List (IcebergManifest × List (List IcebergManifestEntry))}
    (parquet : String → Option ParquetScan)
    (hpaths : ("snap-1.avro" :: manifests.map (·.1.manifestPath)).Nodup) :
    ∀ m ∈ manifests.map Prod.fst,
      openAvro (manifestFiles manifests parquet).context "v1.metadata.json" {} m.manifestPath =
        .ok (entryScan [] ((manifests.lookup m).getD [])) := by
  intro m hm
  obtain ⟨⟨m, chunks⟩, hmem, rfl⟩ := List.mem_map.1 hm
  have hnodup : (manifests.map Prod.fst).Nodup := by
    refine List.Nodup.of_map IcebergManifest.manifestPath ?_
    rw [List.map_map]
    exact (List.nodup_cons.1 hpaths).2
  rw [TableFiles.lookup_of_mem hnodup hmem, Option.getD_some]
  have hscan : (manifestFiles manifests parquet).avro.lookup m.manifestPath =
      some (entryScan [] chunks) := by
    refine TableFiles.lookup_of_mem ?_ (List.mem_cons_of_mem _ (List.mem_map.2 ⟨_, hmem, rfl⟩))
    rw [show (manifestFiles manifests parquet).avro.map Prod.fst =
        "snap-1.avro" :: manifests.map (·.1.manifestPath) by
      simp [manifestFiles, TableFiles.table, Function.comp_def]]
    exact hpaths
  have hread : (manifestFiles manifests parquet).context.readAvro m.manifestPath =
      .ok (entryScan [] chunks) := by
    simp only [TableFiles.context, TableFiles.openFile, hscan]
  simp only [openAvro, fullPath, Bool.false_eq_true, if_false, Bind.bind, Except.bind, hread]
  rfl

/-- Their manifests can be read. -/
theorem recordedOf_opens {manifests : List (IcebergManifest × List (List IcebergManifestEntry))}
    (parquet : String → Option ParquetScan) (hd : Deliverable (manifests.map Prod.fst))
    (hw : ∀ m ∈ manifests, m.1.Writable)
    (hpaths : ("snap-1.avro" :: manifests.map (·.1.manifestPath)).Nodup)
    (hentries : ∀ m ∈ manifests, ∀ es ∈ m.2, Deliverable es ∧ ∀ e ∈ es, e.Writable) :
    ∀ m ∈ manifests.map Prod.fst, (recordedOf manifests parquet hd hw).Opens m := by
  intro m hm
  refine ⟨_, recordedOf_openAvro parquet hpaths m hm, rfl, ?_⟩
  show Readable icebergManifestEntryV2 _ _ ((manifests.lookup m).getD [])
  have hall : ∀ es ∈ (manifests.lookup m).getD [], Deliverable es ∧ ∀ e ∈ es, e.Writable := by
    intro es hes
    cases hlookup : manifests.lookup m with
    | none =>
      rw [hlookup] at hes
      cases hes
    | some chunks =>
      rw [hlookup] at hes
      obtain ⟨pre, post, rfl, -⟩ := List.lookup_eq_some_iff.1 hlookup
      exact hentries (m, chunks) (by simp) es hes
  exact entryScan_readable apart_nil (fun es hes => (hall es hes).1) fun es hes => (hall es hes).2

/-- **Initialisation of a readable table.** -/
theorem initializeFiles_spec {ctx : ClientContext} {l : IcebergMultiFileList}
    {snapshot : IcebergSnapshot} {manifestOp : ManifestFormat IcebergManifest}
    {entryOp : ManifestFormat IcebergManifestEntry} {chunks : List (List IcebergManifest)}
    (hl : l.initialized = false) (hs : Selects ctx l.path l.options snapshot)
    (hf : formats snapshot.icebergFormatVersion = some (manifestOp, entryOp))
    (hm : ManifestListIs ctx l.path l.options manifestOp snapshot chunks) :
    ∃ r, initializeFiles ctx l = (.ok (), initializedWith l snapshot manifestOp entryOp r
      (kept standardVectorSize (fun _ => true) 0 chunks)) := by
  obtain ⟨metaPath, hpath, hselect⟩ := hs
  have hinit : initializeFiles ctx l =
      setUpReaders ctx { l with initialized := true, snapshot } := by
    simp only [initializeFiles, hl, hpath, hselect, Bool.false_eq_true, if_false]
  rw [hinit, setUpReaders]
  simp only [hf]
  rcases hm with ⟨hid, rfl⟩ | ⟨hid, scan, hopen, hread⟩
  · refine ⟨make manifestOp, ?_⟩
    simp [openManifestList, hid, initializedWith, kept]
  · obtain ⟨r, r', hinstall, hall, -⟩ :=
      readAll_of_readable (make_readerOf manifestOp) hread []
    rw [List.nil_append, show (make manifestOp).skipDeleted = false from rfl,
      keptEntries_false] at hall
    refine ⟨r', ?_⟩
    simp only [openManifestList, if_neg hid, hopen, hinstall, readManifests, hall]
    rfl

/-- Initialisation of a list of a recorded table. -/
theorem initializeFiles_recorded {ctx : ClientContext} {path : String} {options : IcebergOptions}
    (t : Recorded ctx path options) :
    ∃ r, initializeFiles ctx (ofPath path options) =
      (.ok (), initializedWith (ofPath path options) t.snapshot t.manifestOp t.entryOp r
        (kept standardVectorSize (fun _ => true) 0 t.chunks)) :=
  initializeFiles_spec rfl t.selects t.supported t.manifestList

/-! ### Throwing -/

/-- A list that can be initialised is one that `InitializeFiles` does not throw on. -/
theorem initializes_of_ok {ctx : ClientContext} {l l' : IcebergMultiFileList}
    (hl : l.initialized = false) (h : initializeFiles ctx l = (.ok (), l')) :
    Initializes ctx l.path l.options := by
  unfold initializeFiles at h
  rw [if_neg (by simp [hl])] at h
  cases hpath : IcebergSnapshot.getMetaDataPath ctx l.path l.options with
  | error e => simp [hpath] at h
  | ok metaPath =>
    cases hselect : IcebergSnapshot.select ctx metaPath l.options with
    | error e => simp [hpath, hselect] at h
    | ok snapshot =>
      simp only [hpath, hselect, setUpReaders] at h
      cases hf : formats snapshot.icebergFormatVersion with
      | none => simp [hf] at h
      | some ops =>
        obtain ⟨manifestOp, entryOp⟩ := ops
        simp only [hf, openManifestList] at h
        by_cases hid : snapshot.snapshotId = invalidIndex
        · exact ⟨snapshot, manifestOp, entryOp, [], ⟨metaPath, hpath, hselect⟩, hf,
            Or.inl ⟨hid, rfl⟩⟩
        simp only [if_neg hid] at h
        cases hopen : openAvro ctx l.path l.options snapshot.manifestList with
        | error e => simp [hopen] at h
        | ok scan =>
          simp only [hopen] at h
          rcases hinstall : (make manifestOp).initializeWith scan with ⟨e | u, r⟩
          · simp [hinstall] at h
          simp only [hinstall, readManifests] at h
          rcases hall : readAll manifestOp r [] with ⟨e | u, r', manifests⟩
          · simp [hall] at h
          obtain ⟨chunks, hread⟩ := readable_of_readAll (make_readerOf manifestOp)
            (openAvro_unread hopen) hinstall hall
          exact ⟨snapshot, manifestOp, entryOp, chunks, ⟨metaPath, hpath, hselect⟩, hf,
            Or.inr ⟨hid, scan, hopen, hread⟩⟩

/-- The flag is set before any step that may throw. -/
theorem initialized_after (ctx : ClientContext) (l : IcebergMultiFileList) :
    (initializeFiles ctx l).2.initialized = true := by
  unfold initializeFiles setUpReaders openManifestList readManifests
  by_cases hl : l.initialized = true
  · rw [if_pos hl]
    exact hl
  rw [if_neg hl]
  split
  · rfl
  split
  · rfl
  split
  · rfl
  split_ifs
  · rfl
  split
  · rfl
  split
  · rfl
  split <;> rfl

theorem initializeFiles_again {ctx : ClientContext} {l : IcebergMultiFileList}
    (hl : l.initialized = true) : initializeFiles ctx l = (.ok (), l) := by
  rw [initializeFiles, if_pos hl]

/-! ### The public calls -/

/-- A call of a public function of the list. -/
inductive Call
  | bind
  | getFile (i : ℕ)
  | getExpandResult
  | getTotalFileCount
  | getCardinality
  deriving DecidableEq, Repr

/-- What a call returns. -/
inductive Answer
  | columns (columns : List (String × LogicalType))
  | file (path : String)
  | expands (result : FileExpandResult)
  | count (n : ℕ)
  | cardinality (c : Option (ℕ × ℕ))
  deriving DecidableEq, Repr

/-- An outcome, with its value read as an answer. -/
def answer {α : Type} (f : α → Answer) :
    Outcome IcebergMultiFileList α → Outcome IcebergMultiFileList Answer
  | (.ok a, l) => (.ok (f a), l)
  | (.error e, l) => (.error e, l)

/-- A call of a public function. -/
def call (ctx : ClientContext) (l : IcebergMultiFileList) :
    Call → Outcome IcebergMultiFileList Answer
  | .bind => answer .columns (bind ctx l)
  | .getFile i => answer .file (getFile ctx i l)
  | .getExpandResult => answer .expands (getExpandResult ctx l)
  | .getTotalFileCount => answer .count (getTotalFileCount ctx l)
  | .getCardinality => answer .cardinality (getCardinality ctx l)

/-- The answers to a sequence of calls, each made in its own context: files come and go between
them. -/
def answers : List (ClientContext × Call) → IcebergMultiFileList → List (Except Error Answer)
  | [], _ => []
  | (ctx, c) :: calls, l => (call ctx l c).1 :: answers calls (call ctx l c).2

/-- If `InitializeFiles` throws, the list behaves as if it had never been initialised. -/
def AllOrNothing (ctx : ClientContext) (l : IcebergMultiFileList) : Prop :=
  ∀ e l', initializeFiles ctx l = (.error e, l') →
    ∀ calls, answers calls l' = answers calls l

/-- **Initialisation is all or nothing** exactly on the tables that it does not fail on: a list
whose initialisation threw counts as initialised, and the next `Bind` returns columns. -/
theorem initializeFiles_allOrNothing (ctx : ClientContext) (l : IcebergMultiFileList)
    (hl : l.initialized = false) :
    AllOrNothing ctx l ↔ Initializes ctx l.path l.options := by
  constructor
  · intro h
    rcases hinit : initializeFiles ctx l with ⟨e | u, l'⟩
    · exfalso
      have hl' : l'.initialized = true := by
        have := initialized_after ctx l
        rwa [hinit] at this
      have hsame := h e l' hinit [(ctx, .bind)]
      simp only [answers, call, bind, initializeFiles_again hl', hinit, answer, List.cons.injEq,
        reduceCtorEq, false_and] at hsame
    · exact initializes_of_ok hl hinit
  · rintro ⟨snapshot, manifestOp, entryOp, chunks, hs, hf, hm⟩ e l' h
    obtain ⟨r, hok⟩ := initializeFiles_spec hl hs hf hm
    rw [hok] at h
    cases h

/-- A table that can be initialised. -/
theorem initializeFiles_allOrNothing_one_manifest :
    AllOrNothing (TableFiles.table [("snap-1.avro", manifestScan [[⟨"m.avro", 1, .data⟩]])]
      noParquet).context (ofPath "v1.metadata.json" {}) :=
  (initializeFiles_allOrNothing _ (ofPath "v1.metadata.json" {}) rfl).2
    ⟨TableFiles.snapshotOne, icebergManifestV2, icebergManifestEntryV2, _, selects_table _ _, rfl,
      manifestListIs_table [] noParquet (by decide) (by decide)⟩

/-- A table whose manifest list is missing: after the exception it is an empty table. -/
theorem not_allOrNothing_missing_manifest_list :
    let ctx := (TableFiles.table [] noParquet).context
    let l := ofPath "v1.metadata.json" {}
    answers [(ctx, .getTotalFileCount)] l = [.error (TableFiles.missing "snap-1.avro")] ∧
      answers [(ctx, .getTotalFileCount)] (initializeFiles ctx l).2 = [.ok (.count 0)] ∧
      ¬ AllOrNothing ctx l := by
  intro ctx l
  have hthrows : (initializeFiles ctx l).1 = .error (TableFiles.missing "snap-1.avro") := by
    decide +kernel
  have hbefore : answers [(ctx, .getTotalFileCount)] l =
      [.error (TableFiles.missing "snap-1.avro")] := by
    decide +kernel
  have hafter : answers [(ctx, .getTotalFileCount)] (initializeFiles ctx l).2 =
      [.ok (.count 0)] := by
    decide +kernel
  refine ⟨hbefore, hafter, fun h => ?_⟩
  have hsame := h _ (initializeFiles ctx l).2 (Prod.ext hthrows rfl) [(ctx, .getTotalFileCount)]
  rw [hbefore, hafter] at hsame
  cases hsame

end IcebergMultiFileList

end DuckIceberg
