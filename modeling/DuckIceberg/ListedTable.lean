import DuckIceberg.ListedFiles
import DuckIceberg.LoadedFiles
import DuckIceberg.TimeTravel

/-!
# Listing a table

What the table functions list of a table that is stored, and what a scan returns for it.

* `listed_snapshots_read_back`: the rows of `iceberg_snapshots`, given back to a scan as an id or as a
  time, return the rows of the table at their snapshots;
* `listed_entries_read_back`: the rows of `iceberg_metadata` are the entries of the snapshot as they were
  written.
-/

namespace DuckIceberg

open Strings Json IcebergUtils Stride Drain ManifestReader LastMax IcebergMultiFileList

/-! ### Snapshots -/

/-- The options with another snapshot: one by its id. -/
def IcebergOptions.atId (options : IcebergOptions) (id : ℕ) : IcebergOptions :=
  { options with snapshotSource := .fromId, snapshotId := id, snapshotTimestamp := 0 }

/-- One by a time. -/
def IcebergOptions.atTime (options : IcebergOptions) (ts : ℤ) : IcebergOptions :=
  { options with snapshotSource := .fromTimestamp, snapshotId := 0, snapshotTimestamp := ts }

/-- What `iceberg_snapshots` is to show of a snapshot. -/
def WrittenSnapshot.row (s : WrittenSnapshot) : SnapshotRow where
  sequenceNumber := (Json.int s.sequenceNumber).getUInt
  snapshotId := s.snapshotId
  timestampMs := (s.timestampMs * 1000 : ℕ)
  manifestList := s.manifestList

/-- The snapshots that are listed do not depend on what they are listed as. -/
theorem SnapshotsState.listed_map {β γ : Type} (f : β → γ) (l : List β) :
    listed (l.map f) = (listed l).map f := by
  have hfrom : ∀ k, listedFrom k (l.map f) = (listedFrom k l).map f := by
    intro k
    induction l generalizing k with
    | nil => rfl
    | cons x l ih =>
      cases k with
      | zero => exact ih _
      | succ k => rw [List.map_cons, listedFrom, ih, listedFrom, List.map_cons]
  exact hfrom _

namespace WrittenTable

variable {α : Type} {w : WrittenTable α} {ctx : ClientContext} {path : String}
  {options options' : IcebergOptions} {files : DataFileScan (α × ℕ)} {s : WrittenSnapshot}

/-- The files of the table are found in the same way for each of its snapshots. -/
theorem Stored.atId (h : w.Stored ctx path options files) (id : ℕ) :
    w.Stored ctx path (options.atId id) files := by
  refine ⟨h.clock, ?_, h.lists, h.manifests, h.deleteFiles, h.dataFiles, h.rowIds⟩
  have hpath : IcebergSnapshot.getMetaDataPath ctx path (options.atId id) =
      IcebergSnapshot.getMetaDataPath ctx path options := getMetaDataPath_congr ctx path rfl rfl rfl
  rw [hpath]
  exact h.metadata

theorem Stored.atTime (h : w.Stored ctx path options files) (ts : ℤ) :
    w.Stored ctx path (options.atTime ts) files := by
  refine ⟨h.clock, ?_, h.lists, h.manifests, h.deleteFiles, h.dataFiles, h.rowIds⟩
  have hpath : IcebergSnapshot.getMetaDataPath ctx path (options.atTime ts) =
      IcebergSnapshot.getMetaDataPath ctx path options := getMetaDataPath_congr ctx path rfl rfl rfl
  rw [hpath]
  exact h.metadata

/-- The last of the snapshots made at a time. -/
def LastMadeAt (w : WrittenTable α) (t : ℕ) (s : WrittenSnapshot) : Prop :=
  s.timestampMs = t ∧ ∃ pre post, w.snapshots = pre ++ s :: post ∧ ∀ x ∈ post, x.timestampMs ≠ t

theorem exists_lastMadeAt (hs : s ∈ w.snapshots) : ∃ s', w.LastMadeAt s.timestampMs s' := by
  unfold LastMadeAt
  generalize w.snapshots = l at hs
  induction l using List.reverseRecOn with
  | nil => cases hs
  | append_singleton l x ih =>
    by_cases hx : x.timestampMs = s.timestampMs
    · exact ⟨x, hx, l, [], rfl, List.forall_mem_nil _⟩
    · -- the last one was made at another time
      have hmem : s ∈ l := by
        rcases List.mem_append.1 hs with hmem | hmem
        · exact hmem
        · rw [List.mem_singleton.1 hmem] at hx
          exact absurd rfl hx
      obtain ⟨s', hs', pre, post, rfl, hpost⟩ := ih hmem
      refine ⟨s', hs', pre, post ++ [x], by simp, ?_⟩
      rw [List.forall_mem_append, List.forall_mem_singleton]
      exact ⟨hpost, hx⟩

/-- A snapshot is selected by its id. -/
theorem selected_atId (hs : s ∈ w.snapshots) (options : IcebergOptions) :
    w.Selected (options.atId s.snapshotId) (some s) :=
  ⟨s, hs, rfl, rfl⟩

/-- The last snapshot made at a time is selected by this time. -/
theorem LastMadeAt.selected (h : w.LastMadeAt s.timestampMs s) (hw : w.Valid)
    (options : IcebergOptions) :
    w.Selected (options.atTime ((s.timestampMs * 1000 : ℕ) : ℤ)) (some s) := by
  obtain ⟨-, pre, post, heq, hpost⟩ := h
  have hs : s ∈ w.snapshots := by
    rw [heq]
    exact List.mem_append_right _ List.mem_cons_self
  refine ⟨_, rfl, hw.times s hs, rfl, fun x hx => ?_, ?_⟩
  · have hle := (List.mem_filter.1 hx).2
    simp only [decide_eq_true_eq] at hle
    omega
  · refine ⟨pre.filter (·.timestampMs * 1000 ≤ s.timestampMs * 1000),
      post.filter (·.timestampMs * 1000 ≤ s.timestampMs * 1000), ?_, fun x hx => ?_⟩
    · rw [heq, List.filter_append, List.filter_cons, if_pos (by simp)]
    · exact hpost x (List.mem_of_mem_filter hx)

/-- **The listing starts** with the snapshots of the table. -/
theorem Stored.init_snapshots (h : w.Stored ctx path options files) (hw : w.Valid)
    (hversion : options'.tableVersion = options.tableVersion)
    (hformat : options'.versionNameFormat = options.versionNameFormat)
    (hcodec : options'.metadataCompressionCodec = options.metadataCompressionCodec) :
    ∃ st, SnapshotsState.init ctx path options' = .ok st ∧
      SnapshotsState.Rows ctx options' st st.snapshotIt (w.snapshots.map WrittenSnapshot.row) := by
  obtain ⟨metaPath, text, doc, hpath, hread, hdoc, hencodes⟩ := h.metadata
  obtain ⟨schemas, snapshots, hinfo, hschemas, hsnapshots⟩ := getParseInfo_of_encodes hencodes
  obtain ⟨hlist, hnum⟩ := SnapshotsState.getParseInfo_fields hinfo
  refine ⟨⟨doc, snapshots, 2⟩, ?_, ?_⟩
  · rw [SnapshotsState.init, getMetaDataPath_congr ctx path hversion hformat hcodec, hcodec]
    simp only [hpath, hread, hdoc, hnum, ← hlist, Bind.bind, Except.bind, elems]
    rfl
  · rw [SnapshotsState.Rows, List.forall₂_map_right_iff]
    have hreads : List.Forall₂ (w.Reads ctx options' schemas) w.snapshots snapshots :=
      forall₂_reads hw h.clock hschemas hsnapshots
    refine hreads.flip.imp ?_
    intro v s hsv
    refine ⟨w.parsed options' (some s), ?_, rfl⟩
    rw [SnapshotsState.parse, hinfo]
    exact hsv.parses

/-- **The rows of `iceberg_snapshots`** are those of the snapshots of the table, in their order, up to
those that are passed over behind a full chunk.  Whichever of them is given back to a scan, its id
returns the rows of the table at this snapshot, and its time those at the last snapshot that was made
then. -/
theorem listed_snapshots_read_back (hw : w.Valid) (h : w.Stored ctx path options files)
    (hversion : options'.tableVersion = options.tableVersion)
    (hformat : options'.versionNameFormat = options.versionNameFormat)
    (hcodec : options'.metadataCompressionCodec = options.metadataCompressionCodec) :
    ∃ st n outs, SnapshotsState.init ctx path options' = .ok st ∧
      drain (SnapshotsState.call ctx options') n st = some (.ok outs) ∧
      outs.flatten = (SnapshotsState.listed w.snapshots).map WrittenSnapshot.row ∧
      ∀ r ∈ outs.flatten, ∃ s ∈ w.snapshots, s.row = r ∧
        Returns ctx files (ofPath path (options.atId r.snapshotId))
          (w.contents options (some s)) (w.rowsAt (some s)) ∧
        ∃ s', w.LastMadeAt s.timestampMs s' ∧
          Returns ctx files (ofPath path (options.atTime r.timestampMs))
            (w.contents options (some s')) (w.rowsAt (some s')) := by
  obtain ⟨st, hinit, hrows⟩ := h.init_snapshots hw hversion hformat hcodec
  obtain ⟨n, outs, hdrain, hflat, -⟩ := SnapshotsState.snapshots_drained hrows
  rw [SnapshotsState.listed_map] at hflat
  refine ⟨st, n, outs, hinit, hdrain, hflat, fun r hr => ?_⟩
  rw [hflat] at hr
  obtain ⟨s, hs, rfl⟩ := List.mem_map.1 hr
  replace hs := (SnapshotsState.listed_sublist w.snapshots).subset hs
  obtain ⟨s', hs'⟩ := exists_lastMadeAt hs
  have hlast : w.LastMadeAt s'.timestampMs s' := by rw [hs'.1]; exact hs'
  refine ⟨s, hs, rfl, (h.atId _).returns hw (selected_atId hs options), s', hs', ?_⟩
  have htime : (s.row.timestampMs : ℤ) = ((s'.timestampMs * 1000 : ℕ) : ℤ) := by rw [hs'.1]; rfl
  rw [htime]
  exact (h.atTime _).returns hw (hlast.selected hw options)

/-! ### Entries -/

/-- All of a list is offered in vectors. -/
theorem kept_vectors {β : Type} (l : List β) :
    kept standardVectorSize (fun _ => true) 0 (vectors l) = l := by
  have hlost : lost standardVectorSize (fun _ => true) 0 (vectors l) = [] :=
    lost_cutEvery (Or.inr fun _ _ => rfl)
  have hall : (kept standardVectorSize (fun _ => true) 0 (vectors l)).filter (fun _ => true) =
      (vectors l).flatten.filter fun _ => true := by
    rw [kept_filter_eq_iff, hlost]
    exact List.forall_mem_nil _
  rw [flatten_vectors] at hall
  simpa using hall

/-- **The eager loader** reads the manifests and the entries of the snapshot as they were written. -/
theorem Stored.load_eq (h : w.Stored ctx path options files) (hw : w.Valid)
    (hs : w.Selected options (some s)) :
    IcebergTable.load ctx path (w.parsed options (some s)) options =
      .ok ⟨path, w.parsed options (some s), s.manifests.map fun m => ⟨m.1, m.2⟩⟩ := by
  refine (IcebergTable.load_eq_ok rfl).2 ⟨s.manifests.map Prod.fst, _, ?_, ?_, rfl⟩
  · rcases h.manifestListIs hw hs with ⟨hid, -⟩ | ⟨-, scan, hopen, hread⟩
    · exact absurd hid (hw.idRange s (mem_snapshots_of_selected hs)).ne
    · exact IcebergTable.scanAvroMetadata_eq_ok.2 ⟨scan, _, hopen, hread, (kept_vectors _).symm⟩
  · refine IcebergTable.readManifestEntries_eq_ok.2 ?_
    rw [List.forall₂_map_left_iff, List.forall₂_map_right_iff, List.forall₂_same]
    intro m hm
    refine ⟨rfl, ?_⟩
    have hmem : m.1 ∈ (h.recorded hw (some s) hs).chunks.flatten := by
      show m.1 ∈ (vectors _).flatten
      rw [flatten_vectors]
      exact List.mem_map_of_mem hm
    obtain ⟨scan, hopen, htypes, hread⟩ := recorded_opens h hw hs hmem
    rw [← htypes, recorded_entries h hw hs hm] at hread
    exact IcebergTable.scanAvroMetadata_eq_ok.2 ⟨scan, _, hopen, hread, (kept_vectors _).symm⟩

/-- **The rows of `iceberg_metadata`** for a snapshot are its entries as they were written, each with its
manifest, and the data files that they list as not deleted are those that a scan with the same parameters
reads. -/
theorem listed_entries_read_back (hw : w.Valid) (h : w.Stored ctx path options files)
    (hs : w.Selected options (some s))
    (hvalid : ∀ m ∈ s.manifests, ∀ e ∈ m.2, MetadataState.Valid (m.1, e))
    {base : String → ParameterValue → Except Error Bool} {ps ps' : NamedParameters}
    (hshare : Share metadataNames ps ps') (hscan : parseOptions base ps.map.entries = .ok options) :
    ∃ t columns n outs,
      icebergMetaDataBind ctx path options.selector ps'.map.entries = .ok (t, columns) ∧
      drain (MetadataState.call t) n {} = some (.ok outs) ∧
      outs.flatten =
        (s.manifests.flatMap fun m => m.2.map fun e => (m.1, e)).map MetadataState.row ∧
      MetadataState.listedFiles outs.flatten =
        (w.contents options (some s)).files.map Prod.fst := by
  have hload := h.load_eq hw hs
  set t : IcebergTable := ⟨path, w.parsed options (some s), s.manifests.map fun m => ⟨m.1, m.2⟩⟩
  have hpairs : MetadataState.pairs t.entries = s.manifests.flatMap fun m => m.2.map fun e => (m.1, e) :=
    List.flatMap_map ..
  have hall : ∀ p ∈ MetadataState.pairs t.entries, MetadataState.Valid p := by
    rw [hpairs]
    intro p hp
    obtain ⟨m, hm, hp⟩ := List.mem_flatMap.1 hp
    obtain ⟨e, he, rfl⟩ := List.mem_map.1 hp
    exact hvalid m hm e he
  obtain ⟨n, outs, hdrain, hrows⟩ := MetadataState.drain_call t hall
  refine ⟨t, _, n, outs, (bind_eq_ok_iff hshare hscan).2 ⟨⟨_, h.selects hw hs, hload⟩, rfl⟩, hdrain,
    by rw [hrows, hpairs], ?_⟩
  rw [hrows, MetadataState.listedFiles_pairs hall, IcebergTable.getPaths, contents, List.map_map,
    WrittenTable.manifestsOf, Option.elim_some, WrittenManifests.dataFiles, WrittenManifests.live,
    List.filter_map, List.flatMap_map, List.map_flatMap]
  rfl

/-! ### A table with two snapshots -/

/-- The first of its snapshots, read by the id of its row. -/
theorem listed_snapshots_read_back_numbers :
    ∃ st n outs, SnapshotsState.init numbersContext "s3://b/m.json" {} = .ok st ∧
      drain (SnapshotsState.call numbersContext {}) n st = some (.ok outs) ∧
      ∃ r ∈ outs.flatten, r = ⟨1, 1, 10000, "snap-1.avro"⟩ ∧
        (((scan numbersContext numbersFiles firstCalls
          (ofPath "s3://b/m.json" (IcebergOptions.atId {} r.snapshotId))).flatMap
          rowsReturned).map Prod.fst).Perm [10, 20, 30] := by
  have hstored : (numbersTable.commits [numbersCommit]).Stored numbersContext "s3://b/m.json" {}
      numbersFiles := numbersCommit_stored rfl rfl
  obtain ⟨st, n, outs, hinit, hdrain, hflat, hback⟩ := @listed_snapshots_read_back _ _ _ _ _ {} _
    numbersCommit_valid hstored rfl rfl rfl
  have hr : (⟨1, 1, 10000, "snap-1.avro"⟩ : SnapshotRow) ∈ outs.flatten := by
    rw [hflat]
    decide +kernel
  obtain ⟨s, hs, hrow, hreturns, -⟩ := hback _ hr
  -- no other snapshot has this row
  have hfirst : s ∈ numbersTable.snapshots := by
    rcases List.mem_append.1 hs with hs | hs
    · exact hs
    · rw [List.mem_singleton.1 hs] at hrow
      exact absurd hrow (by decide)
  obtain rfl := List.mem_singleton.1 hfirst
  exact ⟨st, n, outs, hinit, hdrain, _, hr, rfl,
    hreturns.rows _ firstCalls_follows (by decide)⟩

/-- The files of its second snapshot. -/
theorem listed_entries_read_back_numbers :
    ∃ t columns n outs,
      icebergMetaDataBind numbersContext "s3://b/m.json" none noParameters.map.entries =
        .ok (t, columns) ∧
      drain (MetadataState.call t) n {} = some (.ok outs) ∧
      outs.flatten.map (·.filePath) = ["a.parquet", "b.parquet", "d.parquet"] := by
  have hvalid : ∀ m ∈ numbersCommit.snapshot.manifests, ∀ e ∈ m.2, MetadataState.Valid (m.1, e) := by
    intro m hm e he
    rcases List.mem_cons.1 hm with rfl | hm
    · rcases List.mem_cons.1 he with rfl | he
      · exact ⟨by rintro _ ⟨⟩, by rintro _ ⟨⟩, by rintro _ ⟨⟩⟩
      · rw [List.mem_singleton.1 he]
        exact ⟨by rintro _ ⟨⟩, by rintro _ ⟨⟩, by rintro _ ⟨⟩⟩
    · rw [List.mem_singleton.1 hm] at he ⊢
      rw [List.mem_singleton.1 he]
      exact ⟨by rintro _ ⟨⟩, by rintro _ ⟨⟩, by rintro _ ⟨⟩⟩
  have hscan : parseOptions (fun _ _ => .ok false) noParameters.map.entries = .ok {} := rfl
  obtain ⟨t, columns, n, outs, hbind, hdrain, hrows, -⟩ := listed_entries_read_back
    numbersCommit_valid (numbersCommit_stored rfl rfl) numbersCommit_selected hvalid
    (fun _ _ => rfl) hscan
  refine ⟨t, columns, n, outs, hbind, hdrain, ?_⟩
  rw [hrows]
  decide +kernel

end WrittenTable

end DuckIceberg
