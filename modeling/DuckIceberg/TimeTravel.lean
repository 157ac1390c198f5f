import DuckIceberg.WrittenTable

/-!
# Reading a table back

A table that is written is returned by a scan: whatever snapshot the options ask for, its rows are those
of its data files at the positions that no delete file names.  Commits only add to a table, so what was
the table before them stays there to be read.

* `read_back`: the scan of a stored table;
* `time_travel`: the scan of a table that has been committed to since.
-/

namespace DuckIceberg

open Strings Stride ManifestReader LastMax IcebergMultiFileList

/-- Whatever the order of its calls, a scan of this list is answered from these contents, and returns
these rows when every chunk is asked for once. -/
structure Returns {α : Type} (ctx : ClientContext) (files : DataFileScan (α × ℕ))
    (list : IcebergMultiFileList) (contents : TableContents (α × ℕ)) (rows : List α) : Prop where
  answers : ∀ calls, Machine.Follows oneByOne 0 calls →
    (scan ctx files calls list).map Prod.fst = calls.map fun c => .ok (contents.answer files.rowId c)
  rows : ∀ calls, Machine.Follows oneByOne 0 calls →
    (calls.filterMap (ScanCall.chunkOf contents)).Perm contents.chunkIds →
    (((scan ctx files calls list).flatMap rowsReturned).map Prod.fst).Perm rows

namespace WrittenTable

variable {α : Type} {w : WrittenTable α} {ctx : ClientContext} {path : String}
  {options : IcebergOptions} {files : DataFileScan (α × ℕ)}

/-! ### The contents of a snapshot -/

/-- The columns, the data files and the deleted positions of a snapshot. -/
def contents (w : WrittenTable α) (options : IcebergOptions) (o : Option WrittenSnapshot) :
    TableContents (α × ℕ) where
  columns := (w.columns options).map fun c => (c.name, c.type)
  files := (WrittenTable.manifestsOf o).dataFiles.map fun e =>
    (e.filePath, numberedFrom 0 (w.chunksIn e.filePath))
  deleted := w.deletedIn (WrittenTable.manifestsOf o)

/-- They are the rows of the table, with their numbers. -/
theorem rows_contents {rowId : α × ℕ → ℤ} (hrow : ∀ x, rowId x = (x.2 : ℤ))
    (o : Option WrittenSnapshot) :
    ((w.contents options o).rows rowId).map Prod.fst = w.rowsAt o := by
  have hfile : ∀ file (chunks : List (List α)),
      ((w.contents options o).remaining rowId file (numberedFrom 0 chunks).flatten).map Prod.fst =
        (chunks.flatten.zipIdx.filter fun x =>
          !(w.deletedIn (WrittenTable.manifestsOf o)).contains (file, (x.2 : ℤ))).map Prod.fst := by
    intro file chunks
    rw [TableContents.remaining, flatten_numberedFrom]
    simp only [hrow]
    rfl
  rw [TableContents.rows, contents, List.flatMap_map, List.map_flatMap]
  exact List.flatMap_congr fun e _ => hfile e.filePath _

/-! ### Delete files -/

/-- The positions are read as they were written. -/
theorem streamPairs_positionScan (chunks : List Positions) :
    streamPairs (positionScan chunks).returnTypes (positionScan chunks).stream =
      .ok (chunks.flatMap Subtype.val) := by
  have hbatch : ∀ ps : Positions, batchPairs
      ⟨[.varchar (ps.1.map Prod.fst), .int64 (ps.1.map Prod.snd)], ps.1.length, ps.2.1, ps.2.2⟩ =
        .ok ps.1 := by
    intro ps
    have hpairs : (List.range ps.1.length).map (fun i =>
        ((ps.1.map Prod.fst).getD i "", (ps.1.map Prod.snd).getD i 0)) = ps.1 := by
      refine List.ext_getElem (by simp) fun i h1 h2 => ?_
      simp [h2]
    exact congrArg Except.ok hpairs
  unfold positionScan
  dsimp only
  induction chunks with
  | nil => rfl
  | cons ps chunks ih =>
    rw [List.map_cons, streamPairs, ih]
    simp only [Bind.bind, Except.bind, hbatch]
    rfl

theorem Stored.deletePairs_eq (h : w.Stored ctx path options files) {file : String}
    (hfile : (w.deleteFiles.lookup file).isSome = true) :
    deletePairs ctx file = .ok (w.positionsIn file) := by
  obtain ⟨chunks, hchunks⟩ := Option.isSome_iff_exists.1 hfile
  rw [deletePairs, h.deleteFiles file chunks hchunks, positionsIn, hchunks]
  exact streamPairs_positionScan chunks

/-- **The files hold the contents** of the snapshot that is selected. -/
theorem Stored.holds (h : w.Stored ctx path options files) (hw : w.Valid)
    {o : Option WrittenSnapshot} (ho : w.Selected options o) :
    (h.recorded hw o ho).Holds files (w.contents options o) where
  columns := by cases o <;> rfl
  chunks := by
    rw [recorded_dataFiles, contents, List.forall₂_map_right_iff, List.forall₂_same]
    intro e he
    obtain ⟨chunks, hchunks⟩ := Option.isSome_iff_exists.1 ((hw.manifestsOf ho).dataFiles e he)
    obtain ⟨p, hp, hne, hread⟩ := h.dataFiles e.filePath chunks hchunks
    refine ⟨rfl, p, hp, hne, ?_⟩
    rw [hread, chunksIn, hchunks]
    rfl
  positions := by
    rw [recorded_deleteFiles]
    exact (hw.manifestsOf ho).positions
  canScan := by
    rw [recorded_deleteFiles]
    exact fun e he => ⟨_, h.deletePairs_eq ((hw.manifestsOf ho).deleteFiles e he)⟩
  deleted := by
    rw [recorded_deleteFiles]
    refine List.flatMap_congr fun e he => ?_
    rw [pairsIn, h.deletePairs_eq ((hw.manifestsOf ho).deleteFiles e he)]
  letters file hfile p hp hci := by
    obtain ⟨e, he, rfl⟩ := List.mem_map.1 hfile
    have hname : p.1 = e.filePath := (hw.manifestsOf ho).letters e he p hp hci
    show (e.filePath, p.2) ∈ (w.contents options o).deleted
    rw [← hname]
    exact hp

/-! ### Scans -/

/-- A scan of a table that is stored returns the rows of the snapshot. -/
theorem Stored.returns (h : w.Stored ctx path options files) (hw : w.Valid)
    {o : Option WrittenSnapshot} (ho : w.Selected options o) :
    Returns ctx files (ofPath path options) (w.contents options o) (w.rowsAt o) := by
  have hread := recorded_readable h hw ho
  obtain ⟨l, types, hl, hscan⟩ := scan_ofPath hread files
  have hanswers : ∀ calls, Machine.Follows oneByOne 0 calls →
      (scan ctx files calls (ofPath path options)).map Prod.fst =
        calls.map fun c => .ok ((w.contents options o).answer files.rowId c) := by
    intro calls hcalls
    rw [hscan]
    exact hl.answers_eq hread (h.holds hw ho) hcalls
  refine ⟨hanswers, fun calls hcalls honce => ?_⟩
  rw [← rows_contents h.rowIds o]
  exact (rows_of_answers (hanswers calls hcalls) honce).2.map Prod.fst

/-- **A table is read back.**  The options select a snapshot of a table that is stored.  However the
threads of a scan take turns, as long as they ask for files one after the other, each call is answered
from the contents of the snapshot, with the columns of the current schema; and when every chunk is asked
for once, the rows that are returned are the rows of the table at this snapshot. -/
theorem read_back (hw : w.Valid) (h : w.Stored ctx path options files) {o : Option WrittenSnapshot}
    (ho : w.Selected options o) {calls : List ScanCall}
    (hcalls : Machine.Follows oneByOne 0 calls)
    (honce : (calls.filterMap (ScanCall.chunkOf (w.contents options o))).Perm
      (w.contents options o).chunkIds) :
    (scan ctx files calls (ofPath path options)).map Prod.fst =
        calls.map (fun c => .ok ((w.contents options o).answer files.rowId c)) ∧
      (((scan ctx files calls (ofPath path options)).flatMap rowsReturned).map Prod.fst).Perm
        (w.rowsAt o) := by
  have hreturns := h.returns hw ho
  exact ⟨hreturns.answers calls hcalls, hreturns.rows calls hcalls honce⟩

/-! ### Commits -/

/-- What a commit adds to a table: a snapshot, files, and perhaps a schema. -/
structure Commit (α : Type) where
  schemas : List IcebergSchema
  currentSchema : IcebergSchema
  snapshot : WrittenSnapshot
  deleteFiles : List (String × List Positions)
  dataFiles : List (String × List (List α))

/-- The table after the commit. -/
def commit (w : WrittenTable α) (c : Commit α) : WrittenTable α where
  schemas := w.schemas ++ c.schemas
  currentSchema := c.currentSchema
  partition := w.partition
  snapshots := w.snapshots ++ [c.snapshot]
  deleteFiles := w.deleteFiles ++ c.deleteFiles
  dataFiles := w.dataFiles ++ c.dataFiles

/-- The table after these commits. -/
def commits (w : WrittenTable α) (cs : List (Commit α)) : WrittenTable α := cs.foldl commit w

/-- The later table has the snapshots of the earlier one in front, and all of its files. -/
structure Extends (w w' : WrittenTable α) : Prop where
  snapshots : w.snapshots <+: w'.snapshots
  deleteFiles : ∀ file chunks, w.deleteFiles.lookup file = some chunks →
    w'.deleteFiles.lookup file = some chunks
  dataFiles : ∀ file chunks, w.dataFiles.lookup file = some chunks →
    w'.dataFiles.lookup file = some chunks

theorem Extends.refl (w : WrittenTable α) : w.Extends w :=
  ⟨List.prefix_rfl, fun _ _ h => h, fun _ _ h => h⟩

theorem Extends.trans {w w' w'' : WrittenTable α} (h : w.Extends w') (h' : w'.Extends w'') :
    w.Extends w'' :=
  ⟨h.snapshots.trans h'.snapshots,
    fun file chunks hf => h'.deleteFiles _ _ (h.deleteFiles file chunks hf),
    fun file chunks hf => h'.dataFiles _ _ (h.dataFiles file chunks hf)⟩

/-- A commit only adds. -/
theorem extends_commit (w : WrittenTable α) (c : Commit α) : w.Extends (w.commit c) where
  snapshots := List.prefix_append _ _
  deleteFiles file chunks h := by
    rw [commit, List.lookup_append, h]
    rfl
  dataFiles file chunks h := by
    rw [commit, List.lookup_append, h]
    rfl

theorem extends_commits (w : WrittenTable α) (cs : List (Commit α)) : w.Extends (w.commits cs) := by
  induction cs generalizing w with
  | nil => exact .refl w
  | cons c cs ih => exact (extends_commit w c).trans (ih (w.commit c))

theorem snapshots_commits (w : WrittenTable α) (cs : List (Commit α)) :
    (w.commits cs).snapshots = w.snapshots ++ cs.map Commit.snapshot := by
  induction cs generalizing w with
  | nil => exact (List.append_nil _).symm
  | cons c cs ih =>
    show ((w.commit c).commits cs).snapshots = _
    rw [ih, commit, List.append_assoc, List.map_cons, List.singleton_append]

/-- **What a snapshot holds stays.** -/
theorem Extends.contents_eq {w' : WrittenTable α} (h : w.Extends w') (hw : w.Valid)
    {o : Option WrittenSnapshot} (ho : w.Selected options o) :
    (w'.contents options o).files = (w.contents options o).files ∧
      (w'.contents options o).deleted = (w.contents options o).deleted := by
  have hms := hw.manifestsOf ho
  constructor
  · refine List.map_congr_left fun e he => ?_
    obtain ⟨chunks, hchunks⟩ := Option.isSome_iff_exists.1 (hms.dataFiles e he)
    rw [chunksIn, chunksIn, hchunks, h.dataFiles _ _ hchunks]
  · refine List.flatMap_congr fun e he => ?_
    obtain ⟨chunks, hchunks⟩ := Option.isSome_iff_exists.1 (hms.deleteFiles e he)
    rw [positionsIn, positionsIn, hchunks, h.deleteFiles _ _ hchunks]

theorem Extends.rowsAt_eq {w' : WrittenTable α} (h : w.Extends w') (hw : w.Valid)
    {o : Option WrittenSnapshot} (ho : w.Selected options o) : w'.rowsAt o = w.rowsAt o := by
  obtain ⟨hfiles, hdeleted⟩ := h.contents_eq hw ho
  have hrows : (w'.contents options o).rows (fun x => (x.2 : ℤ)) =
      (w.contents options o).rows fun x => (x.2 : ℤ) := by
    unfold TableContents.rows TableContents.remaining
    rw [hfiles, hdeleted]
  rw [← rows_contents (fun _ => rfl) o, hrows, rows_contents fun _ => rfl]

/-- The chunks of a table are those of its files. -/
theorem chunkOf_congr {ρ : Type} {t t' : TableContents ρ} (h : t.files = t'.files) :
    ScanCall.chunkOf t = ScanCall.chunkOf t' ∧ t.chunkIds = t'.chunkIds := by
  constructor
  · funext c
    cases c with
    | bind => rfl
    | chunk fileId chunkId => rw [ScanCall.chunkOf, ScanCall.chunkOf, TableContents.chunk?, h]; rfl
  · rw [TableContents.chunkIds, h]
    rfl

/-- The options ask for the table before these commits: for a snapshot by its id, or for one that was
current before the first of them. -/
def AskBefore (options : IcebergOptions) (cs : List (Commit α)) : Prop :=
  match options.snapshotSource with
  | .latest => cs = []
  | .fromId => True
  | .fromTimestamp => ∀ c ∈ cs, options.snapshotTimestamp < c.snapshot.timestampMs * 1000

/-- The same snapshot is selected after them. -/
theorem Selected.commits {cs : List (Commit α)} {o : Option WrittenSnapshot}
    (ho : w.Selected options o) (hask : AskBefore options cs) :
    (w.commits cs).Selected options o := by
  unfold Selected at ho ⊢
  unfold AskBefore at hask
  cases hsource : options.snapshotSource with
  | latest =>
    rw [hsource] at ho hask
    rw [show cs = [] from hask]
    exact ho
  | fromId =>
    rw [hsource] at ho
    obtain ⟨s, hs, hid, rfl⟩ := ho
    exact ⟨s, (extends_commits w cs).snapshots.subset hs, hid, rfl⟩
  | fromTimestamp =>
    rw [hsource] at ho hask
    obtain ⟨ts, hts, hrange, hsome, hlast⟩ := ho
    refine ⟨ts, hts, hrange, hsome, ?_⟩
    have hnone : (cs.map Commit.snapshot).filter (·.timestampMs * 1000 ≤ ts) = [] := by
      rw [List.filter_eq_nil_iff]
      intro s hs
      obtain ⟨c, hc, rfl⟩ := List.mem_map.1 hs
      have hlater := hask c hc
      rw [hts] at hlater
      simp only [decide_eq_true_eq]
      omega
    rw [snapshots_commits, List.filter_append, hnone, List.append_nil]
    exact hlast

/-- **Time travel.**  Whatever has been committed to a table since, the scan for a snapshot that it had
then, by its id or by a time before those commits, returns the rows that the table had at it. -/
theorem time_travel (hw : w.Valid) {cs : List (Commit α)} (hcs : (w.commits cs).Valid)
    (h : (w.commits cs).Stored ctx path options files) {o : Option WrittenSnapshot}
    (ho : w.Selected options o) (hask : AskBefore options cs) {calls : List ScanCall}
    (hcalls : Machine.Follows oneByOne 0 calls)
    (honce : (calls.filterMap (ScanCall.chunkOf (w.contents options o))).Perm
      (w.contents options o).chunkIds) :
    (((scan ctx files calls (ofPath path options)).flatMap rowsReturned).map Prod.fst).Perm
      (w.rowsAt o) := by
  have hlater := ho.commits hask
  have hext := extends_commits w cs
  obtain ⟨hchunkOf, hchunkIds⟩ := chunkOf_congr (hext.contents_eq hw ho).1
  rw [← hchunkOf, ← hchunkIds] at honce
  rw [← hext.rowsAt_eq hw ho]
  exact (h.returns hcs hlater).rows calls hcalls honce

/-! ### A table with two snapshots -/

theorem idInRange_one : -(2 ^ 31 : ℤ) ≤ 1 ∧ (1 : ℤ) < 2 ^ 31 := by decide

/-- One column of numbers. -/
def numbersSchema : IcebergSchema := ⟨0, [⟨1, "x", .primitive .long, true, idInRange_one⟩]⟩

/-- A table with one data file. -/
def numbersTable : WrittenTable ℤ where
  schemas := [numbersSchema]
  currentSchema := numbersSchema
  partition := []
  snapshots := [⟨1, 1, 10, "snap-1.avro",
    [(⟨"m1.avro", 1, .data⟩, [.ofPath .added "a.parquet"])]⟩]
  deleteFiles := []
  dataFiles := [("a.parquet", [[10, 20], [30]])]

/-- A commit that deletes one of its rows, and adds a file. -/
def numbersCommit : Commit ℤ where
  schemas := []
  currentSchema := numbersSchema
  snapshot := ⟨2, 2, 20, "snap-2.avro",
    [(⟨"m2.avro", 2, .data⟩, [.ofPath .existing "a.parquet", .ofPath .added "b.parquet"]),
      (⟨"d2.avro", 2, .delete⟩, [.ofDeletes .positionDeletes "d.parquet"])]⟩
  deleteFiles := [("d.parquet", [⟨[("a.parquet", 1)], by decide⟩])]
  dataFiles := [("b.parquet", [[40]])]

/-- The value that encodes a snapshot. -/
def snapshotValue (id sequence time : ℕ) (list : String) : Json :=
  .obj [("snapshot-id", .int id), ("sequence-number", .int sequence), ("timestamp-ms", .int time),
    ("manifest-list", .str list)]

/-- The document that encodes both snapshots. -/
def numbersDocument : Json :=
  .obj [("format-version", .int 2), ("current-schema-id", .int 0),
    ("schemas", .arr [.obj [("schema-id", .int 0), ("type", .str "struct"),
      ("fields", .arr [.obj [("id", .int 1), ("name", .str "x"), ("type", .str "long"),
        ("required", .bool true)]])]]),
    ("snapshots", .arr [snapshotValue 1 1 10 "snap-1.avro", snapshotValue 2 2 20 "snap-2.avro"])]

/-- Its text. -/
def numbersText : String :=
  "\x7b\"format-version\": 2, \"current-schema-id\": 0, \"schemas\": [\x7b\"schema-id\": 0, " ++
    "\"type\": \"struct\", \"fields\": [\x7b\"id\": 1, \"name\": \"x\", \"type\": \"long\", " ++
    "\"required\": true\x7d]\x7d], \"snapshots\": [\x7b\"snapshot-id\": 1, \"sequence-number\": 1, " ++
    "\"timestamp-ms\": 10, \"manifest-list\": \"snap-1.avro\"\x7d, \x7b\"snapshot-id\": 2, " ++
    "\"sequence-number\": 2, \"timestamp-ms\": 20, \"manifest-list\": \"snap-2.avro\"\x7d]\x7d"

/-- The session that sees the files of the table after the commit. -/
def numbersContext : ClientContext :=
  TableFiles.context
    { metadataPath := "s3://b/m.json"
      metadata := (numbersText, numbersDocument)
      avro := (numbersTable.commit numbersCommit).snapshots.flatMap fun s =>
        (s.manifestList, manifestScan (vectors (s.manifests.map Prod.fst))) ::
          s.manifests.map fun m => (m.1.manifestPath, entryScan [] (vectors m.2))
      parquet := fun path =>
        ((numbersTable.commit numbersCommit).deleteFiles.lookup path).map positionScan }

/-- Its data files. -/
def numbersFiles : DataFileScan (ℤ × ℕ) where
  chunks path :=
    match (numbersTable.commit numbersCommit).dataFiles.lookup path with
    | some chunks => .ok (numberedFrom 0 chunks)
    | none => .error (TableFiles.missing path)
  rowId x := x.2

theorem numbersTable_valid : numbersTable.Valid where
  schema := rfl
  partition := apart_nil
  ids := by decide
  idRange := by decide
  times := by decide
  lists := by decide +kernel
  manifests := by
    intro s hs
    obtain rfl := List.mem_singleton.1 hs
    constructor <;> decide +kernel

theorem numbersCommit_valid : (numbersTable.commits [numbersCommit]).Valid where
  schema := rfl
  partition := apart_nil
  ids := by decide
  idRange := by decide
  times := by decide
  lists := by decide +kernel
  manifests := by
    intro s hs
    simp only [commits, List.foldl, commit, numbersTable, numbersCommit, List.cons_append,
      List.nil_append, List.mem_cons, List.not_mem_nil, or_false] at hs
    rcases hs with rfl | rfl
    all_goals constructor <;> decide +kernel

theorem numbersDocument_encodes : (numbersTable.commits [numbersCommit]).Encodes numbersDocument := by
  refine ⟨_, _, _, rfl, rfl, rfl, rfl, .cons ?_ .nil, rfl, .cons ?_ (.cons ?_ .nil)⟩
  · refine ⟨_, _, rfl, rfl, rfl, rfl, .cons ⟨_, .str "long", rfl, rfl, rfl, rfl, ?_, rfl⟩ .nil⟩
    show IcebergType.Encodes (.primitive .long) (.str "long")
    rw [IcebergType.Encodes]
    rfl
  · exact ⟨_, rfl, rfl, rfl, rfl, rfl⟩
  · exact ⟨_, rfl, rfl, rfl, rfl, rfl⟩

theorem numbersCommit_stored {options : IcebergOptions}
    (hcodec : options.metadataCompressionCodec = "none") (hmoved : options.allowMovedPaths = false) :
    (numbersTable.commits [numbersCommit]).Stored numbersContext "s3://b/m.json" options
      numbersFiles := by
  have hfull : ∀ file, fullPath numbersContext "s3://b/m.json" options file = .ok file := by
    intro file
    rw [fullPath, hmoved]
    rfl
  have hopen : ∀ file scan, numbersContext.readAvro file = .ok scan → scan.finished = false →
      openAvro numbersContext "s3://b/m.json" options file = .ok scan := by
    intro file scan hread hunread
    simp only [openAvro, hfull, Bind.bind, Except.bind, hread, ← hunread]
    rfl
  refine ⟨SnapshotsState.clock_context _, ⟨"s3://b/m.json", numbersText, numbersDocument, rfl, ?_, ?_,
    numbersDocument_encodes⟩, ?_, ?_, ?_, ?_, fun _ => rfl⟩
  · rw [IcebergSnapshot.readMetaData, hcodec, if_neg (by decide +kernel)]
    rfl
  · simp only [numbersContext, TableFiles.context, if_true]
  · intro s hs
    refine hopen _ _ ?_ rfl
    rcases List.mem_cons.1 hs with rfl | hs
    · rfl
    · obtain rfl := List.mem_singleton.1 hs
      rfl
  · intro s hs m hm
    refine hopen _ _ ?_ rfl
    rcases List.mem_cons.1 hs with rfl | hs
    · obtain rfl := List.mem_singleton.1 hm
      rfl
    · obtain rfl := List.mem_singleton.1 hs
      rcases List.mem_cons.1 hm with rfl | hm
      · rfl
      · obtain rfl := List.mem_singleton.1 hm
        rfl
  · intro file chunks hfile
    simp only [numbersContext, TableFiles.context, TableFiles.openFile]
    rw [show (numbersTable.commit numbersCommit).deleteFiles.lookup file = some chunks from hfile]
    rfl
  · intro file chunks hfile
    refine ⟨file, hfull file, ?_, ?_⟩
    · rintro rfl
      cases hfile
    · unfold numbersFiles
      dsimp only
      rw [show (numbersTable.commit numbersCommit).dataFiles.lookup file = some chunks from hfile]

/-- The commit is the latest. -/
theorem numbersCommit_selected :
    (numbersTable.commits [numbersCommit]).Selected {} (some numbersCommit.snapshot) :=
  ⟨by decide, numbersTable.snapshots, [], rfl, List.forall_mem_nil _⟩

/-- The options that ask for the first snapshot. -/
def firstSnapshot : IcebergOptions := { snapshotSource := .fromId, snapshotId := 1 }

theorem numbersTable_selected : numbersTable.Selected firstSnapshot numbersTable.snapshots.head? :=
  ⟨_, List.mem_cons_self, rfl, rfl⟩

/-- The calls of two threads that read both files, and the calls of one that reads the first. -/
def numbersCalls : List ScanCall := [.bind, .chunk 0 0, .chunk 1 0, .chunk 0 1, .chunk 2 0]

def firstCalls : List ScanCall := [.chunk 0 1, .chunk 0 0, .chunk 1 0]

theorem numbersCalls_follows : Machine.Follows oneByOne 0 numbersCalls :=
  ⟨_, rfl, _, rfl, _, rfl, _, rfl, _, rfl, trivial⟩

theorem firstCalls_follows : Machine.Follows oneByOne 0 firstCalls :=
  ⟨_, rfl, _, rfl, _, rfl, trivial⟩

/-- The rows after the commit. -/
theorem read_back_numbers :
    (((scan numbersContext numbersFiles numbersCalls (ofPath "s3://b/m.json" {})).flatMap
      rowsReturned).map Prod.fst).Perm [10, 30, 40] :=
  (read_back numbersCommit_valid (numbersCommit_stored rfl rfl) numbersCommit_selected
    numbersCalls_follows (by decide)).2

/-- The rows before it, read by the id of the snapshot. -/
theorem time_travel_numbers :
    (((scan numbersContext numbersFiles firstCalls (ofPath "s3://b/m.json" firstSnapshot)).flatMap
      rowsReturned).map Prod.fst).Perm [10, 20, 30] :=
  time_travel numbersTable_valid numbersCommit_valid (numbersCommit_stored rfl rfl) numbersTable_selected
    trivial firstCalls_follows (by decide)

end WrittenTable

end DuckIceberg
