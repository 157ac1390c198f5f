import DuckIceberg.DeleteRuns
import DuckIceberg.FileCalls
import DuckIceberg.Lib.Machine
import DuckIceberg.OpenedFiles

/-!
# The rows of a table

What a table is for: it has columns, and the rows of its data files that no delete file names.
`TableContents` says it without manifests, readers or cursors; a scan is to return these rows, however
its threads take turns.

* `scan_answers`: each call of a scan is answered as the contents of the table say, whatever was called
  before it;
* `scan_rows_perm`: where every chunk is asked for once, the rows of all answers are the rows of the
  table.
-/

namespace DuckIceberg

open Strings Stride ManifestReader Mirror

/-- The contents of a table: its columns, its data files with their chunks, and the rows that are
deleted. -/
structure TableContents (ρ : Type) where
  columns : List (String × LogicalType)
  files : List (String × List (List ρ))
  deleted : List (String × ℤ)

namespace TableContents

variable {ρ : Type}

/-- The rows of a chunk of the file that are not deleted. -/
def remaining (table : TableContents ρ) (rowId : ρ → ℤ) (file : String) (chunk : List ρ) : List ρ :=
  chunk.filter fun x => !table.deleted.contains (file, rowId x)

/-- The rows of the table. -/
def rows (table : TableContents ρ) (rowId : ρ → ℤ) : List ρ :=
  table.files.flatMap fun file => table.remaining rowId file.1 file.2.flatten

/-- The chunk with this number of the file with this number, and the path of the file. -/
def chunk? (table : TableContents ρ) (fileId chunkId : ℕ) : Option (String × List ρ) :=
  table.files[fileId]?.bind fun file => file.2[chunkId]?.map (file.1, ·)

/-- All chunks, by the number of their file and their own. -/
def chunkIds (table : TableContents ρ) : List (ℕ × ℕ) :=
  (List.range table.files.length).flatMap fun fileId =>
    (List.range ((table.files[fileId]?).elim 0 fun file => file.2.length)).map (fileId, ·)

/-- What a call of a scan is to answer. -/
def answer (table : TableContents ρ) (rowId : ρ → ℤ) :
    IcebergMultiFileList.ScanCall → IcebergMultiFileList.ScanAnswer ρ
  | .bind => .columns table.columns
  | .chunk fileId chunkId =>
    match table.chunk? fileId chunkId with
    | none => .finished
    | some (file, chunk) => .rows (table.remaining rowId file chunk)

end TableContents

namespace IcebergMultiFileList

/-- The rows of an answer. -/
def ScanAnswer.rowsOf {ρ : Type} : ScanAnswer ρ → List ρ
  | .rows left => left
  | _ => []

/-- The chunk of the table that a call asks for, if there is one. -/
def ScanCall.chunkOf {ρ : Type} (table : TableContents ρ) : ScanCall → Option (ℕ × ℕ)
  | .bind => none
  | .chunk fileId chunkId =>
    if (table.chunk? fileId chunkId).isSome then some (fileId, chunkId) else none

/-- The rows that a call returns, if it returns. -/
def rowsReturned {ρ : Type} : Except Error (ScanAnswer ρ) × List OpenedFile → List ρ
  | (.ok answer, _) => answer.rowsOf
  | (.error _, _) => []

/-- Files are asked for one after the other: `n` of them have been asked for, and the call asks for
one of these or for the next. -/
def oneByOne (n : ℕ) : ScanCall → Option ℕ
  | .bind => some n
  | .chunk fileId _ => if fileId ≤ n ∧ fileId < 2 ^ 63 then some (max n (fileId + 1)) else none

section Scan

variable {ctx : ClientContext} {path : String} {options : IcebergOptions} {ρ : Type}

/-- The files of the snapshot can be read, no two data manifests differ in their columns, and nothing
lies beyond the rows that the readers offer: no data manifest in the manifest list, no live entry in a
delete manifest. -/
structure Recorded.Readable (t : Recorded ctx path options) : Prop where
  opens : ∀ m ∈ t.dataManifests, t.Opens m
  layout : ∀ m ∈ t.dataManifests, ∀ m' ∈ t.dataManifests, t.types m = t.types m'
  listed : ∀ m ∈ t.passedOver, m.content ≠ .data
  listedDeletes : ∀ m ∈ t.passedOver, m.content ≠ .data → ∀ e ∈ (t.entries m).flatten, e.live = false
  delivered : ∀ m ∈ t.keptDeletes,
    Delivered ctx path options t.entryOp t.deleteLayout m (t.entries m)
  offered : ∀ m ∈ t.keptDeletes, ∀ pre p post, t.entries m = pre ++ p :: post →
    ∀ e ∈ p.drop (standardVectorSize -
      pre.flatten.countP IcebergManifestEntry.live % standardVectorSize), e.live = false
  fewFiles : t.dataFiles.length < 2 ^ 63

/-- The files of the snapshot hold these contents: the live data files deliver these chunks, the
live delete files are position deletes that name these rows, and name no data file in other letters
only. -/
structure Recorded.Holds (t : Recorded ctx path options) (files : DataFileScan ρ)
    (table : TableContents ρ) : Prop where
  columns : table.columns = t.snapshot.schema.map fun c => (c.name, c.type)
  chunks : List.Forall₂ (fun dataFile file => dataFile.filePath = file.1 ∧
    ∃ p, fullPath ctx path options dataFile.filePath = .ok p ∧ p ≠ "" ∧ files.chunks p = .ok file.2)
    t.dataFiles table.files
  positions : ∀ e ∈ t.live t.deleteManifests, e.content = .positionDeletes
  canScan : ∀ e ∈ t.live t.deleteManifests, CanScan ctx e
  deleted : table.deleted = pairsOf ctx (t.live t.deleteManifests)
  letters : ∀ file ∈ table.files, ∀ p ∈ table.deleted, ciEquals p.1 file.1 →
    (file.1, p.2) ∈ table.deleted

/-! ### Deletes -/

/-- No delete manifest has been opened. -/
structure Unread (t : Recorded ctx path options) (l : IcebergMultiFileList) : Prop where
  manifests : l.deleteManifests = t.keptDeletes
  cursor : l.currentDeleteManifest = 0
  reader : l.deleteManifestEntryReader = some { make t.entryOp with skipDeleted := true }
  deleteData : l.deleteData = .empty

/-- All deletes of the snapshot have been read. -/
structure AllRead (t : Recorded ctx path options) (l : IcebergMultiFileList) : Prop where
  processed : l.DeletesProcessed
  deleted : ∀ file r, r ∈ invalidRows l.deleteData file ↔
    ∃ file', ciEquals file' file ∧ (file', r) ∈ pairsOf ctx (t.live t.deleteManifests)

variable {t : Recorded ctx path options} {l l' : IcebergMultiFileList}

theorem Unread.dataMoved (h : Unread t l) (hmoved : DataMoved l l') : Unread t l' := by
  obtain ⟨reader, files, k, rfl⟩ := hmoved
  exact ⟨h.manifests, h.cursor, h.reader, h.deleteData⟩

theorem AllRead.dataMoved (h : AllRead t l) (hmoved : DataMoved l l') : AllRead t l' := by
  obtain ⟨reader, files, k, rfl⟩ := hmoved
  exact ⟨h.processed, h.deleted⟩

theorem mem_invalidRows_empty (file : String) (pairs : List (String × ℤ)) (r : ℤ) :
    r ∈ invalidRows (addRows .empty pairs) file ↔
      ∃ file', ciEquals file' file ∧ (file', r) ∈ pairs := by
  rw [mem_invalidRows_addRows]
  simp [invalidRows]

/-- The entries that are collected are the live ones. -/
theorem Recorded.Readable.collected_eq (h : t.Readable) : t.collected = t.live t.deleteManifests :=
  (collected_eq_iff t).2 ⟨h.listedDeletes, h.offered⟩

/-- **The deletes of a fresh list** are all read at once. -/
theorem Unread.processDeletes (hread : t.Readable)
    (hcan : ∀ e ∈ t.live t.deleteManifests, CanScan ctx e) (h : Unread t l) (hpath : l.path = path)
    (hoptions : l.options = options) (hp : l.entryProducer = some t.entryOp) :
    ∃ l' scanned, processDeletes ctx l = ((.ok (), l'), scanned) ∧ AllRead t l' ∧
      ∃ reader k deleteData, l' = { l with
        deleteManifestEntryReader := reader, currentDeleteManifest := k, deleteData } := by
  have hidle : Idle t.entryOp { make t.entryOp with skipDeleted := true } :=
    ⟨⟨rfl, rfl⟩, rfl, rfl⟩
  have hcollect := @collect_eq ctx _ _ hp _ h.reader hidle.readerOf hidle.finished
  rw [h.manifests, h.cursor, List.drop_zero, hpath, hoptions] at hcollect
  obtain ⟨r', hfrom, -⟩ := collectFrom_delivered hidle hread.delivered []
  have hentries : t.keptDeletes.flatMap (fun m => keptEntries t.entryOp true (t.entries m)) =
      t.live t.deleteManifests := hread.collected_eq
  rw [List.nil_append, hentries] at hfrom
  rw [hfrom] at hcollect
  replace hcollect : collect ctx l =
    (.ok (), l.withCursor r' (0 + t.keptDeletes.length), t.live t.deleteManifests) := hcollect
  have hok : (IcebergMultiFileList.processDeletes ctx l).1.1 = .ok () := by
    obtain ⟨l₁, added, res, scanned, -, hrun, ⟨e, hfail, -⟩ | ⟨-, -, hscans⟩⟩ :=
      processDeletes_spec ctx l
    · rw [hcollect] at hfail
      cases hfail
    · rw [hcollect] at hscans
      rw [hrun]
      cases hscans with
      | all _ => rfl
      | upTo pre post e heq _ he =>
        have hmem : e ∈ pre ++ e :: post := by simp
        rw [← heq] at hmem
        obtain ⟨pairs, hpairs⟩ := hcan e hmem
        rw [he] at hpairs
        cases hpairs
  have hrun := processDeletes_of_ok hok
  obtain ⟨-, hscanned, -, hend, l₁, ⟨reader, k, rfl⟩, hl'⟩ := processDeletes_completes hrun
  rw [hcollect] at hscanned
  refine ⟨_, _, hrun, ⟨hend, fun file r => ?_⟩, reader, k, _, hl'⟩
  rw [hl', ← mem_invalidRows_empty, hscanned]
  show r ∈ invalidRows (addRows l.deleteData _) file ↔ _
  rw [h.deleteData]

/-- A list without delete manifests has read all of them. -/
theorem Unread.allRead (hread : t.Readable) (h : Unread t l) (hend : l.DeletesProcessed) :
    AllRead t l := by
  refine ⟨hend, fun file r => ?_⟩
  unfold DeletesProcessed at hend
  rw [h.manifests, h.cursor, Nat.le_zero, List.length_eq_zero_iff] at hend
  have hlive : t.live t.deleteManifests = [] := by
    rw [← hread.collected_eq, Recorded.collected, hend]
    rfl
  rw [← mem_invalidRows_empty, hlive, h.deleteData]
  rfl

/-! ### One call -/

/-- Where no data file is to come, none is passed over. -/
theorem sparesSources_of_pending_eq_nil {n : ℕ}
    {sources : List (List (Piece IcebergManifestEntry Error))} (h : pending sources = []) :
    SparesSources n sources := by
  have hspares : ∀ (source : List (Piece IcebergManifestEntry Error)) (s : ℕ),
      (rowsOf source).filter IcebergManifestEntry.live = [] →
        Spares IcebergManifestEntry.live IcebergManifestEntry.live n s source := by
    intro source
    induction source with
    | nil => exact fun _ _ => trivial
    | cons piece source ih =>
      intro s hnone
      cases piece with
      | rows p =>
        rw [rowsOf, List.flatMap_cons, List.filter_append, List.append_eq_nil_iff] at hnone
        refine ⟨fun k _ _ x hx => ?_, ih _ hnone.2⟩
        have hx : x ∈ p := List.mem_of_mem_drop (List.mem_of_mem_take (List.mem_of_mem_drop hx))
        simpa using List.filter_eq_nil_iff.1 hnone.1 x hx
      | fails e => trivial
      | stuck e => trivial
  induction sources with
  | nil => trivial
  | cons source sources ih =>
    rw [pending_cons, List.append_eq_nil_iff] at h
    have hcount : (rowsOf source).countP IcebergManifestEntry.live = 0 := by
      rw [List.countP_eq_length_filter, h.1, List.length_nil]
    refine ⟨hspares source 0 h.1, ?_⟩
    rw [hcount, Nat.sub_zero]
    exact ih h.2

/-- What holds of the list between the calls of a scan, when `n` files have been asked for. -/
structure Scanning (t : Recorded ctx path options) (types : List LogicalType) (n : ℕ)
    (l : IcebergMultiFileList) : Prop where
  expanding : Expanding ctx t.entryOp types t.dataFiles l
  path_eq : l.path = path
  options_eq : l.options = options
  snapshot_eq : l.snapshot = t.snapshot
  asked : min n t.dataFiles.length ≤ l.dataFiles.length
  deletes : Unread t l ∨ AllRead t l

variable {types : List LogicalType} {n : ℕ}

/-- A file that the list has is not looked for. -/
theorem expand_of_produced {i : ℕ} (h : i < l.dataFiles.length) : expand ctx i l = (.ok (), l) := by
  have hround : getFileRound ctx i l = .done (.ok (), l) := by rw [getFileRound, if_pos h]
  rw [expand, Loop.run_succ_done hround, Option.getD_some]

/-- **The next file, or one before it.** -/
theorem Scanning.getFile (h : Scanning t types n l) {i : ℕ} (hi : i ≤ n) (hlt : i < 2 ^ 63) :
    ∃ l', getFile ctx i l = (fileAt ctx path options t.dataFiles i, l') ∧
      Scanning t types (max n (i + 1)) l' ∧ l'.dataFiles[i]? = t.dataFiles[i]? := by
  obtain ⟨hexp, hpath, hoptions, hsnapshot, hasked, hdeletes⟩ := h
  have hle := produced_le hexp
  have hspares : SparesSources (i + 1 - l.dataFiles.length) (sources ctx l) := by
    rcases Nat.lt_or_ge l.dataFiles.length i with hgt | hge
    · refine sparesSources_of_pending_eq_nil ?_
      have hlength := congrArg List.length hexp.files_eq
      rw [List.length_append] at hlength
      exact List.length_eq_zero_iff.1 (by omega)
    · exact spares_next hge
  obtain ⟨l', hget, hexp', hend, hframe⟩ := getFile_spec (formats_live t.supported) hexp hlt hspares
  have hmoved := getFile_dataMoved ctx i hexp.initialized
  rw [hget] at hmoved
  have hle' := produced_le hexp'
  have hgrows : l.dataFiles.length ≤ l'.dataFiles.length ∨ l'.dataFiles = t.dataFiles := by
    by_cases hproduced : i < l.dataFiles.length
    · rw [IcebergMultiFileList.getFile, initializeFiles_again hexp.initialized] at hget
      simp only [expand_of_produced hproduced, List.getElem?_eq_getElem hproduced] at hget
      exact Or.inl (by rw [← (Prod.mk.inj hget).2])
    · rcases hend with hlt' | hall
      · exact Or.inl (by omega)
      · exact Or.inr hall
  refine ⟨l', by rw [hget, hpath, hoptions], ⟨hexp', hframe.path.trans hpath,
    hframe.options.trans hoptions, hframe.snapshot.trans hsnapshot, ?_,
    hdeletes.imp (·.dataMoved hmoved) (·.dataMoved hmoved)⟩, ?_⟩
  · rcases hgrows with hgrows | hall
    · rcases hend with hlt' | hall
      · omega
      · rw [hall]
        exact Nat.min_le_right _ _
    · rw [hall]
      exact Nat.min_le_right _ _
  · rcases hend with hlt' | hall
    · rw [← hexp'.files_eq, List.getElem?_append_left hlt']
    · rw [hall]

/-- The deletes are read by the first chunk. -/
theorem Scanning.deletesOf (hread : t.Readable)
    (hcan : ∀ e ∈ t.live t.deleteManifests, CanScan ctx e) (h : Scanning t types n l)
    (file : String) :
    ∃ l', deletesOf ctx file l = (.ok (l'.getDeletesForFile file), l') ∧
      Scanning t types n l' ∧ AllRead t l' ∧ l'.dataFiles = l.dataFiles := by
  obtain ⟨hexp, hpath, hoptions, hsnapshot, hasked, hdeletes⟩ := h
  by_cases hend : l.DeletesProcessed
  · have hall : AllRead t l := hdeletes.elim (·.allRead hread hend) id
    exact ⟨l, by rw [IcebergMultiFileList.deletesOf, if_pos hend],
      ⟨hexp, hpath, hoptions, hsnapshot, hasked, hdeletes⟩, hall, rfl⟩
  · have hunread : Unread t l := hdeletes.elim id fun hall => absurd hall.processed hend
    obtain ⟨l', scanned, hrun, hall, reader, k, deleteData, rfl⟩ :=
      hunread.processDeletes hread hcan hpath hoptions hexp.producer
    refine ⟨_, by simp only [IcebergMultiFileList.deletesOf, if_neg hend, hrun], ?_, hall, rfl⟩
    exact ⟨⟨hexp.initialized, hexp.producer, hexp.reader, hexp.manifests, hexp.files_eq⟩, hpath,
      hoptions, hsnapshot, hasked, Or.inr hall⟩

/-- **A chunk** is returned without the rows that are deleted. -/
theorem Scanning.finalizeChunk {files : DataFileScan ρ} {table : TableContents ρ}
    (hread : t.Readable) (hholds : t.Holds files table) (h : Scanning t types n l) {i : ℕ}
    {dataFile : IcebergManifestEntry} {file : String × List (List ρ)}
    (hfile : l.dataFiles[i]? = some dataFile) (hmem : file ∈ table.files)
    (hname : dataFile.filePath = file.1) (chunk : List ρ) :
    ∃ l', finalizeChunk ctx i files.rowId chunk l =
      (.ok (table.remaining files.rowId file.1 chunk), l') ∧ Scanning t types n l' := by
  obtain ⟨l', hdeletes, h', hall, -⟩ := h.deletesOf hread hholds.canScan dataFile.filePath
  refine ⟨l', ?_, h'⟩
  rw [finalizeChunk_of_deletesOf files.rowId chunk hfile hdeletes]
  have hrow : ∀ r, r ∈ invalidRows l'.deleteData dataFile.filePath ↔ (file.1, r) ∈ table.deleted := by
    intro r
    rw [hall.deleted, ← hholds.deleted, hname]
    constructor
    · rintro ⟨file', hci, hpair⟩
      exact hholds.letters file hmem (file', r) hpair hci
    · intro hpair
      exact ⟨file.1, rfl, hpair⟩
  have hrows : (chunk.filter fun x =>
      files.rowId x ∉ invalidRows l'.deleteData dataFile.filePath) =
      table.remaining files.rowId file.1 chunk := by
    refine List.filter_congr fun x _ => ?_
    rw [Bool.eq_iff_iff]
    simp [hrow]
  exact congrArg (fun rows => (Except.ok rows, l')) hrows

/-! ### Scans -/

/-- The first call of a scan initialises the list. -/
theorem scanCall_initializes {files : DataFileScan ρ} (h : initializeFiles ctx l = (.ok (), l'))
    (hl' : l'.initialized = true) (c : ScanCall) :
    (scanCall ctx files c l).1 = (scanCall ctx files c l').1 := by
  have hsame : (initializeLogged ctx l).1 = (initializeLogged ctx l').1 := by
    rw [initializeLogged, initializeLogged, h, initializeFiles_again hl']
  cases c with
  | bind =>
    unfold scanCall Logged.bind
    dsimp only
    rw [hsame]
  | chunk fileId chunkId =>
    have hget : (getFileLogged ctx fileId l).1 = (getFileLogged ctx fileId l').1 := by
      rw [getFileLogged_outcome, getFileLogged_outcome, IcebergMultiFileList.getFile,
        IcebergMultiFileList.getFile, h, initializeFiles_again hl']
    unfold scanCall
    dsimp only
    rw [Logged.bind, Logged.bind, hget]

/-- What a call for a chunk returns once `GetFile` has returned. -/
theorem scanCall_chunk {files : DataFileScan ρ} {fileId : ℕ} {file : String}
    (h : getFile ctx fileId l = (.ok file, l')) (chunkId : ℕ) :
    (scanCall ctx files (.chunk fileId chunkId) l).1 =
      (scanChunk ctx files fileId chunkId file l').1 := by
  have hget := getFileLogged_outcome ctx fileId l
  rw [h] at hget
  unfold scanCall
  dsimp only
  rw [Logged.bind, hget]
  rfl

/-- What it returns for a chunk of the file. -/
theorem scanChunk_some {files : DataFileScan ρ} {fileId chunkId : ℕ} {file : String}
    {chunks : List (List ρ)} {chunk rows : List ρ} (hfile : file ≠ "")
    (hchunks : files.chunks file = .ok chunks) (hchunk : chunks[chunkId]? = some chunk)
    (h : finalizeChunk ctx fileId files.rowId chunk l = (.ok rows, l')) :
    (scanChunk ctx files fileId chunkId file l).1 = (.ok (.rows rows), l') := by
  have hfinal := finalizeLogged_outcome ctx fileId files.rowId chunk l
  rw [h] at hfinal
  unfold scanChunk
  rw [if_neg hfile]
  simp only [Logged.bind, openDataFile, hchunks, Logged.next, hchunk, hfinal]
  rfl

/-- What it returns behind the last chunk of the file. -/
theorem scanChunk_none {files : DataFileScan ρ} {fileId chunkId : ℕ} {file : String}
    {chunks : List (List ρ)} (hfile : file ≠ "") (hchunks : files.chunks file = .ok chunks)
    (hchunk : chunks[chunkId]? = none) :
    (scanChunk ctx files fileId chunkId file l).1 = (.ok .finished, l) := by
  unfold scanChunk
  rw [if_neg hfile]
  simp only [Logged.bind, openDataFile, hchunks, Logged.next, hchunk]
  rfl

/-- **One call** of a scan is answered from the contents of the table. -/
theorem Scanning.scanCall {files : DataFileScan ρ} {table : TableContents ρ} (hread : t.Readable)
    (hholds : t.Holds files table) (h : Scanning t types n l) {c : ScanCall} {n' : ℕ}
    (hc : oneByOne n c = some n') :
    ∃ l', (scanCall ctx files c l).1 = (.ok (table.answer files.rowId c), l') ∧
      Scanning t types n' l' := by
  cases c with
  | bind =>
    obtain rfl := Option.some.inj hc
    refine ⟨l, ?_, h⟩
    have hinit : initializeFiles ctx l = (.ok (), l) :=
      initializeFiles_again h.expanding.initialized
    simp only [IcebergMultiFileList.scanCall, Logged.bind, initializeLogged, hinit, Logged.next,
      TableContents.answer, hholds.columns, ← h.snapshot_eq]
    rfl
  | chunk fileId chunkId =>
    unfold oneByOne at hc
    dsimp only at hc
    split_ifs at hc with hids
    obtain rfl := Option.some.inj hc
    obtain ⟨l₁, hget, h₁, hfile₁⟩ := h.getFile hids.1 hids.2
    cases hfile : t.dataFiles[fileId]? with
    | none =>
      have hnone : table.files[fileId]? = none := by
        rw [List.getElem?_eq_none_iff] at hfile ⊢
        rw [← hholds.chunks.length_eq]
        exact hfile
      rw [fileAt, hfile] at hget
      refine ⟨l₁, ?_, h₁⟩
      rw [scanCall_chunk hget, scanChunk, if_pos rfl, TableContents.answer, TableContents.chunk?,
        hnone]
      rfl
    | some dataFile =>
      obtain ⟨hlt, hdataFile⟩ := List.getElem?_eq_some_iff.1 hfile
      have hlt' : fileId < table.files.length := by
        rw [← hholds.chunks.length_eq]
        exact hlt
      obtain ⟨hname, p, hp, hne, hchunks⟩ := hholds.chunks.get hlt hlt'
      rw [List.get_eq_getElem, hdataFile] at hname hp
      rw [List.get_eq_getElem] at hname hchunks
      rw [fileAt, hfile] at hget
      dsimp only at hget
      rw [hp] at hget
      rw [hfile] at hfile₁
      rw [scanCall_chunk hget, TableContents.answer, TableContents.chunk?,
        List.getElem?_eq_getElem hlt', Option.bind_some]
      cases hchunk : table.files[fileId].2[chunkId]? with
      | none => exact ⟨l₁, scanChunk_none hne hchunks hchunk, h₁⟩
      | some chunk =>
        obtain ⟨l₂, hfinal, h₂⟩ := h₁.finalizeChunk hread hholds hfile₁ (List.getElem_mem hlt')
          hname chunk
        exact ⟨l₂, scanChunk_some hne hchunks hchunk hfinal, h₂⟩

/-- The answers of a scan are those of a machine. -/
theorem scan_map_fst (files : DataFileScan ρ) (calls : List ScanCall) (l : IcebergMultiFileList) :
    (scan ctx files calls l).map Prod.fst =
      Machine.answers (fun l c => (IcebergMultiFileList.scanCall ctx files c l).1) l calls := by
  induction calls generalizing l with
  | nil => rfl
  | cons c calls ih => rw [scan, List.map_cons, ih, Machine.answers]

/-- A list that has just been initialised. -/
theorem scanning_initialized (hread : t.Readable) : ∃ l types,
    initializeFiles ctx (ofPath path options) = (.ok (), l) ∧ Scanning t types 0 l := by
  obtain ⟨r, hinit⟩ := initializeFiles_recorded t
  obtain ⟨types, htypes⟩ : ∃ types, ∀ m ∈ t.dataManifests, t.types m = types := by
    rcases t.dataManifests.eq_nil_or_concat with hnil | ⟨ms, m, hms⟩
    · exact ⟨[], by simp [hnil]⟩
    · have hm : m ∈ t.dataManifests := by simp [hms]
      exact ⟨t.types m, fun m' hm' => hread.layout m' hm' m hm⟩
  have hexp := initializedWith_expanding t hread.opens htypes hread.listed r
  exact ⟨_, types, hinit, hexp, rfl, rfl, rfl, by omega, Or.inl ⟨rfl, rfl, rfl, rfl⟩⟩

/-- What is asked of a list that is scanned is answered from the contents of the table. -/
theorem Scanning.answers_eq {files : DataFileScan ρ} {table : TableContents ρ} (hread : t.Readable)
    (hholds : t.Holds files table) (h : Scanning t types n l) {calls : List ScanCall}
    (hcalls : Machine.Follows oneByOne n calls) :
    Machine.answers (fun l c => (IcebergMultiFileList.scanCall ctx files c l).1) l calls =
      calls.map fun c => .ok (table.answer files.rowId c) := by
  refine Machine.answers_eq_map (Scanning t types) (fun n l c n' hs hnext => ?_) h hcalls
  obtain ⟨l', hcall, hs'⟩ := hs.scanCall hread hholds hnext
  rw [hcall]
  exact ⟨rfl, hs'⟩

/-- A scan that starts is answered as one whose list has been initialised. -/
theorem scan_ofPath (hread : t.Readable) (files : DataFileScan ρ) : ∃ l types,
    Scanning t types 0 l ∧ ∀ calls,
      (scan ctx files calls (ofPath path options)).map Prod.fst =
        Machine.answers (fun l c => (IcebergMultiFileList.scanCall ctx files c l).1) l calls := by
  obtain ⟨l, types, hinit, hl⟩ := scanning_initialized hread
  refine ⟨l, types, hl, fun calls => ?_⟩
  rw [scan_map_fst]
  cases calls with
  | nil => rfl
  | cons c calls =>
    rw [Machine.answers, Machine.answers, scanCall_initializes hinit hl.expanding.initialized]

/-- **A scan hides its state.** However the threads of a scan take turns, as long as they ask for files
one after the other: each call is answered as the contents of the table say, whatever the others did
before it. -/
theorem scan_answers (t : Recorded ctx path options) {files : DataFileScan ρ}
    {table : TableContents ρ} (hread : t.Readable) (hholds : t.Holds files table)
    {calls : List ScanCall} (hcalls : Machine.Follows oneByOne 0 calls) :
    (scan ctx files calls (ofPath path options)).map Prod.fst =
      calls.map fun c => .ok (table.answer files.rowId c) := by
  obtain ⟨l, types, hl, hscan⟩ := scan_ofPath hread files
  rw [hscan]
  exact hl.answers_eq hread hholds hcalls

/-! ### All rows -/

theorem flatMap_range_getElem? {α β : Type} (f : Option α → List β) (as : List α) :
    ((List.range as.length).flatMap fun i => f as[i]?) = as.flatMap fun a => f (some a) := by
  induction as using List.reverseRecOn with
  | nil => rfl
  | append_singleton as a ih =>
    have hfront : ∀ i ∈ List.range as.length, f (as ++ [a])[i]? = f as[i]? := by
      intro i hi
      rw [List.getElem?_append_left (List.mem_range.1 hi)]
    rw [List.length_append, List.length_singleton, List.range_succ, List.flatMap_append,
      List.flatMap_append, List.flatMap_congr hfront, ih]
    simp

/-- The rows of the table are those of its chunks. -/
theorem rows_eq_flatMap_chunkIds (table : TableContents ρ) (rowId : ρ → ℤ) :
    (table.chunkIds.flatMap fun id => (table.answer rowId (.chunk id.1 id.2)).rowsOf) =
      table.rows rowId := by
  have hchunk : ∀ fileId chunkId, (table.answer rowId (.chunk fileId chunkId)).rowsOf =
      table.files[fileId]?.elim [] fun file =>
        file.2[chunkId]?.elim [] (table.remaining rowId file.1) := by
    intro fileId chunkId
    rw [TableContents.answer, TableContents.chunk?]
    cases table.files[fileId]? with
    | none => rfl
    | some file => cases hchunk : file.2[chunkId]? <;> simp [hchunk, ScanAnswer.rowsOf]
  have hfile : ∀ fileId ∈ List.range table.files.length,
      ((List.range ((table.files[fileId]?).elim 0 fun file => file.2.length)).map (fileId, ·)).flatMap
          (fun id => (table.answer rowId (.chunk id.1 id.2)).rowsOf) =
        table.files[fileId]?.elim [] fun file => table.remaining rowId file.1 file.2.flatten := by
    intro fileId _
    simp only [List.flatMap_map, hchunk]
    cases table.files[fileId]? with
    | none => rfl
    | some file =>
      simp only [Option.elim_some]
      rw [flatMap_range_getElem? (fun chunk => chunk.elim [] (table.remaining rowId file.1)) file.2]
      simp only [Option.elim_some, TableContents.remaining, List.filter_flatten, List.flatMap_def]
  rw [TableContents.chunkIds, List.flatMap_assoc, List.flatMap_congr hfile,
    flatMap_range_getElem? (fun file : Option (String × List (List ρ)) =>
      file.elim [] fun file => table.remaining rowId file.1 file.2.flatten) table.files]
  rfl

/-- Where the calls are answered from the contents of the table, and every chunk is asked for once, they
return the rows of the table. -/
theorem rows_of_answers {files : DataFileScan ρ} {table : TableContents ρ} {calls : List ScanCall}
    {outs : List (Except Error (ScanAnswer ρ) × List OpenedFile)}
    (hanswers : outs.map Prod.fst = calls.map fun c => .ok (table.answer files.rowId c))
    (honce : (calls.filterMap (ScanCall.chunkOf table)).Perm table.chunkIds) :
    (∀ out ∈ outs, out.1.isOk) ∧ (outs.flatMap rowsReturned).Perm (table.rows files.rowId) := by
  constructor
  · intro out hout
    have hmem : out.1 ∈ outs.map Prod.fst := List.mem_map_of_mem hout
    rw [hanswers] at hmem
    obtain ⟨c, -, hc⟩ := List.mem_map.1 hmem
    rw [← hc]
    rfl
  · have hreturned : outs.flatMap rowsReturned =
        calls.flatMap fun c => (table.answer files.rowId c).rowsOf := by
      have hfst : outs.flatMap rowsReturned =
          (outs.map Prod.fst).flatMap fun res => rowsReturned (res, []) := by
        rw [List.flatMap_map]
        refine List.flatMap_congr fun out _ => ?_
        rcases out with ⟨e | a, _⟩ <;> rfl
      rw [hfst, hanswers, List.flatMap_map]
      rfl
    rw [hreturned, ← rows_eq_flatMap_chunkIds]
    refine Machine.flatMap_perm (fun c => ?_) honce
    cases c with
    | bind => rfl
    | chunk fileId chunkId =>
      unfold ScanCall.chunkOf
      cases hchunk : table.chunk? fileId chunkId with
      | none => simp [hchunk, TableContents.answer, ScanAnswer.rowsOf]
      | some chunk => simp [hchunk]

/-- **A scan returns the table.** However its threads take turns, as long as they ask for files one
after the other and for every chunk once, no call throws, and the rows that are returned are those of
the live data files that no live delete file names, each once. -/
theorem scan_rows_perm (t : Recorded ctx path options) {files : DataFileScan ρ}
    {table : TableContents ρ} (hread : t.Readable) (hholds : t.Holds files table)
    {calls : List ScanCall} (hcalls : Machine.Follows oneByOne 0 calls)
    (honce : (calls.filterMap (ScanCall.chunkOf table)).Perm table.chunkIds) :
    (∀ out ∈ scan ctx files calls (ofPath path options), out.1.isOk) ∧
      ((scan ctx files calls (ofPath path options)).flatMap rowsReturned).Perm
        (table.rows files.rowId) := by
  obtain ⟨l, types, hl, hscan⟩ := scan_ofPath hread files
  have hanswers := hl.answers_eq hread hholds hcalls
  rw [← hscan] at hanswers
  exact rows_of_answers hanswers honce

end Scan

/-! ### A table with a deleted row -/

/-- Two data files and a file of position deletes. -/
def twoFiles : List (IcebergManifest × List (List IcebergManifestEntry)) :=
  dataAndDeletes ["a.parquet", "b.parquet"] [.ofDeletes .positionDeletes "d.parquet"]

/-- A session that reads them; the row 3 of the first data file is deleted. -/
def twoFilesContext : ClientContext :=
  (manifestFiles twoFiles (onlyDeletes [("a.parquet", 3)] deliverable_third)).context

/-- Their table. -/
def twoFilesTable : Recorded twoFilesContext "v1.metadata.json" {} :=
  recordedOf twoFiles _ (by decide) (by decide)

/-- Their rows, each of them its own number. -/
def twoFilesRows : DataFileScan ℤ where
  chunks path :=
    if path = "a.parquet" then .ok [[2, 3], [4]]
    else if path = "b.parquet" then .ok [[3]]
    else .error (TableFiles.missing path)
  rowId row := row

def twoFilesContents : TableContents ℤ where
  columns := []
  files := [("a.parquet", [[2, 3], [4]]), ("b.parquet", [[3]])]
  deleted := [("a.parquet", 3)]

theorem twoFiles_readable : twoFilesTable.Readable where
  opens m hm := recordedOf_opens _ (by decide) (by decide) (by decide) (by decide) m
    (List.mem_of_mem_filter hm)
  layout _ _ _ _ := rfl
  listed := by decide +kernel
  listedDeletes := by decide +kernel
  delivered := recordedOf_faithful _ (by decide) (by decide) (by decide) (by decide)
  offered m hm pre p post hentries := by
    have hone : ∀ m ∈ twoFilesTable.keptDeletes,
        twoFilesTable.entries m = [[.ofDeletes .positionDeletes "d.parquet"]] := by
      decide +kernel
    rw [hone m hm] at hentries
    cases pre with
    | nil =>
      obtain ⟨rfl, -⟩ := List.cons.inj hentries
      decide
    | cons _ pre => simp at hentries
  fewFiles := by decide +kernel

theorem twoFiles_holds : twoFilesTable.Holds twoFilesRows twoFilesContents where
  columns := rfl
  chunks := by
    have hfiles : twoFilesTable.dataFiles =
        [.ofPath .added "a.parquet", .ofPath .added "b.parquet"] := by decide +kernel
    rw [hfiles]
    exact .cons ⟨rfl, _, rfl, by decide, rfl⟩ (.cons ⟨rfl, _, rfl, by decide, rfl⟩ .nil)
  positions := by decide +kernel
  canScan := by
    have hlive : twoFilesTable.live twoFilesTable.deleteManifests =
        [.ofDeletes .positionDeletes "d.parquet"] := by decide +kernel
    rw [hlive]
    exact List.forall_mem_singleton.2 ⟨[("a.parquet", 3)], rfl⟩
  deleted := by decide +kernel
  letters := by decide +kernel

/-- Two threads, one for each data file, that take turns. -/
def twoThreads : List ScanCall :=
  [.bind, .chunk 0 0, .chunk 1 0, .chunk 0 1, .chunk 1 1, .chunk 2 0, .chunk 0 2]

theorem twoThreads_follows : Machine.Follows oneByOne 0 twoThreads :=
  ⟨_, rfl, _, rfl, _, rfl, _, rfl, _, rfl, _, rfl, _, rfl, trivial⟩

theorem scan_answers_two_threads :
    (scan twoFilesContext twoFilesRows twoThreads (ofPath "v1.metadata.json" {})).map Prod.fst =
      twoThreads.map fun c => .ok (twoFilesContents.answer twoFilesRows.rowId c) :=
  scan_answers twoFilesTable twoFiles_readable twoFiles_holds twoThreads_follows

theorem scan_rows_perm_two_threads :
    ((scan twoFilesContext twoFilesRows twoThreads (ofPath "v1.metadata.json" {})).flatMap
      rowsReturned).Perm [2, 4, 3] :=
  (scan_rows_perm twoFilesTable twoFiles_readable twoFiles_holds twoThreads_follows
    (by decide)).2

end IcebergMultiFileList

end DuckIceberg
