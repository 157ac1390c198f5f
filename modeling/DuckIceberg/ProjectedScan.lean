import DuckIceberg.RowNumbers
import DuckIceberg.TimeTravel

/-!
# Scans of a projection

A query asks for some columns of a table.  `Bind` and `InitializeGlobalState` are called once, then the
columns of every data file are mapped, DuckDB fills the vectors of a chunk, and `FinalizeChunk` slices
them by the row numbers in one of them.

* `scanVectors_eq`: this agrees, call for call and from every state of the file list, with the scan of
  whole rows;
* `projections_agree`: so two queries of other columns get the same rows, or fail alike;
* `projected_read_back`: and the projection of a stored table is read back.
-/

namespace DuckIceberg

open Strings Mirror IcebergMultiFileList

namespace IcebergMultiFileList

/-- The answer with something made of its rows. -/
def ScanAnswer.mapRows {ρ ρ' : Type} (f : ρ → ρ') : ScanAnswer ρ → ScanAnswer ρ'
  | .columns table => .columns table
  | .finished => .finished
  | .rows left => .rows (left.map f)

end IcebergMultiFileList

namespace IcebergMultiFileReader

variable {ν : Type} [Inhabited ν] {bigint : ℤ → ν}

/-! ### The scan -/

/-- What DuckDB does with a data file: it opens it, maps its columns by field id, and fills the vectors
of its chunks. -/
structure DataFileReader (ν : Type) (bigint : ℤ → ν) where
  openFile : String → Except Error (LocalFile ν bigint)
  byFieldId : List MultiFileReaderColumnDefinition → List MultiFileReaderColumnDefinition →
    List ℕ → MultiFileReaderData ν → Except Error (MultiFileReaderData ν)
  read : String → MultiFileReaderData ν → Except Error (List (VectorChunk ν))
  /-- a value of a `BIGINT` column -/
  int64 : ν → ℤ

/-- A scan that is bound: the columns of the table, those that are asked for, and the global state. -/
structure BoundScan where
  globalColumns : List MultiFileReaderColumnDefinition
  globalColumnIds : List ℕ
  globalState : IcebergMultiFileReaderGlobalState

/-- The chunks of a data file, before `FinalizeChunk`. -/
def vectorChunks (reader : DataFileReader ν bigint) (scan : BoundScan) (path : String) :
    Except Error (List (VectorChunk ν)) := do
  let file ← reader.openFile path
  let readerData ← createColumnMapping reader.byFieldId file.localColumns scan.globalColumns
    scan.globalColumnIds scan.globalState {}
  reader.read path readerData

/-- `FinalizeChunk`, on vectors -/
def finalizeVectors (ctx : ClientContext) (int64 : ν → ℤ)
    (globalState : IcebergMultiFileReaderGlobalState) (fileId : ℕ) (chunk : VectorChunk ν)
    (l : IcebergMultiFileList) : Outcome IcebergMultiFileList (VectorChunk ν) :=
  match l.dataFiles[fileId]? with
  | none => (.error ⟨.internal, "Attempted to access index out of range of a vector"⟩, l)
  | some dataFile =>
    match deletesOf ctx dataFile.filePath l with
    | (.error e, l) => (.error e, l)
    | (.ok none, l) => (.ok chunk, l)
    | (.ok (some deleteData), l) =>
      match globalState.fileRowNumberIdx with
      | none =>
        (.error ⟨.internal, "Attempting to get the index of an optional_idx that is not set"⟩, l)
      | some i => (IcebergDeleteData.applyAt int64 i deleteData chunk, l)

/-- Of the vectors of a row, a query is passed those of the columns it asks for. -/
def passOn (globalColumnIds : List ℕ) (row : List ν) : List ν :=
  (globalColumnIds.zipIdx.filter fun id => ¬ isRowIdColumn id.1).map fun id => row.getD id.2 default

/-- A call of the scan of a projection. -/
def scanVectors (ctx : ClientContext) (reader : DataFileReader ν bigint) (scan : BoundScan) :
    ScanCall → IcebergMultiFileList → Outcome IcebergMultiFileList (ScanAnswer (List ν))
  | .bind, l => Prod.map (Except.map ScanAnswer.columns) id (IcebergMultiFileList.bind ctx l)
  | .chunk fileId chunkId, l =>
    match getFile ctx fileId l with
    | (.error e, l) => (.error e, l)
    | (.ok path, l) =>
      if path = "" then (.ok .finished, l)
      else
        match vectorChunks reader scan path with
        | .error e => (.error e, l)
        | .ok chunks =>
          match chunks[chunkId]? with
          | none => (.ok .finished, l)
          | some chunk =>
            match finalizeVectors ctx reader.int64 scan.globalState fileId chunk l with
            | (.error e, l) => (.error e, l)
            | (.ok chunk, l) => (.ok (.rows (chunk.rows.map (passOn scan.globalColumnIds))), l)

/-- A scan of these columns: `Bind`, `InitializeGlobalState`, and then the calls of its threads. -/
def projectedScan (ctx : ClientContext) (reader : DataFileReader ν bigint) (globalColumnIds : List ℕ)
    (calls : List ScanCall) (l : IcebergMultiFileList) :
    Except Error (List (Except Error (ScanAnswer (List ν)))) :=
  match IcebergMultiFileList.bind ctx l with
  | (.error e, _) => .error e
  | (.ok _, l) => do
    let globalColumns := bindColumns l.snapshot.schema
    let globalState ← initializeGlobalState globalColumns globalColumnIds
    return Machine.answers
      (fun l c => scanVectors ctx reader ⟨globalColumns, globalColumnIds, globalState⟩ c l) l calls

/-! ### Rows of a table -/

/-- **Projection**: the values that a row of the table has in the columns that are asked for. -/
def project (globalColumns : List MultiFileReaderColumnDefinition) (globalColumnIds : List ℕ)
    (row : MultiFileReaderColumnDefinition → ν) : List ν :=
  (globalColumnIds.filter fun id => ¬ isRowIdColumn id).map fun id =>
    (globalColumns[id]?).elim default row

variable {α : Type}

/-- What is relied on of DuckDB for a data file: no column hides the generated one, the mapping fills
the projected columns with what the rows have in them, and the vectors of a chunk are filled as the
mapping says. -/
structure ReadsFile (reader : DataFileReader ν bigint)
    (values : α → MultiFileReaderColumnDefinition → ν)
    (globalColumns : List MultiFileReaderColumnDefinition) (globalColumnIds : List ℕ) (path : String)
    (file : LocalFile ν bigint) (tableValue : MultiFileReaderColumnDefinition → ℕ → ν)
    (chunks : List (List (α × ℕ))) : Prop where
  shown : ¬ Hides file
  values : ∀ chunk ∈ chunks, ∀ row ∈ chunk, ∀ column, values row.1 column = tableValue column row.2
  mapped : ∃ base, reader.byFieldId file.localColumns globalColumns globalColumnIds {} = .ok base ∧
    FillsProjection file globalColumns globalColumnIds tableValue base
  read : ∀ readerData, ∃ chunks', reader.read path readerData = .ok chunks' ∧
    List.Forall₂ (fun chunk => FilledFrom file readerData (chunk.map Prod.snd)) chunks chunks'

/-- The same for all data files. -/
structure ReadsFiles (reader : DataFileReader ν bigint)
    (values : α → MultiFileReaderColumnDefinition → ν)
    (globalColumns : List MultiFileReaderColumnDefinition) (globalColumnIds : List ℕ)
    (files : DataFileScan (α × ℕ)) : Prop where
  int64 : ∀ n, reader.int64 (bigint n) = n
  rowId : ∀ row, files.rowId row = (row.2 : ℤ)
  missing : ∀ path e, files.chunks path = .error e → reader.openFile path = .error e
  reads : ∀ path chunks, files.chunks path = .ok chunks → ∃ file tableValue,
    reader.openFile path = .ok file ∧
      ReadsFile reader values globalColumns globalColumnIds path file tableValue chunks

variable {reader : DataFileReader ν bigint} {values : α → MultiFileReaderColumnDefinition → ν}
  {globalColumns : List MultiFileReaderColumnDefinition} {globalColumnIds : List ℕ}
  {files : DataFileScan (α × ℕ)} {file : LocalFile ν bigint}
  {tableValue : MultiFileReaderColumnDefinition → ℕ → ν}

/-! ### One chunk -/

/-- A row of vectors stands for a row of the table: it has its number, and the values that are asked
for. -/
structure StandsFor (int64 : ν → ℤ) (globalColumns : List MultiFileReaderColumnDefinition)
    (globalColumnIds : List ℕ) (values : α → MultiFileReaderColumnDefinition → ν) (i : ℕ)
    (vector : List ν) (row : α × ℕ) : Prop where
  number : IcebergDeleteData.rowNumber int64 i vector = row.2
  passed : passOn globalColumnIds vector = project globalColumns globalColumnIds (values row.1)

/-- The values that are passed on are those of the columns that are asked for. -/
theorem passOn_eq_project {vector : List ν} {row : MultiFileReaderColumnDefinition → ν}
    (hids : ∀ id ∈ globalColumnIds, isRowIdColumn id ∨ id < globalColumns.length)
    (h : ∀ i id column, globalColumnIds[i]? = some id → ¬ isRowIdColumn id →
      globalColumns[id]? = some column → vector.getD i default = row column) :
    passOn globalColumnIds vector = project globalColumns globalColumnIds row := by
  have hfilter : globalColumnIds.filter (fun id => ¬ isRowIdColumn id) =
      (globalColumnIds.zipIdx.filter fun id => ¬ isRowIdColumn id.1).map Prod.fst := by
    have hzip : (globalColumnIds.zipIdx.map Prod.fst) = globalColumnIds := List.zipIdx_map_fst _ _
    conv_lhs => rw [← hzip]
    rw [List.filter_map]
    rfl
  rw [project, hfilter, List.map_map, passOn]
  refine List.map_congr_left ?_
  rintro ⟨id, i⟩ hid
  obtain ⟨hmem, hrow⟩ := List.mem_filter.1 hid
  have hget : globalColumnIds[i]? = some id := List.mem_zipIdx_iff_getElem?.1 hmem
  have hrow : ¬ isRowIdColumn id := by simpa using hrow
  have hlt : id < globalColumns.length :=
    (hids id (List.mem_of_getElem? hget)).resolve_left hrow
  have hcolumn := List.getElem?_eq_getElem hlt
  show vector.getD i default = (globalColumns[id]?).elim default row
  rw [h i id _ hget hrow hcolumn, hcolumn]
  rfl

/-- The vectors of a chunk have a row for each row of the chunk. -/
theorem standsFor_of_filled {readerData : MultiFileReaderData ν} {idx : ℕ} {chunk : List (α × ℕ)}
    {vectors : VectorChunk ν} (hint64 : ∀ n, reader.int64 (bigint n) = n)
    (hids : ∀ id ∈ globalColumnIds, isRowIdColumn id ∨ id < globalColumns.length)
    (hvalues : ∀ row ∈ chunk, ∀ column, values row.1 column = tableValue column row.2)
    (hsource : source readerData idx = some (.column file.generated))
    (hprojected : Projected file globalColumns globalColumnIds tableValue readerData)
    (hfilled : FilledFrom file readerData (chunk.map Prod.snd) vectors) :
    List.Forall₂ (StandsFor reader.int64 globalColumns globalColumnIds values idx)
      vectors.rows chunk := by
  have hsize : vectors.size = chunk.length := by rw [hfilled.size, List.length_map]
  refine List.forall₂_iff_get.2 ⟨by rw [VectorChunk.rows, List.length_map, List.length_range, hsize],
    fun k h₁ h₂ => ?_⟩
  -- the value of a vector in this row is that of its source at the position of the row
  have hvector : ∀ i s, source readerData i = some s →
      (vectors.row k).getD i default = s.value file chunk[k].2 := by
    intro i s hs
    obtain ⟨v, hv, hvalue⟩ := hfilled.values i s hs
    have hk := hvalue k (by rwa [List.length_map])
    rw [List.getElem_map] at hk
    rw [VectorChunk.row, List.getD_eq_getElem?_getD, List.getElem?_map, hv]
    exact hk
  have hrow : vectors.rows.get ⟨k, h₁⟩ = vectors.row k := by
    simp only [VectorChunk.rows, List.get_eq_getElem, List.getElem_map, List.getElem_range]
  rw [hrow, List.get_eq_getElem]
  refine ⟨?_, passOn_eq_project hids fun i id column hi hrowId hcolumn => ?_⟩
  · rw [IcebergDeleteData.rowNumber, hvector idx _ hsource, Source.value, file.generated_eq]
    exact hint64 _
  · obtain ⟨s, hs, hvalue⟩ := hprojected i id column hi hrowId hcolumn
    rw [hvector i s hs, hvalue, hvalues _ (List.getElem_mem h₂)]

/-- The global state of a scan that asks for no column called `file_row_number`. -/
def addedState (globalColumnIds : List ℕ) : IcebergMultiFileReaderGlobalState :=
  ⟨[.simple .bigint], some globalColumnIds.length⟩

/-- The generated column is read into a vector of its own. -/
theorem createColumnMapping_added {base : MultiFileReaderData ν} (hshown : ¬ Hides file)
    (hbase : reader.byFieldId file.localColumns globalColumns globalColumnIds {} = .ok base)
    (hfills : FillsProjection file globalColumns globalColumnIds tableValue base) :
    ∃ readerData, createColumnMapping reader.byFieldId file.localColumns globalColumns globalColumnIds
        (addedState globalColumnIds) {} = .ok readerData ∧
      source readerData globalColumnIds.length = some (.column file.generated) ∧
      Projected file globalColumns globalColumnIds tableValue readerData := by
  obtain ⟨entry, hentry, hgenerated⟩ := nameMap_generated file
  obtain rfl := hgenerated.2 hshown
  refine ⟨{ base with
    columnIds := base.columnIds ++ [file.generated]
    columnIndexes := base.columnIndexes ++ [{ index := file.generated }]
    columnMapping := base.columnMapping ++ [globalColumnIds.length]
    emptyColumns := (base.columnIds ++ [file.generated]).isEmpty }, ?_, ?_⟩
  · rw [createColumnMapping, hbase]
    simp only [Bind.bind, Except.bind, addedState, le_refl, if_true, hentry]
    rfl
  · obtain ⟨hadded, hkept⟩ := source_add hfills le_rfl { base with
      columnIds := base.columnIds ++ [file.generated]
      columnIndexes := base.columnIndexes ++ [{ index := file.generated }]
      columnMapping := base.columnMapping ++ [globalColumnIds.length]
      emptyColumns := (base.columnIds ++ [file.generated]).isEmpty } rfl rfl rfl
    refine ⟨hadded, fun i id column hi hrow hcolumn => ?_⟩
    obtain ⟨s, hs, hvalue⟩ := hfills.projected i id column hi hrow hcolumn
    have hlt : i < globalColumnIds.length := (List.getElem?_eq_some_iff.1 hi).1
    exact ⟨s, (hkept i hlt).trans hs, hvalue⟩

/-- What is passed on of the vectors are the projections of the rows they stand for, before deletes are
applied and after. -/
theorem map_passOn_eq {vectors : List (List ν)} {chunk : List (α × ℕ)} {idx : ℕ}
    (h : List.Forall₂ (StandsFor reader.int64 globalColumns globalColumnIds values idx) vectors chunk)
    (hrowId : ∀ row, files.rowId row = (row.2 : ℤ)) (deletes : Finset ℤ) :
    vectors.map (passOn globalColumnIds) =
        chunk.map (fun row => project globalColumns globalColumnIds (values row.1)) ∧
      (vectors.filter fun vector =>
          IcebergDeleteData.rowNumber reader.int64 idx vector ∉ deletes).map (passOn globalColumnIds) =
        (chunk.filter fun row => files.rowId row ∉ deletes).map
          fun row => project globalColumns globalColumnIds (values row.1) := by
  induction h with
  | nil => exact ⟨rfl, rfl⟩
  | cons hstands _ ih =>
    obtain ⟨hall, hkept⟩ := ih
    refine ⟨by rw [List.map_cons, List.map_cons, hstands.passed, hall], ?_⟩
    rw [List.filter_cons, List.filter_cons, hstands.number, hrowId]
    split_ifs
    · rw [List.map_cons, List.map_cons, hstands.passed, hkept]
    · exact hkept

/-- **`FinalizeChunk` on vectors** leaves the projections of the rows that are left of the chunk. -/
theorem finalizeVectors_eq {vectors : VectorChunk ν} {chunk : List (α × ℕ)}
    (hstands : List.Forall₂
      (StandsFor reader.int64 globalColumns globalColumnIds values globalColumnIds.length)
      vectors.rows chunk)
    (hidx : globalColumnIds.length < vectors.data.length)
    (hrowId : ∀ row, files.rowId row = (row.2 : ℤ)) (ctx : ClientContext) (fileId : ℕ)
    (l : IcebergMultiFileList) :
    Prod.map (Except.map fun vectors => vectors.rows.map (passOn globalColumnIds)) id
        (finalizeVectors ctx reader.int64 (addedState globalColumnIds) fileId vectors l) =
      Prod.map (Except.map (List.map fun row =>
        project globalColumns globalColumnIds (values row.1))) id
        (finalizeChunk ctx fileId files.rowId chunk l) := by
  unfold finalizeVectors finalizeChunk
  cases l.dataFiles[fileId]? with
  | none => rfl
  | some dataFile =>
    dsimp only
    rcases deletesOf ctx dataFile.filePath l with ⟨e | (_ | deletes), l'⟩
    · rfl
    · exact congrArg (fun rows => (Except.ok rows, l')) (map_passOn_eq hstands hrowId ∅).1
    · obtain ⟨vectors', hok⟩ := IcebergDeleteData.exists_applyAt reader.int64 deletes hidx
      have hrows := (IcebergDeleteData.applyAt_spec hok).1
      simp only [addedState, hok]
      show (Except.ok (vectors'.rows.map (passOn globalColumnIds)), l') = (Except.ok _, l')
      rw [hrows, (map_passOn_eq hstands hrowId deletes).2, IcebergDeleteData.apply_eq_filter]

/-! ### One call -/

/-- A number names a chunk in both lists or in none. -/
theorem getElem?_forall₂ {β γ : Type} {R : β → γ → Prop} {as : List β} {bs : List γ}
    (h : List.Forall₂ R as bs) (i : ℕ) :
    (as[i]? = none ∧ bs[i]? = none) ∨ ∃ a b, as[i]? = some a ∧ bs[i]? = some b ∧ R a b := by
  induction h generalizing i with
  | nil => exact Or.inl ⟨rfl, rfl⟩
  | cons hhead _ ih =>
    cases i with
    | zero => exact Or.inr ⟨_, _, rfl, rfl, hhead⟩
    | succ i => exact ih i

/-- The chunks of a data file stand for those of its rows. -/
theorem vectorChunks_standFor
    (hids : ∀ id ∈ globalColumnIds, isRowIdColumn id ∨ id < globalColumns.length)
    (hreads : ReadsFiles reader values globalColumns globalColumnIds files) {path : String}
    {chunks : List (List (α × ℕ))} (hchunks : files.chunks path = .ok chunks) :
    ∃ chunks', vectorChunks reader ⟨globalColumns, globalColumnIds, addedState globalColumnIds⟩ path =
        .ok chunks' ∧
      List.Forall₂ (fun chunk vectors =>
        List.Forall₂ (StandsFor reader.int64 globalColumns globalColumnIds values
          globalColumnIds.length) vectors.rows chunk ∧
        globalColumnIds.length < vectors.data.length) chunks chunks' := by
  obtain ⟨file, tableValue, hopen, hfile⟩ := hreads.reads path chunks hchunks
  obtain ⟨base, hbase, hfills⟩ := hfile.mapped
  obtain ⟨readerData, hmapping, hsource, hprojected⟩ :=
    createColumnMapping_added hfile.shown hbase hfills
  obtain ⟨chunks', hread, hfilled⟩ := hfile.read readerData
  refine ⟨chunks', ?_, ?_⟩
  · simp only [vectorChunks, Bind.bind, Except.bind, hopen, hmapping, hread]
  · have hmem := (List.forall₂_and_left chunks chunks').2
      ⟨fun (chunk : List (α × ℕ)) (hchunk : chunk ∈ chunks) => hchunk, hfilled⟩
    refine hmem.imp fun chunk vectors h => ?_
    obtain ⟨hchunk, hfill⟩ := h
    refine ⟨standsFor_of_filled hreads.int64 hids (hfile.values chunk hchunk) hsource hprojected hfill,
      ?_⟩
    obtain ⟨v, hv, -⟩ := hfill.values _ _ hsource
    exact (List.getElem?_eq_some_iff.1 hv).1

/-- **The scan of a projection agrees with the scan of whole rows**, call for call and from every state
of the file list: it throws what that throws, and else returns the projections of its rows. -/
theorem scanVectors_eq (ctx : ClientContext)
    (hids : ∀ id ∈ globalColumnIds, isRowIdColumn id ∨ id < globalColumns.length)
    (hreads : ReadsFiles reader values globalColumns globalColumnIds files) (c : ScanCall)
    (l : IcebergMultiFileList) :
    scanVectors ctx reader ⟨globalColumns, globalColumnIds, addedState globalColumnIds⟩ c l =
      Prod.map (Except.map (ScanAnswer.mapRows fun row =>
        project globalColumns globalColumnIds (values row.1))) id (scanCall ctx files c l).1 := by
  cases c with
  | bind =>
    unfold scanVectors scanCall Logged.bind initializeLogged IcebergMultiFileList.bind
    dsimp only
    rcases initializeFiles ctx l with ⟨e | u, l'⟩ <;> rfl
  | chunk fileId chunkId =>
    have hget := getFileLogged_outcome ctx fileId l
    unfold scanVectors scanCall Logged.bind
    dsimp only
    rw [hget]
    rcases getFile ctx fileId l with ⟨e | path, l'⟩
    · rfl
    · dsimp only [Logged.next]
      unfold scanChunk
      by_cases hpath : path = ""
      · rw [if_pos hpath, if_pos hpath]
        rfl
      · rw [if_neg hpath, if_neg hpath]
        unfold Logged.bind openDataFile
        dsimp only
        cases hchunks : files.chunks path with
        | error e =>
          rw [vectorChunks, hreads.missing path e hchunks]
          rfl
        | ok chunks =>
          obtain ⟨chunks', hvectors, hstand⟩ := vectorChunks_standFor hids hreads hchunks
          rw [hvectors]
          dsimp only [Logged.next]
          rcases getElem?_forall₂ hstand chunkId with
            ⟨hnone, hnone'⟩ | ⟨chunk, vectors, hchunk, hchunk', hrows⟩
          · rw [hnone, hnone']
            rfl
          · rw [hchunk, hchunk']
            dsimp only
            rw [finalizeLogged_outcome]
            have hfinal := finalizeVectors_eq hrows.1 hrows.2 hreads.rowId ctx fileId l'
            generalize finalizeVectors ctx reader.int64 (addedState globalColumnIds) fileId vectors l' =
              out at hfinal ⊢
            generalize finalizeChunk ctx fileId files.rowId chunk l' = out' at hfinal ⊢
            rcases out with ⟨e | vectors', l₁⟩ <;> rcases out' with ⟨e' | rows, l₂⟩ <;>
              simp only [Prod.map, Except.map, id, Prod.mk.injEq, Except.ok.injEq,
                Except.error.injEq, reduceCtorEq, false_and] at hfinal
            · obtain ⟨rfl, rfl⟩ := hfinal
              rfl
            · obtain ⟨hpassed, rfl⟩ := hfinal
              exact congrArg (fun rows => (Except.ok (ScanAnswer.rows rows), l₁)) hpassed

/-! ### Runs -/

theorem Selects.mono {ids ids' : List ℕ} {name : String} (h : Selects globalColumns ids name)
    (hsub : ids ⊆ ids') : Selects globalColumns ids' name := by
  obtain ⟨id, hid, hcolumn⟩ := h
  exact ⟨id, hsub hid, hcolumn⟩

/-- The columns that a scan of this list is bound with. -/
def columnsOf (ctx : ClientContext) (l : IcebergMultiFileList) :
    List MultiFileReaderColumnDefinition :=
  bindColumns (initializeFiles ctx l).2.snapshot.schema

/-- The answers of the scan of a projection are made of those of the scan of whole rows. -/
theorem projectedScan_eq (ctx : ClientContext) (l : IcebergMultiFileList)
    (hids : ∀ id ∈ globalColumnIds, isRowIdColumn id ∨ id < (columnsOf ctx l).length)
    (hname : ¬ Selects (columnsOf ctx l) globalColumnIds "file_row_number")
    (hreads : ReadsFiles reader values (columnsOf ctx l) globalColumnIds files) (calls : List ScanCall) :
    projectedScan ctx reader globalColumnIds calls l = (initializeFiles ctx l).1.map fun _ =>
      (scan ctx files calls l).map fun out => out.1.map <| ScanAnswer.mapRows fun row =>
        project (columnsOf ctx l) globalColumnIds (values row.1) := by
  have hinitialized := initialized_after ctx l
  unfold projectedScan IcebergMultiFileList.bind
  unfold columnsOf at *
  rcases hinit : initializeFiles ctx l with ⟨e | u, l'⟩
  · rfl
  · rw [hinit] at hids hname hreads hinitialized
    dsimp only at hids hname hreads hinitialized ⊢
    obtain ⟨-, hstate⟩ | ⟨hselects, -⟩ := initializeGlobalState_cases hids
    · have hstep : (fun l c => scanVectors ctx reader
          ⟨bindColumns l'.snapshot.schema, globalColumnIds, addedState globalColumnIds⟩ c l) =
          fun l c => (((scanCall ctx files c l).1.1.map <| ScanAnswer.mapRows fun row =>
            project (bindColumns l'.snapshot.schema) globalColumnIds (values row.1)),
              (scanCall ctx files c l).1.2) := by
        funext l c
        exact scanVectors_eq ctx hids hreads c l
      have hscan : (scan ctx files calls l).map Prod.fst =
          Machine.answers (fun l c => (scanCall ctx files c l).1) l' calls := by
        rw [scan_map_fst]
        cases calls with
        | nil => rfl
        | cons c calls =>
          rw [Machine.answers, Machine.answers, scanCall_initializes hinit hinitialized]
      rw [hstate]
      show Except.ok _ = Except.ok _
      rw [show (⟨[.simple .bigint], some globalColumnIds.length⟩ :
        IcebergMultiFileReaderGlobalState) = addedState globalColumnIds from rfl, hstep,
        ← Machine.map_answers, ← hscan, List.map_map]
      rfl
    · exact absurd hselects hname

/-- **What is asked for does not change what is found.**  Two queries of the same files ask for different
columns.  From every state of the file list and for all calls, in any order and whatever is wrong with
the files: both throw the same, and else both are passed values of the same rows. -/
theorem projections_agree (ctx : ClientContext) (l : IcebergMultiFileList) {globalColumnIds' : List ℕ}
    (hids : ∀ id ∈ globalColumnIds ++ globalColumnIds', isRowIdColumn id ∨
      id < (columnsOf ctx l).length)
    (hname : ¬ Selects (columnsOf ctx l) (globalColumnIds ++ globalColumnIds') "file_row_number")
    (hreads : ReadsFiles reader values (columnsOf ctx l) globalColumnIds files)
    (hreads' : ReadsFiles reader values (columnsOf ctx l) globalColumnIds' files)
    (calls : List ScanCall) :
    (∃ e, projectedScan ctx reader globalColumnIds calls l = .error e ∧
        projectedScan ctx reader globalColumnIds' calls l = .error e) ∨
      ∃ outs : List (Except Error (ScanAnswer α)), ∀ asked ∈ [globalColumnIds, globalColumnIds'],
        projectedScan ctx reader asked calls l = .ok (outs.map fun out => out.map <|
          ScanAnswer.mapRows fun row => project (columnsOf ctx l) asked (values row)) := by
  have hscan := projectedScan_eq ctx l (fun id hid => hids id (List.mem_append_left _ hid))
    (fun hselects => hname (hselects.mono (List.subset_append_left _ _))) hreads calls
  have hscan' := projectedScan_eq ctx l (fun id hid => hids id (List.mem_append_right _ hid))
    (fun hselects => hname (hselects.mono (List.subset_append_right _ _))) hreads' calls
  cases hinit : (initializeFiles ctx l).1 with
  | error e =>
    rw [hinit] at hscan hscan'
    exact Or.inl ⟨e, hscan, hscan'⟩
  | ok u =>
    rw [hinit] at hscan hscan'
    refine Or.inr ⟨(scan ctx files calls l).map fun out => out.1.map (ScanAnswer.mapRows Prod.fst), ?_⟩
    have hout : ∀ asked, ((scan ctx files calls l).map fun out =>
          out.1.map (ScanAnswer.mapRows Prod.fst)).map (fun out => out.map <|
            ScanAnswer.mapRows fun row => project (columnsOf ctx l) asked (values row)) =
        (scan ctx files calls l).map fun out => out.1.map <| ScanAnswer.mapRows fun row =>
          project (columnsOf ctx l) asked (values row.1) := by
      intro asked
      rw [List.map_map]
      refine List.map_congr_left fun out _ => ?_
      rcases out with ⟨e | (_ | _ | rows), _⟩
      · rfl
      · rfl
      · rfl
      · exact congrArg (fun rows => Except.ok (ScanAnswer.rows rows)) (List.map_map ..)
    rw [List.forall_mem_cons, List.forall_mem_singleton, hout, hout]
    exact ⟨hscan, hscan'⟩

end IcebergMultiFileReader

/-! ### A stored table -/

namespace WrittenTable

open IcebergMultiFileReader

variable {ν : Type} [Inhabited ν] {bigint : ℤ → ν} {α : Type} {reader : DataFileReader ν bigint}
  {values : α → MultiFileReaderColumnDefinition → ν} {globalColumnIds : List ℕ} {w : WrittenTable α}
  {ctx : ClientContext} {path : String} {options : IcebergOptions} {files : DataFileScan (α × ℕ)}

/-- The rows that a call of the scan of a projection returns, if it returns. -/
def rowsPassed {β : Type} : Except Error (ScanAnswer β) → List β
  | .ok answer => answer.rowsOf
  | .error _ => []

theorem rowsPassed_map {β γ : Type} (f : β → γ)
    (out : Except Error (ScanAnswer β) × List OpenedFile) :
    rowsPassed (out.1.map (ScanAnswer.mapRows f)) = (rowsReturned out).map f := by
  rcases out with ⟨e | (_ | _ | _), _⟩ <;> rfl

/-- The columns that a stored table is bound with. -/
theorem Stored.columnsOf_eq (h : w.Stored ctx path options files) (hw : w.Valid)
    {o : Option WrittenSnapshot} (ho : w.Selected options o) :
    columnsOf ctx (ofPath path options) = bindColumns (w.columns options) ∧
      (initializeFiles ctx (ofPath path options)).1 = .ok () := by
  obtain ⟨l, types, hinit, hl⟩ := scanning_initialized (recorded_readable h hw ho)
  rw [columnsOf, hinit]
  refine ⟨?_, rfl⟩
  rw [hl.snapshot_eq]
  cases o <;> rfl

/-- **A projection of a table is read back.**  The options select a snapshot of a table that is stored,
and a query asks for any columns of it, in any order, none of them called `file_row_number`.  However
the threads of the scan take turns, as long as they ask for files one after the other and for every
chunk once, no call throws, and what the query is passed are the values of these columns in the rows of
the table at this snapshot. -/
theorem projected_read_back (hw : w.Valid) (h : w.Stored ctx path options files)
    {o : Option WrittenSnapshot} (ho : w.Selected options o)
    (hids : ∀ id ∈ globalColumnIds, isRowIdColumn id ∨ id < (w.columns options).length)
    (hname : ¬ Selects (bindColumns (w.columns options)) globalColumnIds "file_row_number")
    (hreads : ReadsFiles reader values (bindColumns (w.columns options)) globalColumnIds files)
    {calls : List ScanCall} (hcalls : Machine.Follows oneByOne 0 calls)
    (honce : (calls.filterMap (ScanCall.chunkOf (w.contents options o))).Perm
      (w.contents options o).chunkIds) :
    ∃ outs, projectedScan ctx reader globalColumnIds calls (ofPath path options) = .ok outs ∧
      (∀ out ∈ outs, out.isOk) ∧
      (outs.flatMap rowsPassed).Perm ((w.rowsAt o).map fun row =>
        project (bindColumns (w.columns options)) globalColumnIds (values row)) := by
  obtain ⟨hcolumns, hinit⟩ := h.columnsOf_eq hw ho
  have hreturns := h.returns hw ho
  have hlength : (bindColumns (w.columns options)).length = (w.columns options).length :=
    List.length_map _
  have hscan := projectedScan_eq ctx (ofPath path options) (by rwa [hcolumns, hlength])
    (by rwa [hcolumns]) (by rwa [hcolumns]) calls
  rw [hinit, hcolumns] at hscan
  refine ⟨_, hscan, fun out hout => ?_, ?_⟩
  · -- the scan of whole rows throws nowhere
    obtain ⟨out', hout', rfl⟩ := List.mem_map.1 hout
    have hmem : out'.1 ∈ (scan ctx files calls (ofPath path options)).map Prod.fst :=
      List.mem_map_of_mem hout'
    rw [hreturns.answers calls hcalls] at hmem
    obtain ⟨c, -, hc⟩ := List.mem_map.1 hmem
    rw [← hc]
    rfl
  · rw [List.flatMap_map]
    simp only [rowsPassed_map]
    have hrows := (hreturns.rows calls hcalls honce).map fun row =>
      project (bindColumns (w.columns options)) globalColumnIds (values row)
    rw [List.map_map, List.map_flatMap] at hrows
    exact hrows

end WrittenTable

namespace IcebergMultiFileReader

/-! ### Reading the table with two snapshots -/

section Fill

variable {ν : Type} [Inhabited ν] {bigint : ℤ → ν}

/-- The vectors of these rows of a file, filled as the mapping says. -/
def fillChunk (file : LocalFile ν bigint) (readerData : MultiFileReaderData ν) (positions : List ℕ) :
    VectorChunk ν where
  data := (List.range ((written readerData).map Prod.fst).sum.succ).map fun i =>
    .flat (positions.map fun pos => (source readerData i).elim default fun s => s.value file pos)
  size := positions.length

theorem filledFrom_fillChunk (file : LocalFile ν bigint) (readerData : MultiFileReaderData ν)
    (positions : List ℕ) : FilledFrom file readerData positions (fillChunk file readerData positions)
    where
  size := rfl
  values i s hs := by
    have hmem : i ∈ (written readerData).map Prod.fst := by
      by_contra hnot
      have hnone : (written readerData).reverse.lookup i = none := by
        refine lookup_eq_none fun e he heq => hnot ?_
        rw [← heq]
        exact List.mem_map_of_mem (List.mem_reverse.1 he)
      rw [source, hnone] at hs
      cases hs
    have hlt : i < ((written readerData).map Prod.fst).sum.succ :=
      Nat.lt_succ_of_le (List.single_le_sum (fun _ _ => Nat.zero_le _) i hmem)
    refine ⟨_, by rw [fillChunk, List.getElem?_map, List.getElem?_range hlt, Option.map_some], ?_⟩
    intro k hk
    show ((positions.map fun pos => (source readerData i).elim default fun s => s.value file pos).getD k
      default) = _
    rw [hs, List.getD_eq_getElem?_getD, List.getElem?_map, List.getElem?_eq_getElem hk]
    rfl

end Fill

end IcebergMultiFileReader

namespace WrittenTable

open IcebergMultiFileReader

/-- A data file with these numbers. -/
def numbersFile (values : List ℤ) : LocalFile ℤ id where
  columns := [⟨⟨"x", .simple .bigint, some 1⟩, fun pos => values.getD pos 0⟩,
    ⟨⟨"file_row_number", .simple .bigint, none⟩, fun pos => pos⟩]
  generated := 1
  generated_eq := rfl

/-- The data files of the table after the commit. -/
def numbersReader : DataFileReader ℤ id where
  openFile path :=
    match (numbersTable.commit numbersCommit).dataFiles.lookup path with
    | some chunks => .ok (numbersFile chunks.flatten)
    | none => .error (TableFiles.missing path)
  byFieldId := fieldIdMapping
  read path readerData :=
    match (numbersTable.commit numbersCommit).dataFiles.lookup path with
    | some chunks => .ok ((numberedFrom 0 chunks).map fun chunk =>
        fillChunk (numbersFile chunks.flatten) readerData (chunk.map Prod.snd))
    | none => .error (TableFiles.missing path)
  int64 := id

/-- The mapping of these columns fills them from every file. -/
def Mapped (globalColumnIds : List ℕ) : Prop :=
  ∀ values : List ℤ, ∃ base, fieldIdMapping (numbersFile values).localColumns
    (bindColumns [numbers 1 "x"]) globalColumnIds {} = .ok base ∧
      FillsProjection (numbersFile values) (bindColumns [numbers 1 "x"]) globalColumnIds
        (fun _ pos => values.getD pos 0) base

theorem numbersFile_reads (path : String) {chunks : List (List ℤ)} (hmapped : Mapped globalColumnIds)
    (hlookup : (numbersTable.commit numbersCommit).dataFiles.lookup path = some chunks) :
    ReadsFile numbersReader (fun x _ => x) (bindColumns [numbers 1 "x"]) globalColumnIds path
      (numbersFile chunks.flatten) (fun _ pos => chunks.flatten.getD pos 0) (numberedFrom 0 chunks) where
  shown := by
    rintro ⟨j, column, hj, hcolumn, -⟩
    have hlt : j < 2 := (List.getElem?_eq_some_iff.1 hcolumn).1
    have hone : 1 < j := hj
    omega
  values chunk hchunk row hrow _ := by
    have hmem : row ∈ (numberedFrom 0 chunks).flatten := List.mem_flatten.2 ⟨chunk, hchunk, hrow⟩
    rw [flatten_numberedFrom] at hmem
    rw [List.getD_eq_getElem?_getD, List.mem_zipIdx_iff_getElem?.1 hmem]
    rfl
  mapped := hmapped chunks.flatten
  read readerData := by
    refine ⟨(numberedFrom 0 chunks).map fun chunk =>
      fillChunk (numbersFile chunks.flatten) readerData (chunk.map Prod.snd), ?_, ?_⟩
    · unfold numbersReader
      dsimp only
      rw [hlookup]
    · rw [List.forall₂_map_right_iff, List.forall₂_same]
      exact fun chunk _ => filledFrom_fillChunk _ readerData _

theorem numbersReader_reads (hmapped : Mapped globalColumnIds) :
    ReadsFiles numbersReader (fun x _ => x) (bindColumns [numbers 1 "x"]) globalColumnIds numbersFiles
    where
  int64 _ := rfl
  rowId _ := rfl
  missing path e h := by
    unfold numbersFiles at h
    unfold numbersReader
    dsimp only at h ⊢
    cases hlookup : (numbersTable.commit numbersCommit).dataFiles.lookup path with
    | none =>
      rw [hlookup] at h
      exact congrArg Except.error (Except.error.inj h)
    | some chunks =>
      rw [hlookup] at h
      cases h
  reads path chunks h := by
    unfold numbersFiles at h
    dsimp only at h
    cases hlookup : (numbersTable.commit numbersCommit).dataFiles.lookup path with
    | none =>
      rw [hlookup] at h
      cases h
    | some chunks' =>
      rw [hlookup] at h
      obtain rfl := Except.ok.inj h
      refine ⟨_, _, ?_, numbersFile_reads path hmapped hlookup⟩
      unfold numbersReader
      dsimp only
      rw [hlookup]

/-- The column twice, and a row id. -/
def numbersIds : List ℕ := [0, invalidIndex, 0]

theorem numbersIds_mapped : Mapped numbersIds := by
  intro values
  refine ⟨{ columnIds := [0, 0], columnIndexes := [{ index := 0 }, { index := 0 }]
            columnMapping := [0, 2] }, rfl, rfl, by decide, List.forall_mem_nil _, ?_⟩
  intro i id column hi hrow hcolumn
  rcases i with _ | _ | _ | i
  · exact ⟨.column 0, rfl, rfl⟩
  · obtain rfl := Option.some.inj hi
    exact absurd rfl hrow
  · exact ⟨.column 0, rfl, rfl⟩
  · cases hi

/-- Only a row id, as a query that counts the rows asks for. -/
theorem rowIds_mapped : Mapped [invalidIndex] := by
  intro values
  refine ⟨{}, rfl, rfl, List.forall_mem_nil _, List.forall_mem_nil _, ?_⟩
  intro i id column hi hrow hcolumn
  obtain rfl := List.mem_singleton.1 (List.mem_of_getElem? hi)
  exact absurd rfl hrow

theorem numbers_selects (globalColumnIds : List ℕ) :
    ¬ Selects (bindColumns [numbers 1 "x"]) globalColumnIds "file_row_number" := by
  rintro ⟨globalId, -, hrow, column, hcolumn, hname⟩
  obtain rfl := List.mem_singleton.1 (List.mem_of_getElem? hcolumn)
  exact absurd hname (by decide)

/-- The column is read twice, from the rows that are left. -/
theorem projected_read_back_numbers :
    ∃ outs, projectedScan numbersContext numbersReader numbersIds numbersCalls
        (ofPath "s3://b/m.json" {}) = .ok outs ∧ (∀ out ∈ outs, out.isOk) ∧
      (outs.flatMap rowsPassed).Perm [[10, 10], [30, 30], [40, 40]] :=
  projected_read_back numbersCommit_valid (numbersCommit_stored rfl rfl) numbersCommit_selected
    (by decide) (numbers_selects _) (numbersReader_reads numbersIds_mapped) numbersCalls_follows
    (by decide)

/-- A query of the column twice and one that counts the rows. -/
theorem projections_agree_count :
    (∃ e, projectedScan numbersContext numbersReader numbersIds numbersCalls
          (ofPath "s3://b/m.json" {}) = .error e ∧
        projectedScan numbersContext numbersReader [invalidIndex] numbersCalls
          (ofPath "s3://b/m.json" {}) = .error e) ∨
      ∃ outs : List (Except Error (ScanAnswer ℤ)), ∀ asked ∈ [numbersIds, [invalidIndex]],
        projectedScan numbersContext numbersReader asked numbersCalls (ofPath "s3://b/m.json" {}) =
          .ok (outs.map fun out => out.map <| ScanAnswer.mapRows fun row =>
            project (columnsOf numbersContext (ofPath "s3://b/m.json" {})) asked fun _ => row) := by
  have hcolumns : columnsOf numbersContext (ofPath "s3://b/m.json" {}) =
      bindColumns [numbers 1 "x"] :=
    ((numbersCommit_stored rfl rfl).columnsOf_eq numbersCommit_valid numbersCommit_selected).1
  have hreads := numbersReader_reads numbersIds_mapped
  have hreads' := numbersReader_reads rowIds_mapped
  rw [← hcolumns] at hreads hreads'
  refine projections_agree numbersContext (ofPath "s3://b/m.json" {}) ?_ ?_ hreads hreads' numbersCalls
  · rw [hcolumns]
    decide
  · rw [hcolumns]
    exact numbers_selects _

end WrittenTable

end DuckIceberg
